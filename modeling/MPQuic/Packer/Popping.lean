import MPQuic.Packer.StreamFramer

/-!
# The frames of one packet

What `PopStreamFrames` returns, in terms of the frames themselves.

* `Refines`: the frames that were queued for retransmission are popped in order, and at most one of
  them is split into a head, which is popped, and a tail, which stays in the queue.
* `Made`: the new frames, one for each stream that has something to send.
* `popStreamFrames_spec`: both together, and that the frames fit.

This needs that no frame is queued twice: a split would change the frame that was already popped.
-/

namespace MPQuic

/-- The number of bytes of a frame in a packet. -/
def StreamFrame.wireLen (f : StreamFrame) : ℕ := f.minLength + f.dataLen

/-- The number of bytes of some frames in a packet. -/
def wireLens (fs : List StreamFrame) : ℕ := (fs.map StreamFrame.wireLen).sum

@[simp]
theorem wireLens_nil : wireLens [] = 0 := rfl

@[simp]
theorem wireLens_cons (f : StreamFrame) (fs : List StreamFrame) :
    wireLens (f :: fs) = f.wireLen + wireLens fs := by
  simp [wireLens]

@[simp]
theorem wireLens_append (fs gs : List StreamFrame) :
    wireLens (fs ++ gs) = wireLens fs + wireLens gs := by
  simp [wireLens]

namespace StreamFramer

/-! ## Retransmissions -/

/-- Frames `gs` that carry the same as the frames `fs`: some of them were split. -/
inductive Refines : List StreamFrame → List StreamFrame → Prop
  | nil : Refines [] []
  | same {f : StreamFrame} {fs gs : List StreamFrame} (dataLenPresent : Bool) :
    Refines fs gs → Refines (f :: fs) ({ f with dataLenPresent } :: gs)
  | split {f : StreamFrame} {fs gs : List StreamFrame} {n : ℕ} : 0 < n → n < f.dataLen →
    Refines fs gs → Refines (f :: fs) (splitHead { f with dataLenPresent := true } n ::
      splitTail { f with dataLenPresent := true } n :: gs)

namespace Refines

theorem refl (fs : List StreamFrame) : Refines fs fs := by
  induction fs with
  | nil => exact .nil
  | cons f fs ih => exact .same f.dataLenPresent ih

theorem append_left (es : List StreamFrame) {fs gs : List StreamFrame} (h : Refines fs gs) :
    Refines (es ++ fs) (es ++ gs) := by
  induction es with
  | nil => exact h
  | cons e es ih => exact .same e.dataLenPresent ih

/-- Whether a frame carries its length does not matter. -/
theorem of_present {f : StreamFrame} {fs gs : List StreamFrame}
    (h : Refines ({ f with dataLenPresent := true } :: fs) gs) : Refines (f :: fs) gs := by
  cases h with
  | same dataLenPresent h => exact .same dataLenPresent h
  | split hpos hlt h => exact .split hpos hlt h

end Refines

/-- What popping frames from the retransmission queue does. -/
structure Retransmits (maxLen : ℕ) (queue : List FrameRef) (currentLen : ℕ) (heap : FrameHeap)
    (r : Retransmissions) : Prop where
  refines : Refines (queue.map heap.get)
    (r.frames.map r.heap.get ++ r.retransmissionQueue.map r.heap.get)
  len_eq : r.currentLen = currentLen + wireLens (r.frames.map r.heap.get)
  len_le : currentLen ≤ maxLen → r.currentLen ≤ maxLen
  next_le : heap.next ≤ r.heap.next
  frames_lt : ∀ ref ∈ r.frames, ref < r.heap.next
  queue_sub : r.retransmissionQueue <:+ queue
  queue_mem : ∀ ref ∈ queue, ref ∈ r.frames ∨ ref ∈ r.retransmissionQueue
  frames_not_mem : ∀ ref ∈ r.frames, ref ∉ r.retransmissionQueue
  present : ∀ ref ∈ r.frames, (r.heap.get ref).dataLenPresent = true
  others : ∀ ref < heap.next, ref ∉ queue → r.heap.get ref = heap.get ref

namespace Retransmits

variable {maxLen currentLen n : ℕ} {frame : FrameRef} {queue : List FrameRef} {heap : FrameHeap}
  {r : Retransmissions}

/-- Nothing is popped. -/
theorem stop (maxLen : ℕ) (queue : List FrameRef) (currentLen : ℕ) (heap : FrameHeap) :
    Retransmits maxLen queue currentLen heap
      { frames := [], currentLen, retransmissionQueue := queue, heap } where
  refines := .refl _
  len_eq := rfl
  len_le := id
  next_le := le_rfl
  frames_lt := fun _ href => absurd href List.not_mem_nil
  queue_sub := List.suffix_refl _
  queue_mem := fun _ => .inr
  frames_not_mem := fun _ href => absurd href List.not_mem_nil
  present := fun _ href => absurd href List.not_mem_nil
  others := fun _ _ _ => rfl

/-- The first frame is told to carry its length before it is looked at. -/
theorem of_setPresent (hnot : frame ∉ queue)
    (h : Retransmits maxLen (frame :: queue) currentLen
      (heap.modify frame ({ · with dataLenPresent := true })) r) :
    Retransmits maxLen (frame :: queue) currentLen heap r where
  refines := by
    refine .of_present ?_
    have hrefines := h.refines
    rwa [List.map_cons, CellHeap.get_modify_self, CellHeap.map_get_modify hnot] at hrefines
  len_eq := h.len_eq
  len_le := h.len_le
  next_le := h.next_le
  frames_lt := h.frames_lt
  queue_sub := h.queue_sub
  queue_mem := h.queue_mem
  frames_not_mem := h.frames_not_mem
  present := h.present
  others := by
    intro ref href hmem
    rw [h.others ref href hmem]
    exact CellHeap.get_modify_of_ne fun heq => hmem (heq ▸ List.mem_cons_self)

/-- The first frame is popped as it is. -/
theorem cons (hframe : frame < heap.next) (hnot : frame ∉ queue)
    (hpresent : (heap.get frame).dataLenPresent = true)
    (hroom : currentLen + (heap.get frame).wireLen ≤ maxLen)
    (h : Retransmits maxLen queue (currentLen + (heap.get frame).wireLen) heap r) :
    Retransmits maxLen (frame :: queue) currentLen heap
      { r with frames := frame :: r.frames } := by
  -- later frames are other frames
  have hvalue : r.heap.get frame = heap.get frame := h.others frame hframe hnot
  refine
    { refines := ?_, len_eq := ?_, len_le := fun _ => h.len_le hroom, next_le := h.next_le
      frames_lt := ?_, queue_sub := h.queue_sub.trans (List.suffix_cons _ _), queue_mem := ?_
      frames_not_mem := ?_, present := ?_, others := ?_ }
  · rw [List.map_cons, List.map_cons, List.cons_append, hvalue]
    exact .same (heap.get frame).dataLenPresent h.refines
  · rw [List.map_cons, wireLens_cons, hvalue, ← Nat.add_assoc]
    exact h.len_eq
  · exact List.forall_mem_cons.mpr ⟨Nat.lt_of_lt_of_le hframe h.next_le, h.frames_lt⟩
  · exact List.forall_mem_cons.mpr ⟨.inl List.mem_cons_self, fun ref href =>
      (h.queue_mem ref href).imp_left (List.mem_cons_of_mem _)⟩
  · exact List.forall_mem_cons.mpr ⟨fun hmem => hnot (h.queue_sub.subset hmem), h.frames_not_mem⟩
  · exact List.forall_mem_cons.mpr ⟨hvalue ▸ hpresent, h.present⟩
  · exact fun ref href hmem => h.others ref href fun hq => hmem (List.mem_cons_of_mem _ hq)

/-- The head of the first frame goes into a new frame, and the frame in the queue keeps the
tail. -/
theorem split (hframe : frame < heap.next) (hnot : frame ∉ queue)
    (hqueue : ∀ ref ∈ queue, ref < heap.next) (hpresent : (heap.get frame).dataLenPresent = true)
    (hpos : 0 < n) (hlt : n < (heap.get frame).dataLen)
    (hroom : currentLen + (heap.get frame).minLength + n ≤ maxLen) :
    let heap' := ((heap.modify frame (splitTail · n)).alloc (splitHead (heap.get frame) n)).2
    Retransmits maxLen (frame :: queue) currentLen heap
      { frames := [heap.next]
        currentLen := currentLen + (heap.get frame).minLength + (heap'.get heap.next).dataLen
        retransmissionQueue := frame :: queue
        heap := heap' } := by
  dsimp only
  set heap₁ := heap.modify frame (splitTail · n) with hheap₁
  set heap₂ := (heap₁.alloc (splitHead (heap.get frame) n)).2 with hheap₂
  have hhead : heap₂.get heap.next = splitHead (heap.get frame) n := CellHeap.get_alloc_self
  have htail : heap₂.get frame = splitTail (heap.get frame) n :=
    (CellHeap.get_alloc_of_lt (h := heap₁) hframe).trans CellHeap.get_modify_self
  have hrest : queue.map heap₂.get = queue.map heap.get :=
    (CellHeap.map_get_alloc (h := heap₁) hqueue).trans (CellHeap.map_get_modify hnot)
  have hlen : (splitHead (heap.get frame) n).dataLen = n :=
    List.length_take_of_le (Nat.le_of_lt hlt)
  have hsame : heap.get frame = { heap.get frame with dataLenPresent := true } := by
    rw [← hpresent]
  refine
    { refines := ?_, len_eq := ?_, len_le := ?_, next_le := Nat.le_succ _
      frames_lt := ?_, queue_sub := List.suffix_refl _, queue_mem := fun _ => .inr
      frames_not_mem := ?_, present := ?_, others := fun ref href hmem => ?_ }
  · rw [List.map_singleton, List.map_cons, List.map_cons, hhead, htail, hrest]
    have hsplit := Refines.split (f := heap.get frame) hpos hlt (.refl (queue.map heap.get))
    rwa [← hsame] at hsplit
  · rw [List.map_singleton, hhead, wireLens_cons, wireLens_nil, StreamFrame.wireLen]
    exact Nat.add_assoc _ _ _
  · intro _
    rw [hhead, hlen]
    exact hroom
  · exact List.forall_mem_singleton.mpr (Nat.lt_succ_self _)
  · refine List.forall_mem_singleton.mpr fun hmem => ?_
    rcases List.mem_cons.mp hmem with heq | hmem
    · exact absurd heq (Nat.ne_of_gt hframe)
    · exact absurd (hqueue _ hmem) (Nat.lt_irrefl _)
  · refine List.forall_mem_singleton.mpr ?_
    rw [hhead]
    exact hpresent
  · rw [hheap₂, CellHeap.get_alloc_of_lt (h := heap₁) href, hheap₁]
    exact CellHeap.get_modify_of_ne fun heq => hmem (heq ▸ List.mem_cons_self)

end Retransmits

theorem maybePopFramesForRetransmission_spec (maxLen : ℕ) {queue : List FrameRef}
    (currentLen : ℕ) {heap : FrameHeap} (hnodup : queue.Nodup)
    (hqueue : ∀ ref ∈ queue, ref < heap.next) :
    Retransmits maxLen queue currentLen heap
      (maybePopFramesForRetransmission maxLen queue currentLen heap) := by
  induction queue generalizing currentLen heap with
  | nil => exact .stop maxLen [] currentLen heap
  | cons frame queue ih =>
    obtain ⟨hframe, hqueue⟩ := List.forall_mem_cons.mp hqueue
    obtain ⟨hnot, hnodup⟩ := List.nodup_cons.mp hnodup
    rw [maybePopFramesForRetransmission]
    refine Retransmits.of_setPresent hnot ?_
    set heap₁ := heap.modify frame ({ · with dataLenPresent := true }) with hheap₁
    have hpresent : (heap₁.get frame).dataLenPresent = true := by simp [hheap₁]
    dsimp only
    split_ifs with hroom
    · exact .stop _ _ _ _
    · unfold maybeSplitOffFrame
      dsimp only
      split_ifs with hfits
      · rw [Nat.add_assoc]
        refine Retransmits.cons hframe hnot hpresent ?_ (ih _ hnodup hqueue)
        unfold StreamFrame.wireLen
        omega
      · refine Retransmits.split hframe hnot hqueue hpresent ?_ (not_le.mp hfits) ?_
        · omega
        · omega

/-! ## New frames -/

/-- What a new frame takes from its stream. -/
structure Takes (v : StreamVisit) (f : StreamFrame) (s : SendStream) : Prop where
  streamID_ne : v.stream.streamID ≠ 1
  failed : v.stream.failed = false
  frame_streamID : f.streamID = v.stream.streamID
  present : f.dataLenPresent = true
  offset : f.offset = v.stream.writeOffset
  data : f.data <+: v.stream.dataForWriting
  stream_eq : s =
    { v.stream with
      writeOffset := v.stream.writeOffset + f.dataLen
      dataForWriting := v.stream.dataForWriting.drop f.dataLen
      finSent := v.stream.finSent || f.finBit }
  fin : f.finBit = true → v.stream.finishedWriting = true ∧ v.stream.finSent = false ∧
    v.stream.dataForWriting.drop f.dataLen = []
  carries : f.data ≠ [] ∨ f.finBit = true
  window : f.dataLen ≤ v.sendWindowSize

/-- The data that a stream gives when there is room for some. -/
theorem getData_spec (v : StreamVisit) (room : ℕ) :
    let maxLen := if v.stream.lenOfDataForWriting ≠ 0 then min room v.sendWindowSize else room
    let taken := if v.stream.lenOfDataForWriting ≠ 0 then v.stream.getDataForWriting maxLen
      else ([], v.stream)
    maxLen ≠ 0 → taken.1 <+: v.stream.dataForWriting ∧ taken.1.length ≤ room ∧
      taken.1.length ≤ v.sendWindowSize ∧
      (taken.1 ≠ [] → v.stream.failed = false) ∧
      taken.2 = { v.stream with
        writeOffset := v.stream.writeOffset + taken.1.length
        dataForWriting := v.stream.dataForWriting.drop taken.1.length } := by
  dsimp only
  intro hpos
  by_cases hlen : v.stream.lenOfDataForWriting ≠ 0
  · have hfailed : v.stream.failed = false := by
      by_contra hfailed
      simp [SendStream.lenOfDataForWriting, hfailed] at hlen
    rw [if_pos hlen] at hpos
    rw [if_pos hlen, if_pos hlen, SendStream.getDataForWriting, if_neg (by simp [hfailed])]
    refine ⟨List.take_prefix _ _, ?_, ?_, fun _ => hfailed, ?_⟩
    · exact (List.length_take_le _ _).trans (min_le_left _ _)
    · exact (List.length_take_le _ _).trans (min_le_right _ _)
    · dsimp only
      rw [List.length_take, List.drop_eq_drop_min]
  · rw [if_neg hlen]
    exact ⟨List.nil_prefix, Nat.zero_le _, Nat.zero_le _, fun h => absurd rfl h, rfl⟩

/-- What the framer does at a stream. A stream without a new frame is left as it is. -/
theorem visit_spec (maxBytes currentLen : ℕ) (v : StreamVisit) :
    match visit maxBytes currentLen v with
    | .skipped s => s = v.stream
    | .stopped => True
    | .made f s _ => Takes v f s ∧ currentLen + f.wireLen ≤ maxBytes := by
  unfold visit
  dsimp only
  by_cases hid : v.stream.streamID = 1
  · rw [if_pos hid]
  rw [if_neg hid]
  set header : ℕ := StreamFrame.minLength _ with hheader
  by_cases hroom : maxBytes < currentLen + header
  · rw [if_pos hroom]
    trivial
  rw [if_neg hroom]
  have hdata := getData_spec v (maxBytes - currentLen - header)
  dsimp only at hdata
  set maxLen : ℕ := if v.stream.lenOfDataForWriting ≠ 0 then _ else _
  by_cases hpos : maxLen = 0
  · rw [if_pos hpos]
  rw [if_neg hpos]
  obtain ⟨hpre, hlen, hwindow, hfailed, hstream⟩ := hdata hpos
  set taken : List UInt8 × SendStream := if v.stream.lenOfDataForWriting ≠ 0 then _ else _
  by_cases hnothing : (taken.1.isEmpty && !taken.2.shouldSendFin) = true
  · rw [if_pos hnothing]
    obtain ⟨hempty, -⟩ := Bool.and_eq_true_iff.mp hnothing
    rw [List.isEmpty_iff] at hempty
    rw [hstream, hempty]
    rfl
  rw [if_neg hnothing]
  have hshould : taken.2.shouldSendFin = (v.stream.finishedWriting && !v.stream.finSent &&
      !v.stream.failed && (v.stream.dataForWriting.drop taken.1.length).isEmpty) := by
    rw [hstream]
    rfl
  have hcarries : taken.1 ≠ [] ∨ taken.2.shouldSendFin = true := by
    by_contra hnot
    rw [not_or, not_not] at hnot
    simp [hnot] at hnothing
  refine ⟨⟨hid, ?_, rfl, rfl, rfl, hpre, ?_, ?_, hcarries, hwindow⟩, ?_⟩
  · rcases hcarries with hne | hfin
    · exact hfailed hne
    · simp only [hshould, Bool.and_eq_true, Bool.not_eq_true'] at hfin
      exact hfin.1.2
  · cases hfin : taken.2.shouldSendFin with
    | true =>
      rw [if_pos rfl, SendStream.sentFin, hstream, Bool.or_true]
      rfl
    | false =>
      rw [if_neg (by decide), hstream, Bool.or_false]
      rfl
  · intro hfin
    simp only [hshould, Bool.and_eq_true, Bool.not_eq_true', List.isEmpty_iff] at hfin
    exact ⟨hfin.1.1.1, hfin.1.1.2, hfin.2⟩
  · have hwire : StreamFrame.wireLen
        { streamID := v.stream.streamID, finBit := taken.2.shouldSendFin, dataLenPresent := true,
          offset := v.stream.writeOffset, data := taken.1 } = header + taken.1.length := rfl
    rw [hwire]
    omega

/-- The new frames of a packet and the streams after it. The streams after the last frame are not
visited, or have nothing to send. -/
inductive Made (maxBytes : ℕ) : ℕ → List StreamVisit → List StreamFrame → List SendStream → Prop
  | done (currentLen : ℕ) (visits : List StreamVisit) :
    Made maxBytes currentLen visits [] (visits.map (·.stream))
  | skip {currentLen : ℕ} {v : StreamVisit} {visits : List StreamVisit} {fs : List StreamFrame}
      {ss : List SendStream} :
    Made maxBytes currentLen visits fs ss →
      Made maxBytes currentLen (v :: visits) fs (v.stream :: ss)
  | make {currentLen : ℕ} {v : StreamVisit} {visits : List StreamVisit} {f : StreamFrame}
      {s : SendStream} {fs : List StreamFrame} {ss : List SendStream} :
    Takes v f s → currentLen + f.wireLen ≤ maxBytes →
      Made maxBytes (currentLen + f.wireLen) visits fs ss →
      Made maxBytes currentLen (v :: visits) (f :: fs) (s :: ss)

theorem Made.wireLens_le {maxBytes currentLen : ℕ} {visits : List StreamVisit}
    {fs : List StreamFrame} {ss : List SendStream} (h : Made maxBytes currentLen visits fs ss)
    (hle : currentLen ≤ maxBytes) : currentLen + wireLens fs ≤ maxBytes := by
  induction h with
  | done => exact hle
  | skip _ ih => exact ih hle
  | make _ hroom _ ih =>
    rw [wireLens_cons, ← Nat.add_assoc]
    exact ih hroom

/-- New frames carry their length. -/
theorem Made.present {maxBytes currentLen : ℕ} {visits : List StreamVisit}
    {fs : List StreamFrame} {ss : List SendStream} (h : Made maxBytes currentLen visits fs ss) :
    ∀ f ∈ fs, f.dataLenPresent = true := by
  induction h with
  | done => exact fun _ hf => absurd hf List.not_mem_nil
  | skip _ ih => exact ih
  | make htakes _ _ ih => exact List.forall_mem_cons.mpr ⟨htakes.present, ih⟩

/-- What making new frames does. -/
structure Makes (maxBytes : ℕ) (visits : List StreamVisit) (currentLen : ℕ) (heap : FrameHeap)
    (r : NormalFrames) : Prop where
  made : Made maxBytes currentLen visits (r.frames.map r.heap.get) r.streams
  next_le : heap.next ≤ r.heap.next
  frames_ge : ∀ ref ∈ r.frames, heap.next ≤ ref
  frames_lt : ∀ ref ∈ r.frames, ref < r.heap.next
  others : ∀ ref < heap.next, r.heap.get ref = heap.get ref

theorem maybePopNormalFrames_spec (maxBytes : ℕ) (visits : List StreamVisit) (currentLen : ℕ)
    (heap : FrameHeap) :
    Makes maxBytes visits currentLen heap
      (maybePopNormalFrames maxBytes visits currentLen heap) := by
  induction visits generalizing currentLen heap with
  | nil => exact ⟨.done _ _, le_rfl, by simp [maybePopNormalFrames], by simp [maybePopNormalFrames],
      fun _ _ => rfl⟩
  | cons v visits ih =>
    have hspec := visit_spec maxBytes currentLen v
    rw [maybePopNormalFrames]
    cases hvisit : visit maxBytes currentLen v with
    | stopped => exact ⟨.done _ _, le_rfl, by simp, by simp, fun _ _ => rfl⟩
    | skipped s =>
      have h := ih currentLen heap
      rw [hvisit] at hspec
      subst hspec
      exact ⟨.skip h.made, h.next_le, h.frames_ge, h.frames_lt, h.others⟩
    | made f s blocked =>
      rw [hvisit] at hspec
      obtain ⟨htakes, hroom⟩ := hspec
      have hself : (heap.alloc f).2.get heap.next = f := CellHeap.get_alloc_self
      dsimp only
      split_ifs
      · refine ⟨?_, Nat.le_succ _, ?_, ?_, fun ref href => CellHeap.get_alloc_of_lt href⟩
        · rw [List.map_singleton]
          change Made _ _ _ [(heap.alloc f).2.get heap.next] _
          rw [hself]
          exact .make htakes hroom (.done _ _)
        · exact List.forall_mem_singleton.mpr le_rfl
        · exact List.forall_mem_singleton.mpr (Nat.lt_succ_self _)
      · have h := ih (currentLen + (f.minLength + f.dataLen)) (heap.alloc f).2
        generalize maybePopNormalFrames maxBytes visits _ _ = r at h
        have hvalue : r.heap.get heap.next = f := (h.others _ (Nat.lt_succ_self _)).trans hself
        refine ⟨?_, Nat.le_of_succ_le h.next_le, ?_, ?_, fun ref href => ?_⟩
        · rw [List.map_cons]
          change Made _ _ _ (r.heap.get heap.next :: _) _
          rw [hvalue]
          exact .make htakes hroom h.made
        · exact List.forall_mem_cons.mpr
            ⟨le_rfl, fun ref href => Nat.le_of_succ_le (h.frames_ge ref href)⟩
        · exact List.forall_mem_cons.mpr ⟨h.next_le, h.frames_lt⟩
        · exact (h.others ref (Nat.lt_succ_of_lt href)).trans (CellHeap.get_alloc_of_lt href)

/-! ## All frames of a packet -/

/-- What popping the STREAM frames of a packet does: `old` are retransmissions and `new` are new
frames. -/
structure Pops (queue : List FrameRef) (maxLen : ℕ) (visits : List StreamVisit) (heap : FrameHeap)
    (r : StreamFrames) (old new : List FrameRef) : Prop where
  frames_eq : r.frames = old ++ new
  refines : Refines (queue.map heap.get)
    (old.map r.heap.get ++ r.framer.retransmissionQueue.map r.heap.get)
  made : Made (maxLen - wireLens (old.map r.heap.get)) 0 visits (new.map r.heap.get) r.streams
  len_le : wireLens (r.frames.map r.heap.get) ≤ maxLen
  next_le : heap.next ≤ r.heap.next
  frames_lt : ∀ ref ∈ r.frames, ref < r.heap.next
  queue_sub : r.framer.retransmissionQueue <:+ queue
  queue_mem : ∀ ref ∈ queue, ref ∈ old ∨ ref ∈ r.framer.retransmissionQueue
  frames_not_mem : ∀ ref ∈ r.frames, ref ∉ r.framer.retransmissionQueue
  present : ∀ ref ∈ r.frames, (r.heap.get ref).dataLenPresent = true
  others : ∀ ref < heap.next, ref ∉ queue → r.heap.get ref = heap.get ref

theorem popStreamFrames_spec {s : StreamFramer} (maxLen : ℕ) (visits : List StreamVisit)
    {heap : FrameHeap} (hnodup : s.retransmissionQueue.Nodup)
    (hqueue : ∀ ref ∈ s.retransmissionQueue, ref < heap.next) :
    ∃ new, Pops s.retransmissionQueue maxLen visits heap (s.popStreamFrames maxLen visits heap)
      (maybePopFramesForRetransmission maxLen s.retransmissionQueue 0 heap).frames new := by
  have hold := maybePopFramesForRetransmission_spec maxLen 0 hnodup hqueue
  unfold popStreamFrames
  dsimp only
  generalize maybePopFramesForRetransmission maxLen s.retransmissionQueue 0 heap = fs at hold
  have hnew := maybePopNormalFrames_spec (maxLen - fs.currentLen) visits 0 fs.heap
  generalize maybePopNormalFrames (maxLen - fs.currentLen) visits 0 fs.heap = r at hnew
  -- the new frames leave the frames that were popped, and those that stay queued, alone
  have hframes : fs.frames.map r.heap.get = fs.frames.map fs.heap.get :=
    List.map_congr_left fun ref href => hnew.others ref (hold.frames_lt ref href)
  have hleft : ∀ ref ∈ fs.retransmissionQueue, ref < fs.heap.next := fun ref href =>
    Nat.lt_of_lt_of_le (hqueue ref (hold.queue_sub.subset href)) hold.next_le
  have hstay : fs.retransmissionQueue.map r.heap.get = fs.retransmissionQueue.map fs.heap.get :=
    List.map_congr_left fun ref href => hnew.others ref (hleft ref href)
  have hlen : fs.currentLen = wireLens (fs.frames.map r.heap.get) := by
    rw [hframes, hold.len_eq, Nat.zero_add]
  refine ⟨r.frames, ?_⟩
  refine
    { frames_eq := rfl, refines := ?_, made := ?_, len_le := ?_
      next_le := hold.next_le.trans hnew.next_le, frames_lt := ?_, queue_sub := hold.queue_sub
      queue_mem := hold.queue_mem, frames_not_mem := ?_, present := ?_
      others := fun ref href hmem => ?_ }
  · rw [hframes, hstay]
    exact hold.refines
  · rw [← hlen]
    exact hnew.made
  · have hle := hold.len_le (Nat.zero_le _)
    have hle' := hnew.made.wireLens_le (Nat.zero_le _)
    change wireLens ((fs.frames ++ r.frames).map r.heap.get) ≤ maxLen
    rw [List.map_append, wireLens_append, ← hlen]
    omega
  · exact List.forall_mem_append.mpr
      ⟨fun ref href => Nat.lt_of_lt_of_le (hold.frames_lt ref href) hnew.next_le, hnew.frames_lt⟩
  · refine List.forall_mem_append.mpr ⟨hold.frames_not_mem, fun ref href hmem => ?_⟩
    exact absurd (hleft ref hmem) (Nat.not_lt_of_le (hnew.frames_ge ref href))
  · refine List.forall_mem_append.mpr ⟨fun ref href => ?_, fun ref href => ?_⟩
    · change (r.heap.get ref).dataLenPresent = true
      rw [hnew.others ref (hold.frames_lt ref href)]
      exact hold.present ref href
    · exact hnew.made.present _ (List.mem_map_of_mem href)
  · rw [hnew.others ref (Nat.lt_of_lt_of_le href hold.next_le)]
    exact hold.others ref href hmem

end StreamFramer

end MPQuic
