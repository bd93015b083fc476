import MPQuic.Packer.StreamFramer

/-!
# What the framer does to shared frames

A STREAM frame carries bytes of a stream at their offsets and possibly the end of the stream: its
`items`. Frames are shared between packets and the retransmission queue and change when the framer
pops them. `Evolves` collects what the framer can do to frames that it shares with others, and
`popStreamFrames_evolves` and `popStreamFrames_frames` say what it returns: a first part of the
retransmission queue followed by new frames, such that everything that a frame lost in a split is in
a frame that was popped.
-/

namespace MPQuic

/-! ## Items -/

/-- A byte at an offset of a stream, or the end of a stream. -/
inductive StreamItem where
  | byte (streamID offset : ℕ) (value : UInt8)
  | fin (streamID offset : ℕ)
  deriving DecidableEq

/-- The bytes of a stream from an offset on. -/
def bytesAt (streamID : ℕ) : ℕ → List UInt8 → List StreamItem
  | _, [] => []
  | offset, b :: bs => .byte streamID offset b :: bytesAt streamID (offset + 1) bs

theorem bytesAt_append (streamID offset : ℕ) (xs ys : List UInt8) :
    bytesAt streamID offset (xs ++ ys) =
      bytesAt streamID offset xs ++ bytesAt streamID (offset + xs.length) ys := by
  induction xs generalizing offset with
  | nil => rfl
  | cons b xs ih =>
    rw [List.cons_append, bytesAt, bytesAt, ih, List.cons_append, List.length_cons]
    congr 3
    omega

namespace StreamFrame

/-- What a STREAM frame carries. -/
def items (f : StreamFrame) : List StreamItem :=
  bytesAt f.streamID f.offset f.data ++
    if f.finBit then [.fin f.streamID (f.offset + f.data.length)] else []

/-- The frame can be written and parsed: its fields are in the range of their types, and it carries
something. -/
structure Sendable (f : StreamFrame) : Prop where
  streamID_lt : f.streamID < 2 ^ 32
  end_lt : f.offset + f.data.length < 2 ^ 64
  carries : f.data ≠ [] ∨ f.finBit = true

end StreamFrame

namespace StreamFramer

open StreamFrame

variable {f : StreamFrame} {n : ℕ}

/-- A split frame carries the same as its two parts. -/
theorem items_split (hn : n ≤ f.data.length) :
    f.items = (splitHead f n).items ++ (splitTail f n).items := by
  have htake : (f.data.take n).length = n := List.length_take_of_le hn
  have hbytes : bytesAt f.streamID f.offset f.data =
      bytesAt f.streamID f.offset (f.data.take n) ++
        bytesAt f.streamID (f.offset + n) (f.data.drop n) := by
    conv_lhs => rw [← List.take_append_drop n f.data, bytesAt_append, htake]
  have hend : f.offset + n + (f.data.length - n) = f.offset + f.data.length := by omega
  simp [items, splitHead, splitTail, hbytes, hend]

theorem Sendable.splitHead (hf : f.Sendable) (hpos : 0 < n) (hn : n < f.data.length) :
    (splitHead f n).Sendable := by
  obtain ⟨hid, hend, -⟩ := hf
  refine ⟨hid, ?_, .inl ?_⟩
  · simp only [StreamFramer.splitHead, List.length_take]
    omega
  · exact List.ne_nil_of_length_pos (by simp only [StreamFramer.splitHead, List.length_take]; omega)

theorem Sendable.splitTail (hf : f.Sendable) (hn : n < f.data.length) :
    (splitTail f n).Sendable := by
  obtain ⟨hid, hend, -⟩ := hf
  refine ⟨hid, ?_, .inl ?_⟩
  · simp only [StreamFramer.splitTail, List.length_drop]
    omega
  · exact List.ne_nil_of_length_pos (by simp only [StreamFramer.splitTail, List.length_drop]; omega)

end StreamFramer

/-! ## How the heap evolves -/

/-- What the frames of a list of references carry. -/
def itemsOf (store : FrameStore) (refs : List FrameRef) : List StreamItem :=
  refs.flatMap fun ref => (store ref).items

theorem mem_itemsOf {store : FrameStore} {refs : List FrameRef} {x : StreamItem} :
    x ∈ itemsOf store refs ↔ ∃ ref ∈ refs, x ∈ (store ref).items :=
  List.mem_flatMap

/-- The changes to a heap while the frames `popped` are popped. -/
structure Evolves (heap heap' : FrameHeap) (popped : List FrameRef) : Prop where
  next_le : heap.next ≤ heap'.next
  popped_lt : ∀ ref ∈ popped, ref < heap'.next
  /-- A frame never carries more than before. -/
  shrinks : ∀ ref < heap.next, (heap'.get ref).items ⊆ (heap.get ref).items
  /-- What a frame does not carry any more is in a popped frame. -/
  keeps : ∀ ref < heap.next, ∀ x ∈ (heap.get ref).items,
    x ∈ (heap'.get ref).items ∨ x ∈ itemsOf heap'.get popped
  present : ∀ ref < heap.next, (heap.get ref).dataLenPresent → (heap'.get ref).dataLenPresent
  popped_present : ∀ ref ∈ popped, (heap'.get ref).dataLenPresent
  sendable : (∀ ref < heap.next, (heap.get ref).Sendable) →
    ∀ ref < heap'.next, (heap'.get ref).Sendable

namespace Evolves

variable {heap heap₁ heap₂ : FrameHeap} {popped popped₁ : List FrameRef} {ref : FrameRef}

theorem refl (heap : FrameHeap) : Evolves heap heap [] where
  next_le := le_rfl
  popped_lt := by simp
  shrinks := fun _ _ => List.Subset.refl _
  keeps := fun _ _ _ hx => .inl hx
  present := fun _ _ => id
  popped_present := by simp
  sendable := id

/-- A frame that is popped by others stays popped when the heap evolves further. -/
theorem keeps_itemsOf (h : Evolves heap heap₁ popped₁) (hpopped : ∀ ref ∈ popped, ref < heap.next)
    {x : StreamItem} (hx : x ∈ itemsOf heap.get popped) :
    x ∈ itemsOf heap₁.get (popped ++ popped₁) := by
  obtain ⟨ref, href, hx⟩ := mem_itemsOf.mp hx
  rcases h.keeps ref (hpopped ref href) x hx with hx | hx
  · exact mem_itemsOf.mpr ⟨ref, List.mem_append_left _ href, hx⟩
  · obtain ⟨ref, href, hx⟩ := mem_itemsOf.mp hx
    exact mem_itemsOf.mpr ⟨ref, List.mem_append_right _ href, hx⟩

theorem trans (h : Evolves heap heap₁ popped) (h₁ : Evolves heap₁ heap₂ popped₁) :
    Evolves heap heap₂ (popped ++ popped₁) where
  next_le := h.next_le.trans h₁.next_le
  popped_lt := List.forall_mem_append.mpr
    ⟨fun ref href => (h.popped_lt ref href).trans_le h₁.next_le, h₁.popped_lt⟩
  shrinks := fun ref href =>
    List.Subset.trans (h₁.shrinks ref (href.trans_le h.next_le)) (h.shrinks ref href)
  keeps := by
    intro ref href x hx
    rcases h.keeps ref href x hx with hx | hx
    · rcases h₁.keeps ref (href.trans_le h.next_le) x hx with hx | hx
      · exact .inl hx
      · obtain ⟨ref', href', hx⟩ := mem_itemsOf.mp hx
        exact .inr (mem_itemsOf.mpr ⟨ref', List.mem_append_right _ href', hx⟩)
    · exact .inr (h₁.keeps_itemsOf h.popped_lt hx)
  present := fun ref href hp =>
    h₁.present ref (href.trans_le h.next_le) (h.present ref href hp)
  popped_present := List.forall_mem_append.mpr
    ⟨fun ref href => h₁.present ref (h.popped_lt ref href) (h.popped_present ref href),
      h₁.popped_present⟩
  sendable := fun hs => h₁.sendable (h.sendable hs)

/-- A frame that is returned as it is. -/
theorem cons (h : Evolves heap heap₁ popped) (href : ref < heap.next)
    (hpresent : (heap.get ref).dataLenPresent) : Evolves heap heap₁ (ref :: popped) where
  next_le := h.next_le
  popped_lt := List.forall_mem_cons.mpr ⟨href.trans_le h.next_le, h.popped_lt⟩
  shrinks := h.shrinks
  keeps := by
    intro ref' href' x hx
    rcases h.keeps ref' href' x hx with hx | hx
    · exact .inl hx
    · obtain ⟨ref'', href'', hx⟩ := mem_itemsOf.mp hx
      exact .inr (mem_itemsOf.mpr ⟨ref'', List.mem_cons_of_mem _ href'', hx⟩)
  present := h.present
  popped_present := List.forall_mem_cons.mpr ⟨h.present ref href hpresent, h.popped_present⟩
  sendable := h.sendable

/-- Setting `DataLenPresent`. -/
theorem setPresent (heap : FrameHeap) (ref : FrameRef) :
    Evolves heap (heap.modify ref ({ · with dataLenPresent := true })) [] where
  next_le := le_rfl
  popped_lt := by simp
  shrinks := fun ref' _ =>
    CellHeap.get_modify_of_forall (p := fun f : StreamFrame => f.items ⊆ (heap.get ref').items) id
      (List.Subset.refl _)
  keeps := fun ref' _ x hx =>
    .inl (CellHeap.get_modify_of_forall (p := fun f : StreamFrame => x ∈ f.items) id hx)
  present := fun ref' _ hp =>
    CellHeap.get_modify_of_forall (p := fun f : StreamFrame => f.dataLenPresent = true)
      (fun _ => rfl) hp
  popped_present := by simp
  sendable := fun hs ref' href' =>
    CellHeap.get_modify_of_forall (p := StreamFrame.Sendable)
      (fun h => ⟨h.streamID_lt, h.end_lt, h.carries⟩) (hs ref' href')

/-- A new frame. -/
theorem alloc (heap : FrameHeap) {f : StreamFrame} (hpresent : f.dataLenPresent)
    (hf : f.Sendable) : Evolves heap (heap.alloc f).2 [heap.next] where
  next_le := Nat.le_succ _
  popped_lt := by simp
  shrinks := fun ref href => by
    rw [CellHeap.get_alloc_of_lt href]
    exact List.Subset.refl _
  keeps := fun ref href x hx => .inl (by rwa [CellHeap.get_alloc_of_lt href])
  present := fun ref href hp => by rwa [CellHeap.get_alloc_of_lt href]
  popped_present := by simpa using hpresent
  sendable := by
    intro hs ref href
    rcases Nat.lt_succ_iff_lt_or_eq.mp href with href | rfl
    · rw [CellHeap.get_alloc_of_lt href]
      exact hs ref href
    · rw [CellHeap.get_alloc_self]
      exact hf

/-- A frame that is split. -/
theorem split (heap : FrameHeap) {ref : FrameRef} {n : ℕ} (href : ref < heap.next) (hpos : 0 < n)
    (hn : n < (heap.get ref).data.length) (hpresent : (heap.get ref).dataLenPresent) :
    Evolves heap ((heap.modify ref (StreamFramer.splitTail · n)).alloc
      (StreamFramer.splitHead (heap.get ref) n)).2 [heap.next] := by
  set tail := heap.modify ref (StreamFramer.splitTail · n) with htail
  set heap' := (tail.alloc (StreamFramer.splitHead (heap.get ref) n)).2 with hheap'
  have hitems := StreamFramer.items_split hn.le
  have hhead : heap'.get heap.next = StreamFramer.splitHead (heap.get ref) n :=
    CellHeap.get_alloc_self
  have hself : heap'.get ref = StreamFramer.splitTail (heap.get ref) n := by
    rw [hheap', CellHeap.get_alloc_of_lt (h := tail) href, htail, CellHeap.get_modify_self]
  have hother : ∀ ref' < heap.next, ref' ≠ ref → heap'.get ref' = heap.get ref' := by
    intro ref' href' hne
    rw [hheap', CellHeap.get_alloc_of_lt (h := tail) href', htail, CellHeap.get_modify_of_ne hne]
  refine ⟨Nat.le_succ _, by simp [hheap', htail], ?_, ?_, ?_, ?_, ?_⟩
  · intro ref' href'
    by_cases hne : ref' = ref
    · rw [hne, hself, hitems]
      exact List.subset_append_right _ _
    · rw [hother ref' href' hne]
      exact List.Subset.refl _
  · -- the head is in the new frame, the tail in the old one
    intro ref' href' x hx
    by_cases hne : ref' = ref
    · rw [hne, hitems, List.mem_append] at hx
      rw [hne, hself]
      refine hx.symm.imp id fun hx => mem_itemsOf.mpr ⟨heap.next, List.mem_singleton_self _, ?_⟩
      rwa [hhead]
    · rw [hother ref' href' hne]
      exact .inl hx
  · intro ref' href' hp
    by_cases hne : ref' = ref
    · rw [hne, hself]
      exact hpresent
    · rwa [hother ref' href' hne]
  · rw [List.forall_mem_singleton, hhead]
    exact hpresent
  · intro hs ref' href'
    rcases Nat.lt_succ_iff_lt_or_eq.mp href' with href' | rfl
    · by_cases hne : ref' = ref
      · rw [hne, hself]
        exact StreamFramer.Sendable.splitTail (hs ref href) hn
      · rw [hother ref' href' hne]
        exact hs ref' href'
    · change (heap'.get heap.next).Sendable
      rw [hhead]
      exact StreamFramer.Sendable.splitHead (hs ref href) hpos hn

end Evolves

/-! ## Popping -/

namespace StreamFramer

/-- The frames that were popped are a first part of the queue, followed by new frames. -/
structure PopsFrom (queue : List FrameRef) (heap : FrameHeap) (frames queue' : List FrameRef)
    (heap' : FrameHeap) : Prop where
  evolves : Evolves heap heap' frames
  split : ∃ popped k, queue = popped ++ queue' ∧ frames = popped ++ List.range' heap.next k ∧
    heap'.next = heap.next + k

theorem PopsFrom.refl (queue : List FrameRef) (heap : FrameHeap) :
    PopsFrom queue heap [] queue heap :=
  ⟨.refl heap, [], 0, rfl, rfl, rfl⟩

theorem maybePopFramesForRetransmission_popsFrom (maxLen : ℕ) {queue : List FrameRef}
    (currentLen : ℕ) {heap : FrameHeap} (hqueue : ∀ ref ∈ queue, ref < heap.next) :
    let r := maybePopFramesForRetransmission maxLen queue currentLen heap
    PopsFrom queue heap r.frames r.retransmissionQueue r.heap := by
  induction queue generalizing currentLen heap with
  | nil => exact .refl [] heap
  | cons frame queue ih =>
    obtain ⟨hframe, hqueue⟩ := List.forall_mem_cons.mp hqueue
    have hset := Evolves.setPresent heap frame
    set heap₁ := heap.modify frame ({ · with dataLenPresent := true }) with hheap₁
    have hpresent : (heap₁.get frame).dataLenPresent = true := by simp [hheap₁]
    rw [maybePopFramesForRetransmission]
    dsimp only
    rw [← hheap₁]
    split_ifs with hroom
    · -- the frame stays in the queue, but has been told to carry its length
      exact ⟨hset, [], 0, rfl, rfl, rfl⟩
    · unfold maybeSplitOffFrame
      dsimp only
      split_ifs with hfits
      · have hlt : ∀ ref ∈ queue, ref < heap₁.next := hqueue
        obtain ⟨hevolves, popped, k, hq, hframes, hnext⟩ :=
          ih (currentLen + (heap₁.get frame).minLength + (heap₁.get frame).dataLen) hlt
        refine ⟨hset.trans (hevolves.cons hframe hpresent), frame :: popped, k, ?_, ?_, hnext⟩
        · rw [List.cons_append, ← hq]
        · rw [List.cons_append]
          exact congrArg (frame :: ·) hframes
      · -- the head goes into a new frame, and the frame in the queue keeps the tail
        refine ⟨hset.trans (Evolves.split heap₁ hframe ?_ ?_ hpresent), [], 1, rfl, rfl, rfl⟩
        · omega
        · exact not_le.mp hfits

/-- The data of a frame ends where the data of its stream does, or before. -/
theorem length_getDataForWriting_le (s : SendStream) (maxBytes : ℕ) :
    (s.getDataForWriting maxBytes).1.length ≤ s.dataForWriting.length := by
  unfold SendStream.getDataForWriting
  split_ifs
  · exact Nat.zero_le _
  · exact List.length_take_le' _ _

/-- A frame that is made of the data of a stream carries its length, and can be sent. -/
theorem visit_made {maxBytes currentLen : ℕ} {v : StreamVisit} (hv : v.stream.InRange)
    {f : StreamFrame} {s : SendStream} {blocked : Option BlockedFrame}
    (h : visit maxBytes currentLen v = .made f s blocked) :
    f.dataLenPresent = true ∧ f.Sendable := by
  have hend := hv.end_lt
  unfold visit at h
  dsimp only at h
  generalize (if v.stream.lenOfDataForWriting ≠ 0 then min _ _ else _ : ℕ) = maxLen at h
  have hdata : (if v.stream.lenOfDataForWriting ≠ 0 then v.stream.getDataForWriting maxLen
      else ([], v.stream)).1.length ≤ v.stream.dataForWriting.length := by
    split_ifs
    · exact length_getDataForWriting_le _ _
    · exact Nat.zero_le _
  generalize (if v.stream.lenOfDataForWriting ≠ 0 then v.stream.getDataForWriting maxLen
      else ([], v.stream)) = taken at h hdata
  split_ifs at h with _ _ _ hnothing
  all_goals
    obtain ⟨rfl, -, -⟩ := Visited.made.inj h
    refine ⟨rfl, hv.streamID_lt, ?_, ?_⟩
    · dsimp only
      omega
    · -- a frame without data is made for a FIN only
      rcases hempty : taken.1 with _ | ⟨b, bs⟩
      · right
        simpa [hempty] using hnothing
      · exact .inl (List.cons_ne_nil b bs)

/-- The frames of the streams are new. -/
theorem maybePopNormalFrames_evolves (maxBytes : ℕ) {visits : List StreamVisit}
    (hvisits : ∀ v ∈ visits, v.stream.InRange) (currentLen : ℕ) (heap : FrameHeap) :
    let r := maybePopNormalFrames maxBytes visits currentLen heap
    Evolves heap r.heap r.frames ∧
      ∃ k, r.frames = List.range' heap.next k ∧ r.heap.next = heap.next + k := by
  induction visits generalizing currentLen heap with
  | nil => exact ⟨.refl heap, 0, rfl, rfl⟩
  | cons v visits ih =>
    obtain ⟨hv, hvisits⟩ := List.forall_mem_cons.mp hvisits
    rw [maybePopNormalFrames]
    cases hvisit : visit maxBytes currentLen v with
    | stopped => exact ⟨.refl heap, 0, rfl, rfl⟩
    | skipped s => exact ih hvisits currentLen heap
    | made f s blocked =>
      obtain ⟨hpresent, hf⟩ := visit_made hv hvisit
      have halloc := Evolves.alloc heap hpresent hf
      dsimp only
      split_ifs
      · exact ⟨halloc, 1, rfl, rfl⟩
      · obtain ⟨hevolves, k, hframes, hnext⟩ :=
          ih hvisits (currentLen + (f.minLength + f.dataLen)) (heap.alloc f).2
        refine ⟨halloc.trans hevolves, k + 1, ?_, ?_⟩
        · rw [List.range'_succ]
          exact congrArg (heap.next :: ·) hframes
        · rw [hnext, CellHeap.next_alloc]
          omega

theorem popStreamFrames_popsFrom {s : StreamFramer} {heap : FrameHeap} (maxLen : ℕ)
    {visits : List StreamVisit} (hqueue : ∀ ref ∈ s.retransmissionQueue, ref < heap.next)
    (hvisits : ∀ v ∈ visits, v.stream.InRange) :
    let r := s.popStreamFrames maxLen visits heap
    PopsFrom s.retransmissionQueue heap r.frames r.framer.retransmissionQueue r.heap := by
  obtain ⟨hrtx, popped, k, hq, hframes, hnext⟩ :=
    maybePopFramesForRetransmission_popsFrom maxLen 0 hqueue
  set fs := maybePopFramesForRetransmission maxLen s.retransmissionQueue 0 heap with hfs
  obtain ⟨hnormal, k', hframes', hnext'⟩ :=
    maybePopNormalFrames_evolves (maxLen - fs.currentLen) hvisits 0 fs.heap
  refine ⟨hrtx.trans hnormal, popped, k + k', hq, ?_, ?_⟩
  · change fs.frames ++ _ = _
    rw [hframes, hframes', hnext, List.append_assoc, List.range'_append_1]
  · change (maybePopNormalFrames _ _ _ _).heap.next = _
    rw [hnext', hnext]
    omega

end StreamFramer

end MPQuic
