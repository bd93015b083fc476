import MPQuic.Lib.KeyedList
import MPQuic.Lib.Transition
import MPQuic.Packer.Popping

/-!
# The framer partitions the streams

Over every sequence of writes, closes, `PopStreamFrames` and `AddFrameForRetransmission` calls, the
new frames of a stream cut what was written into consecutive pieces, and so do the retransmitted
frames with each frame that was queued.

* `Pieces`: consecutive frames of one stream that concatenate to given data, with the FIN bit on the
  last one only.
* `Partitions`: the pieces of one frame after the other.
* `framer_partitions` is the result.

A frame is only queued again after it was popped: `maybeSplitOffFrame` changes queued frames in
place.
-/

namespace MPQuic

open KeyedList Transition StreamFramer

/-! ## Pieces -/

/-- The frames start at `start`, are consecutive, and concatenate to `data`. Only the last one can
carry the FIN bit, and `finBit` says whether it does. -/
inductive Pieces (streamID : ℕ) : ℕ → List UInt8 → Bool → List StreamFrame → Prop
  | nil (start : ℕ) : Pieces streamID start [] false []
  | cons {f : StreamFrame} {data : List UInt8} {finBit : Bool} {fs : List StreamFrame} :
    f.streamID = streamID → f.finBit = false →
      Pieces streamID (f.offset + f.dataLen) data finBit fs →
      Pieces streamID f.offset (f.data ++ data) finBit (f :: fs)
  | last {f : StreamFrame} : f.streamID = streamID → f.finBit = true →
    Pieces streamID f.offset f.data true [f]

namespace Pieces

variable {streamID start : ℕ} {data : List UInt8} {finBit : Bool} {fs : List StreamFrame}
  {f : StreamFrame}

/-- A frame is the only piece of itself. -/
theorem self (f : StreamFrame) : Pieces f.streamID f.offset f.data f.finBit [f] := by
  cases hfin : f.finBit with
  | true => exact .last rfl hfin
  | false =>
    have h := Pieces.cons (f := f) rfl hfin (.nil _)
    rwa [List.append_nil] at h

/-- The next frame. -/
theorem concat (h : Pieces streamID start data false fs) (hid : f.streamID = streamID)
    (hoffset : f.offset = start + data.length) :
    Pieces streamID start (data ++ f.data) f.finBit (fs ++ [f]) := by
  generalize hfin : false = fin at h
  induction h with
  | nil start =>
    have hself := self f
    rw [hid, hoffset] at hself
    exact hself
  | @cons g data finBit fs hg hgfin _ ih =>
    rw [List.append_assoc, List.cons_append]
    refine .cons hg hgfin (ih ?_ hfin)
    rw [hoffset, List.length_append, ← Nat.add_assoc]
    rfl
  | last => cases hfin

/-- A frame that is split gives two pieces. -/
theorem cons_split {n : ℕ} (hn : n ≤ f.dataLen)
    (h : Pieces streamID (f.offset + n) (f.data.drop n ++ data) finBit (splitTail f n :: fs))
    (hid : f.streamID = streamID) :
    Pieces streamID f.offset (f.data ++ data) finBit (splitHead f n :: splitTail f n :: fs) := by
  have hlen : (splitHead f n).dataLen = n := List.length_take_of_le hn
  have hdata : f.data ++ data = (splitHead f n).data ++ (f.data.drop n ++ data) := by
    rw [← List.append_assoc]
    exact congrArg (· ++ data) (List.take_append_drop n f.data).symm
  rw [hdata]
  refine Pieces.cons (f := splitHead f n) hid rfl ?_
  rw [hlen]
  exact h

/-- The pieces stay pieces when the framer splits some of them. -/
theorem refines (h : Pieces streamID start data finBit fs) {gs ks : List StreamFrame}
    (hrefines : Refines (fs ++ gs) ks) :
    ∃ fs' gs', ks = fs' ++ gs' ∧ Pieces streamID start data finBit fs' ∧ Refines gs gs' := by
  induction h generalizing ks with
  | nil start => exact ⟨[], ks, rfl, .nil start, hrefines⟩
  | @cons f data finBit fs hid hfin _ ih =>
    rw [List.cons_append] at hrefines
    cases hrefines with
    | same present hrest =>
      obtain ⟨fs', gs', rfl, hpieces, hgs⟩ := ih hrest
      exact ⟨_ :: fs', gs', rfl,
        .cons (f := { f with dataLenPresent := present }) hid hfin hpieces, hgs⟩
    | @split _ _ _ n _ hlt hrest =>
      obtain ⟨fs', gs', rfl, hpieces, hgs⟩ := ih hrest
      refine ⟨_ :: _ :: fs', gs', rfl, ?_, hgs⟩
      refine cons_split (f := { f with dataLenPresent := true }) (Nat.le_of_lt hlt) ?_ hid
      refine Pieces.cons (f := splitTail { f with dataLenPresent := true } n) hid hfin ?_
      have hstop : (splitTail { f with dataLenPresent := true } n).offset +
          (splitTail { f with dataLenPresent := true } n).dataLen = f.offset + f.dataLen := by
        simp only [splitTail, StreamFrame.dataLen, List.length_drop] at hlt ⊢
        omega
      rw [hstop]
      exact hpieces
  | @last f hid hfin =>
    rw [List.singleton_append] at hrefines
    cases hrefines with
    | same present hrest =>
      exact ⟨[_], _, rfl, .last (f := { f with dataLenPresent := present }) hid hfin, hrest⟩
    | @split _ _ _ n _ hlt hrest =>
      refine ⟨[_, _], _, rfl, ?_, hrest⟩
      have htail : Pieces streamID (f.offset + n) (f.data.drop n ++ []) true
          [splitTail { f with dataLenPresent := true } n] := by
        rw [List.append_nil]
        exact .last (f := splitTail { f with dataLenPresent := true } n) hid hfin
      have hsplit :=
        cons_split (f := { f with dataLenPresent := true }) (Nat.le_of_lt hlt) htail hid
      rwa [List.append_nil] at hsplit

end Pieces

/-- The pieces of the frames of a list, one after the other. -/
inductive Partitions : List StreamFrame → List StreamFrame → Prop
  | nil : Partitions [] []
  | cons {f : StreamFrame} {fs gs ks : List StreamFrame} :
    Pieces f.streamID f.offset f.data f.finBit gs → Partitions fs ks →
      Partitions (f :: fs) (gs ++ ks)

namespace Partitions

variable {fs gs ks : List StreamFrame}

/-- One more frame. -/
theorem concat (h : Partitions fs gs) (f : StreamFrame) : Partitions (fs ++ [f]) (gs ++ [f]) := by
  induction h with
  | nil =>
    have h := Partitions.cons (.self f) .nil
    rwa [List.append_nil] at h
  | cons hpieces _ ih =>
    rw [List.append_assoc]
    exact .cons hpieces ih

theorem refines (h : Partitions fs gs) (hrefines : Refines gs ks) : Partitions fs ks := by
  induction h generalizing ks with
  | nil =>
    cases hrefines
    exact .nil
  | cons hpieces _ ih =>
    obtain ⟨gs', ks', rfl, hpieces', hrest⟩ := hpieces.refines hrefines
    exact .cons hpieces' (ih hrest)

end Partitions

/-! ## The sending side of a session -/

/-- A new stream. -/
def SendStream.new (streamID : ℕ) : SendStream where
  streamID := streamID
  writeOffset := 0
  dataForWriting := []
  finishedWriting := false
  finSent := false
  failed := false

/-- The streams and the framer of a session. -/
structure StreamSender where
  streams : List SendStream
  framer : StreamFramer
  heap : FrameHeap
  /-- What was written to a stream. This and the following are ghost variables. -/
  written : ℕ → List UInt8
  /-- The new frames that were popped. -/
  made : List StreamFrame
  /-- All frames that were popped. -/
  popped : List FrameRef
  /-- The frames that were queued for retransmission, as they were then. -/
  queued : List StreamFrame
  /-- The retransmitted frames that were popped. -/
  retransmitted : List StreamFrame

namespace StreamSender

/-- The sender for streams with the given numbers. -/
def new (streamIDs : List ℕ) : StreamSender where
  streams := streamIDs.map .new
  framer := .new
  heap := { get := fun _ => default, next := 0 }
  written := fun _ => []
  made := []
  popped := []
  queued := []
  retransmitted := []

/-- Change a stream. -/
def updateStream (s : StreamSender) (streamID : ℕ) (g : SendStream → SendStream) : StreamSender :=
  { s with streams := s.streams.map fun stream =>
      if stream.streamID = streamID then g stream else stream }

/-- `Write` is called, and waits until the data is taken. -/
def write (s : StreamSender) (streamID : ℕ) (data : List UInt8) : StreamSender :=
  { s.updateStream streamID ({ · with dataForWriting := data }) with
    written := Function.update s.written streamID (s.written streamID ++ data) }

/-- `Close` is called. -/
def close (s : StreamSender) (streamID : ℕ) : StreamSender :=
  s.updateStream streamID ({ · with finishedWriting := true })

/-- Put the streams that were visited back. -/
def putStreams (streams visited : List SendStream) : List SendStream :=
  visited.foldl (fun l stream => replaceKey SendStream.streamID stream l) streams

/-- Pop the frames of a packet. -/
def popStreamFrames (s : StreamSender) (maxLen : ℕ) (visits : List StreamVisit) : StreamSender :=
  let old := (maybePopFramesForRetransmission maxLen s.framer.retransmissionQueue 0 s.heap).frames
  let r := s.framer.popStreamFrames maxLen visits s.heap
  { s with
    streams := putStreams s.streams r.streams
    framer := r.framer
    heap := r.heap
    made := s.made ++ (r.frames.drop old.length).map r.heap.get
    popped := s.popped ++ r.frames
    retransmitted := s.retransmitted ++ (r.frames.take old.length).map r.heap.get }

/-- Queue a frame for retransmission. -/
def addFrameForRetransmission (s : StreamSender) (frame : FrameRef) : StreamSender :=
  { s with
    framer := s.framer.addFrameForRetransmission frame
    queued := s.queued ++ [s.heap.get frame] }

/-- What happens to the sender. -/
inductive Event where
  | write (streamID : ℕ) (data : List UInt8)
  | close (streamID : ℕ)
  | popStreamFrames (maxLen : ℕ) (visits : List StreamVisit)
  | addFrameForRetransmission (frame : FrameRef)

/-- The sender after an event. -/
def apply (s : StreamSender) : Event → StreamSender
  | .write streamID data => s.write streamID data
  | .close streamID => s.close streamID
  | .popStreamFrames maxLen visits => s.popStreamFrames maxLen visits
  | .addFrameForRetransmission frame => s.addFrameForRetransmission frame

/-- The events that are possible. The next `Write` comes after the last one has returned, and not
after `Close`; the framer visits streams of the session in any order; and a frame that is queued was
popped and is not in the queue. -/
def Allowed (s : StreamSender) : Event → Prop
  | .write streamID data => data ≠ [] ∧ ∃ stream ∈ s.streams,
      stream.streamID = streamID ∧ stream.dataForWriting = [] ∧ stream.finishedWriting = false
  | .close _ => True
  | .popStreamFrames _ visits =>
    (∀ v ∈ visits, v.stream ∈ s.streams) ∧ (visits.map (·.stream.streamID)).Nodup
  | .addFrameForRetransmission frame =>
    frame ∈ s.popped ∧ frame ∉ s.framer.retransmissionQueue

/-- A step is an event that is possible. -/
def Step (s : StreamSender) (e : Event) (s' : StreamSender) : Prop := s.Allowed e ∧ s' = s.apply e

/-! ## New frames -/

/-- The new frames `fs` of a stream cut what was written to it. -/
structure Cuts (written : List UInt8) (fs : List StreamFrame) (stream : SendStream) : Prop where
  failed : stream.failed = false
  pieces : ∃ data, Pieces stream.streamID 0 data stream.finSent fs ∧
    data.length = stream.writeOffset ∧ data ++ stream.dataForWriting = written
  fin : stream.finSent = true → stream.finishedWriting = true ∧ stream.dataForWriting = []

theorem Cuts.takes {written : List UInt8} {fs : List StreamFrame} {v : StreamVisit}
    {f : StreamFrame} {stream : SendStream} (h : Cuts written fs v.stream)
    (htakes : Takes v f stream) : Cuts written (fs ++ [f]) stream := by
  obtain ⟨data, hpieces, hlen, hwritten⟩ := h.pieces
  -- a stream whose FIN bit was sent has nothing more to send
  have hfin : v.stream.finSent = false := by
    by_contra hsent
    rw [Bool.not_eq_false] at hsent
    have hnil := (h.fin hsent).2
    rcases htakes.carries with hne | hfin
    · exact hne (List.prefix_nil.mp (hnil ▸ htakes.data))
    · rw [(htakes.fin hfin).2.1] at hsent
      cases hsent
  obtain ⟨rest, hrest⟩ := htakes.data
  have hdrop : v.stream.dataForWriting.drop f.dataLen = rest := by
    rw [← hrest]
    exact List.drop_left
  rw [hfin] at hpieces
  have hnext := hpieces.concat htakes.frame_streamID (by rw [htakes.offset, hlen, Nat.zero_add])
  rw [htakes.stream_eq]
  refine ⟨h.failed, ⟨data ++ f.data, ?_, ?_, ?_⟩, fun hsent => ?_⟩
  · rw [hfin, Bool.false_or]
    exact hnext
  · rw [List.length_append, hlen]
    rfl
  · dsimp only
    rw [hdrop, List.append_assoc, hrest]
    exact hwritten
  · dsimp only at hsent ⊢
    rw [hfin, Bool.false_or] at hsent
    exact ⟨(htakes.fin hsent).1, (htakes.fin hsent).2.2⟩

/-- The frames of one stream. -/
def framesOf (streamID : ℕ) (fs : List StreamFrame) : List StreamFrame :=
  fs.filter (·.streamID = streamID)

/-- Every stream is cut by its new frames. -/
def AllCut (written : ℕ → List UInt8) (made : List StreamFrame) (streams : List SendStream) :
    Prop :=
  (streams.map SendStream.streamID).Nodup ∧ ∀ stream ∈ streams,
    Cuts (written stream.streamID) (framesOf stream.streamID made) stream

/-- Visiting the streams one after the other cuts each of them further. -/
theorem AllCut.made {written : ℕ → List UInt8} {maxBytes currentLen : ℕ}
    {visits : List StreamVisit} {fs : List StreamFrame} {visited : List SendStream}
    (hmade : Made maxBytes currentLen visits fs visited) {made : List StreamFrame}
    {streams : List SendStream} (h : AllCut written made streams)
    (hvisits : ∀ v ∈ visits, v.stream ∈ streams)
    (hnodup : (visits.map (·.stream.streamID)).Nodup) :
    AllCut written (made ++ fs) (putStreams streams visited) := by
  induction hmade generalizing made streams with
  | done currentLen visits =>
    rw [List.append_nil]
    clear hnodup
    induction visits with
    | nil => exact h
    | cons v visits ih =>
      obtain ⟨hv, hvisits⟩ := List.forall_mem_cons.mp hvisits
      rw [List.map_cons, putStreams, List.foldl_cons, replaceKey_self h.1 hv]
      exact ih hvisits
  | @skip currentLen v visits fs visited _ ih =>
    obtain ⟨hv, hvisits⟩ := List.forall_mem_cons.mp hvisits
    rw [putStreams, List.foldl_cons, replaceKey_self h.1 hv]
    exact ih h hvisits (List.nodup_cons.mp hnodup).2
  | @make currentLen v visits f stream fs visited htakes _ _ ih =>
    obtain ⟨hv, hvisits⟩ := List.forall_mem_cons.mp hvisits
    rw [List.map_cons, List.nodup_cons] at hnodup
    have hid : stream.streamID = v.stream.streamID := by rw [htakes.stream_eq]
    rw [List.append_cons, putStreams, List.foldl_cons]
    refine ih ⟨nodup_replaceKey h.1, fun other hother => ?_⟩ (fun v' hv' => ?_) hnodup.2
    · rw [framesOf, List.filter_append]
      rcases mem_replaceKey hother with rfl | ⟨hmem, hne⟩
      · rw [List.filter_singleton, htakes.frame_streamID, hid, decide_eq_true rfl]
        exact (h.2 v.stream hv).takes htakes
      · rw [hid] at hne
        rw [List.filter_singleton, htakes.frame_streamID,
          decide_eq_false (Ne.symm hne), cond_false, List.append_nil]
        exact h.2 other hmem
    · refine mem_replaceKey_of_ne (hvisits v' hv') fun heq => hnodup.1 ?_
      exact List.mem_map.mpr ⟨v', hv', heq.trans hid⟩

/-! ## All frames -/

/-- The frame has data, or ends its stream. -/
def Carries (f : StreamFrame) : Prop := f.data ≠ [] ∨ f.finBit = true

theorem carries_of_refines {fs gs : List StreamFrame} (h : Refines fs gs)
    (hfs : ∀ f ∈ fs, Carries f) : ∀ g ∈ gs, Carries g := by
  induction h with
  | nil => exact hfs
  | same present _ ih =>
    obtain ⟨hf, hfs⟩ := List.forall_mem_cons.mp hfs
    exact List.forall_mem_cons.mpr ⟨hf, ih hfs⟩
  | @split f fs gs n hpos hlt _ ih =>
    obtain ⟨-, hfs⟩ := List.forall_mem_cons.mp hfs
    unfold StreamFrame.dataLen at hlt
    refine List.forall_mem_cons.mpr ⟨.inl ?_, List.forall_mem_cons.mpr ⟨.inl ?_, ih hfs⟩⟩
    · exact List.ne_nil_of_length_pos (by simp only [splitHead, List.length_take]; omega)
    · exact List.ne_nil_of_length_pos (by simp only [splitTail, List.length_drop]; omega)

theorem carries_of_made {maxBytes currentLen : ℕ} {visits : List StreamVisit}
    {fs : List StreamFrame} {visited : List SendStream}
    (h : Made maxBytes currentLen visits fs visited) : ∀ f ∈ fs, Carries f := by
  induction h with
  | done => exact fun _ hf => absurd hf List.not_mem_nil
  | skip _ ih => exact ih
  | make htakes _ _ ih => exact List.forall_mem_cons.mpr ⟨htakes.carries, ih⟩

/-- The new frames cut what was written, the retransmitted ones and the queue are the pieces of what
was queued, and no frame is empty. -/
structure Inv (s : StreamSender) : Prop where
  cut : AllCut s.written s.made s.streams
  queue_nodup : s.framer.retransmissionQueue.Nodup
  refs_lt : ∀ ref ∈ s.popped ++ s.framer.retransmissionQueue, ref < s.heap.next
  partitions : Partitions s.queued
    (s.retransmitted ++ s.framer.retransmissionQueue.map s.heap.get)
  carries : ∀ ref ∈ s.popped ++ s.framer.retransmissionQueue, Carries (s.heap.get ref)
  frames_carry : ∀ f ∈ s.made ++ s.retransmitted, Carries f

variable {s s' : StreamSender}

theorem inv_new {streamIDs : List ℕ} (hnodup : streamIDs.Nodup) : (new streamIDs).Inv where
  cut := by
    refine ⟨?_, fun stream hstream => ?_⟩
    · rw [new, List.map_map]
      exact (List.map_id streamIDs).symm ▸ hnodup
    · obtain ⟨id, -, rfl⟩ := List.mem_map.mp hstream
      exact ⟨rfl, ⟨[], .nil 0, rfl, rfl⟩, fun h => nomatch h⟩
  queue_nodup := List.nodup_nil
  refs_lt := fun _ h => absurd h List.not_mem_nil
  partitions := .nil
  carries := fun _ h => absurd h List.not_mem_nil
  frames_carry := fun _ h => absurd h List.not_mem_nil

/-- A stream is changed such that it is still cut. -/
theorem AllCut.updateStream {written written' : ℕ → List UInt8} {made : List StreamFrame}
    {streams : List SendStream} (h : AllCut written made streams) {streamID : ℕ}
    {g : SendStream → SendStream} (hg : ∀ stream, (g stream).streamID = stream.streamID)
    (hold : ∀ id ≠ streamID, written' id = written id)
    (hcuts : ∀ stream ∈ streams, stream.streamID = streamID →
      Cuts (written streamID) (framesOf streamID made) stream →
      Cuts (written' streamID) (framesOf streamID made) (g stream)) :
    AllCut written' made (streams.map fun stream =>
      if stream.streamID = streamID then g stream else stream) := by
  have hid : ∀ stream : SendStream,
      (if stream.streamID = streamID then g stream else stream).streamID = stream.streamID := by
    intro stream
    split_ifs
    · exact hg stream
    · rfl
  refine ⟨?_, fun stream hstream => ?_⟩
  · rw [List.map_map]
    exact (List.map_congr_left fun stream _ => hid stream) ▸ h.1
  · obtain ⟨stream, hmem, rfl⟩ := List.mem_map.mp hstream
    rw [hid]
    split_ifs with heq
    · exact heq ▸ hcuts stream hmem heq (heq ▸ h.2 stream hmem)
    · rw [hold _ heq]
      exact h.2 stream hmem

theorem Inv.write (h : s.Inv) {streamID : ℕ} {data : List UInt8}
    (hallowed : s.Allowed (.write streamID data)) : (s.write streamID data).Inv := by
  refine { h with cut := ?_ }
  refine h.cut.updateStream (fun _ => rfl) (fun id hne => Function.update_of_ne hne _ _) ?_
  obtain ⟨-, stream', hmem', hid', hpending, hopen⟩ := hallowed
  intro stream hmem hid hcuts
  obtain rfl : stream = stream' :=
    List.inj_on_of_nodup_map h.cut.1 hmem hmem' (hid.trans hid'.symm)
  obtain ⟨data', hpieces, hlen, hwritten⟩ := hcuts.pieces
  refine ⟨hcuts.failed, ⟨data', hpieces, hlen, ?_⟩, fun hsent => ?_⟩
  · rw [hpending, List.append_nil] at hwritten
    change data' ++ data = Function.update s.written streamID (s.written streamID ++ data) streamID
    rw [Function.update_self, hwritten]
  · rw [(hcuts.fin hsent).1] at hopen
    cases hopen

theorem Inv.close (h : s.Inv) (streamID : ℕ) : (s.close streamID).Inv := by
  refine { h with cut := ?_ }
  refine h.cut.updateStream (fun _ => rfl) (fun _ _ => rfl) fun stream _ _ hcuts => ?_
  exact ⟨hcuts.failed, hcuts.pieces, fun hsent => ⟨rfl, (hcuts.fin hsent).2⟩⟩

theorem Inv.addFrameForRetransmission (h : s.Inv) {frame : FrameRef}
    (hallowed : s.Allowed (.addFrameForRetransmission frame)) :
    (s.addFrameForRetransmission frame).Inv := by
  obtain ⟨hpopped, hqueue⟩ := hallowed
  have hmem : ∀ ref ∈ s.popped ++ (s.framer.retransmissionQueue ++ [frame]),
      ref ∈ s.popped ++ s.framer.retransmissionQueue := by
    intro ref href
    rw [← List.append_assoc, List.mem_append, List.mem_singleton] at href
    rcases href with href | rfl
    · exact href
    · exact List.mem_append_left _ hpopped
  refine { h with queue_nodup := ?_, refs_lt := ?_, partitions := ?_, carries := ?_ }
  · exact (List.nodup_append_comm).mp (List.nodup_cons.mpr ⟨hqueue, h.queue_nodup⟩)
  · exact fun ref href => h.refs_lt ref (hmem ref href)
  · have hconcat := h.partitions.concat (s.heap.get frame)
    rw [List.append_assoc] at hconcat
    change Partitions (s.queued ++ [s.heap.get frame])
      (s.retransmitted ++ (s.framer.retransmissionQueue ++ [frame]).map s.heap.get)
    rwa [List.map_append, List.map_singleton]
  · exact fun ref href => h.carries ref (hmem ref href)

theorem Inv.popStreamFrames (h : s.Inv) {maxLen : ℕ} {visits : List StreamVisit}
    (hallowed : s.Allowed (.popStreamFrames maxLen visits)) :
    (s.popStreamFrames maxLen visits).Inv := by
  obtain ⟨new, hpops⟩ := StreamFramer.popStreamFrames_spec maxLen visits h.queue_nodup
    fun ref href => h.refs_lt ref (List.mem_append_right _ href)
  unfold StreamSender.popStreamFrames
  dsimp only
  generalize (maybePopFramesForRetransmission maxLen s.framer.retransmissionQueue 0
    s.heap).frames = old at hpops
  generalize s.framer.popStreamFrames maxLen visits s.heap = r at hpops
  rw [hpops.frames_eq, List.drop_left, List.take_left]
  have hqueue : ∀ f ∈ old.map r.heap.get ++ r.framer.retransmissionQueue.map r.heap.get,
      Carries f := by
    refine carries_of_refines hpops.refines fun f hf => ?_
    obtain ⟨ref, href, rfl⟩ := List.mem_map.mp hf
    exact h.carries ref (List.mem_append_right _ href)
  have hnew := carries_of_made hpops.made
  have hframes : ∀ ref ∈ old ++ new, Carries (r.heap.get ref) := by
    refine List.forall_mem_append.mpr ⟨fun ref href => ?_, fun ref href => ?_⟩
    · exact hqueue _ (List.mem_append_left _ (List.mem_map_of_mem href))
    · exact hnew _ (List.mem_map_of_mem href)
  have hstay : ∀ ref ∈ r.framer.retransmissionQueue, Carries (r.heap.get ref) := fun ref href =>
    hqueue _ (List.mem_append_right _ (List.mem_map_of_mem href))
  have hlt := h.refs_lt
  have hnext := hpops.next_le
  refine
    { cut := ?_, queue_nodup := h.queue_nodup.sublist hpops.queue_sub.sublist, refs_lt := ?_
      partitions := ?_, carries := ?_, frames_carry := ?_ }
  · exact h.cut.made hpops.made hallowed.1 hallowed.2
  · intro ref href
    rw [List.append_assoc] at href
    rcases List.mem_append.mp href with href | href
    · exact Nat.lt_of_lt_of_le (hlt ref (List.mem_append_left _ href)) hnext
    · rcases List.mem_append.mp href with href | href
      · exact hpops.frames_lt ref (hpops.frames_eq ▸ href)
      · exact Nat.lt_of_lt_of_le
          (hlt ref (List.mem_append_right _ (hpops.queue_sub.subset href))) hnext
  · rw [List.append_assoc]
    exact h.partitions.refines (.append_left _ hpops.refines)
  · intro ref href
    rw [List.append_assoc] at href
    rcases List.mem_append.mp href with href | href
    · -- a frame that was popped before is queued again, or left alone
      by_cases hmem : ref ∈ s.framer.retransmissionQueue
      · rcases hpops.queue_mem ref hmem with hold | hold
        · exact hframes ref (List.mem_append_left _ hold)
        · exact hstay ref hold
      · dsimp only
        rw [hpops.others ref (hlt ref (List.mem_append_left _ href)) hmem]
        exact h.carries ref (List.mem_append_left _ href)
    · rcases List.mem_append.mp href with href | href
      · exact hframes ref href
      · exact hstay ref href
  · have hcarry := List.forall_mem_append.mp h.frames_carry
    refine List.forall_mem_append.mpr ⟨List.forall_mem_append.mpr ⟨hcarry.1, hnew⟩,
      List.forall_mem_append.mpr ⟨hcarry.2, fun f hf => ?_⟩⟩
    exact hqueue f (List.mem_append_left _ hf)

theorem Inv.step (h : s.Inv) {e : Event} (hstep : s.Step e s') : s'.Inv := by
  obtain ⟨hallowed, rfl⟩ := hstep
  cases e with
  | write streamID data => exact h.write hallowed
  | close streamID => exact h.close streamID
  | popStreamFrames maxLen visits => exact h.popStreamFrames hallowed
  | addFrameForRetransmission frame => exact h.addFrameForRetransmission hallowed

/-- In every state that the sender reaches:

* the new frames of a stream are consecutive pieces of what was written to it, which is complete
  except for the data that is still to be sent; only the last one carries the FIN bit, after `Close`
  and when no data is left;
* the retransmitted frames, followed by the queue, are the pieces of the frames that were queued,
  with the FIN bit of a frame on its last piece only;
* every frame that was popped has data or the FIN bit;
* the frames that are popped next fit, whatever streams are visited. -/
theorem framer_partitions {streamIDs : List ℕ} (hnodup : streamIDs.Nodup) {events : List Event}
    (hrun : Run Step (new streamIDs) events s) :
    (∀ stream ∈ s.streams, ∃ data,
      Pieces stream.streamID 0 data stream.finSent (framesOf stream.streamID s.made) ∧
        data ++ stream.dataForWriting = s.written stream.streamID ∧
        (stream.finSent = true → stream.finishedWriting = true ∧ stream.dataForWriting = [])) ∧
      Partitions s.queued (s.retransmitted ++ s.framer.retransmissionQueue.map s.heap.get) ∧
      (∀ f ∈ s.made ++ s.retransmitted, f.data ≠ [] ∨ f.finBit = true) ∧
      ∀ maxLen visits, let r := s.framer.popStreamFrames maxLen visits s.heap
        wireLens (r.frames.map r.heap.get) ≤ maxLen := by
  have h : s.Inv := Run.invariant (I := fun _ s => s.Inv) (inv_new hnodup)
    (fun _ _ _ _ hinv hstep => hinv.step hstep) hrun
  refine ⟨fun stream hstream => ?_, h.partitions, h.frames_carry, fun maxLen visits => ?_⟩
  · obtain ⟨-, ⟨data, hpieces, -, hwritten⟩, hfin⟩ := h.cut.2 stream hstream
    exact ⟨data, hpieces, hwritten, hfin⟩
  · obtain ⟨new, hpops⟩ := StreamFramer.popStreamFrames_spec maxLen visits h.queue_nodup
      fun ref href => h.refs_lt ref (List.mem_append_right _ href)
    exact hpops.len_le

instance (s : StreamSender) (e : Event) : Decidable (s.Allowed e) :=
  match e with
  | .write _ _ => inferInstanceAs (Decidable (_ ∧ _))
  | .close _ => isTrue trivial
  | .popStreamFrames _ _ => inferInstanceAs (Decidable (_ ∧ _))
  | .addFrameForRetransmission _ => inferInstanceAs (Decidable (_ ∧ _))

/-- The step as a function. -/
def step? (s : StreamSender) (e : Event) : Option StreamSender :=
  if s.Allowed e then some (s.apply e) else none

theorem step_of_step? {e : Event} (h : s.step? e = some s') : s.Step e s' := by
  rw [step?, Option.ite_none_right_eq_some] at h
  exact ⟨h.1, (Option.some.inj h.2).symm⟩

/-- Six bytes are sent in two frames, the second one with the FIN bit. The first frame is
retransmitted in a packet that has room for three of its bytes. -/
theorem framer_partitions_example :
    ∃ (events : List Event) (s : StreamSender), Run Step (new [5]) events s ∧
      s.made.map (fun f => (f.offset, f.data, f.finBit)) =
        [(0, [1, 2, 3, 4, 5], false), (5, [6], true)] ∧
      s.retransmitted.map (fun f => (f.offset, f.data, f.finBit)) = [(0, [1, 2, 3], false)] ∧
      Partitions s.queued (s.retransmitted ++ s.framer.retransmissionQueue.map s.heap.get) := by
  let visit (writeOffset : ℕ) (dataForWriting : List UInt8) (finished : Bool) : StreamVisit :=
    { stream := { SendStream.new 5 with writeOffset, dataForWriting, finishedWriting := finished }
      sendWindowSize := 1000
      remainingConnectionWindowSize := 1000 }
  let events : List Event :=
    [.write 5 [1, 2, 3, 4, 5, 6], .popStreamFrames 9 [visit 0 [1, 2, 3, 4, 5, 6] false], .close 5,
      .popStreamFrames 30 [visit 5 [6] true], .addFrameForRetransmission 0, .popStreamFrames 7 []]
  have hevents : (events.foldlM step? (new [5])).any (fun s =>
      s.made.map (fun f => (f.offset, f.data, f.finBit)) =
          [(0, [1, 2, 3, 4, 5], false), (5, [6], true)] ∧
        s.retransmitted.map (fun f => (f.offset, f.data, f.finBit)) =
          [(0, [1, 2, 3], false)]) := by
    decide +kernel
  obtain ⟨s, hrun, hmade, hretransmitted⟩ :=
    Run.exists_of_any (fun _ _ _ => step_of_step?) hevents
  exact ⟨events, s, hrun, hmade, hretransmitted,
    (framer_partitions (List.nodup_singleton 5) hrun).2.1⟩

end StreamSender

end MPQuic
