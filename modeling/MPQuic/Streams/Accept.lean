import MPQuic.Streams.Operations

/-!
# Accepting streams

`AcceptStream` returns the streams of the peer in the order of their numbers. It waits until the
stream with the number `nextStreamToAccept` is in the map. A stream that was reset is finished, and
the garbage collection removes it from the map, whether or not it was accepted. A stream that is
removed before it is accepted never comes back, so that `AcceptStream` waits forever.
-/

namespace MPQuic

namespace StreamsMap

open Transition

variable {m m' : StreamsMap} {id : ℕ} {p : Perspective}

/-- The streams of the peer below the next one were accepted, in their order. -/
structure Accepting (m : StreamsMap) : Prop where
  closeErr : m.closeErr = false
  next : ¬m.perspective.opens m.nextStreamToAccept
  accepted : ∀ id, ¬m.perspective.opens id → 0 < id → id < m.nextStreamToAccept → id ∈ m.accepted
  accepted_lt : ∀ id ∈ m.accepted, id < m.nextStreamToAccept
  increasing : m.accepted.Pairwise (· < ·)

/-- The streams of the peer that were opened and not accepted are in the map. -/
structure Acceptable (m : StreamsMap) : Prop extends Accepting m where
  numbered : m.Numbered
  opened : ∀ id ∈ m.ids, ¬m.perspective.opens id → 0 < id ∧ id ≤ m.highestStreamOpenedByPeer
  next_le : m.nextStreamToAccept ≤ m.highestStreamOpenedByPeer + 2
  waiting : ∀ id, ¬m.perspective.opens id → m.nextStreamToAccept ≤ id →
    id ≤ m.highestStreamOpenedByPeer → id ∈ m.ids

theorem Accepting.new (p : Perspective) (maxOutgoingStreams : ℕ) :
    Accepting (new p maxOutgoingStreams) where
  closeErr := rfl
  next := by
    cases p <;> simp [StreamsMap.new, Perspective.opens, Perspective.peer, Perspective.firstStream]
  accepted id hid hpos hlt := by
    cases p with
    | server => exact absurd hlt (not_lt.mpr hpos)
    | client =>
      -- stream 1 is not a stream of the server
      obtain rfl : id = 1 := Nat.le_antisymm (Nat.le_of_lt_succ hlt) hpos
      exact absurd rfl hid
  accepted_lt _ h := absurd h List.not_mem_nil
  increasing := List.Pairwise.nil

theorem Acceptable.new (p : Perspective) (maxOutgoingStreams : ℕ) :
    Acceptable (new p maxOutgoingStreams) where
  toAccepting := .new p maxOutgoingStreams
  numbered := .new p maxOutgoingStreams
  opened _ h := absurd h List.not_mem_nil
  next_le := by cases p <;> simp [StreamsMap.new, Perspective.peer, Perspective.firstStream]
  waiting id _ hle hhighest := by
    have hpos : 0 < (StreamsMap.new p maxOutgoingStreams).nextStreamToAccept := by
      cases p <;> simp [StreamsMap.new, Perspective.peer, Perspective.firstStream]
    exact absurd (Nat.lt_of_lt_of_le hpos hle) (not_lt.mpr hhighest)

theorem Accepting.frame (h : Accepting m) (hframe : Frame m m') : Accepting m' := by
  obtain ⟨hp, -, hnext, haccepted, hclose⟩ := hframe
  constructor
  · exact hclose.trans h.closeErr
  · rw [hp, hnext]
    exact h.next
  · rw [hp, hnext, haccepted]
    exact h.accepted
  · rw [hnext, haccepted]
    exact h.accepted_lt
  · exact haccepted ▸ h.increasing

/-! ## Steps -/

/-- What neither accepts nor opens nor removes a stream. -/
theorem Acceptable.same (h : Acceptable m) (hsame : SameStreams m m') (hframe : Frame m m') :
    Acceptable m' where
  toAccepting := h.toAccepting.frame hframe
  numbered := h.numbered.of_eq hsame.perspective hsame.nextStream hsame.highestStreamOpenedByPeer
  opened := by
    rw [hsame.ids, hsame.perspective, hsame.highestStreamOpenedByPeer]
    exact h.opened
  next_le := by
    rw [hsame.highestStreamOpenedByPeer, hframe.nextStreamToAccept]
    exact h.next_le
  waiting := by
    rw [hsame.ids, hsame.perspective, hsame.highestStreamOpenedByPeer, hframe.nextStreamToAccept]
    exact h.waiting

/-- Opening an own stream leaves the streams of the peer alone. -/
theorem Acceptable.openStreamImpl (h : Acceptable m)
    (hmax : m.numOutgoingStreams < m.maxOutgoingStreams) : Acceptable m.openStreamImpl.2 := by
  obtain ⟨hopened, -, hhighest⟩ := openStreamImpl_spec hmax
  refine ⟨h.toAccepting.frame hopened.toFrame, h.numbered.openStreamImpl hmax, ?_, ?_, ?_⟩
  · rw [hopened.perspective, hhighest]
    intro id hid hpeer
    rcases hopened.mem_ids.mp hid with hid | rfl
    · exact h.opened id hid hpeer
    · exact absurd h.numbered.own hpeer
  · rw [hhighest, hopened.nextStreamToAccept]
    exact h.next_le
  · rw [hopened.perspective, hhighest, hopened.nextStreamToAccept]
    exact fun id hpeer hle hid => hopened.mem_ids.mpr (.inl (h.waiting id hpeer hle hid))

/-- The next stream of the peer is added to the map. -/
theorem Acceptable.openRemoteStream (h : Acceptable m)
    (hopen : m.openRemoteStream m.firstToOpen = .ok m') : Acceptable m' := by
  obtain ⟨-, -, hopened, -⟩ := openRemoteStream_spec hopen
  obtain ⟨hnumbered, hhighest, -⟩ := h.numbered.opened hopen
  obtain ⟨hlt, -⟩ := h.numbered.firstToOpen
  refine ⟨h.toAccepting.frame hopened.toFrame, hnumbered, ?_, ?_, ?_⟩
  · rw [hopened.perspective, hhighest]
    intro id hid hpeer
    rcases hopened.mem_ids.mp hid with hid | rfl
    · obtain ⟨hpos, hle⟩ := h.opened id hid hpeer
      exact ⟨hpos, hle.trans hlt.le⟩
    · exact ⟨Nat.zero_lt_of_lt hlt, le_rfl⟩
  · rw [hhighest, hopened.nextStreamToAccept]
    exact h.next_le.trans (Nat.add_le_add_right hlt.le 2)
  · rw [hopened.perspective, hhighest, hopened.nextStreamToAccept]
    intro id hpeer hnext hle
    rw [hopened.mem_ids]
    -- the streams up to the highest one were waiting already, and the only other one is the new one
    rcases le_or_gt id m.highestStreamOpenedByPeer with hold | hnew
    · exact .inl (h.waiting id hpeer hnext hold)
    · exact .inr (h.numbered.eq_firstToOpen hpeer hnew hle)

/-- A stream may be removed if it is an own stream or was accepted. -/
theorem Acceptable.removed (h : Acceptable m) (hremoved : Removed m id m')
    (hid : ¬m.perspective.opens id → id < m.nextStreamToAccept) : Acceptable m' := by
  have hhighest := hremoved.highestStreamOpenedByPeer
  refine ⟨h.toAccepting.frame hremoved.toFrame,
    h.numbered.of_eq hremoved.perspective hremoved.nextStream hhighest, ?_, ?_, ?_⟩
  · rw [hremoved.perspective, hhighest]
    exact fun id hid => h.opened id (hremoved.mem_ids.mp hid).2
  · rw [hhighest, hremoved.nextStreamToAccept]
    exact h.next_le
  · rw [hremoved.perspective, hhighest, hremoved.nextStreamToAccept]
    intro id' hpeer hnext hle
    refine hremoved.mem_ids.mpr ⟨?_, h.waiting id' hpeer hnext hle⟩
    rintro rfl
    exact absurd (hid hpeer) (not_lt.mpr hnext)

/-- The next stream is accepted if it is in the map. -/
theorem acceptStream_spec (hclose : m.closeErr = false) (hmem : m.nextStreamToAccept ∈ m.ids) :
    m.acceptStream.1 = some (.ok m.nextStreamToAccept) ∧
      m.acceptStream.2.nextStreamToAccept = uint32Add m.nextStreamToAccept 2 ∧
      m.acceptStream.2.accepted = m.accepted ++ [m.nextStreamToAccept] ∧
      m.acceptStream.2.closeErr = false := by
  obtain ⟨s, hs⟩ := exists_get_iff.mpr hmem
  have hid := streamID_of_get hs
  rw [StreamsMap.acceptStream, if_neg (by rw [hclose]; exact Bool.false_ne_true), hs]
  exact ⟨congrArg (fun id => some (Except.ok id)) hid, rfl,
    congrArg (fun id => m.accepted ++ [id]) hid, hclose⟩

/-- Without the next stream in the map, the call waits. -/
theorem acceptStream_waits (hclose : m.closeErr = false) (hmem : m.nextStreamToAccept ∉ m.ids) :
    m.acceptStream = (none, m) := by
  rw [StreamsMap.acceptStream, if_neg (by rw [hclose]; exact Bool.false_ne_true),
    get_eq_none_iff.mpr hmem]

/-- Accepting a stream goes on to the next stream of the peer. -/
theorem Acceptable.acceptStream (h : Acceptable m) : Acceptable m.acceptStream.2 := by
  by_cases hmem : m.nextStreamToAccept ∈ m.ids
  case neg => exact acceptStream_waits h.closeErr hmem ▸ h
  case pos =>
  obtain ⟨-, hnext, haccepted, hclose⟩ := acceptStream_spec h.closeErr hmem
  have hsame := sameStreams_acceptStream m
  have hle := (h.opened _ hmem h.next).2
  -- an open stream is far below the end of the range, so the next number does not wrap around
  have hlow := h.numbered.low
  simp only [maxNewStreamIDDelta, maxStreamsPerConnection] at hlow
  rw [uint32Add_eq (by omega)] at hnext
  refine ⟨⟨hclose, ?_, ?_, ?_, ?_⟩, h.numbered.of_eq hsame.perspective hsame.nextStream
    hsame.highestStreamOpenedByPeer, ?_, ?_, ?_⟩
  · rw [hsame.perspective, hnext, Perspective.opens_succ, Perspective.opens_succ, Bool.not_not]
    exact h.next
  · rw [hsame.perspective, hnext, haccepted]
    intro id hpeer hpos hlt
    rw [List.mem_append, List.mem_singleton]
    rcases lt_trichotomy id m.nextStreamToAccept with hold | heq | hnew
    · exact .inl (h.accepted id hpeer hpos hold)
    · exact .inr heq
    · -- the stream between this one and the next one is an own stream
      obtain rfl : id = m.nextStreamToAccept + 1 := by omega
      rw [Perspective.opens_succ, Bool.not_eq_true', Bool.not_eq_false] at hpeer
      exact absurd hpeer h.next
  · rw [hnext, haccepted]
    intro id hid
    rcases List.mem_append.mp hid with hid | hid
    · exact (h.accepted_lt id hid).trans (Nat.lt_add_of_pos_right Nat.two_pos)
    · rw [List.mem_singleton.mp hid]
      exact Nat.lt_add_of_pos_right Nat.two_pos
  · rw [haccepted, List.pairwise_append]
    refine ⟨h.increasing, List.pairwise_singleton _ _, fun id hid id' hid' => ?_⟩
    rw [List.mem_singleton.mp hid']
    exact h.accepted_lt id hid
  · rw [hsame.ids, hsame.perspective, hsame.highestStreamOpenedByPeer]
    exact h.opened
  · rw [hnext, hsame.highestStreamOpenedByPeer]
    exact Nat.add_le_add_right hle 2
  · rw [hsame.ids, hsame.perspective, hsame.highestStreamOpenedByPeer, hnext]
    exact fun id hpeer hle => h.waiting id hpeer ((Nat.le_add_right _ 2).trans hle)

/-! ## Runs -/

/-- The session is not closed, and a stream of the peer is not removed before it was accepted. -/
def KeepsUnaccepted (m : StreamsMap) : Call → Prop
  | .garbageCollectStreams => ∀ s ∈ m.streams, s.finished → ¬m.perspective.opens s.streamID →
    s.streamID < m.nextStreamToAccept
  | .removeStream id => ¬m.perspective.opens id → id < m.nextStreamToAccept
  | .iterate fn => ∀ visited, ∀ s ∈ m.streams, ∀ id ∈ (fn visited s).remove,
    ¬m.perspective.opens id → id < m.nextStreamToAccept
  | .closeWithError => False
  | _ => True

/-- A callback may remove own streams and streams that were accepted. -/
theorem Acceptable.iterate (h : Acceptable m) {fn : List ℕ → Stream → Outcome}
    (hguard : m.KeepsUnaccepted (.iterate fn)) : Acceptable (m.iterate fn).2 := by
  refine (iterate_induction (P := fun m' => Acceptable m' ∧ Frame m m') ?_ ⟨h, .refl m⟩).1
  rintro visited s hs id hid m₁ m₂ ⟨h₁, hframe⟩ hremoved
  refine ⟨h₁.removed hremoved ?_, hframe.trans hremoved.toFrame⟩
  rw [hframe.perspective, hframe.nextStreamToAccept]
  exact hguard visited s hs id hid

/-- Every call that keeps the streams that were not accepted. -/
theorem Acceptable.apply (h : Acceptable m) {c : Call} (hguard : m.KeepsUnaccepted c) :
    Acceptable (m.apply c) := by
  cases c with
  | getOrOpenStream id =>
    exact (getOrOpenStream_induction (fun _ _ _ _ _ h _ hopen => h.openRemoteStream hopen)
      h.numbered h).2
  | openStream =>
    rcases openStream_cases m with heq | ⟨hmax, heq⟩
    · exact (congrArg Acceptable heq).mpr h
    · exact (congrArg Acceptable heq).mpr (h.openStreamImpl hmax)
  | acceptStream => exact h.acceptStream
  | removeStream id =>
    rcases tryRemove_cases m id with heq | hremoved
    · exact (congrArg Acceptable heq).mpr h
    · exact h.removed hremoved hguard
  | streamEvent id e => exact h.same (sameStreams_streamEvent m id e) ⟨rfl, rfl, rfl, rfl, rfl⟩
  | iterate fn => exact h.iterate hguard
  | garbageCollectStreams =>
    -- the callback of the garbage collection removes the stream itself if it is finished
    refine h.iterate fun visited s hs id hid => ?_
    split at hid
    · rw [List.mem_singleton.mp hid]
      exact hguard s hs ‹_›
    · exact absurd hid List.not_mem_nil
  | roundRobinIterate fn =>
    simp only [StreamsMap.apply]
    split
    · obtain ⟨hsame, hframe, -⟩ := roundRobinIterate_spec ‹_›
      exact h.same hsame hframe
    · exact h
  | closeWithError => exact hguard.elim

/-- If no stream of the peer is removed before it was accepted, `AcceptStream` returns a stream
whenever a stream of the peer is open and was not accepted. The streams are accepted in the order of
their numbers. -/
theorem acceptStream_ready {maxOutgoingStreams : ℕ} {calls : List Call}
    (hrun : Run (fun m c m' => m.KeepsUnaccepted c ∧ m' = m.apply c) (new p maxOutgoingStreams)
      calls m) :
    m.accepted.Pairwise (· < ·) ∧
      ((∃ id ∈ m.ids, m.perspective.peer.opens id ∧ id ∉ m.accepted) →
        m.nextStreamToAccept ∈ m.ids ∧ m.acceptStream.1 = some (.ok m.nextStreamToAccept)) := by
  have h : Acceptable m := by
    refine Run.invariant (I := fun _ => Acceptable) (.new p maxOutgoingStreams) ?_ hrun
    rintro - m c - h ⟨hguard, rfl⟩
    exact h.apply hguard
  refine ⟨h.increasing, ?_⟩
  rintro ⟨id, hid, hpeer, hunaccepted⟩
  rw [Perspective.opens_peer, Bool.not_eq_true', ← Bool.not_eq_true] at hpeer
  obtain ⟨hpos, hle⟩ := h.opened id hid hpeer
  -- a stream below the next one would have been accepted
  have hnext : m.nextStreamToAccept ≤ id :=
    not_lt.mp fun hlt => hunaccepted (h.accepted id hpeer hpos hlt)
  have hmem := h.waiting m.nextStreamToAccept h.next le_rfl (hnext.trans hle)
  exact ⟨hmem, (acceptStream_spec h.closeErr hmem).1⟩

/-- The peer opens two streams, of which the first is accepted, reset, and removed. -/
theorem acceptStream_ready_example :
    let calls : List Call :=
      [.getOrOpenStream 3, .acceptStream, .streamEvent 1 .registerRemoteError,
        .garbageCollectStreams]
    (calls.foldl apply (new .server 100)).acceptStream.1 = some (.ok 3) := by
  intro calls
  have hrun : Run (fun m c m' => m.KeepsUnaccepted c ∧ m' = m.apply c) (new .server 100) calls
      (calls.foldl apply (new .server 100)) := by
    refine ((((Run.nil.snoc ⟨trivial, rfl⟩).snoc ⟨trivial, rfl⟩).snoc ⟨trivial, rfl⟩).snoc
      ⟨?_, rfl⟩)
    show ∀ s ∈ _, _
    decide +kernel
  exact ((acceptStream_ready hrun).2 ⟨3, by decide +kernel⟩).2

/-- The peer opens streams 1, 3 and 5. Stream 1 is accepted, and stream 3 is reset by the peer and
removed. Stream 5 is open, but `AcceptStream` waits for stream 3. -/
theorem acceptStream_stuck :
    let calls : List Call :=
      [.getOrOpenStream 5, .acceptStream, .streamEvent 3 .registerRemoteError,
        .garbageCollectStreams]
    ∃ m, Run (fun m c m' => m' = m.apply c) (new .server 100) calls m ∧
      (5 ∈ m.ids ∧ m.perspective.peer.opens 5 ∧ 5 ∉ m.accepted) ∧
      m.nextStreamToAccept ∉ m.ids ∧ m.acceptStream.1 = none :=
  ⟨_, (((Run.nil.snoc rfl).snoc rfl).snoc rfl).snoc rfl, by decide +kernel, by decide +kernel,
    by decide +kernel⟩

end StreamsMap

end MPQuic
