import Mathlib.Order.Basic
import MPQuic.Lib.Transition
import MPQuic.Streams.StreamsMap

/-!
# What the operations of the streams map change

A call of the streams map opens streams, removes streams, or does something else that concerns
neither. `Opened` and `Removed` say once what opening and removing a stream does to the fields, and
`openRemoteStreams_induction` and `iterate_induction` carry a property through the two loops.

The streams of the client are counted in `numIncomingStreams` and those of the server in
`numOutgoingStreams`, on both sides.
-/

namespace MPQuic

open KeyedList

namespace StreamsMap

variable {m m' : StreamsMap} {id : ℕ}

/-- The counter of the streams that a side opened. -/
def numStreams (m : StreamsMap) : Perspective → ℕ
  | .client => m.numIncomingStreams
  | .server => m.numOutgoingStreams

/-- The operation neither accepts a stream nor closes the map. -/
structure Frame (m m' : StreamsMap) : Prop where
  perspective : m'.perspective = m.perspective
  maxOutgoingStreams : m'.maxOutgoingStreams = m.maxOutgoingStreams
  nextStreamToAccept : m'.nextStreamToAccept = m.nextStreamToAccept
  accepted : m'.accepted = m.accepted
  closeErr : m'.closeErr = m.closeErr

/-- The stream `id` was opened by the side `p`. It is not added if it is there already. -/
structure Opened (m : StreamsMap) (p : Perspective) (id : ℕ) (m' : StreamsMap) : Prop
    extends Frame m m' where
  roundRobinIndex : m'.roundRobinIndex = m.roundRobinIndex
  opened : m'.opened = m.opened ++ [id]
  counted : m'.numStreams p = uint32Add (m.numStreams p) 1
  uncounted : m'.numStreams p.peer = m.numStreams p.peer
  ids : m'.ids = if id ∈ m.ids then m.ids else m.ids ++ [id]
  openStreams : m'.openStreams = if id ∈ m.ids then m.openStreams else m.openStreams ++ [id]

/-- The stream `id` was removed. -/
structure Removed (m : StreamsMap) (id : ℕ) (m' : StreamsMap) : Prop extends Frame m m' where
  nextStream : m'.nextStream = m.nextStream
  highestStreamOpenedByPeer : m'.highestStreamOpenedByPeer = m.highestStreamOpenedByPeer
  opened : m'.opened = m.opened
  mem : id ∈ m.ids
  counted : ∀ p : Perspective, p.opens id → m'.numStreams p = uint32Sub (m.numStreams p) 1
  uncounted : ∀ p : Perspective, ¬p.opens id → m'.numStreams p = m.numStreams p
  ids : m'.ids = m.ids.erase id
  sublist : m'.streams.Sublist m.streams
  openStreams : m'.openStreams = m.openStreams.erase id
  roundRobinIndex : m'.roundRobinIndex =
    match m.openStreams.idxOf? id with
    | none => m.roundRobinIndex
    | some i =>
      if i % uint32Size < m.roundRobinIndex then uint32Sub m.roundRobinIndex 1
      else m.roundRobinIndex

/-- No stream was opened or removed. -/
structure SameStreams (m m' : StreamsMap) : Prop where
  perspective : m'.perspective = m.perspective
  maxOutgoingStreams : m'.maxOutgoingStreams = m.maxOutgoingStreams
  nextStream : m'.nextStream = m.nextStream
  highestStreamOpenedByPeer : m'.highestStreamOpenedByPeer = m.highestStreamOpenedByPeer
  opened : m'.opened = m.opened
  numStreams : m'.numStreams = m.numStreams
  ids : m'.ids = m.ids
  openStreams : m'.openStreams = m.openStreams

/-! ## Opening -/

theorem ids_putStream : (m.putStream id).ids = if id ∈ m.ids then m.ids else m.ids ++ [id] := by
  unfold putStream
  split_ifs with h
  · rfl
  · simp only [ids, List.map_append, List.map_cons, List.map_nil, Stream.new]

@[simp]
theorem nextStream_putStream : (m.putStream id).nextStream = m.nextStream := by
  unfold putStream
  split <;> rfl

@[simp]
theorem highestStreamOpenedByPeer_putStream :
    (m.putStream id).highestStreamOpenedByPeer = m.highestStreamOpenedByPeer := by
  unfold putStream
  split <;> rfl

/-- A stream is opened when it was counted and is added to the map. -/
theorem Opened.putStream {p : Perspective} (hframe : Frame m m')
    (hindex : m'.roundRobinIndex = m.roundRobinIndex) (hopened : m'.opened = m.opened ++ [id])
    (hcounted : m'.numStreams p = uint32Add (m.numStreams p) 1)
    (huncounted : m'.numStreams p.peer = m.numStreams p.peer) (hstreams : m'.streams = m.streams)
    (hopen : m'.openStreams = m.openStreams) : Opened m p id (m'.putStream id) := by
  have hids : m'.ids = m.ids := congrArg (List.map Stream.streamID) hstreams
  have hput : (m'.putStream id).ids = if id ∈ m.ids then m.ids else m.ids ++ [id] := by
    rw [ids_putStream, hids]
  by_cases hmem : id ∈ m.ids
  · rw [StreamsMap.putStream, dif_pos (hids ▸ hmem)] at hput ⊢
    exact ⟨hframe, hindex, hopened, hcounted, huncounted, hput, by rw [if_pos hmem, hopen]⟩
  · rw [StreamsMap.putStream, dif_neg (hids ▸ hmem)] at hput ⊢
    exact ⟨⟨hframe.perspective, hframe.maxOutgoingStreams, hframe.nextStreamToAccept,
      hframe.accepted, hframe.closeErr⟩, hindex, hopened, hcounted, huncounted, hput,
      by rw [if_neg hmem, hopen]⟩

/-- What opening a stream of the peer does. -/
theorem openRemoteStream_spec (h : m.openRemoteStream id = .ok m') :
    m.numIncomingStreams < getMaxIncomingStreams ∧
      m.highestStreamOpenedByPeer ≤ uint32Add id maxNewStreamIDDelta ∧
      Opened m m.perspective.peer id m' ∧ m'.nextStream = m.nextStream ∧
      m'.highestStreamOpenedByPeer = max m.highestStreamOpenedByPeer id := by
  unfold openRemoteStream at h
  split at h
  case isTrue => cases h
  case isFalse hmax =>
  split at h
  case isTrue => cases h
  case isFalse hdelta =>
  obtain rfl := Except.ok.inj h
  refine ⟨not_le.mp hmax, not_lt.mp hdelta, ?_, ?_, ?_⟩
  · -- the two sides use different counters, and both are the counter of the peer
    cases hp : m.perspective
    all_goals exact .putStream ⟨hp.symm, rfl, rfl, rfl, rfl⟩ rfl rfl rfl rfl rfl rfl
  · cases hp : m.perspective <;> exact nextStream_putStream
  · have hmax : ∀ a : ℕ, (if a < id then id else a) = max a id := by
      intro a
      split <;> omega
    rw [highestStreamOpenedByPeer_putStream]
    cases hp : m.perspective <;> exact hmax _

/-- What opening a stream does. -/
theorem openStreamImpl_spec (h : m.numOutgoingStreams < m.maxOutgoingStreams) :
    Opened m m.perspective m.nextStream m.openStreamImpl.2 ∧
      m.openStreamImpl.2.nextStream = uint32Add m.nextStream 2 ∧
      m.openStreamImpl.2.highestStreamOpenedByPeer = m.highestStreamOpenedByPeer := by
  unfold openStreamImpl
  rw [if_neg h.not_ge]
  refine ⟨?_, ?_, ?_⟩
  · cases hp : m.perspective
    all_goals exact .putStream ⟨hp.symm, rfl, rfl, rfl, rfl⟩ rfl rfl rfl rfl rfl rfl
  · cases hp : m.perspective <;> exact nextStream_putStream
  · cases hp : m.perspective <;> exact highestStreamOpenedByPeer_putStream

/-- Either the next stream is opened, or nothing happens. -/
theorem openStream_cases (m : StreamsMap) :
    m.openStream.2 = m ∨
      m.numOutgoingStreams < m.maxOutgoingStreams ∧ m.openStream.2 = m.openStreamImpl.2 := by
  unfold openStream
  split
  · exact .inl rfl
  · rcases le_or_gt m.maxOutgoingStreams m.numOutgoingStreams with h | h
    · exact .inl (by rw [openStreamImpl, if_pos h])
    · exact .inr ⟨h, rfl⟩

/-! ## Removing -/

theorem ids_eraseKey (l : List Stream) :
    (eraseKey Stream.streamID id l).map Stream.streamID = (l.map Stream.streamID).erase id := by
  rw [List.erase_eq_eraseP, List.eraseP_map, eraseKey]
  congr 2
  ext s
  rw [Function.comp_apply, Bool.eq_iff_iff, beq_iff_eq, decide_eq_true_eq, eq_comm]

/-- Deleting a stream from the order changes the order and the round-robin index. -/
theorem deleteOpen_eq : m.deleteOpen id = { m with
    openStreams := m.openStreams.erase id
    roundRobinIndex :=
      match m.openStreams.idxOf? id with
      | none => m.roundRobinIndex
      | some i =>
        if i % uint32Size < m.roundRobinIndex then uint32Sub m.roundRobinIndex 1
        else m.roundRobinIndex } := by
  rw [deleteOpen, List.erase_eq_eraseIdx]
  cases m.openStreams.idxOf? id <;> rfl

/-- Only the counter of the side that opened the stream changes. -/
theorem uncount_eq (m : StreamsMap) (id : ℕ) : ∃ outgoing incoming,
    m.uncount id = { m with numOutgoingStreams := outgoing, numIncomingStreams := incoming } ∧
      ∀ p : Perspective, (m.uncount id).numStreams p =
        if p.opens id then uint32Sub (m.numStreams p) 1 else m.numStreams p := by
  rcases Nat.mod_two_eq_zero_or_one id with hid | hid
  · refine ⟨_, _, if_pos hid, fun p => ?_⟩
    cases p <;> simp [uncount, hid, Perspective.opens, numStreams]
  · refine ⟨_, _, if_neg (hid ▸ Nat.one_ne_zero), fun p => ?_⟩
    cases p <;> simp [uncount, hid, Perspective.opens, numStreams]

/-- What removing a stream does. -/
theorem removeStream_spec (h : m.removeStream id = .ok m') : Removed m id m' := by
  have hmem : id ∈ m.ids := by
    by_contra hmem
    rw [removeStream, get_eq_none_iff.mpr hmem] at h
    cases h
  obtain ⟨s, hs⟩ := exists_get_iff.mpr hmem
  obtain ⟨outgoing, incoming, heq, hcount⟩ := uncount_eq m id
  -- the counters are set before the order of the streams is changed
  simp only [removeStream, hs, Option.isNone_some, Bool.false_eq_true, if_false, deleteOpen_eq,
    heq] at h hcount
  obtain rfl := Except.ok.inj h
  exact {
    perspective := rfl, maxOutgoingStreams := rfl, nextStreamToAccept := rfl, accepted := rfl
    closeErr := rfl, nextStream := rfl, highestStreamOpenedByPeer := rfl, opened := rfl, mem := hmem
    counted := fun p hp => (hcount p).trans (if_pos hp)
    uncounted := fun p hp => (hcount p).trans (if_neg hp)
    ids := ids_eraseKey m.streams
    sublist := eraseKey_sublist _ _ _
    openStreams := rfl, roundRobinIndex := rfl }

/-- A stream is removed if it is there. -/
theorem tryRemove_cases (m : StreamsMap) (id : ℕ) :
    m.tryRemove id = m ∨ Removed m id (m.tryRemove id) := by
  unfold tryRemove
  split
  · exact .inr (removeStream_spec ‹_›)
  · exact .inl rfl

/-! ## Membership -/

theorem Opened.mem_ids {p : Perspective} {id' : ℕ} (h : Opened m p id m') :
    id' ∈ m'.ids ↔ id' ∈ m.ids ∨ id' = id := by
  rw [h.ids]
  split_ifs with hmem
  · exact ⟨.inl, fun h => h.elim (fun h => h) fun heq => heq ▸ hmem⟩
  · rw [List.mem_append, List.mem_singleton]

theorem Removed.mem_ids {id' : ℕ} (h : Removed m id m') :
    id' ∈ m'.ids ↔ id' ≠ id ∧ id' ∈ m.ids := by
  rw [h.ids]
  exact m.nodup_ids.mem_erase_iff

/-! ## What neither opens nor removes streams -/

theorem SameStreams.refl (m : StreamsMap) : SameStreams m m :=
  ⟨rfl, rfl, rfl, rfl, rfl, rfl, rfl, rfl⟩

theorem SameStreams.trans {m'' : StreamsMap} (h : SameStreams m m') (h' : SameStreams m' m'') :
    SameStreams m m'' where
  perspective := h'.perspective.trans h.perspective
  maxOutgoingStreams := h'.maxOutgoingStreams.trans h.maxOutgoingStreams
  nextStream := h'.nextStream.trans h.nextStream
  highestStreamOpenedByPeer := h'.highestStreamOpenedByPeer.trans h.highestStreamOpenedByPeer
  opened := h'.opened.trans h.opened
  numStreams := h'.numStreams.trans h.numStreams
  ids := h'.ids.trans h.ids
  openStreams := h'.openStreams.trans h.openStreams

theorem Frame.refl (m : StreamsMap) : Frame m m := ⟨rfl, rfl, rfl, rfl, rfl⟩

theorem Frame.trans {m'' : StreamsMap} (h : Frame m m') (h' : Frame m' m'') : Frame m m'' where
  perspective := h'.perspective.trans h.perspective
  maxOutgoingStreams := h'.maxOutgoingStreams.trans h.maxOutgoingStreams
  nextStreamToAccept := h'.nextStreamToAccept.trans h.nextStreamToAccept
  accepted := h'.accepted.trans h.accepted
  closeErr := h'.closeErr.trans h.closeErr

theorem ids_streamEvent (m : StreamsMap) (id : ℕ) (e : Stream.Event) :
    (m.streamEvent id e).ids = m.ids := by
  unfold ids streamEvent
  rw [List.map_map]
  congr 1
  ext s
  rw [Function.comp_apply]
  split_ifs
  · exact s.streamID_apply e
  · rfl

theorem sameStreams_streamEvent (m : StreamsMap) (id : ℕ) (e : Stream.Event) :
    SameStreams m (m.streamEvent id e) :=
  ⟨rfl, rfl, rfl, rfl, rfl, rfl, ids_streamEvent m id e, rfl⟩

theorem sameStreams_acceptStream (m : StreamsMap) : SameStreams m m.acceptStream.2 := by
  unfold acceptStream
  split
  · exact .refl m
  · split
    · exact .refl m
    · exact ⟨rfl, rfl, rfl, rfl, rfl, rfl, rfl, rfl⟩

theorem roundRobinIndex_acceptStream (m : StreamsMap) :
    m.acceptStream.2.roundRobinIndex = m.roundRobinIndex := by
  unfold acceptStream
  split
  · rfl
  · split <;> rfl

/-- Closing the map cancels the streams. -/
theorem closeWithError_spec (m : StreamsMap) :
    SameStreams m m.closeWithError ∧ m.closeWithError.roundRobinIndex = m.roundRobinIndex := by
  suffices h : ∀ (ids : List ℕ) (m' : StreamsMap),
      let m'' := ids.foldl (fun m id => m.streamEvent id .cancel) m'
      SameStreams m' m'' ∧ m''.roundRobinIndex = m'.roundRobinIndex by
    obtain ⟨hsame, hindex⟩ := h m.openStreams m
    exact ⟨hsame.trans ⟨rfl, rfl, rfl, rfl, rfl, rfl, rfl, rfl⟩, hindex⟩
  intro ids
  induction ids with
  | nil => exact fun m' => ⟨.refl m', rfl⟩
  | cons id ids ih =>
    intro m'
    obtain ⟨hsame, hindex⟩ := ih (m'.streamEvent id .cancel)
    exact ⟨(sameStreams_streamEvent m' id .cancel).trans hsame, hindex⟩

/-- The loop over the streams changes nothing but the round-robin index. -/
theorem iterateOthers_spec {fn : StreamLambda} {n : ℕ} {ids : List (Option ℕ)} {visited : List ℕ}
    {it : Iteration} (hn : ids ≠ [] → 0 < n) (h : iterateOthers fn n ids visited m = some it) :
    SameStreams m it.streamsMap ∧ Frame m it.streamsMap ∧
      (it.streamsMap.roundRobinIndex = m.roundRobinIndex ∨
        it.streamsMap.roundRobinIndex < n) := by
  induction ids generalizing visited m with
  | nil =>
    obtain rfl := Option.some.inj h
    exact ⟨.refl m, .refl m, .inl rfl⟩
  | cons id ids ih =>
    have hpos : 0 < n := hn (List.cons_ne_nil _ _)
    cases id with
    | none => cases h
    | some id =>
      unfold iterateOthers at h
      split at h
      case isTrue => exact ih (fun _ => hpos) h
      case isFalse =>
      split at h
      case h_1 =>
        obtain rfl := Option.some.inj h
        exact ⟨.refl m, .refl m, .inl rfl⟩
      case h_2 =>
      -- the index moves on, whether or not this was the last stream
      have hsame : SameStreams m
          { m with roundRobinIndex := uint32Add m.roundRobinIndex 1 % n } :=
        ⟨rfl, rfl, rfl, rfl, rfl, rfl, rfl, rfl⟩
      have hframe : Frame m { m with roundRobinIndex := uint32Add m.roundRobinIndex 1 % n } :=
        ⟨rfl, rfl, rfl, rfl, rfl⟩
      split at h
      case isTrue =>
        obtain ⟨hsame', hframe', hindex⟩ := ih (fun _ => hpos) h
        refine ⟨hsame.trans hsame', hframe.trans hframe', .inr ?_⟩
        rcases hindex with heq | hlt
        · exact heq ▸ Nat.mod_lt _ hpos
        · exact hlt
      case isFalse =>
        obtain rfl := Option.some.inj h
        exact ⟨hsame, hframe, .inr (Nat.mod_lt _ hpos)⟩

theorem roundRobinIterate_spec {fn : StreamLambda} {it : Iteration}
    (h : m.roundRobinIterate fn = some it) :
    SameStreams m it.streamsMap ∧ Frame m it.streamsMap ∧
      (it.streamsMap.roundRobinIndex = m.roundRobinIndex ∨
        it.streamsMap.roundRobinIndex < m.streams.length % uint32Size) := by
  unfold roundRobinIterate at h
  split at h
  · obtain rfl := Option.some.inj h
    exact ⟨.refl m, .refl m, .inl rfl⟩
  · refine iterateOthers_spec (fun hne => Nat.pos_of_ne_zero fun hzero => hne ?_) h
    rw [rotation, hzero]
    rfl

/-! ## The loop of `GetOrOpenStream` -/

/-- The next streams of both sides have the numbers of this side. Those of the peer stay so far
below the end of their range that the next one can be computed: above it, the distance to the
highest stream wraps around, and no stream is opened. -/
structure Numbered (m : StreamsMap) : Prop where
  own : m.perspective.opens m.nextStream
  peer : m.highestStreamOpenedByPeer = 0 ∨ ¬m.perspective.opens m.highestStreamOpenedByPeer
  low : m.highestStreamOpenedByPeer + maxNewStreamIDDelta < uint32Size

theorem Numbered.new (p : Perspective) (maxOutgoingStreams : ℕ) :
    (new p maxOutgoingStreams).Numbered where
  own := by cases p <;> simp [StreamsMap.new, Perspective.opens, Perspective.firstStream]
  peer := .inl rfl
  low := by
    show 0 + maxNewStreamIDDelta < uint32Size
    decide

theorem Numbered.of_eq (h : m.Numbered) (hp : m'.perspective = m.perspective)
    (hnext : m'.nextStream = m.nextStream)
    (hhighest : m'.highestStreamOpenedByPeer = m.highestStreamOpenedByPeer) : m'.Numbered :=
  ⟨by rw [hp, hnext]; exact h.own, by rw [hp, hhighest]; exact h.peer, hhighest ▸ h.low⟩

/-- Opening a stream goes on to the next number of this side. -/
theorem Numbered.openStreamImpl (h : m.Numbered)
    (hmax : m.numOutgoingStreams < m.maxOutgoingStreams) : m.openStreamImpl.2.Numbered := by
  obtain ⟨hopened, hnext, hhighest⟩ := openStreamImpl_spec hmax
  refine ⟨?_, by rw [hopened.perspective, hhighest]; exact h.peer, hhighest ▸ h.low⟩
  rw [hopened.perspective, hnext, Perspective.opens_uint32Add_two]
  exact h.own

/-- The loop starts after the highest stream, with a stream of the peer. -/
theorem Numbered.firstToOpen (h : m.Numbered) :
    m.highestStreamOpenedByPeer < m.firstToOpen ∧
      m.firstToOpen ≤ m.highestStreamOpenedByPeer + 2 ∧ ¬m.perspective.opens m.firstToOpen ∧
      (m.highestStreamOpenedByPeer ≠ 0 ∨ m.perspective = .client →
        m.firstToOpen = m.highestStreamOpenedByPeer + 2) := by
  obtain ⟨-, hpeer, hlow⟩ := h
  simp only [maxNewStreamIDDelta, maxStreamsPerConnection] at hlow
  rw [StreamsMap.firstToOpen, uint32Add_eq (by omega)]
  cases hp : m.perspective with
  | server =>
    simp only [hp, Perspective.opens, decide_eq_true_eq] at hpeer ⊢
    -- stream 1 is opened first
    rcases hpeer with hzero | hodd
    · simp [hzero]
    · rw [if_neg (by omega)]
      omega
  | client =>
    simp only [hp, Perspective.opens, decide_eq_true_eq] at hpeer ⊢
    rw [if_neg (by simp)]
    omega

/-- Between the highest stream of the peer and the next one there is no stream of the peer. -/
theorem Numbered.eq_firstToOpen (h : m.Numbered) (hpeer : ¬m.perspective.opens id)
    (hlt : m.highestStreamOpenedByPeer < id) (hle : id ≤ m.firstToOpen) : id = m.firstToOpen := by
  obtain ⟨-, hfirst_le, hfirst, -⟩ := h.firstToOpen
  have hhighest := h.peer
  cases hp : m.perspective
  all_goals
    simp only [hp, Perspective.opens, decide_eq_true_eq] at hpeer hfirst hhighest
    omega

/-- The loop goes on with the next stream. -/
theorem Numbered.opened (h : m.Numbered) (hopen : m.openRemoteStream m.firstToOpen = .ok m') :
    m'.Numbered ∧ m'.highestStreamOpenedByPeer = m.firstToOpen ∧
      m'.firstToOpen = uint32Add m.firstToOpen 2 := by
  obtain ⟨hlt, hle, hside, -⟩ := h.firstToOpen
  obtain ⟨-, hdelta, hopened, hnext, hhighest⟩ := openRemoteStream_spec hopen
  have hmax : m'.highestStreamOpenedByPeer = m.firstToOpen := by omega
  -- if the distance wrapped around, the stream would be far below the highest one and be refused
  have hlow : m.firstToOpen + maxNewStreamIDDelta < uint32Size := by
    have := h.low
    simp only [uint32Add, uint32Size, maxNewStreamIDDelta, maxStreamsPerConnection] at *
    omega
  have hm' : m'.Numbered :=
    ⟨by rw [hopened.perspective, hnext]; exact h.own,
      .inr (by rw [hmax, hopened.perspective]; exact hside), hmax ▸ hlow⟩
  refine ⟨hm', hmax, ?_⟩
  rw [hm'.firstToOpen.2.2.2 (.inl (by omega)), hmax, uint32Add_eq]
  simp only [maxNewStreamIDDelta, maxStreamsPerConnection] at hlow
  omega

variable {P : StreamsMap → Prop}

/-- What every opening of the loop keeps holds after the loop. -/
theorem openRemoteStreams_induction {P : StreamsMap → Prop}
    (hstep : ∀ m m', m.Numbered → P m → m.firstToOpen ≤ id →
      m.openRemoteStream m.firstToOpen = .ok m' → P m')
    (n : ℕ) (hm : m.Numbered) (h : P m) :
    (openRemoteStreams id n m m.firstToOpen).2.Numbered ∧
      P (openRemoteStreams id n m m.firstToOpen).2 := by
  induction n generalizing m with
  | zero => exact ⟨hm, h⟩
  | succ n ih =>
    unfold openRemoteStreams
    split
    case isTrue => exact ⟨hm, h⟩
    case isFalse hid =>
      cases hopen : m.openRemoteStream m.firstToOpen with
      | error e => exact ⟨hm, h⟩
      | ok m' =>
        -- the number of the next round is the first one to open in the new state
        obtain ⟨hnumbered, -, hnext⟩ := hm.opened hopen
        rw [← hnext]
        exact ih hnumbered (hstep m m' hm h (not_lt.mp hid) hopen)

/-- As many rounds as there are numbers up to `id` are enough: a further round changes nothing. -/
theorem openRemoteStreams_rounds (hm : m.Numbered) {n : ℕ} (hn : id < m.firstToOpen + n) :
    openRemoteStreams id (n + 1) m m.firstToOpen = openRemoteStreams id n m m.firstToOpen := by
  induction n generalizing m with
  | zero => rw [openRemoteStreams, openRemoteStreams, if_pos (by omega)]
  | succ n ih =>
    rw [openRemoteStreams]
    conv_rhs => rw [openRemoteStreams]
    split
    · rfl
    · cases hopen : m.openRemoteStream m.firstToOpen with
      | error e => rfl
      | ok m' =>
        -- each round opens a higher stream, so it uses up one of the numbers up to `id`
        obtain ⟨hnumbered, hhighest, hnext⟩ := hm.opened hopen
        have := hnumbered.firstToOpen.1
        simp only [← hnext]
        exact ih hnumbered (by omega)

/-- What every opening of a stream of the peer keeps holds after `GetOrOpenStream`. -/
theorem getOrOpenStream_induction {P : StreamsMap → Prop}
    (hstep : ¬m.perspective.opens id → m.highestStreamOpenedByPeer < id →
      ∀ m₁ m₂, m₁.Numbered → P m₁ → m₁.firstToOpen ≤ id →
        m₁.openRemoteStream m₁.firstToOpen = .ok m₂ → P m₂)
    (hm : m.Numbered) (h : P m) :
    (m.getOrOpenStream id).2.Numbered ∧ P (m.getOrOpenStream id).2 := by
  unfold getOrOpenStream
  split
  · exact ⟨hm, h⟩
  · split
    · split <;> exact ⟨hm, h⟩
    · split
      · exact ⟨hm, h⟩
      · have hloop := openRemoteStreams_induction (hstep ‹_› (not_le.mp ‹_›)) (id + 1) hm h
        split <;> simp_all

/-! ## The loop of `Iterate` -/

/-- What every removal of a callback keeps holds after the iteration. -/
theorem iterateLoop_induction {P : StreamsMap → Prop} {fn : List ℕ → Stream → Outcome}
    (hstep : ∀ visited, ∀ s ∈ m.streams, ∀ id ∈ (fn visited s).remove, ∀ m₁ m₂,
      P m₁ → Removed m₁ id m₂ → P m₂)
    {ids visited : List ℕ} (hsub : m'.streams.Sublist m.streams) (h : P m') :
    P (iterateLoop fn ids visited m').2 := by
  induction ids generalizing visited m' with
  | nil => exact h
  | cons id ids ih =>
    unfold iterateLoop
    split
    case h_1 => exact h
    case h_2 s hs =>
    have hmem : s ∈ m.streams := hsub.subset (List.mem_of_find?_eq_some hs)
    -- the callback removes its streams one after the other
    have hremoved : ∀ (l : List ℕ) (m₁ : StreamsMap), (∀ id ∈ l, id ∈ (fn visited s).remove) →
        m₁.streams.Sublist m.streams → P m₁ →
        (l.foldl tryRemove m₁).streams.Sublist m.streams ∧ P (l.foldl tryRemove m₁) := by
      intro l
      induction l with
      | nil => exact fun m₁ _ hsub h => ⟨hsub, h⟩
      | cons id l ihl =>
        intro m₁ hl hsub h
        obtain ⟨hid, hl⟩ := List.forall_mem_cons.mp hl
        rcases tryRemove_cases m₁ id with heq | hrem
        · rw [List.foldl_cons, heq]
          exact ihl m₁ hl hsub h
        · exact ihl _ hl (hrem.sublist.trans hsub) (hstep visited s hmem id hid m₁ _ h hrem)
    obtain ⟨hsub', hP⟩ := hremoved (fn visited s).remove m' (fun _ h => h) hsub h
    dsimp only
    split
    · exact hP
    · split
      · exact ih hsub' hP
      · exact hP

theorem iterate_induction {P : StreamsMap → Prop} {fn : List ℕ → Stream → Outcome}
    (hstep : ∀ visited, ∀ s ∈ m.streams, ∀ id ∈ (fn visited s).remove, ∀ m₁ m₂,
      P m₁ → Removed m₁ id m₂ → P m₂)
    (h : P m) : P (m.iterate fn).2 :=
  iterateLoop_induction hstep (List.Sublist.refl _) h

/-! ## Runs -/

/-- A call of the streams map. -/
inductive Call where
  | getOrOpenStream (id : ℕ)
  | openStream
  | acceptStream
  | removeStream (id : ℕ)
  /-- Something happens to a stream. -/
  | streamEvent (id : ℕ) (e : Stream.Event)
  | iterate (fn : List ℕ → Stream → Outcome)
  | garbageCollectStreams
  | roundRobinIterate (fn : StreamLambda)
  | closeWithError

/-- The map after a call. -/
def apply (m : StreamsMap) : Call → StreamsMap
  | .getOrOpenStream id => (m.getOrOpenStream id).2
  | .openStream => m.openStream.2
  | .acceptStream => m.acceptStream.2
  | .removeStream id => m.tryRemove id
  | .streamEvent id e => m.streamEvent id e
  | .iterate fn => (m.iterate fn).2
  | .garbageCollectStreams => m.garbageCollectStreams
  | .roundRobinIterate fn =>
    match m.roundRobinIterate fn with
    | some it => it.streamsMap
    | none => m
  | .closeWithError => m.closeWithError

/-- What the openings of streams, the removals of streams, and the calls that do neither keep holds
after every call. -/
theorem apply_induction {P : StreamsMap → Prop} {c : Call} (hm : m.Numbered) (h : P m)
    (hremote : (∃ id, c = .getOrOpenStream id) → ∀ m₁ m₂, m₁.Numbered → P m₁ →
      m₁.openRemoteStream m₁.firstToOpen = .ok m₂ → P m₂)
    (hown : c = .openStream → m.numOutgoingStreams < m.maxOutgoingStreams → P m.openStreamImpl.2)
    (hremove : ∀ id m₁ m₂, P m₁ → Removed m₁ id m₂ → P m₂)
    (hsame : ∀ m', SameStreams m m' →
      m'.roundRobinIndex = m.roundRobinIndex ∨ m'.roundRobinIndex < m.ids.length → P m') :
    P (m.apply c) := by
  cases c with
  | getOrOpenStream id =>
    refine (getOrOpenStream_induction (fun _ _ m₁ m₂ hm₁ h _ hopen => ?_) hm h).2
    exact hremote ⟨id, rfl⟩ m₁ m₂ hm₁ h hopen
  | openStream =>
    rcases openStream_cases m with heq | ⟨hmax, heq⟩
    · exact (congrArg P heq).mpr h
    · exact (congrArg P heq).mpr (hown rfl hmax)
  | acceptStream =>
    exact hsame _ (sameStreams_acceptStream m) (.inl (roundRobinIndex_acceptStream m))
  | removeStream id =>
    rcases tryRemove_cases m id with heq | hremoved
    · exact (congrArg P heq).mpr h
    · exact hremove id _ _ h hremoved
  | streamEvent id e => exact hsame _ (sameStreams_streamEvent m id e) (.inl rfl)
  | iterate fn => exact iterate_induction (fun _ _ _ id _ => hremove id) h
  | garbageCollectStreams => exact iterate_induction (fun _ _ _ id _ => hremove id) h
  | roundRobinIterate fn =>
    simp only [apply]
    split
    case h_1 it hit =>
      obtain ⟨hstreams, -, hindex⟩ := roundRobinIterate_spec hit
      refine hsame _ hstreams (hindex.imp_right fun hlt => hlt.trans_le ?_)
      rw [ids, List.length_map]
      exact Nat.mod_le _ _
    case h_2 => exact h
  | closeWithError =>
    obtain ⟨hstreams, hindex⟩ := closeWithError_spec m
    exact hsame _ hstreams (.inl hindex)

/-- A later map of the same session. -/
structure Follows (m m' : StreamsMap) : Prop where
  numbered : m'.Numbered
  perspective : m'.perspective = m.perspective
  maxOutgoingStreams : m'.maxOutgoingStreams = m.maxOutgoingStreams
  opened : m.opened <+: m'.opened

section Follows

variable {m'' : StreamsMap} (h : Follows m m')
include h

theorem Follows.trans (h' : Follows m' m'') : Follows m m'' :=
  ⟨h'.numbered, h'.perspective.trans h.perspective,
    h'.maxOutgoingStreams.trans h.maxOutgoingStreams, h.opened.trans h'.opened⟩

theorem Follows.open {p : Perspective} (hopened : Opened m' p id m'') (hm'' : m''.Numbered) :
    Follows m m'' :=
  h.trans ⟨hm'', hopened.perspective, hopened.maxOutgoingStreams,
    hopened.opened ▸ List.prefix_append _ _⟩

theorem Follows.same (hsame : SameStreams m' m'') : Follows m m'' :=
  h.trans ⟨h.numbered.of_eq hsame.perspective hsame.nextStream hsame.highestStreamOpenedByPeer,
    hsame.perspective, hsame.maxOutgoingStreams, hsame.opened ▸ List.prefix_rfl⟩

theorem Follows.remove (hremoved : Removed m' id m'') : Follows m m'' :=
  h.trans ⟨h.numbered.of_eq hremoved.perspective hremoved.nextStream
      hremoved.highestStreamOpenedByPeer,
    hremoved.perspective, hremoved.maxOutgoingStreams, hremoved.opened ▸ List.prefix_rfl⟩

end Follows

/-- Every call keeps the numbers in order, and forgets no stream that was opened. -/
theorem Numbered.apply (hm : m.Numbered) (c : Call) : Follows m (m.apply c) := by
  have hrefl : Follows m m := ⟨hm, rfl, rfl, List.prefix_rfl⟩
  refine apply_induction hm hrefl (fun _ m₁ m₂ hm₁ h hopen => ?_) (fun _ hmax => ?_)
    (fun _ _ _ h hremoved => h.remove hremoved) fun _ hstreams _ => hrefl.same hstreams
  · exact h.open (openRemoteStream_spec hopen).2.2.1 (hm₁.opened hopen).1
  · exact hrefl.open (openStreamImpl_spec hmax).1 (hm.openStreamImpl hmax)

end StreamsMap

end MPQuic
