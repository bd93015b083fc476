import MPQuic.Streams.Operations

/-!
# Closed streams

`GetOrOpenStream` returns no stream and no error for a stream that was opened and removed. The map
does not remember these streams. It compares the number with `nextStream`, the next own stream, or
with `highestStreamOpenedByPeer`. `Recorded` says what the two counters record about the streams
that were opened; `recognisesClosed_iff` says for which streams the comparison is right.
-/

namespace MPQuic

namespace StreamsMap

open Transition

variable {m m' : StreamsMap} {id : ℕ} {p : Perspective}

/-! ## What the counters record -/

/-- The number of streams that this side has opened. -/
def ownOpened (m : StreamsMap) : ℕ := m.opened.countP m.perspective.opens

/-- The streams that were opened, as the counters know them. -/
structure Recorded (m : StreamsMap) : Prop where
  numbered : m.Numbered
  next : m.nextStream = (m.perspective.firstStream + 2 * m.ownOpened) % uint32Size
  own : ∀ id, m.perspective.opens id →
    (id ∈ m.opened ↔ ∃ i < m.ownOpened, id = (m.perspective.firstStream + 2 * i) % uint32Size)
  peer : ∀ id, ¬m.perspective.opens id →
    (id ∈ m.opened ↔ id ≠ 0 ∧ id ≤ m.highestStreamOpenedByPeer)
  opened : ∀ id ∈ m.ids, id ∈ m.opened

theorem Recorded.new (p : Perspective) (maxOutgoingStreams : ℕ) :
    Recorded (new p maxOutgoingStreams) where
  numbered := .new p maxOutgoingStreams
  next := by cases p <;> rfl
  own id _ := by
    constructor
    · exact (nomatch ·)
    · rintro ⟨i, hi, -⟩
      exact absurd hi (Nat.not_lt_zero i)
  peer id _ := by
    constructor
    · exact (nomatch ·)
    · rintro ⟨hne, hle⟩
      exact absurd (Nat.le_zero.mp hle) hne
  opened _ h := absurd h List.not_mem_nil

/-- What opens no stream leaves the records as they are. -/
theorem Recorded.of_eq (h : Recorded m) (hp : m'.perspective = m.perspective)
    (hnext : m'.nextStream = m.nextStream)
    (hhighest : m'.highestStreamOpenedByPeer = m.highestStreamOpenedByPeer)
    (hopened : m'.opened = m.opened) (hids : ∀ id ∈ m'.ids, id ∈ m.ids) : Recorded m' := by
  have hcount : m'.ownOpened = m.ownOpened := by rw [ownOpened, hopened, hp, ownOpened]
  refine ⟨h.numbered.of_eq hp hnext hhighest, ?_, ?_, ?_, ?_⟩
  · rw [hnext, hp, hcount, h.next]
  · rw [hp, hopened, hcount]
    exact h.own
  · rw [hp, hopened, hhighest]
    exact h.peer
  · rw [hopened]
    exact fun id hid => h.opened id (hids id hid)

theorem Recorded.same (h : Recorded m) (hsame : SameStreams m m') : Recorded m' :=
  h.of_eq hsame.perspective hsame.nextStream hsame.highestStreamOpenedByPeer hsame.opened
    (hsame.ids ▸ fun _ hid => hid)

theorem Recorded.removed (h : Recorded m) (hremoved : Removed m id m') : Recorded m' :=
  h.of_eq hremoved.perspective hremoved.nextStream hremoved.highestStreamOpenedByPeer
    hremoved.opened fun _ hid => (hremoved.mem_ids.mp hid).2

theorem Opened.mem_opened {id' : ℕ} (h : Opened m p id m') :
    id' ∈ m'.opened ↔ id' ∈ m.opened ∨ id' = id := by
  rw [h.opened, List.mem_append, List.mem_singleton]

/-- The number of own streams grows with an own stream. -/
theorem Opened.ownOpened_eq (h : Opened m p id m') :
    m'.ownOpened = m.ownOpened + if m.perspective.opens id then 1 else 0 := by
  rw [ownOpened, h.opened, h.perspective, List.countP_append, ownOpened, List.countP_singleton]

theorem Opened.ids_subset_opened (h : Opened m p id m') (hm : ∀ id ∈ m.ids, id ∈ m.opened) :
    ∀ id ∈ m'.ids, id ∈ m'.opened := by
  intro id' hid
  rw [h.mem_opened]
  exact (h.mem_ids.mp hid).imp_left (hm id')

/-- An own stream is recorded by `nextStream`. -/
theorem Recorded.openStreamImpl (h : Recorded m)
    (hmax : m.numOutgoingStreams < m.maxOutgoingStreams) : Recorded m.openStreamImpl.2 := by
  obtain ⟨hopened, hnext, hhighest⟩ := openStreamImpl_spec hmax
  have hown := h.numbered.own
  have hcount : m.openStreamImpl.2.ownOpened = m.ownOpened + 1 := by
    rw [hopened.ownOpened_eq, if_pos hown]
  refine ⟨h.numbered.openStreamImpl hmax, ?_, ?_, ?_, hopened.ids_subset_opened h.opened⟩
  · -- `nextStream` may wrap around, but so does the number it stands for
    rw [hnext, h.next, hopened.perspective, hcount, uint32Add, Nat.mod_add_mod, Nat.mul_succ,
      Nat.add_assoc]
  · rw [hopened.perspective, hcount]
    intro id hid
    rw [hopened.mem_opened, h.own id hid, h.next]
    constructor
    · rintro (⟨i, hi, heq⟩ | heq)
      · exact ⟨i, Nat.lt_succ_of_lt hi, heq⟩
      · exact ⟨_, Nat.lt_succ_self _, heq⟩
    · rintro ⟨i, hi, heq⟩
      rcases Nat.lt_succ_iff_lt_or_eq.mp hi with hlt | rfl
      · exact .inl ⟨i, hlt, heq⟩
      · exact .inr heq
  · -- the new stream is none of the peer
    rw [hopened.perspective, hhighest]
    intro id hid
    rw [hopened.mem_opened, ← h.peer id hid, or_iff_left]
    rintro rfl
    exact hid hown

/-- A stream of the peer is recorded by `highestStreamOpenedByPeer`. -/
theorem Recorded.openRemoteStream (h : Recorded m)
    (hopen : m.openRemoteStream m.firstToOpen = .ok m') : Recorded m' := by
  obtain ⟨-, -, hopened, hnext, -⟩ := openRemoteStream_spec hopen
  obtain ⟨hnumbered, hhighest, -⟩ := h.numbered.opened hopen
  obtain ⟨hlt, -, hside, -⟩ := h.numbered.firstToOpen
  have hcount : m'.ownOpened = m.ownOpened := by
    rw [hopened.ownOpened_eq, if_neg hside, Nat.add_zero]
  refine ⟨hnumbered, ?_, ?_, ?_, hopened.ids_subset_opened h.opened⟩
  · rw [hnext, h.next, hopened.perspective, hcount]
  · -- the new stream is none of this side
    rw [hopened.perspective, hcount]
    intro id hid
    rw [hopened.mem_opened, ← h.own id hid, or_iff_left]
    rintro rfl
    exact hside hid
  · rw [hopened.perspective, hhighest]
    intro id hid
    rw [hopened.mem_opened, h.peer id hid]
    constructor
    · rintro (⟨hne, hle⟩ | rfl)
      · exact ⟨hne, hle.trans hlt.le⟩
      · exact ⟨Nat.ne_zero_of_lt hlt, le_rfl⟩
    · rintro ⟨hne, hle⟩
      rcases le_or_gt id m.highestStreamOpenedByPeer with hold | hnew
      · exact .inl ⟨hne, hold⟩
      · exact .inr (h.numbered.eq_firstToOpen hid hnew hle)

theorem Recorded.apply (h : Recorded m) (c : Call) : Recorded (m.apply c) :=
  apply_induction h.numbered h (fun _ _ _ _ h hopen => h.openRemoteStream hopen)
    (fun _ hmax => h.openStreamImpl hmax) (fun _ _ _ h hremoved => h.removed hremoved)
    fun _ hsame _ => h.same hsame

theorem Recorded.of_run {maxOutgoingStreams : ℕ} {calls : List Call}
    (hrun : Run (fun m c m' => m' = m.apply c) (StreamsMap.new p maxOutgoingStreams) calls m) :
    Recorded m := by
  refine Run.invariant (I := fun _ m => Recorded m) (.new p maxOutgoingStreams) ?_ hrun
  rintro - m c - h rfl
  exact h.apply c

/-! ## What `GetOrOpenStream` answers -/

/-- The loop that opens the streams of the peer without an error ends with the stream `id`. -/
theorem mem_ids_openRemoteStreams {n : ℕ} (hm : m.Numbered) (hpeer : ¬m.perspective.opens id)
    (hlt : m.highestStreamOpenedByPeer < id) (hn : id < m.firstToOpen + n)
    (h : openRemoteStreams id n m m.firstToOpen = (none, m')) : id ∈ m'.ids := by
  induction n generalizing m with
  | zero => exact absurd (hm.eq_firstToOpen hpeer hlt (by omega)) (by omega)
  | succ n ih =>
    have hle : m.firstToOpen ≤ id := by
      by_contra hgt
      exact hgt (hm.eq_firstToOpen hpeer hlt (by omega)).ge
    rw [openRemoteStreams, if_neg (by omega)] at h
    cases hopen : m.openRemoteStream m.firstToOpen with
    | error e =>
      rw [hopen] at h
      cases h
    | ok m₁ =>
      obtain ⟨hm₁, hhighest, hnext⟩ := hm.opened hopen
      obtain ⟨-, -, hopened, -⟩ := openRemoteStream_spec hopen
      have hfirst := hm₁.firstToOpen.1
      simp only [hopen, ← hnext] at h
      rcases hle.eq_or_lt with heq | hlt'
      · -- this was the last round
        have hend : openRemoteStreams id n m₁ m₁.firstToOpen = (none, m₁) := by
          cases n with
          | zero => rfl
          | succ n => rw [openRemoteStreams, if_pos (by omega)]
        obtain ⟨-, rfl⟩ := Prod.mk.inj (hend.symm.trans h)
        exact hopened.mem_ids.mpr (.inr heq.symm)
      · exact ih hm₁ (hopened.perspective ▸ hpeer) (by omega) (by omega) h

theorem getOrOpenStream_of_own (hid : id ∉ m.ids) (hown : m.perspective.opens id) :
    (m.getOrOpenStream id).1 =
      if id ≤ m.nextStream then .ok none else .error (.invalidStreamID id) := by
  rw [getOrOpenStream, get_eq_none_iff.mpr hid]
  simp only [if_pos hown]
  split_ifs <;> rfl

/-- A stream of the peer is not there if and only if its number is at most the highest one. -/
theorem getOrOpenStream_of_peer (hm : m.Numbered) (hid : id ∉ m.ids)
    (hpeer : ¬m.perspective.opens id) :
    (m.getOrOpenStream id).1 = .ok none ↔ id ≤ m.highestStreamOpenedByPeer := by
  rw [getOrOpenStream, get_eq_none_iff.mpr hid]
  simp only [if_neg hpeer]
  by_cases hle : id ≤ m.highestStreamOpenedByPeer
  · rw [if_pos hle]
    exact iff_of_true rfl hle
  · rw [if_neg hle]
    refine iff_of_false ?_ hle
    rcases hloop : openRemoteStreams id (id + 1) m m.firstToOpen with ⟨_ | e, m'⟩
    · have hmem := mem_ids_openRemoteStreams hm hpeer (by omega) (by omega) hloop
      obtain ⟨s, hs⟩ := exists_get_iff.mpr hmem
      simp [hs]
    · simp

/-! ## Which closed streams are recognised -/

/-- What is expected of `GetOrOpenStream`: there is no stream and no error exactly for a stream that
was opened and has been removed, an own stream that was never opened is an error, and stream 0 does
not exist. -/
structure RecognisesClosed (m : StreamsMap) (id : ℕ) : Prop where
  closed_iff : (m.getOrOpenStream id).1 = .ok none ↔ id ∈ m.opened ∧ id ∉ m.ids
  never_opened : m.perspective.opens id → id ∉ m.opened →
    (m.getOrOpenStream id).1 = .error (.invalidStreamID id)
  zero : id = 0 → id ∉ m.opened ∧ ∀ s, (m.getOrOpenStream id).1 ≠ .ok (some s)

/-- The number of streams that a side can open before the numbers wrap around. -/
def numOwnIDs : Perspective → ℕ
  | .client => 2 ^ 31
  | .server => 2 ^ 31 - 1

/-- Stream 0 is never recognised: it was never opened, but it is not above any counter. -/
theorem not_recognisesClosed_zero (h : Recorded m) : ¬RecognisesClosed m 0 := by
  intro hrec
  obtain ⟨hnot, -⟩ := hrec.zero rfl
  have hids : 0 ∉ m.ids := fun hid => hnot (h.opened 0 hid)
  refine hnot (hrec.closed_iff.mp ?_).1
  by_cases hown : m.perspective.opens 0 = true
  · rw [getOrOpenStream_of_own hids hown, if_pos (Nat.zero_le _)]
  · exact (getOrOpenStream_of_peer h.numbered hids hown).mpr (Nat.zero_le _)

/-- The own streams that were opened: those below the next one, or all of them after the numbers
have wrapped around. -/
theorem Recorded.mem_opened_iff (h : Recorded m) (hown : m.perspective.opens id) (hzero : id ≠ 0)
    (hid : id < uint32Size) :
    id ∈ m.opened ↔ (m.ownOpened < numOwnIDs m.perspective → id < m.nextStream) := by
  rw [h.own id hown, h.next]
  generalize m.ownOpened = k
  cases hp : m.perspective
  all_goals
    simp only [hp, Perspective.opens, decide_eq_true_eq] at hown
    simp only [Perspective.firstStream, numOwnIDs, uint32Size] at hid ⊢
  case server =>
    constructor
    · rintro ⟨i, hi, rfl⟩ hk
      omega
    · exact fun hlt => ⟨(id - 2) / 2, by omega, by omega⟩
  case client =>
    constructor
    · rintro ⟨i, hi, rfl⟩ hk
      omega
    · exact fun hlt => ⟨(id - 1) / 2, by omega, by omega⟩

/-- For an own stream that is not in the map, `nextStream` must tell whether it was opened. -/
theorem recognisesClosed_own_iff (hmem : id ∉ m.ids) (hown : m.perspective.opens id)
    (hzero : id ≠ 0) : RecognisesClosed m id ↔ (id ≤ m.nextStream ↔ id ∈ m.opened) := by
  have hresult := getOrOpenStream_of_own hmem hown
  have hclosed : (m.getOrOpenStream id).1 = .ok none ↔ id ≤ m.nextStream := by
    rw [hresult]
    split_ifs with hle <;> simp [hle]
  constructor
  · intro h
    rw [← hclosed, h.closed_iff, and_iff_left hmem]
  · intro h
    refine ⟨by rw [hclosed, h, and_iff_left hmem], fun _ hnot => ?_, fun h0 => absurd h0 hzero⟩
    rw [hresult, if_neg (mt h.mp hnot)]

/-- After every run, `GetOrOpenStream` recognises whether the stream `id` was closed if and only if
`id` is not 0, and the stream is in the map, is a stream of the peer, or is not the next own stream.
When all own numbers were used, it must be at most the number that comes next. -/
theorem recognisesClosed_iff {maxOutgoingStreams : ℕ} {calls : List Call}
    (hrun : Run (fun m c m' => m' = m.apply c) (StreamsMap.new p maxOutgoingStreams) calls m)
    (hid : id < uint32Size) :
    RecognisesClosed m id ↔ id ≠ 0 ∧ (id ∈ m.ids ∨ ¬m.perspective.opens id ∨
      if m.ownOpened < numOwnIDs m.perspective then id ≠ m.nextStream else id ≤ m.nextStream) := by
  have h := Recorded.of_run hrun
  by_cases hzero : id = 0
  · subst hzero
    exact iff_of_false (not_recognisesClosed_zero h) fun hcond => hcond.1 rfl
  by_cases hmem : id ∈ m.ids
  · -- the stream is returned
    refine iff_of_true ⟨?_, fun _ hnot => absurd (h.opened id hmem) hnot, fun h0 => absurd h0 hzero⟩
      ⟨hzero, .inl hmem⟩
    obtain ⟨s, hs⟩ := exists_get_iff.mpr hmem
    rw [getOrOpenStream, hs]
    simp [hmem]
  by_cases hown : m.perspective.opens id = true
  swap
  · -- the highest number tells exactly which streams of the peer were opened
    refine iff_of_true ⟨?_, fun h0 => absurd h0 hown, fun h0 => absurd h0 hzero⟩
      ⟨hzero, .inr (.inl hown)⟩
    rw [getOrOpenStream_of_peer h.numbered hmem hown, h.peer id hown]
    tauto
  rw [recognisesClosed_own_iff hmem hown hzero, h.mem_opened_iff hown hzero hid]
  simp only [hzero, hmem, hown, not_true_eq_false, false_or, ne_eq, not_false_eq_true, true_and]
  split_ifs with hk
  · simp only [hk, true_imp_iff]
    omega
  · simp [hk]

/-- A client that has opened and closed stream 1, and a server that knows no stream yet. -/
theorem recognisesClosed_example :
    RecognisesClosed
        (([.openStream, .removeStream 1] : List Call).foldl apply (new .client 100)) 1 ∧
      RecognisesClosed (new .server 100) 4 := by
  have hclosed : Run (fun m c m' => m' = m.apply c) (StreamsMap.new .client 100)
      [.openStream, .removeStream 1]
      (([.openStream, .removeStream 1] : List Call).foldl apply (new .client 100)) :=
    Run.nil.foldl fun _ _ _ => rfl
  exact ⟨(recognisesClosed_iff hclosed (by decide)).mpr ⟨by decide, .inr (.inr (by decide))⟩,
    (recognisesClosed_iff Run.nil (by decide)).mpr ⟨by decide, .inr (.inr (by decide))⟩⟩

/-- The next own stream is taken for a closed one: a client that has opened no stream reports no
error for stream 1, and stream 1 was never opened. The same holds for stream 0. -/
theorem next_taken_for_closed :
    ((new .client 100).getOrOpenStream 1).1 = .ok none ∧ 1 ∉ (new .client 100).opened ∧
      ((new .client 100).getOrOpenStream 0).1 = .ok none ∧
      ((new .server 100).getOrOpenStream 2).1 = .ok none ∧ 2 ∉ (new .server 100).opened := by
  decide

end StreamsMap

end MPQuic
