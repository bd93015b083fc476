import MPQuic.Streams.Limits

/-!
# The representation of the streams map

`openStreams` lists the keys of the map, and the counters count them. This holds as long as no
number is given to two streams: the numbers of the peer's streams increase and never wrap around,
and those of the own streams wrap around after `2 ^ 31` streams.
-/

namespace MPQuic

namespace StreamsMap

open Transition

variable {m m' : StreamsMap} {id : ℕ} {p : Perspective}

/-- Fewer than `2 ^ 31` streams were opened by each side. -/
def FewOpened (m : StreamsMap) : Prop := ∀ p : Perspective, m.opened.countP p.opens < 2 ^ 31

/-- The order of the streams and the counters agree with the map. -/
structure Listed (m : StreamsMap) : Prop where
  openStreams : m.openStreams = m.ids
  counted : ∀ p, m.numStreams p = m.openedBy p
  index : m.roundRobinIndex ≤ m.ids.length
  openedBy_le : ∀ p : Perspective, m.openedBy p ≤ m.opened.countP p.opens

/-- No number is given to two streams. -/
structure Represented (m : StreamsMap) : Prop extends Listed m where
  numbered : m.Numbered
  next : m.nextStream =
    uint32Add m.perspective.firstStream (2 * m.opened.countP m.perspective.opens)
  own : ∀ id ∈ m.ids, m.perspective.opens id →
    id < m.perspective.firstStream + 2 * m.opened.countP m.perspective.opens
  peer : ∀ id ∈ m.ids, ¬m.perspective.opens id → id ≤ m.highestStreamOpenedByPeer

theorem Represented.new (p : Perspective) (maxOutgoingStreams : ℕ) :
    Represented (new p maxOutgoingStreams) where
  openStreams := rfl
  counted q := by cases q <;> rfl
  index := le_rfl
  openedBy_le _ := le_rfl
  numbered := .new p maxOutgoingStreams
  next := by cases p <;> rfl
  own _ h := absurd h List.not_mem_nil
  peer _ h := absurd h List.not_mem_nil

/-- Every stream is a stream of one of the sides. -/
theorem length_ids (m : StreamsMap) : m.ids.length = m.openedBy .client + m.openedBy .server := by
  rw [List.length_eq_countP_add_countP (p := Perspective.client.opens), openedBy, openedBy]
  congr 2
  funext id
  have hserver := Perspective.client.opens_peer id
  change Perspective.server.opens id = _ at hserver
  rw [hserver, Bool.eq_iff_iff]
  simp

theorem Listed.length_lt (h : Listed m) (hfew : m.FewOpened) : m.ids.length < uint32Size := by
  have hclient := (h.openedBy_le .client).trans_lt (hfew .client)
  have hserver := (h.openedBy_le .server).trans_lt (hfew .server)
  rw [length_ids, uint32Size]
  omega

theorem Listed.same (h : Listed m) (hsame : SameStreams m m')
    (hindex : m'.roundRobinIndex ≤ m.ids.length) : Listed m' where
  openStreams := by rw [hsame.openStreams, hsame.ids, h.openStreams]
  counted p := by rw [openedBy, hsame.ids, hsame.numStreams, h.counted, openedBy]
  index := hsame.ids.symm ▸ hindex
  openedBy_le p := by
    rw [openedBy, hsame.ids, hsame.opened]
    exact h.openedBy_le p

/-- A new stream is listed, and counted for the side that opened it. -/
theorem Listed.opened (h : Listed m) (hopened : Opened m p id m') (hid : p.opens id)
    (hfresh : id ∉ m.ids) (hfew : m.FewOpened) : Listed m' := by
  have hids : m'.ids = m.ids ++ [id] := hopened.ids.trans (if_neg hfresh)
  have hcount : ∀ q : Perspective,
      m'.openedBy q = m.openedBy q + if q.opens id then 1 else 0 := by
    intro q
    rw [openedBy, hids, List.countP_append, List.countP_singleton, openedBy]
  have hpeer : ¬p.peer.opens id := by rw [Perspective.opens_peer, hid]; decide
  refine ⟨?_, fun q => ?_, ?_, fun q => ?_⟩
  · rw [hopened.openStreams, if_neg hfresh, hids, h.openStreams]
  · -- the counter of `p` counts the stream, and that of the other side stays
    rw [hcount q]
    rcases p.eq_or_eq_peer q with rfl | rfl
    · have hlt := (h.openedBy_le q).trans_lt (hfew q)
      rw [hopened.counted, if_pos hid, h.counted, uint32Add_eq (by rw [uint32Size]; omega)]
    · rw [hopened.uncounted, if_neg hpeer, h.counted, Nat.add_zero]
  · rw [hopened.roundRobinIndex, hids, List.length_append]
    exact Nat.le_add_right_of_le h.index
  · rw [hcount q, hopened.opened, List.countP_append, List.countP_singleton]
    exact Nat.add_le_add_right (h.openedBy_le q) _

/-- The round-robin index stays within the streams when one of them is deleted: if it was beyond the
stream, it is at least one. -/
theorem Listed.index_removed (h : Listed m) (hremoved : Removed m id m') (hfew : m.FewOpened) :
    m'.roundRobinIndex ≤ m.ids.length - 1 ∧ m'.roundRobinIndex ≤ m.roundRobinIndex := by
  have hlt := h.length_lt hfew
  have hindex := h.index
  obtain ⟨i, hi⟩ := Option.ne_none_iff_exists'.mp
    (mt List.idxOf?_eq_none_iff.mp (not_not_intro hremoved.mem))
  obtain ⟨hi_lt, -⟩ := List.idxOf?_eq_some_iff.mp hi
  rw [hremoved.roundRobinIndex, h.openStreams, hi]
  simp only [Nat.mod_eq_of_lt (hi_lt.trans hlt)]
  -- the index is decremented only if it is above the index of the stream
  split
  · rw [uint32Sub_eq (hindex.trans_lt hlt) (by omega)]
    omega
  · omega

theorem Listed.removed (h : Listed m) (hremoved : Removed m id m') (hfew : m.FewOpened) :
    Listed m' := by
  refine ⟨?_, fun q => ?_, ?_, fun q => ?_⟩
  · rw [hremoved.openStreams, hremoved.ids, h.openStreams]
  · rw [hremoved.openedBy_eq q, ← h.counted]
    by_cases hid : q.opens id
    · have hpos := hremoved.openedBy_pos hid
      have hlt := (h.openedBy_le q).trans_lt (hfew q)
      rw [← h.counted] at hpos hlt
      rw [hremoved.counted q hid, if_pos hid, uint32Sub_eq (by rw [uint32Size]; omega) hpos]
    · rw [hremoved.uncounted q hid, if_neg hid, Nat.sub_zero]
  · rw [hremoved.ids, List.length_erase_of_mem hremoved.mem]
    exact (h.index_removed hremoved hfew).1
  · rw [hremoved.openedBy_eq q, hremoved.opened]
    exact (Nat.sub_le _ _).trans (h.openedBy_le q)

/-! ## Steps -/

theorem Represented.same (h : Represented m) (hsame : SameStreams m m')
    (hindex : m'.roundRobinIndex ≤ m.ids.length) : Represented m' where
  toListed := h.toListed.same hsame hindex
  numbered := h.numbered.of_eq hsame.perspective hsame.nextStream hsame.highestStreamOpenedByPeer
  next := by
    rw [hsame.nextStream, hsame.perspective, hsame.opened]
    exact h.next
  own := by
    rw [hsame.ids, hsame.perspective, hsame.opened]
    exact h.own
  peer := by
    rw [hsame.ids, hsame.perspective, hsame.highestStreamOpenedByPeer]
    exact h.peer

theorem Represented.removed (h : Represented m) (hremoved : Removed m id m')
    (hfew : m.FewOpened) : Represented m' where
  toListed := h.toListed.removed hremoved hfew
  numbered := h.numbered.of_eq hremoved.perspective hremoved.nextStream
    hremoved.highestStreamOpenedByPeer
  next := by
    rw [hremoved.nextStream, hremoved.perspective, hremoved.opened]
    exact h.next
  own := by
    rw [hremoved.perspective, hremoved.opened]
    exact fun id hid => h.own id (hremoved.mem_ids.mp hid).2
  peer := by
    rw [hremoved.perspective, hremoved.highestStreamOpenedByPeer]
    exact fun id hid => h.peer id (hremoved.mem_ids.mp hid).2

/-- The next stream of the peer is above all of its streams. -/
theorem Represented.openRemoteStream (h : Represented m)
    (hopen : m.openRemoteStream m.firstToOpen = .ok m') (hfew : m.FewOpened) : Represented m' := by
  obtain ⟨-, -, hopened, hnext, -⟩ := openRemoteStream_spec hopen
  obtain ⟨hnumbered, hhighest, -⟩ := h.numbered.opened hopen
  obtain ⟨hlt, -, hpeer, -⟩ := h.numbered.firstToOpen
  have hfresh : m.firstToOpen ∉ m.ids := fun hmem => (h.peer _ hmem hpeer).not_gt hlt
  have hown : m'.opened.countP m.perspective.opens = m.opened.countP m.perspective.opens := by
    rw [hopened.opened, List.countP_append, List.countP_singleton, if_neg hpeer, Nat.add_zero]
  have hid : m.perspective.peer.opens m.firstToOpen := by
    rw [Perspective.opens_peer]
    simpa using hpeer
  refine ⟨h.toListed.opened hopened hid hfresh hfew, hnumbered, ?_, ?_, ?_⟩
  · rw [hnext, hopened.perspective, hown]
    exact h.next
  · rw [hopened.perspective, hown]
    intro id hmem hside
    rcases hopened.mem_ids.mp hmem with hmem | rfl
    · exact h.own id hmem hside
    · exact absurd hside hpeer
  · rw [hopened.perspective, hhighest]
    intro id hmem hside
    rcases hopened.mem_ids.mp hmem with hmem | rfl
    · exact (h.peer id hmem hside).trans hlt.le
    · exact le_rfl

/-- The next own stream is above all own streams, since the numbers did not wrap around. -/
theorem Represented.openStreamImpl (h : Represented m)
    (hmax : m.numOutgoingStreams < m.maxOutgoingStreams) (hfew : m.openStreamImpl.2.FewOpened) :
    Represented m.openStreamImpl.2 := by
  obtain ⟨hopened, hnext, hhighest⟩ := openStreamImpl_spec hmax
  have hside := h.numbered.own
  have hfew' : m.FewOpened := by
    intro q
    have := hfew q
    rw [hopened.opened, List.countP_append] at this
    omega
  have hown : m.openStreamImpl.2.opened.countP m.perspective.opens =
      m.opened.countP m.perspective.opens + 1 := by
    rw [hopened.opened, List.countP_append, List.countP_singleton, if_pos hside]
  -- with this stream, fewer than `2 ^ 31` streams were opened, so its number did not wrap around
  have hid : m.nextStream =
      m.perspective.firstStream + 2 * m.opened.countP m.perspective.opens := by
    have hlt := hfew m.perspective
    have hfirst : m.perspective.firstStream ≤ 2 := by cases m.perspective <;> decide
    rw [h.next, uint32Add_eq]
    rw [hown] at hlt
    rw [uint32Size]
    omega
  have hfresh : m.nextStream ∉ m.ids := fun hmem => (h.own _ hmem hside).ne hid
  refine ⟨h.toListed.opened hopened hside hfresh hfew', h.numbered.openStreamImpl hmax, ?_, ?_, ?_⟩
  · rw [hnext, hopened.perspective, hown, hid, Nat.mul_add_one, uint32Add, uint32Add, Nat.add_assoc]
  · rw [hopened.perspective, hown]
    intro id hmem hopens
    rcases hopened.mem_ids.mp hmem with hmem | rfl
    · have := h.own id hmem hopens
      omega
    · omega
  · rw [hopened.perspective, hhighest]
    intro id hmem hopens
    rcases hopened.mem_ids.mp hmem with hmem | rfl
    · exact h.peer id hmem hopens
    · exact absurd hside hopens

/-! ## Runs -/

/-- Fewer streams were opened before. -/
theorem FewOpened.mono (h : m'.FewOpened) (hopened : m.opened <+: m'.opened) : m.FewOpened :=
  fun q => hopened.sublist.countP_le.trans_lt (h q)

/-- Every call keeps the representation, unless more streams were opened. -/
theorem Represented.apply (h : Represented m) {c : Call} (hfew : (m.apply c).FewOpened) :
    Represented (m.apply c) := by
  -- the bound is assumed for the last state only, and the states before have opened fewer streams
  refine apply_induction (P := fun m' => m'.FewOpened → Represented m') h.numbered (fun _ => h)
    (fun _ m₁ m₂ _ h₁ hopen hfew₂ => ?_) (fun _ hmax => h.openStreamImpl hmax)
    (fun id m₁ m₂ h₁ hremoved hfew₂ => ?_) (fun m' hstreams hindex _ => h.same hstreams ?_) hfew
  · have hfew₁ : m₁.FewOpened :=
      hfew₂.mono ((openRemoteStream_spec hopen).2.2.1.opened ▸ List.prefix_append _ _)
    exact (h₁ hfew₁).openRemoteStream hopen hfew₁
  · have hfew₁ : m₁.FewOpened := hfew₂.mono (hremoved.opened ▸ List.prefix_rfl)
    exact (h₁ hfew₁).removed hremoved hfew₁
  · rcases hindex with heq | hlt
    · exact heq ▸ h.index
    · exact hlt.le

/-- The representation after a run in which few streams were opened. -/
theorem Represented.of_run {maxOutgoingStreams : ℕ} {calls : List Call}
    (hrun : Run (fun m c m' => m' = m.apply c) (StreamsMap.new p maxOutgoingStreams) calls m)
    (hfew : m.FewOpened) : Represented m := by
  have h : m.Numbered ∧ (m.FewOpened → Represented m) := by
    refine Run.invariant (I := fun _ m => m.Numbered ∧ (m.FewOpened → Represented m))
      ⟨.new p maxOutgoingStreams, fun _ => .new p maxOutgoingStreams⟩ ?_ hrun
    rintro - m c - ⟨hm, h⟩ rfl
    have hnext := hm.apply c
    exact ⟨hnext.numbered, fun hfew => (h (hfew.mono hnext.opened)).apply hfew⟩
  exact h.2 hfew

end StreamsMap

end MPQuic
