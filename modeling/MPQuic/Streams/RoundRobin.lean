import Mathlib.Data.List.GetD
import Mathlib.Data.List.NodupEquivFin
import Mathlib.Data.List.Rotate
import MPQuic.Streams.Represented

/-!
# Visiting the streams in turn

`RoundRobinIterate` visits streams 1 and 3, and then the other streams from the round-robin index
on. The loop computes the indices with `uint32` arithmetic. As long as the round-robin index plus
the number of streams is at most `2 ^ 32` no index wraps around, and the streams are visited in the
order of `openStreams`, rotated by the round-robin index.
-/

namespace MPQuic

namespace StreamsMap

open Transition

variable {m : StreamsMap} {id : ℕ} {p : Perspective} {fn : StreamLambda}

/-- The callback neither stops the iteration nor fails. -/
def Continues (fn : StreamLambda) : Prop := ∀ visited s, fn visited s = (true, none)

/-! ## The prioritized streams -/

theorem iterateFunc_of_mem (hid : id ∈ m.ids) (fn : StreamLambda) (visited : List ℕ) :
    ∃ s, m.iterateFunc fn visited id = (visited ++ [id], fn visited s) := by
  obtain ⟨s, hs⟩ := exists_get_iff.mpr hid
  exact ⟨s, by rw [iterateFunc, hs]⟩

theorem iterateFunc_of_not_mem (hid : id ∉ m.ids) (fn : StreamLambda) (visited : List ℕ) :
    m.iterateFunc fn visited id = (visited, true, some .mapAccess) := by
  rw [iterateFunc, get_eq_none_iff.mpr hid]

/-- After an open stream the loop goes on, or the callback ended it. -/
theorem iteratePrioritized_cons (hid : id ∈ m.ids) (l visited : List ℕ) :
    m.iteratePrioritized fn (id :: l) visited = m.iteratePrioritized fn l (visited ++ [id]) ∨
      ¬Continues fn ∧
        ∃ r, m.iteratePrioritized fn (id :: l) visited = (visited ++ [id], some r) := by
  obtain ⟨s, hs⟩ := iterateFunc_of_mem hid fn visited
  rw [iteratePrioritized, hs]
  have hstop : fn visited s ≠ (true, none) → ¬Continues fn := fun hne h => hne (h visited s)
  rcases hfn : fn visited s with ⟨cont, err⟩
  rw [hfn] at hstop
  split
  case h_1 heq =>
    obtain ⟨rfl, rfl, rfl⟩ : visited ++ [id] = _ ∧ cont = _ ∧ err = some .callback := by
      simpa using heq
    exact .inr ⟨hstop (by simp), _, rfl⟩
  case h_2 heq =>
    -- an access error is ignored, even if it is the callback that returns it
    obtain ⟨rfl, rfl, rfl⟩ : visited ++ [id] = _ ∧ cont = _ ∧ err = _ := by simpa using heq
    split
    · exact .inl rfl
    · exact .inr ⟨hstop (by simp_all), _, rfl⟩

/-- The loop over the prioritized streams visits those that are open, up to the one where it stops.
-/
theorem iteratePrioritized_visited (m : StreamsMap) (fn : StreamLambda) (l visited : List ℕ) :
    ∃ t, t <+: l.filter (· ∈ m.ids) ∧
      (m.iteratePrioritized fn l visited).1 = visited ++ t ∧
      ((m.iteratePrioritized fn l visited).2 = none → t = l.filter (· ∈ m.ids)) ∧
      (Continues fn → (m.iteratePrioritized fn l visited).2 = none) := by
  induction l generalizing visited with
  | nil => exact ⟨[], List.prefix_rfl, (List.append_nil _).symm, fun _ => rfl, fun _ => rfl⟩
  | cons id l ih =>
    by_cases hid : id ∈ m.ids
    · rw [List.filter_cons_of_pos (by simpa using hid)]
      rcases iteratePrioritized_cons hid l visited with heq | ⟨hstop, r, heq⟩
      · obtain ⟨t, ht, hvisited, hend, hcont⟩ := ih (visited ++ [id])
        rw [heq]
        exact ⟨id :: t, (List.prefix_cons_inj id).mpr ht,
          hvisited.trans (List.append_assoc visited [id] t), fun h => congrArg (id :: ·) (hend h),
          hcont⟩
      · rw [heq]
        exact ⟨[id], ⟨_, rfl⟩, rfl, (nomatch ·), fun h => absurd h hstop⟩
    · rw [List.filter_cons_of_neg (by simpa using hid), iteratePrioritized,
        iterateFunc_of_not_mem hid]
      exact ih visited

/-! ## The other streams -/

/-- The round-robin index goes on to the next stream. -/
def moveOn (m : StreamsMap) (n : ℕ) : StreamsMap :=
  { m with roundRobinIndex := uint32Add m.roundRobinIndex 1 % n }

/-- After a stream the loop goes on, or the callback ended it. -/
theorem iterateOthers_cons (hid : id ∈ m.ids) (hother : id ∉ prioritized) (n : ℕ)
    (l : List (Option ℕ)) (visited : List ℕ) :
    iterateOthers fn n (some id :: l) visited m =
        iterateOthers fn n l (visited ++ [id]) (m.moveOn n) ∨
      ¬Continues fn ∧ ∃ it, iterateOthers fn n (some id :: l) visited m = some it ∧
        it.visited = visited ++ [id] := by
  obtain ⟨s, hs⟩ := iterateFunc_of_mem hid fn visited
  rw [iterateOthers, if_neg hother, hs]
  have hstop : fn visited s ≠ (true, none) → ¬Continues fn := fun hne h => hne (h visited s)
  rcases hfn : fn visited s with ⟨cont, err⟩
  rw [hfn] at hstop
  cases err with
  | some e => exact .inr ⟨hstop (by simp), _, rfl, rfl⟩
  | none =>
    cases cont with
    | true => exact .inl rfl
    | false => exact .inr ⟨hstop (by simp), _, rfl, rfl⟩

/-- The loop over the other streams visits them in the given order, up to the one where it stops. -/
theorem iterateOthers_visited {n : ℕ} {l visited : List ℕ} (hl : ∀ id ∈ l, id ∈ m.ids) :
    ∃ it t, iterateOthers fn n (l.map some) visited m = some it ∧
      t <+: l.filter (· ∉ prioritized) ∧ it.visited = visited ++ t ∧
      (Continues fn → t = l.filter (· ∉ prioritized)) := by
  induction l generalizing visited m with
  | nil => exact ⟨_, [], rfl, List.prefix_rfl, (List.append_nil _).symm, fun _ => rfl⟩
  | cons id l ih =>
    obtain ⟨hid, hl⟩ := List.forall_mem_cons.mp hl
    rw [List.map_cons]
    by_cases hprio : id ∈ prioritized
    · rw [List.filter_cons_of_neg (by simpa using hprio), iterateOthers, if_pos hprio]
      exact ih hl
    · rw [List.filter_cons_of_pos (by simpa using hprio)]
      rcases iterateOthers_cons hid hprio n (l.map some) visited with
        heq | ⟨hstop, it, heq, hvisited⟩
      · obtain ⟨it, t, hit, ht, hvisited, hcont⟩ := @ih (m.moveOn n) (visited ++ [id]) hl
        rw [heq]
        exact ⟨it, id :: t, hit, (List.prefix_cons_inj id).mpr ht,
          hvisited.trans (List.append_assoc visited [id] t), fun h => congrArg (id :: ·) (hcont h)⟩
      · exact ⟨it, [id], heq, ⟨_, rfl⟩, hvisited, fun h => absurd h hstop⟩

/-! ## The whole iteration -/

/-- The streams in the order of the loop. -/
def turns (m : StreamsMap) : List ℕ :=
  (List.range m.ids.length).map fun i =>
    m.ids.getD (uint32Add i m.roundRobinIndex % m.ids.length) 0

theorem getElem?_turns {i : ℕ} (hi : i < m.ids.length) :
    m.turns[i]? = m.ids[uint32Add i m.roundRobinIndex % m.ids.length]? := by
  have hlt : uint32Add i m.roundRobinIndex % m.ids.length < m.ids.length :=
    Nat.mod_lt _ (Nat.zero_lt_of_lt hi)
  rw [turns, List.getElem?_map, List.getElem?_range hi, Option.map_some,
    List.getD_eq_getElem _ _ hlt, List.getElem?_eq_getElem hlt]

theorem mem_ids_of_mem_turns (hid : id ∈ m.turns) : id ∈ m.ids := by
  obtain ⟨i, hi, rfl⟩ := List.mem_map.mp hid
  have hlt := Nat.mod_lt (uint32Add i m.roundRobinIndex)
    (Nat.zero_lt_of_lt (List.mem_range.mp hi))
  rw [List.getD_eq_getElem _ _ hlt]
  exact List.getElem_mem hlt

theorem Listed.length_streams (h : Listed m) (hfew : m.FewOpened) :
    m.streams.length % uint32Size = m.ids.length := by
  rw [← Nat.mod_eq_of_lt (h.length_lt hfew), ids, List.length_map]

/-- No index of the loop is out of range. -/
theorem Listed.rotation_eq (h : Listed m) (hfew : m.FewOpened) :
    m.rotation = m.turns.map some := by
  rw [rotation, turns, List.map_map, h.length_streams hfew, h.openStreams]
  refine List.map_congr_left fun i hi => ?_
  have hlt := Nat.mod_lt (uint32Add i m.roundRobinIndex)
    (Nat.zero_lt_of_lt (List.mem_range.mp hi))
  rw [Function.comp_apply, List.getD_eq_getElem _ _ hlt, List.getElem?_eq_getElem hlt]

/-- If no index wraps around, the order of the loop is a rotation of the open streams. -/
theorem turns_eq_rotate (hwrap : m.roundRobinIndex + m.ids.length ≤ uint32Size) :
    m.turns = m.ids.rotate m.roundRobinIndex := by
  refine List.ext_getElem? fun i => ?_
  rcases lt_or_ge i m.ids.length with hi | hi
  · rw [getElem?_turns hi, List.getElem?_rotate hi, uint32Add_eq (by omega)]
  · rw [List.getElem?_eq_none, List.getElem?_eq_none]
    · rwa [List.length_rotate]
    · rwa [turns, List.length_map, List.length_range]

/-- The iteration visits the prioritized streams that are open and then the other streams in their
order, up to the one where it stops. -/
theorem Listed.roundRobinIterate_visited (h : Listed m) (hfew : m.FewOpened) (fn : StreamLambda) :
    ∃ it u t, m.roundRobinIterate fn = some it ∧ it.visited = u ++ t ∧
      u <+: prioritized.filter (· ∈ m.ids) ∧ t <+: m.turns.filter (· ∉ prioritized) ∧
      (Continues fn →
        u = prioritized.filter (· ∈ m.ids) ∧ t = m.turns.filter (· ∉ prioritized)) := by
  obtain ⟨u, hu, hvisited, hend, hcont⟩ := iteratePrioritized_visited m fn prioritized []
  rw [List.nil_append] at hvisited
  rw [roundRobinIterate, h.rotation_eq hfew]
  rcases hprio : m.iteratePrioritized fn prioritized [] with ⟨visited, _ | err⟩
  all_goals
    rw [hprio] at hvisited hend hcont
    obtain rfl : visited = u := hvisited
  -- the loop over the other streams runs only if the first one was not stopped
  · obtain ⟨it, t, hit, ht, hvisited, hall⟩ :=
      @iterateOthers_visited m fn (m.streams.length % uint32Size) m.turns visited
        fun _ => mem_ids_of_mem_turns
    exact ⟨it, visited, t, hit, hvisited, hu, ht, fun h => ⟨hend rfl, hall h⟩⟩
  · exact ⟨_, visited, [], rfl, (List.append_nil _).symm, hu, List.nil_prefix,
      fun h => nomatch hcont h⟩

/-- If no index wraps around, every open stream is visited at most once, and exactly once if the
callback goes on. -/
theorem Listed.roundRobinIterate_once (h : Listed m) (hfew : m.FewOpened)
    (hwrap : m.roundRobinIndex + m.ids.length ≤ uint32Size) (fn : StreamLambda) :
    ∃ it, m.roundRobinIterate fn = some it ∧ it.visited.Nodup ∧
      (∀ id ∈ it.visited, id ∈ m.ids) ∧ (Continues fn → it.visited.Perm m.ids) := by
  obtain ⟨it, u, t, hit, hvisited, hu, ht, hall⟩ := h.roundRobinIterate_visited hfew fn
  have hturns : m.turns.Perm m.ids := turns_eq_rotate hwrap ▸ List.rotate_perm _ _
  have hnodup : it.visited.Nodup := by
    rw [hvisited, List.nodup_append]
    refine ⟨?_, ?_, fun id hid id' hid' heq => ?_⟩
    · exact (List.Nodup.filter _ (by decide)).sublist hu.sublist
    · exact ((hturns.nodup_iff.mpr m.nodup_ids).filter _).sublist ht.sublist
    · -- the second loop skips the prioritized streams
      have hprio := (List.mem_filter.mp (hu.subset hid)).1
      have hother := (List.mem_filter.mp (ht.subset hid')).2
      exact of_decide_eq_true hother (heq ▸ hprio)
  refine ⟨it, hit, hnodup, fun id hid => ?_, fun hcont => ?_⟩
  · rw [hvisited, List.mem_append] at hid
    rcases hid with hid | hid
    · exact of_decide_eq_true (List.mem_filter.mp (hu.subset hid)).2
    · exact mem_ids_of_mem_turns (List.mem_filter.mp (ht.subset hid)).1
  · obtain ⟨rfl, rfl⟩ := hall hcont
    rw [List.perm_ext_iff_of_nodup hnodup m.nodup_ids, hvisited]
    intro id
    rw [List.mem_append, List.mem_filter, List.mem_filter, hturns.mem_iff, decide_eq_true_eq,
      decide_eq_true_eq]
    tauto

/-! ## Runs -/

/-- After every run in which fewer than `2 ^ 31` streams were opened by each side, the open streams
are the keys of the map, the counters count them and do not wrap around, and no index of
`RoundRobinIterate` is out of range. If the round-robin index and the number of streams add up to at
most `2 ^ 32`, every stream is visited at most once, and exactly once if the callback goes on. -/
theorem openStreams_represented {maxOutgoingStreams : ℕ} {calls : List Call}
    (hrun : Run (fun m c m' => m' = m.apply c) (new p maxOutgoingStreams) calls m)
    (hfew : m.FewOpened) :
    (m.openStreams.Nodup ∧ ∀ id, id ∈ m.openStreams ↔ (m.get id).isSome) ∧
      (m.numIncomingStreams = m.openStreams.countP (· % 2 = 1) ∧
        m.numOutgoingStreams = m.openStreams.countP (· % 2 = 0)) ∧
      m.roundRobinIndex ≤ m.openStreams.length ∧
      (∀ id m', m.removeStream id = .ok m' → m'.numIncomingStreams ≤ m.numIncomingStreams ∧
        m'.numOutgoingStreams ≤ m.numOutgoingStreams ∧ m'.roundRobinIndex ≤ m.roundRobinIndex) ∧
      ∀ fn, ∃ it, m.roundRobinIterate fn = some it ∧
        (m.roundRobinIndex + m.openStreams.length ≤ uint32Size →
          it.visited.Nodup ∧ (∀ id ∈ it.visited, id ∈ m.openStreams) ∧
            (Continues fn → it.visited.Perm m.openStreams)) := by
  have h := Represented.of_run hrun hfew
  rw [h.openStreams]
  refine ⟨⟨m.nodup_ids, fun id => ?_⟩, ⟨h.counted .client, h.counted .server⟩, h.index, ?_, ?_⟩
  · rw [Option.isSome_iff_exists, exists_get_iff]
  · intro id m' hremove
    have hremoved := removeStream_spec hremove
    have hle : ∀ q, m'.numStreams q ≤ m.numStreams q := by
      intro q
      rw [(h.toListed.removed hremoved hfew).counted, hremoved.openedBy_eq, h.counted]
      exact Nat.sub_le _ _
    exact ⟨hle .client, hle .server, (h.toListed.index_removed hremoved hfew).2⟩
  · intro fn
    obtain ⟨it, -, -, hit, -⟩ := h.toListed.roundRobinIterate_visited hfew fn
    refine ⟨it, hit, fun hwrap => ?_⟩
    obtain ⟨it', hit', honce⟩ := h.toListed.roundRobinIterate_once hfew hwrap fn
    obtain rfl := Option.some.inj (hit.symm.trans hit')
    exact honce

/-- A server with two streams of the peer and one own stream, of which one is removed. -/
theorem openStreams_represented_example :
    let calls : List Call :=
      [.getOrOpenStream 3, .openStream, .roundRobinIterate fun _ _ => (true, none),
        .removeStream 3]
    (calls.foldl apply (new .server 100)).numIncomingStreams =
      (calls.foldl apply (new .server 100)).openStreams.countP (· % 2 = 1) := by
  intro calls
  have hrun : Run (fun m c m' => m' = m.apply c) (new .server 100) calls
      (calls.foldl apply (new .server 100)) :=
    Run.nil.foldl fun _ _ _ => rfl
  exact (openStreams_represented hrun fun q => by cases q <;> decide +kernel).2.1.1

/-! ## Indices that wrap around -/

/-- The iteration is the loop over the other streams if the callback goes on. -/
theorem Listed.roundRobinIterate_eq (h : Listed m) (hfew : m.FewOpened) (hcont : Continues fn) :
    m.roundRobinIterate fn =
      iterateOthers fn m.ids.length (m.turns.map some) (prioritized.filter (· ∈ m.ids)) m := by
  obtain ⟨u, -, hvisited, hend, hnone⟩ := iteratePrioritized_visited m fn prioritized []
  have hprio : m.iteratePrioritized fn prioritized [] = (prioritized.filter (· ∈ m.ids), none) := by
    rw [hend (hnone hcont), List.nil_append] at hvisited
    exact Prod.ext hvisited (hnone hcont)
  rw [StreamsMap.roundRobinIterate, hprio, h.rotation_eq hfew, h.length_streams hfew]

/-- The round-robin index after an iteration in which the callback goes on. -/
theorem iterateOthers_index (hcont : Continues fn) {n : ℕ} (hn : n < uint32Size)
    (hindex : m.roundRobinIndex < n) {l visited : List ℕ} (hl : ∀ id ∈ l, id ∈ m.ids)
    {it : Iteration} (hit : iterateOthers fn n (l.map some) visited m = some it) :
    it.streamsMap.roundRobinIndex =
      (m.roundRobinIndex + (l.filter (· ∉ prioritized)).length) % n := by
  induction l generalizing visited m with
  | nil =>
    obtain rfl := Option.some.inj hit
    exact (Nat.mod_eq_of_lt hindex).symm
  | cons id l ih =>
    obtain ⟨hid, hl⟩ := List.forall_mem_cons.mp hl
    rw [List.map_cons] at hit
    by_cases hprio : id ∈ prioritized
    · rw [iterateOthers, if_pos hprio] at hit
      rw [List.filter_cons_of_neg (by simpa using hprio)]
      exact ih hindex hl hit
    · rcases iterateOthers_cons hid hprio n (l.map some) visited with heq | ⟨hstop, -⟩
      · -- the index is below `n`, so only the remainder can bring it back to zero
        rw [heq] at hit
        have hmove : (m.moveOn n).roundRobinIndex = (m.roundRobinIndex + 1) % n :=
          congrArg (· % n) (uint32Add_eq (by omega))
        rw [ih (m := m.moveOn n) (hmove ▸ Nat.mod_lt _ (by omega)) hl hit, hmove,
          List.filter_cons_of_pos (by simpa using hprio), Nat.mod_add_mod, List.length_cons]
        congr 1
        omega
      · exact absurd hcont hstop

/-- A client that opened `k` streams, after the server opened streams 2, 4 and 6. -/
structure Opening (k : ℕ) (m : StreamsMap) : Prop where
  perspective : m.perspective = .client
  maxOutgoingStreams : m.maxOutgoingStreams = 100
  closeErr : m.closeErr = false
  roundRobinIndex : m.roundRobinIndex = 0
  nextStream : m.nextStream = 2 * k + 1
  numOutgoingStreams : m.numOutgoingStreams = 3
  ids : m.ids = [2, 4, 6] ++ (List.range k).map (2 * · + 1)
  opened : m.opened = m.ids

/-- The client can open another stream: its own streams are not counted as outgoing. -/
theorem Opening.openStream {k : ℕ} (h : Opening k m) (hk : k + 1 < 2 ^ 31) :
    Opening (k + 1) m.openStream.2 := by
  have hmax : m.numOutgoingStreams < m.maxOutgoingStreams := by
    rw [h.numOutgoingStreams, h.maxOutgoingStreams]
    decide
  obtain ⟨hopened, hnext, -⟩ := openStreamImpl_spec hmax
  have heq : m.openStream.2 = m.openStreamImpl.2 := by
    rw [StreamsMap.openStream, if_neg (by rw [h.closeErr]; exact Bool.false_ne_true)]
  rw [h.nextStream, h.perspective] at hopened
  have hfresh : 2 * k + 1 ∉ m.ids := by
    rw [h.ids, List.mem_append]
    rintro (hmem | hmem)
    · simp only [List.mem_cons, List.not_mem_nil, or_false] at hmem
      omega
    · obtain ⟨i, hi, heq⟩ := List.mem_map.mp hmem
      have := List.mem_range.mp hi
      omega
  have hids : m.openStreamImpl.2.ids = m.ids ++ [2 * k + 1] :=
    hopened.ids.trans (if_neg hfresh)
  rw [heq]
  generalize m.openStreamImpl.2 = m' at hopened hnext hids ⊢
  refine ⟨hopened.perspective.trans h.perspective,
    hopened.maxOutgoingStreams.trans h.maxOutgoingStreams, hopened.closeErr.trans h.closeErr,
    hopened.roundRobinIndex.trans h.roundRobinIndex, ?_,
    hopened.uncounted.trans h.numOutgoingStreams, ?_, ?_⟩
  · rw [hnext, h.nextStream, uint32Add_eq (by rw [uint32Size]; omega)]
    omega
  · rw [hids, h.ids, List.range_succ, List.map_append, List.append_assoc]
    rfl
  · rw [hopened.opened, hids, h.opened]

theorem Opening.foldl {k : ℕ} (hk : k < 2 ^ 31) :
    Opening k ((List.replicate k Call.openStream).foldl apply
      ((new .client 100).apply (.getOrOpenStream 6))) := by
  induction k with
  | zero => constructor <;> decide +kernel
  | succ k ih =>
    rw [List.replicate_succ', List.foldl_append]
    exact (ih (by omega)).openStream hk

theorem Opening.countP_opened {k : ℕ} (h : Opening k m) :
    m.opened.countP Perspective.client.opens = k ∧
      m.opened.countP Perspective.server.opens = 3 := by
  have hodd : ∀ id ∈ (List.range k).map (2 * · + 1), id % 2 = 1 := by
    intro id hid
    obtain ⟨i, -, rfl⟩ := List.mem_map.mp hid
    omega
  have hclient : ((List.range k).map (2 * · + 1)).countP Perspective.client.opens = k := by
    rw [List.countP_eq_length.mpr, List.length_map, List.length_range]
    exact fun id hid => decide_eq_true (hodd id hid)
  have hserver : ((List.range k).map (2 * · + 1)).countP Perspective.server.opens = 0 := by
    refine List.countP_eq_zero.mpr fun id hid heven => ?_
    have := of_decide_eq_true heven
    have := hodd id hid
    omega
  rw [h.opened, h.ids, List.countP_append, List.countP_append, hclient, hserver]
  exact ⟨Nat.zero_add k, rfl⟩

theorem Opening.length_ids {k : ℕ} (h : Opening k m) : m.ids.length = k + 3 := by
  rw [h.ids, List.length_append, List.length_map, List.length_range, Nat.add_comm]
  rfl

/-- The prioritized streams are open. -/
theorem Opening.filter_prioritized {k : ℕ} (h : Opening k m) (hk : 2 ≤ k) :
    prioritized.filter (· ∈ m.ids) = prioritized := by
  rw [List.filter_eq_self]
  intro id hid
  refine decide_eq_true (h.ids ▸ List.mem_append_right _ (List.mem_map.mpr ⟨id / 2, ?_⟩))
  simp only [prioritized, List.mem_cons, List.not_mem_nil, or_false] at hid
  rw [List.mem_range]
  omega

/-- An iteration over all streams moves the round-robin index to the last stream but one. -/
theorem Opening.roundRobinIterate {k : ℕ} (h : Opening k m) (hm : Listed m) (hfew : m.FewOpened)
    (hk : 2 ≤ k) (hcont : Continues fn) :
    ∃ it, m.roundRobinIterate fn = some it ∧ it.streamsMap.roundRobinIndex = k + 1 := by
  have hlt := hm.length_lt hfew
  have hlen := h.length_ids
  have hwrap : m.roundRobinIndex + m.ids.length ≤ uint32Size := by
    rw [h.roundRobinIndex]
    omega
  obtain ⟨it, u, t, hit, hvisited, -, -, hall⟩ := hm.roundRobinIterate_visited hfew fn
  obtain ⟨it', hit', -, -, hperm⟩ := hm.roundRobinIterate_once hfew hwrap fn
  obtain rfl := Option.some.inj (hit.symm.trans hit')
  obtain ⟨rfl, rfl⟩ := hall hcont
  -- two of the streams are prioritized
  have hothers : (m.turns.filter (· ∉ prioritized)).length = k + 1 := by
    have := (hperm hcont).length_eq
    rw [hvisited, h.filter_prioritized hk, List.length_append, hlen] at this
    change 2 + _ = _ at this
    omega
  refine ⟨it, hit, ?_⟩
  rw [hm.roundRobinIterate_eq hfew hcont] at hit
  rw [iterateOthers_index hcont hlt (by rw [h.roundRobinIndex]; omega)
    (fun _ => mem_ids_of_mem_turns) hit, hothers, h.roundRobinIndex, hlen]
  exact (Nat.mod_eq_of_lt (by omega)).trans (Nat.zero_add _)

/-- With a round-robin index of `2 ^ 31` and two more streams, the index of the loop is zero in
round 2 and again, because it wraps around, in round `2 ^ 31`. -/
theorem duplicate_turns {n : ℕ} (hn : 2 * n = uint32Size) (hindex : m.roundRobinIndex = n)
    (hlen : m.ids.length = n + 2) (hid : m.ids[0]? = some id) : List.Duplicate id m.turns := by
  have hpos : 2 < n := by
    rw [uint32Size] at hn
    omega
  have hfirst : m.turns[2]? = some id := by
    rw [getElem?_turns (by omega), hindex, uint32Add_eq (by omega), Nat.add_comm, hlen,
      Nat.mod_self, hid]
  have hsecond : m.turns[n]? = some id := by
    rw [getElem?_turns (by omega), hindex, uint32Add, ← Nat.two_mul, hn, Nat.mod_self,
      Nat.zero_mod, hid]
  obtain ⟨hlt₁, h₁⟩ := List.getElem?_eq_some_iff.mp hfirst
  obtain ⟨hlt₂, h₂⟩ := List.getElem?_eq_some_iff.mp hsecond
  exact List.duplicate_iff_exists_distinct_get.mpr ⟨⟨2, hlt₁⟩, ⟨n, hlt₂⟩, hpos, h₁.symm, h₂.symm⟩

/-- A stream that has two turns is visited twice. -/
theorem Listed.roundRobinIterate_twice (h : Listed m) (hfew : m.FewOpened) (hcont : Continues fn)
    (hid : List.Duplicate id m.turns) (hother : id ∉ prioritized) :
    ∃ it, m.roundRobinIterate fn = some it ∧ ¬it.visited.Nodup := by
  obtain ⟨it, u, t, hit, hvisited, -, -, hall⟩ := h.roundRobinIterate_visited hfew fn
  refine ⟨it, hit, fun hnodup => ?_⟩
  have ht : (m.turns.filter (· ∉ prioritized)).Nodup := by
    rw [hvisited, (hall hcont).2] at hnodup
    exact hnodup.of_append_right
  have hcount := List.nodup_iff_count_le_one.mp ht id
  rw [List.count_filter (by simpa using hother)] at hcount
  have := List.duplicate_iff_two_le_count.mp hid
  omega

/-- The server opens streams 2, 4 and 6, and the client opens `2 ^ 31 - 1` streams. An iteration
over these streams leaves a round-robin index of `2 ^ 31`, and the next iteration visits stream 2
twice. -/
theorem roundRobinIterate_wraps {k : ℕ} (hk : k + 1 = 2 ^ 31) :
    ∃ calls m it, Run (fun m c m' => m' = m.apply c) (new .client 100) calls m ∧ m.FewOpened ∧
      m.roundRobinIterate (fun _ _ => (true, none)) = some it ∧ ¬it.visited.Nodup := by
  have hopening := Opening.foldl (k := k) (by omega)
  have hrun : Run (fun m c m' => m' = m.apply c) (new .client 100)
      ([] ++ [.getOrOpenStream 6] ++ List.replicate k .openStream) _ :=
    (Run.nil.snoc rfl).foldl (f := apply) fun _ _ _ => rfl
  generalize (List.replicate k Call.openStream).foldl apply
    ((new .client 100).apply (.getOrOpenStream 6)) = m at hopening hrun
  -- the client opened one stream less than the bound
  have hfew : m.FewOpened := by
    have ⟨hclient, hserver⟩ := hopening.countP_opened
    intro q
    cases q <;> omega
  have hcont : Continues fun _ _ => (true, none) := fun _ _ => rfl
  obtain ⟨it, hit, hindex⟩ :=
    hopening.roundRobinIterate (Represented.of_run hrun hfew).toListed hfew (by omega) hcont
  have hrun' := hrun.snoc (a := .roundRobinIterate fun _ _ => (true, none)) rfl
  -- the first iteration changes nothing but the round-robin index, which is `k + 1` now
  have hsame := (roundRobinIterate_spec hit).1
  have happly : m.apply (.roundRobinIterate fun _ _ => (true, none)) = it.streamsMap := by
    rw [apply, hit]
  rw [happly] at hrun'
  have hfew' : it.streamsMap.FewOpened := hfew.mono (hsame.opened ▸ List.prefix_rfl)
  have hlisted := (Represented.of_run hrun' hfew').toListed
  have hids := hsame.ids
  have hturns : List.Duplicate 2 it.streamsMap.turns := by
    refine duplicate_turns (n := k + 1) (by rw [hk]; rfl) hindex ?_ ?_
    · rw [hids, hopening.length_ids]
    · rw [hids, hopening.ids]
      rfl
  obtain ⟨it', hit', htwice⟩ := hlisted.roundRobinIterate_twice hfew' hcont hturns (by decide)
  exact ⟨_, _, it', hrun', hfew', hit', htwice⟩

/-- `RoundRobinIterate` visits a stream twice. -/
theorem roundRobinIterate_visits_twice :
    ∃ calls m it, Run (fun m c m' => m' = m.apply c) (new .client 100) calls m ∧ m.FewOpened ∧
      m.roundRobinIterate (fun _ _ => (true, none)) = some it ∧ ¬it.visited.Nodup :=
  roundRobinIterate_wraps (k := 2 ^ 31 - 1) rfl

end StreamsMap

end MPQuic
