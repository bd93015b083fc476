import MPQuic.Lib.Rotation
import MPQuic.Streams.Closed
import MPQuic.Streams.RoundRobin

/-!
# Fairness between the data streams

The stream framer stops `RoundRobinIterate` after the first data stream that has filled the packet.
The round-robin index moves on by one for each data stream that is visited, and not for streams 1
and 3, which are skipped because they were visited before. An index that points to one of them
therefore points to the same data stream as the next index, and this stream is served in two calls
while another one is not served: `roundRobin_fair_iff`.
-/

namespace MPQuic

namespace StreamsMap

open Transition

variable {m : StreamsMap} {id : ℕ} {fn : StreamLambda}

/-- Whether a stream is neither the crypto stream nor the header stream. -/
def isData (id : ℕ) : Bool := id ∉ prioritized

/-- The open data streams, in the order of the streams. -/
def dataStreams (m : StreamsMap) : List ℕ := m.openStreams.filter isData

/-- The callback goes on after streams 1 and 3, and stops after a data stream. -/
def StopsAtData (fn : StreamLambda) : Prop := ∀ visited s, fn visited s = (!isData s.streamID, none)

/-- The data streams that are served in `k` calls of `RoundRobinIterate`. -/
def served (fn : StreamLambda) : ℕ → StreamsMap → Option (List ℕ)
  | 0, _ => some []
  | k + 1, m => do
    let it ← m.roundRobinIterate fn
    let rest ← served fn k it.streamsMap
    return it.visited.filter isData ++ rest

/-- The map with another round-robin index. -/
def atIndex (m : StreamsMap) (i : ℕ) : StreamsMap := { m with roundRobinIndex := i }

/-! ## One call -/

theorem iterateFunc_of_stopsAtData (hfn : StopsAtData fn) (hid : id ∈ m.ids) (visited : List ℕ) :
    m.iterateFunc fn visited id = (visited ++ [id], !isData id, none) := by
  obtain ⟨s, hs⟩ := exists_get_iff.mpr hid
  simp only [iterateFunc, hs, hfn visited s, streamID_of_get hs]

/-- The prioritized streams do not stop the iteration. -/
theorem iteratePrioritized_of_stopsAtData (hfn : StopsAtData fn) {l : List ℕ}
    (hl : ∀ id ∈ l, isData id = false) (visited : List ℕ) :
    m.iteratePrioritized fn l visited = (visited ++ l.filter (· ∈ m.ids), none) := by
  induction l generalizing visited with
  | nil => simp [iteratePrioritized]
  | cons id l ih =>
    obtain ⟨hid, hl⟩ := List.forall_mem_cons.mp hl
    by_cases hmem : id ∈ m.ids
    · rw [iteratePrioritized, iterateFunc_of_stopsAtData hfn hmem, hid,
        List.filter_cons_of_pos (by simpa using hmem)]
      simpa using ih hl (visited ++ [id])
    · rw [iteratePrioritized, iterateFunc_of_not_mem hmem,
        List.filter_cons_of_neg (by simpa using hmem)]
      exact ih hl visited

/-- The loop over the other streams stops at the first data stream. -/
theorem iterateOthers_of_stopsAtData (hfn : StopsAtData fn) {before : List ℕ}
    (hbefore : ∀ id ∈ before, isData id = false) (hdata : isData id = true) (hid : id ∈ m.ids)
    (n : ℕ) (l : List (Option ℕ)) (visited : List ℕ) :
    iterateOthers fn n (before.map some ++ some id :: l) visited m =
      some ⟨visited ++ [id], none, m.atIndex (uint32Add m.roundRobinIndex 1 % n)⟩ := by
  induction before with
  | nil =>
    rw [List.map_nil, List.nil_append, iterateOthers, if_neg (by simpa [isData] using hdata),
      iterateFunc_of_stopsAtData hfn hid, hdata]
    rfl
  | cons a before ih =>
    obtain ⟨ha, hbefore⟩ := List.forall_mem_cons.mp hbefore
    rw [List.map_cons, List.cons_append, iterateOthers, if_pos (by simpa [isData] using ha)]
    exact ih hbefore

/-- The map has an order of its streams and an index into it, both within the range of `uint32`. -/
structure InTurn (m : StreamsMap) : Prop where
  openStreams : m.openStreams.Perm m.ids
  index : m.roundRobinIndex ≤ m.ids.length
  size : m.ids.length + 2 < uint32Size

theorem InTurn.nodup (h : m.InTurn) : m.openStreams.Nodup := h.openStreams.nodup_iff.mpr m.nodup_ids

theorem InTurn.length_streams (h : m.InTurn) :
    m.streams.length % uint32Size = m.openStreams.length := by
  have hlength : m.streams.length = m.ids.length := (List.length_map _).symm
  have := h.size
  rw [h.openStreams.length_eq, hlength, Nat.mod_eq_of_lt (by omega)]

/-- Up to three streams, the indices of the loop do not wrap around. -/
theorem InTurn.take_rotation (h : m.InTurn) {k : ℕ} (hk : k ≤ 3) :
    m.rotation.take k = ((m.openStreams.rotate m.roundRobinIndex).take k).map some := by
  have hrotation : m.rotation.length = m.openStreams.length := by
    rw [rotation, List.length_map, List.length_range, h.length_streams]
  refine List.ext_getElem (by simp [hrotation]) fun i hi hi' => ?_
  rw [List.getElem_take, List.getElem_map, List.getElem_take, List.getElem_rotate]
  simp only [rotation, List.getElem_map, List.getElem_range, h.length_streams]
  have hshift : uint32Add i m.roundRobinIndex = i + m.roundRobinIndex := by
    have hindex := h.index
    have hsize := h.size
    rw [List.length_take] at hi
    exact uint32Add_eq (by omega)
  rw [hshift]
  exact List.getElem?_eq_getElem _

/-- There are two streams that are not data streams. -/
theorem length_le_two {l : List ℕ} (hnodup : l.Nodup) (hl : ∀ id ∈ l, isData id = false) :
    l.length ≤ 2 := by
  refine (List.subperm_of_subset hnodup fun a ha => ?_ : l.Subperm prioritized).length_le
  simpa [isData] using hl a ha

/-- The loop visits the first data stream after at most two other streams, so that none of its
indices up to there wraps around. -/
theorem InTurn.rotation_eq (h : m.InTurn) {before after : List ℕ}
    (hbefore : ∀ id ∈ before, isData id = false)
    (hsplit : m.openStreams.rotate m.roundRobinIndex = before ++ id :: after) :
    ∃ l, m.rotation = before.map some ++ some id :: l := by
  have hnodup : before.Nodup := by
    have hrotate := (List.nodup_rotate (n := m.roundRobinIndex)).mpr h.nodup
    rw [hsplit] at hrotate
    exact (List.nodup_append.mp hrotate).1
  have hshort := length_le_two hnodup hbefore
  have htake : m.rotation.take (before.length + 1) = before.map some ++ [some id] := by
    rw [h.take_rotation (by omega), hsplit, List.take_append, List.take_of_length_le (by omega)]
    simp
  refine ⟨m.rotation.drop (before.length + 1), ?_⟩
  conv_lhs => rw [← List.take_append_drop (before.length + 1) m.rotation, htake]
  rw [List.append_assoc]
  rfl

/-- One call serves the data stream whose turn it is, and the index moves on by one. -/
theorem InTurn.roundRobinIterate (h : m.InTurn) (hfn : StopsAtData fn)
    (hdata : m.dataStreams ≠ []) :
    ∃ id visited, Rotation.turn isData m.openStreams m.roundRobinIndex = some id ∧
      visited.filter isData = [id] ∧ m.roundRobinIterate fn =
        some ⟨visited, none, m.atIndex ((m.roundRobinIndex + 1) % m.openStreams.length)⟩ := by
  obtain ⟨z, hz⟩ := List.exists_mem_of_ne_nil _ hdata
  obtain ⟨id, hturn⟩ := Option.isSome_iff_exists.mp
    (Rotation.turn_isSome ⟨z, List.mem_filter.mp hz⟩ m.roundRobinIndex)
  obtain ⟨hq, before, after, hsplit, hbefore⟩ := List.find?_eq_some_iff_append.mp hturn
  have hmem : id ∈ m.ids := h.openStreams.mem_iff.mp (Rotation.mem_of_turn hturn).1
  replace hbefore : ∀ a ∈ before, isData a = false := fun a ha => by simpa using hbefore a ha
  obtain ⟨l, hl⟩ := h.rotation_eq hbefore hsplit
  refine ⟨id, prioritized.filter (· ∈ m.ids) ++ [id], hturn, ?_, ?_⟩
  · rw [List.filter_append, List.filter_filter, List.filter_eq_nil_iff.mpr,
      List.filter_cons_of_pos hq]
    · rfl
    · intro a ha
      simp [isData, ha]
  · rw [StreamsMap.roundRobinIterate, iteratePrioritized_of_stopsAtData hfn (by decide), hl]
    simp only
    have hindex := h.index
    have hsize := h.size
    rw [iterateOthers_of_stopsAtData hfn hbefore hq hmem, List.nil_append, h.length_streams,
      uint32Add_eq (by omega)]

/-! ## Many calls -/

theorem InTurn.atIndex (h : m.InTurn) {i : ℕ} (hi : i < m.openStreams.length) :
    (m.atIndex i).InTurn where
  openStreams := h.openStreams
  index := hi.le.trans h.openStreams.length_eq.le
  size := h.size

/-- In call `j` the stream is served whose turn it is at the index plus `j`. -/
theorem InTurn.served_eq (h : m.InTurn) (hfn : StopsAtData fn) (hdata : m.dataStreams ≠ [])
    (k : ℕ) :
    ∃ l, m.served fn k = some l ∧ l.map some =
      (List.range k).map fun j => Rotation.turn isData m.openStreams (m.roundRobinIndex + j) := by
  induction k generalizing m with
  | zero => exact ⟨[], rfl, rfl⟩
  | succ k ih =>
    obtain ⟨id, visited, hturn, hserved, hcall⟩ := h.roundRobinIterate hfn hdata
    have hpos : 0 < m.openStreams.length :=
      List.length_pos_of_mem (Rotation.mem_of_turn hturn).1
    obtain ⟨l, hl, hrest⟩ := ih (h.atIndex (Nat.mod_lt (m.roundRobinIndex + 1) hpos)) hdata
    refine ⟨id :: l, ?_, ?_⟩
    · simp only [served, hcall, Option.bind_eq_bind, Option.bind_some, hl, hserved]
      rfl
    · rw [List.map_cons, hrest, List.range_succ_eq_map, List.map_cons, List.map_map]
      refine List.cons_eq_cons.mpr ⟨hturn.symm, List.map_congr_left fun j _ => ?_⟩
      show Rotation.turn isData m.openStreams (_ % _ + j) = Rotation.turn isData _ (_ + (j + 1))
      rw [Rotation.turn_mod_add, Nat.add_assoc, Nat.add_comm 1]

/-- The streams that the indices of the calls point to. -/
theorem forall_isData_rotate_iff (m : StreamsMap) :
    (∀ j, j + 1 < m.dataStreams.length → ∀ id,
      (m.openStreams.rotate m.roundRobinIndex)[j]? = some id → isData id = true) ↔
      ∀ j, j + 1 < m.dataStreams.length → ∀ id,
        m.openStreams[(m.roundRobinIndex + j) % m.openStreams.length]? = some id →
        id ∉ prioritized := by
  refine forall₂_congr fun j hj => ?_
  have hlt : j < m.openStreams.length := by
    have hle : m.dataStreams.length ≤ m.openStreams.length := List.length_filter_le _ _
    omega
  rw [List.getElem?_rotate hlt, Nat.add_comm j]
  simp only [isData, decide_eq_true_eq]

/-- With `k` data streams, `k` calls serve each of them exactly once if and only if the index of
none of the calls but the last one points to stream 1 or 3. -/
theorem roundRobin_fair_iff (h : m.InTurn) (hfn : StopsAtData fn) :
    (∃ l, m.served fn m.dataStreams.length = some l ∧ ∀ id ∈ m.dataStreams, l.count id = 1) ↔
      ∀ j, j + 1 < m.dataStreams.length → ∀ id,
        m.openStreams[(m.roundRobinIndex + j) % m.openStreams.length]? = some id →
        id ∉ prioritized := by
  set l := m.openStreams.rotate m.roundRobinIndex
  have hnodup : l.Nodup := List.nodup_rotate.mpr h.nodup
  have hlength : (l.filter isData).length = m.dataStreams.length :=
    ((List.rotate_perm _ _).filter _).length_eq
  have hfair := Rotation.forall_count_turns_iff (q := isData) hnodup
  rw [hlength] at hfair
  rw [← forall_isData_rotate_iff, ← hfair]
  have hmem : ∀ x, x ∈ m.dataStreams ↔ x ∈ l ∧ isData x = true := fun x => by
    rw [dataStreams, List.mem_filter, List.mem_rotate]
  rcases eq_or_ne m.dataStreams [] with hnil | hdata
  · -- no call and nothing to serve
    simp only [hnil, List.not_mem_nil, false_iff, not_and] at hmem
    simp only [hnil]
    exact iff_of_true ⟨[], rfl, by simp⟩ fun x hx hq => absurd hq (hmem x hx)
  obtain ⟨l', hserved, hturns⟩ := h.served_eq hfn hdata m.dataStreams.length
  have hcount : ∀ x,
      (Rotation.turns isData l m.dataStreams.length).count (some x) = l'.count x := by
    intro x
    have hmap : Rotation.turns isData l m.dataStreams.length = l'.map some := by
      rw [hturns]
      exact List.map_congr_left fun j _ => Rotation.turn_rotate _ j
    rw [hmap, List.count_map_of_injective _ _ fun _ _ => Option.some.inj]
  simp only [hserved, hcount, hmem, Option.some.injEq, exists_eq_left', and_imp]

/-- The callback that stops at a data stream. -/
def stopAtData : StreamLambda := fun _ s => (!isData s.streamID, none)

/-- A server whose peer has opened streams 1, 3, 5 and 7. After two calls the index is past streams
1 and 3, and the next two calls serve streams 5 and 7. -/
theorem roundRobin_fair_example :
    let m := ([.getOrOpenStream 7, .roundRobinIterate stopAtData,
      .roundRobinIterate stopAtData] : List Call).foldl apply (new .server 100)
    ∃ l, m.served stopAtData m.dataStreams.length = some l ∧
      ∀ id ∈ m.dataStreams, l.count id = 1 := by
  intro m
  have hturn : m.InTurn := ⟨by decide +kernel, by decide +kernel, by decide +kernel⟩
  have htwo : m.dataStreams.length = 2 := by decide +kernel
  have hopen : m.openStreams[(m.roundRobinIndex + 0) % m.openStreams.length]? = some 5 := by
    decide +kernel
  refine (roundRobin_fair_iff hturn fun _ _ => rfl).mpr fun j hj id hid => ?_
  obtain rfl : j = 0 := by omega
  obtain rfl := Option.some.inj (hopen.symm.trans hid)
  decide

/-- The first two calls of this server serve stream 5 twice and stream 7 not at all. -/
theorem roundRobin_unfair :
    let m := ([.getOrOpenStream 7] : List Call).foldl apply (new .server 100)
    m.openStreams = [1, 3, 5, 7] ∧ m.dataStreams = [5, 7] ∧
      m.served stopAtData 2 = some [5, 5] := by
  decide +kernel

end StreamsMap

end MPQuic
