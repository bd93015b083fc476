import Mathlib.Data.List.Count
import Mathlib.Data.List.Nodup
import Mathlib.Data.List.Rotate
import Mathlib.Tactic.Common

/-!
# Taking turns around a list

A server goes around a list `l` whose start moves on by one place a turn. In each turn it serves the
first element that qualifies. `turn q l j` is the element that is served in turn `j`.

An element that does not qualify takes a turn away: the element after it is served in two turns.
`forall_count_turns_iff` says when as many turns as there are qualifying elements serve each of them
once: exactly if none of the turns but the last one starts at an element that does not qualify.
-/

namespace Rotation

variable {α : Type*} {q : α → Bool} {l : List α}

/-- The element that is served in turn `j`. -/
def turn (q : α → Bool) (l : List α) (j : ℕ) : Option α := (l.rotate j).find? q

/-- The elements that are served in the first `k` turns. -/
def turns (q : α → Bool) (l : List α) (k : ℕ) : List (Option α) := (List.range k).map (turn q l)

theorem rotate_eq_cons {j : ℕ} {x : α} (hx : l[j]? = some x) :
    ∃ t, l.rotate j = x :: t ∧ l.rotate (j + 1) = t ++ [x] := by
  obtain ⟨hj, rfl⟩ := List.getElem?_eq_some_iff.mp hx
  rw [← List.rotate_rotate, List.rotate_eq_drop_append_take hj.le, List.drop_eq_getElem_cons hj,
    List.cons_append]
  exact ⟨_, rfl, (List.rotate_cons_succ _ _ 0).trans (List.rotate_zero _)⟩

/-- A turn that starts at a qualifying element serves it. -/
theorem turn_of_pos {j : ℕ} {x : α} (hx : l[j]? = some x) (hq : q x = true) :
    turn q l j = some x := by
  obtain ⟨t, ht, -⟩ := rotate_eq_cons hx
  rw [turn, ht, List.find?_cons_of_pos hq]

/-- A turn that starts at an element that does not qualify serves the same one as the next turn. -/
theorem turn_of_neg {j : ℕ} {x : α} (hx : l[j]? = some x) (hq : q x = false) :
    turn q l j = turn q l (j + 1) := by
  obtain ⟨t, ht, ht'⟩ := rotate_eq_cons hx
  rw [turn, turn, ht, ht', List.find?_cons_of_neg (by simp [hq]), List.find?_append,
    List.find?_cons_of_neg (by simp [hq]), List.find?_nil, Option.or_none]

/-- An index is as good as its remainder. -/
theorem turn_mod_add (i j : ℕ) : turn q l (i % l.length + j) = turn q l (i + j) := by
  rw [turn, ← List.rotate_rotate, List.rotate_mod, List.rotate_rotate, turn]

/-- Turns can be counted from any start. -/
theorem turn_rotate (i j : ℕ) : turn q (l.rotate i) j = turn q l (i + j) := by
  rw [turn, List.rotate_rotate, turn]

theorem mem_of_turn {j : ℕ} {x : α} (h : turn q l j = some x) : x ∈ l ∧ q x = true :=
  ⟨List.mem_rotate.mp (List.mem_of_find?_eq_some h), List.find?_some h⟩

theorem turn_isSome (hl : ∃ x ∈ l, q x = true) (j : ℕ) : (turn q l j).isSome := by
  obtain ⟨x, hx, hq⟩ := hl
  exact List.find?_isSome.mpr ⟨x, List.mem_rotate.mpr hx, hq⟩

/-- If all turns but the last one start at a qualifying element, the qualifying elements are served
in their order. -/
theorem turns_eq_filter
    (h : ∀ j, j + 1 < (l.filter q).length → ∀ x, l[j]? = some x → q x = true) :
    turns q l (l.filter q).length = (l.filter q).map some := by
  rcases hk : (l.filter q).length with _ | k
  · rw [List.length_eq_zero_iff.mp hk]
    rfl
  rw [hk] at h
  have hle : k ≤ l.length := (Nat.le_succ k).trans (hk.ge.trans (List.length_filter_le q l))
  have htake : ∀ x ∈ l.take k, q x = true := by
    intro x hx
    obtain ⟨j, hj, rfl⟩ := List.mem_take_iff_getElem.mp hx
    exact h j (by omega) _ (List.getElem?_eq_getElem _)
  have hfilter : l.filter q = l.take k ++ (l.drop k).filter q := by
    conv_lhs => rw [← List.take_append_drop k l, List.filter_append]
    rw [List.filter_eq_self.mpr htake]
  -- one qualifying element is left for the last turn
  obtain ⟨x, hx⟩ : ∃ x, (l.drop k).filter q = [x] := by
    rw [← List.length_eq_one_iff]
    rw [hfilter, List.length_append, List.length_take_of_le hle] at hk
    omega
  have hlast : turn q l k = some x := by
    have hfind : (l.drop k).find? q = some x := by rw [← List.head?_filter, hx, List.head?_cons]
    rw [turn, List.rotate_eq_drop_append_take hle, List.find?_append, hfind]
    rfl
  have hfirst : (List.range k).map (turn q l) = (l.take k).map some := by
    refine List.ext_getElem (by simp [hle]) fun j hj hj' => ?_
    have hjk : j < k := by simpa using hj
    rw [List.getElem_map, List.getElem_range, List.getElem_map, List.getElem_take]
    exact turn_of_pos (List.getElem?_eq_getElem _) (h j (by omega) _ (List.getElem?_eq_getElem _))
  rw [turns, List.range_succ, List.map_append, hfirst, hfilter, hx, List.map_append, List.map_cons,
    List.map_nil, hlast]
  rfl

/-- As many turns as there are qualifying elements serve each of them once exactly if none of the
turns but the last one starts at an element that does not qualify. -/
theorem forall_count_turns_iff [DecidableEq α] (hnodup : l.Nodup) :
    (∀ x ∈ l, q x = true → (turns q l (l.filter q).length).count (some x) = 1) ↔
      ∀ j, j + 1 < (l.filter q).length → ∀ x, l[j]? = some x → q x = true := by
  constructor
  · intro hcount j hj x hx
    by_contra hq
    have hsame := turn_of_neg hx (by simpa using hq)
    obtain ⟨z, hz⟩ : ∃ z, z ∈ l.filter q := List.exists_mem_of_length_pos (by omega)
    have hserved := turn_isSome ⟨z, List.mem_filter.mp hz⟩
    have hturns : (turns q l (l.filter q).length).Nodup := by
      refine List.nodup_iff_count_le_one.mpr fun a => ?_
      by_cases ha : a ∈ turns q l (l.filter q).length
      · obtain ⟨i, -, hi⟩ := List.mem_map.mp ha
        obtain ⟨y, hy⟩ := Option.isSome_iff_exists.mp (hserved i)
        obtain rfl := hi.symm.trans hy
        obtain ⟨hmem, hqy⟩ := mem_of_turn hy
        exact (hcount y hmem hqy).le
      · rw [List.count_eq_zero_of_not_mem ha]
        exact Nat.zero_le 1
    -- turns `j` and `j + 1` serve the same element
    have hlength : (turns q l (l.filter q).length).length = (l.filter q).length := by
      rw [turns, List.length_map, List.length_range]
    have hlt : j + 1 < (turns q l (l.filter q).length).length := by omega
    have hget : (turns q l (l.filter q).length)[j] = (turns q l (l.filter q).length)[j + 1] := by
      simpa [turns] using hsame
    have heq := hturns.getElem_inj_iff.mp hget
    omega
  · intro h x hx hq
    rw [turns_eq_filter h, List.count_map_of_injective _ _ fun _ _ => Option.some.inj]
    exact List.count_eq_one_of_mem (hnodup.filter q) (List.mem_filter.mpr ⟨hx, hq⟩)

end Rotation
