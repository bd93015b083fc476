import Mathlib.Order.Lattice
import Mathlib.Order.MinMax
import Mathlib.Data.List.Basic
import Mathlib.Tactic.Common

/-!
# Running maxima

`l.foldl max m` is the largest value seen so far by a loop that starts with `m` and goes over `l`.

* `le_foldl_max`, `foldl_max_lt`: bounds for it; `foldl_max_mem`: where it comes from.
* `foldl_max_max`: the start value can be taken out.
* `forall_foldl_max_iff`: a maximum that starts with 0 as "nothing yet" is never strictly between 0
  and `w` exactly if the first value other than 0 is at least `w`.
-/

namespace RunningMax

section LinearOrder

variable {α : Type*} [LinearOrder α]

theorem le_foldl_max {l : List α} {m x : α} (h : x ≤ m ∨ x ∈ l) : x ≤ l.foldl max m := by
  induction l generalizing m with
  | nil => simpa using h
  | cons y l ih =>
    rw [List.foldl_cons]
    refine ih ?_
    rcases h with h | h
    · exact .inl (h.trans (le_max_left _ _))
    · rcases List.mem_cons.mp h with rfl | h
      · exact .inl (le_max_right _ _)
      · exact .inr h

theorem foldl_max_lt {l : List α} {m b : α} (hm : m < b) (hl : ∀ x ∈ l, x < b) :
    l.foldl max m < b := by
  induction l generalizing m with
  | nil => exact hm
  | cons x l ih =>
    obtain ⟨hx, hl⟩ := List.forall_mem_cons.mp hl
    exact ih (max_lt hm hx) hl

/-- The maximum is the start value or one of the values. -/
theorem foldl_max_mem (l : List α) (m : α) : l.foldl max m = m ∨ l.foldl max m ∈ l := by
  induction l generalizing m with
  | nil => exact .inl rfl
  | cons x l ih =>
    rw [List.foldl_cons]
    rcases ih (max m x) with hstart | hmem
    · rw [hstart]
      rcases max_choice m x with h | h
      · exact .inl h
      · exact .inr (h.symm ▸ List.mem_cons_self)
    · exact .inr (List.mem_cons_of_mem x hmem)

theorem foldl_max_max (l : List α) (m n : α) : l.foldl max (max m n) = max m (l.foldl max n) := by
  induction l generalizing n with
  | nil => rfl
  | cons x l ih => rw [List.foldl_cons, List.foldl_cons, max_assoc, ih]

end LinearOrder

/-- The first value other than 0 decides whether the maximum reaches `w`. -/
theorem eq_zero_or_le_foldl_max {w : ℕ} {l : List ℕ} (h : ∀ x, l.find? (· ≠ 0) = some x → w ≤ x) :
    l.foldl max 0 = 0 ∨ w ≤ l.foldl max 0 := by
  induction l with
  | nil => exact .inl rfl
  | cons x l ih =>
    rcases Nat.eq_zero_or_pos x with rfl | hx
    · exact ih fun y hy => h y (by rw [List.find?_cons_of_neg (by decide), hy])
    · have hw : w ≤ x := h x (List.find?_cons_of_pos (by simpa using hx.ne'))
      exact .inr (hw.trans (le_foldl_max (.inr List.mem_cons_self)))

/-- On the way the maximum is 0 or at least `w` exactly if the first value other than 0 is. -/
theorem forall_foldl_max_iff {w : ℕ} {l : List ℕ} :
    (∀ l₁ l₂, l = l₁ ++ l₂ → l₁.foldl max 0 = 0 ∨ w ≤ l₁.foldl max 0) ↔
      ∀ x, l.find? (· ≠ 0) = some x → w ≤ x := by
  constructor
  · intro h x hx
    obtain ⟨hne, l₁, l₂, rfl, hzero⟩ := List.find?_eq_some_iff_append.mp hx
    replace hne : x ≠ 0 := by simpa using hne
    have hbefore : l₁.foldl max 0 < x := by
      refine foldl_max_lt (Nat.pos_of_ne_zero hne) fun y hy => ?_
      obtain rfl : y = 0 := by simpa using hzero y hy
      exact Nat.pos_of_ne_zero hne
    have hfirst : (l₁ ++ [x]).foldl max 0 = x := by
      rw [List.foldl_append]
      exact max_eq_right hbefore.le
    have hreach := h (l₁ ++ [x]) l₂ (by rw [List.append_assoc]; rfl)
    rw [hfirst] at hreach
    exact hreach.resolve_left hne
  · intro h l₁ l₂ hl
    apply eq_zero_or_le_foldl_max
    intro x hx
    apply h x
    rw [hl, List.find?_append, hx]
    rfl

end RunningMax
