import Mathlib.Algebra.Group.Action.Defs
import Mathlib.Algebra.Order.BigOperators.Group.Finset
import Mathlib.Data.Finset.Basic
import MPQuic.Lib.Transition

/-!
# Serving the least loaded

A dispatcher counts what each member of a set `S` has served, and always lets one of those serve
that have served least. Which one of them is left open.

* `Within.serves`: a distance of at least 1 between the counts is never exceeded.
* `count_eq`: the counts are the initial ones and the numbers of requests served since.
* `balanced`: from equal counts on, every member has served its share of the requests, rounded up
  or down.
-/

namespace LeastLoaded

open Transition

variable {ι : Type*} [DecidableEq ι] {S : Finset ι} {c c' : ι → ℕ} {i : ι} {l : List ι} {d : ℕ}

/-- One of the least loaded members serves a request. The counts outside of `S` do not matter. -/
structure Serves (S : Finset ι) (c : ι → ℕ) (i : ι) (c' : ι → ℕ) : Prop where
  mem : i ∈ S
  least : ∀ j ∈ S, c i ≤ c j
  served : c' i = c i + 1
  others : ∀ j ∈ S, j ≠ i → c' j = c j

/-- No two counts are further apart than `d`. -/
def Within (S : Finset ι) (d : ℕ) (c : ι → ℕ) : Prop :=
  ∀ i ∈ S, ∀ j ∈ S, c i ≤ c j + d

omit [DecidableEq ι] in
theorem Within.mono {d' : ℕ} (h : Within S d c) (hle : d ≤ d') : Within S d' c :=
  fun i hi j hj => (h i hi j hj).trans (Nat.add_le_add_left hle _)

/-- Serving a request keeps the counts as close as they were, or within 1. -/
theorem Within.serves (h : Within S d c) (hserves : Serves S c i c') (hd : 1 ≤ d) :
    Within S d c' := by
  intro j hj k hk
  have hjk := h j hj k hk
  -- the count that goes up was a least one
  have hleast := hserves.least k hk
  have hcount : ∀ m ∈ S, c m ≤ c' m ∧ (m ≠ i → c' m = c m) := by
    intro m hm
    by_cases hmi : m = i
    · rw [hmi, hserves.served]
      exact ⟨Nat.le_succ _, fun hne => absurd rfl hne⟩
    · exact ⟨(hserves.others m hm hmi).ge, fun _ => hserves.others m hm hmi⟩
  have hk' := (hcount k hk).1
  by_cases hji : j = i
  · rw [hji, hserves.served]
    omega
  · rw [(hcount j hj).2 hji]
    omega

theorem within_of_run (h : Within S d c) (hrun : Run (Serves S) c l c') :
    Within S (max 1 d) c' :=
  hrun.invariant (I := fun _ c => Within S (max 1 d) c) (h.mono (le_max_right _ _))
    fun _ _ _ _ hwithin hserves => hwithin.serves hserves (le_max_left _ _)

theorem count_eq (hrun : Run (Serves S) c l c') (hi : i ∈ S) : c' i = c i + l.count i := by
  induction hrun with
  | nil => rfl
  | @snoc l s a t _ hserves ih =>
    rw [List.count_append]
    by_cases hia : i = a
    · rw [hia, List.count_singleton_self, hserves.served, ← hia, ih]
      rfl
    · rw [hserves.others i hi hia, ih, List.count_singleton, if_neg (by simpa using Ne.symm hia)]
      rfl

omit [DecidableEq ι] in
theorem mem_of_run (hrun : Run (Serves S) c l c') : ∀ j ∈ l, j ∈ S :=
  hrun.invariant (I := fun l _ => ∀ j ∈ l, j ∈ S) (by simp) fun _ _ _ _ hmem hserves =>
    List.forall_mem_append.mpr ⟨hmem, List.forall_mem_singleton.mpr hserves.mem⟩

theorem sum_count (h : ∀ j ∈ l, j ∈ S) : ∑ j ∈ S, l.count j = l.length := by
  simpa using Multiset.sum_count_eq_card (s := S) (m := (l : Multiset ι)) h

omit [DecidableEq ι] in
/-- Counts within 1 of each other are their average, rounded down or up. -/
theorem eq_div_or_eq_div {f : ι → ℕ} (h : Within S 1 f) (hi : i ∈ S) :
    f i = (∑ j ∈ S, f j) / S.card ∨ f i = (∑ j ∈ S, f j + (S.card - 1)) / S.card := by
  have hpos : 0 < S.card := Finset.card_pos.mpr ⟨i, hi⟩
  by_cases habove : ∃ j ∈ S, f i < f j
  · -- no count is lower than that of `i`
    obtain ⟨j, hj, hlt⟩ := habove
    have hlower : S.card * f i ≤ ∑ j ∈ S, f j := by
      refine Finset.card_nsmul_le_sum S f (f i) fun k hk => ?_
      have := h j hj k hk
      omega
    have hupper : ∑ j ∈ S, f j < S.card * (f i + 1) := by
      rw [← smul_eq_mul, ← Finset.sum_const]
      exact Finset.sum_lt_sum (fun k hk => h k hk i hi) ⟨i, hi, Nat.lt_succ_self _⟩
    exact .inl (Nat.div_eq_of_lt_le (by rwa [Nat.mul_comm]) (by rwa [Nat.mul_comm])).symm
  · -- no count is higher than that of `i`
    push Not at habove
    have hupper : ∑ j ∈ S, f j ≤ S.card * f i := Finset.sum_le_card_nsmul S f (f i) habove
    have hlower : S.card * f i < ∑ j ∈ S, (f j + 1) := by
      rw [← smul_eq_mul, ← Finset.sum_const]
      exact Finset.sum_lt_sum (fun k hk => h i hi k hk) ⟨i, hi, Nat.lt_succ_self _⟩
    rw [Finset.sum_add_distrib, Finset.sum_const, smul_eq_mul, Nat.mul_one] at hlower
    refine .inr (Nat.div_eq_of_lt_le ?_ ?_).symm
    · rw [Nat.mul_comm]
      omega
    · rw [Nat.mul_comm, Nat.mul_add, Nat.mul_one]
      omega

/-- From equal counts on, every member serves its share of the requests, rounded down or up. -/
theorem balanced (h : Within S 0 c) (hrun : Run (Serves S) c l c') (hi : i ∈ S) :
    l.count i = l.length / S.card ∨ l.count i = (l.length + (S.card - 1)) / S.card := by
  have hwithin : Within S 1 (l.count ·) := by
    intro j hj k hk
    have hjk := within_of_run h hrun j hj k hk
    rw [count_eq hrun hj, count_eq hrun hk] at hjk
    have hinit := h k hk j hj
    dsimp only
    omega
  have hshare := eq_div_or_eq_div hwithin hi
  rwa [sum_count (mem_of_run hrun)] at hshare

end LeastLoaded
