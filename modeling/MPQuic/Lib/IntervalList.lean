import Mathlib.Data.List.Pairwise
import Mathlib.Tactic.Common
import Mathlib.Data.Nat.Basic

/-!
# Sorted interval lists as sets of naturals

A list of half-open intervals `[lo a, hi a)` over an arbitrary carrier `α`. A list is
`Separated` when its intervals are non-empty, sorted and pairwise at distance at least one, so
that it is the unique shortest description of the set it covers.

* `Covers lo hi l x`: some interval of `l` contains `x`.
* `Separated lo hi l`: the normal form.
* `separated_append`, `covers_append`: the two notions along concatenation, which is how a list
  surgery (split, shrink, merge, remove) is reasoned about.
* `Separated.replace`: replacing the middle part of a separated list.
* `separated_reverse_cons`: the normal form of a list that is kept in descending order.
-/

namespace IntervalList

variable {α : Type*} (lo hi : α → ℕ)

/-- Some interval of the list contains `x`. -/
def Covers (l : List α) (x : ℕ) : Prop := ∃ a ∈ l, lo a ≤ x ∧ x < hi a

instance (l : List α) (x : ℕ) : Decidable (Covers lo hi l x) :=
  inferInstanceAs (Decidable (∃ a ∈ l, lo a ≤ x ∧ x < hi a))

/-- Non-empty, sorted, disjoint and non-adjacent intervals. -/
structure Separated (l : List α) : Prop where
  /-- Every interval contains a point. -/
  nonempty : ∀ a ∈ l, lo a < hi a
  /-- Between an interval and any later one there is a point that neither contains. -/
  pairwise : l.Pairwise fun a b => hi a < lo b

variable {lo hi}

@[simp]
theorem covers_nil (x : ℕ) : ¬ Covers lo hi [] x := by
  simp [Covers]

@[simp]
theorem covers_cons (a : α) (l : List α) (x : ℕ) :
    Covers lo hi (a :: l) x ↔ (lo a ≤ x ∧ x < hi a) ∨ Covers lo hi l x := by
  simp [Covers]

@[simp]
theorem covers_append (l₁ l₂ : List α) (x : ℕ) :
    Covers lo hi (l₁ ++ l₂) x ↔ Covers lo hi l₁ x ∨ Covers lo hi l₂ x := by
  simp [Covers, or_and_right, exists_or]

@[simp]
theorem covers_reverse (l : List α) (x : ℕ) :
    Covers lo hi l.reverse x ↔ Covers lo hi l x := by
  simp [Covers]

@[simp]
theorem separated_nil : Separated lo hi ([] : List α) :=
  ⟨by simp, by simp⟩

theorem separated_cons (a : α) (l : List α) :
    Separated lo hi (a :: l) ↔
      lo a < hi a ∧ (∀ b ∈ l, hi a < lo b) ∧ Separated lo hi l := by
  constructor
  · rintro ⟨hne, hpair⟩
    rw [List.pairwise_cons] at hpair
    exact ⟨hne a (by simp), hpair.1, ⟨fun b hb => hne b (by simp [hb]), hpair.2⟩⟩
  · rintro ⟨ha, hlt, hne, hpair⟩
    refine ⟨?_, List.pairwise_cons.mpr ⟨hlt, hpair⟩⟩
    intro b hb
    rcases List.mem_cons.mp hb with rfl | hb
    · exact ha
    · exact hne b hb

theorem separated_append (l₁ l₂ : List α) :
    Separated lo hi (l₁ ++ l₂) ↔
      Separated lo hi l₁ ∧ Separated lo hi l₂ ∧ ∀ a ∈ l₁, ∀ b ∈ l₂, hi a < lo b := by
  constructor
  · rintro ⟨hne, hpair⟩
    rw [List.pairwise_append] at hpair
    exact ⟨⟨fun a ha => hne a (by simp [ha]), hpair.1⟩,
      ⟨fun a ha => hne a (by simp [ha]), hpair.2.1⟩, hpair.2.2⟩
  · rintro ⟨h₁, h₂, hlt⟩
    refine ⟨?_, List.pairwise_append.mpr ⟨h₁.pairwise, h₂.pairwise, hlt⟩⟩
    intro a ha
    rcases List.mem_append.mp ha with ha | ha
    · exact h₁.nonempty a ha
    · exact h₂.nonempty a ha

theorem separated_reverse_cons (a : α) (l : List α) :
    Separated lo hi (a :: l).reverse ↔
      lo a < hi a ∧ (∀ b ∈ l, hi b < lo a) ∧ Separated lo hi l.reverse := by
  rw [List.reverse_cons, separated_append, separated_cons]
  simp only [List.mem_reverse, List.mem_singleton, List.not_mem_nil, separated_nil]
  aesop

/-- A later interval of a separated list lies to the right of an earlier one. -/
theorem Separated.lt_of_append {l₁ l₂ : List α} (h : Separated lo hi (l₁ ++ l₂)) {a b : α}
    (ha : a ∈ l₁) (hb : b ∈ l₂) : hi a < lo b :=
  ((separated_append l₁ l₂).mp h).2.2 a ha b hb

/-- The middle part of a separated list can be replaced by any separated list that stays within
its extent. -/
theorem Separated.replace {l₁ l₂ l₃ m : List α} (h : Separated lo hi (l₁ ++ l₂ ++ l₃))
    (hm : Separated lo hi m) (hlo : ∀ b ∈ m, ∃ a ∈ l₂, lo a ≤ lo b)
    (hhi : ∀ b ∈ m, ∃ a ∈ l₂, hi b ≤ hi a) : Separated lo hi (l₁ ++ m ++ l₃) := by
  obtain ⟨h₁₂, h₃, h₂₃⟩ := (separated_append _ _).mp h
  obtain ⟨h₁, -, h₁₂⟩ := (separated_append _ _).mp h₁₂
  refine (separated_append _ _).mpr ⟨(separated_append _ _).mpr ⟨h₁, hm, ?_⟩, h₃, ?_⟩
  · intro a ha b hb
    obtain ⟨c, hc, hle⟩ := hlo b hb
    exact Nat.lt_of_lt_of_le (h₁₂ a ha c hc) hle
  · intro a ha b hb
    rcases List.mem_append.mp ha with ha | ha
    · exact h₂₃ a (List.mem_append_left _ ha) b hb
    · obtain ⟨c, hc, hle⟩ := hhi a ha
      exact Nat.lt_of_le_of_lt hle (h₂₃ c (List.mem_append_right _ hc) b hb)

end IntervalList
