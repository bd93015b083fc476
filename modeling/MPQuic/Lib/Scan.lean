import Mathlib.Data.List.Perm.Subperm
import Mathlib.Logic.Relation

/-!
# Scanning for the best element

A loop that goes over the elements once and keeps the best one so far, where `R x y` says that `x`
replaces `y`. The relation is total, but it need not be transitive: what the scan ends with then
depends on the order of the elements.

* `scan_best`: if `R` follows a preorder, the scan ends with a least element.
* `exists_scan_eq_iff`: over all orders, the scan ends exactly with the elements from which every
  element can be reached by a chain of `R`.
-/

namespace Scan

variable {α : Type*} (R : α → α → Prop)

/-- The best element after `best` and the elements of a list. -/
def scan [DecidableRel R] (best : α) (l : List α) : α :=
  l.foldl (fun best x => if R x best then x else best) best

/-- There is a chain of `R` from `a` to `b` within a list. -/
def Reaches (S : List α) (a b : α) : Prop :=
  Relation.ReflTransGen (fun x y => x ∈ S ∧ y ∈ S ∧ R x y) a b

variable {R} {S l : List α} {best t x : α}

theorem scan_cons [DecidableRel R] (best x : α) (l : List α) :
    scan R best (x :: l) = scan R (if R x best then x else best) l := rfl

theorem scan_mem [DecidableRel R] (best : α) (l : List α) : scan R best l ∈ best :: l := by
  induction l generalizing best with
  | nil => exact List.mem_singleton_self best
  | cons y l ih =>
    rw [scan_cons]
    rcases List.mem_cons.mp (ih (if R y best then y else best)) with h | h
    · rw [h]
      split_ifs <;> simp
    · exact List.mem_cons_of_mem _ (List.mem_cons_of_mem _ h)

/-- If an element is replaced only by one that is no worse, and not replaced only by one that is no
better, then the scan ends with a best element. -/
theorem scan_best [DecidableRel R] {le : α → α → Prop} (hrefl : ∀ x, le x x)
    (htrans : ∀ x y z, le x y → le y z → le x z) (hR : ∀ x y, R x y → le x y)
    (hnot : ∀ x y, ¬ R x y → le y x) (hx : x ∈ best :: l) : le (scan R best l) x := by
  induction l generalizing best x with
  | nil =>
    rw [List.mem_singleton.mp hx]
    exact hrefl best
  | cons y l ih =>
    rw [scan_cons]
    -- the one that is kept is no worse than `best` and `y`
    obtain ⟨z, hz⟩ : ∃ z, z = if R y best then y else best := ⟨_, rfl⟩
    have hboth : le z best ∧ le z y := by
      rw [hz]
      split_ifs with h
      · exact ⟨hR y best h, hrefl y⟩
      · exact ⟨hrefl best, hnot y best h⟩
    rw [← hz]
    have hbest : le (scan R z l) z := ih List.mem_cons_self
    rcases List.mem_cons.mp hx with rfl | hx
    · exact htrans _ _ _ hbest hboth.1
    rcases List.mem_cons.mp hx with rfl | hx
    · exact htrans _ _ _ hbest hboth.2
    · exact ih (List.mem_cons_of_mem _ hx)

/-- Every element was replaced by one that replaces it, or has not replaced the best one: there is a
chain to it from the element that the scan ends with. -/
theorem reaches_scan [DecidableRel R] (htotal : ∀ x y, R x y ∨ R y x) (hbest : best ∈ S)
    (hl : ∀ x ∈ l, x ∈ S) (hx : x ∈ best :: l) : Reaches R S (scan R best l) x := by
  induction l generalizing best x with
  | nil =>
    rw [List.mem_singleton.mp hx]
    exact .refl
  | cons y l ih =>
    have hy : y ∈ S := hl y List.mem_cons_self
    have hl' : ∀ x ∈ l, x ∈ S := fun x hx => hl x (List.mem_cons_of_mem _ hx)
    rw [scan_cons]
    split_ifs with h
    · rcases List.mem_cons.mp hx with rfl | hx
      · exact (ih hy hl' List.mem_cons_self).tail ⟨hy, hbest, h⟩
      · exact ih hy hl' hx
    · rcases List.mem_cons.mp hx with rfl | hx
      · exact ih hbest hl' List.mem_cons_self
      · rcases List.mem_cons.mp hx with rfl | hx
        · exact (ih hbest hl' List.mem_cons_self).tail
            ⟨hbest, hy, (htotal _ _).resolve_left h⟩
        · exact ih hbest hl' (List.mem_cons_of_mem _ hx)

/-- An order in which every element before `t` is replaced by a later one. -/
inductive Grown (R : α → α → Prop) (t : α) : List α → Prop where
  | single : Grown R t [t]
  | cons {b : α} {l : List α} : Grown R t l → (∃ y ∈ l, R y b) → Grown R t (b :: l)

theorem Grown.mem (h : Grown R t l) : t ∈ l := by
  induction h with
  | single => exact List.mem_singleton_self t
  | cons _ _ ih => exact List.mem_cons_of_mem _ ih

theorem Grown.scan_eq [DecidableRel R] (h : Grown R t l) (hx : ∃ y ∈ l, R y x) :
    scan R x l = t := by
  induction h generalizing x with
  | single =>
    obtain ⟨y, hy, hyx⟩ := hx
    rw [List.mem_singleton.mp hy] at hyx
    exact if_pos hyx
  | @cons b l _ hb ih =>
    rw [scan_cons]
    split_ifs with h
    · exact ih hb
    · obtain ⟨y, hy, hyx⟩ := hx
      rcases List.mem_cons.mp hy with rfl | hy
      · exact absurd hyx h
      · exact ih ⟨y, hy, hyx⟩

/-- A chain that leaves a list has a step that leaves it. -/
theorem Reaches.exists_leaving (h : Reaches R S t x) (ht : t ∈ l) (hx : x ∉ l) :
    ∃ a ∈ l, ∃ b ∈ S, b ∉ l ∧ R a b := by
  induction h with
  | refl => exact absurd ht hx
  | @tail y x _ hstep ih =>
    by_cases hy : y ∈ l
    · exact ⟨y, hy, x, hstep.2.1, hx, hstep.2.2⟩
    · exact ih hy

/-- If `t` reaches every element, then every such order of some of the elements can be completed. -/
theorem Grown.exists_perm (hreach : ∀ x ∈ S, Reaches R S t x) (hgrown : Grown R t l)
    (hnodup : l.Nodup) (hsub : l ⊆ S) (hS : S.Nodup) : ∃ l', Grown R t l' ∧ l'.Perm S := by
  induction hn : S.length - l.length using Nat.strongRecOn generalizing l with
  | ind n ih =>
  by_cases hall : ∀ x ∈ S, x ∈ l
  · exact ⟨l, hgrown, (List.perm_ext_iff_of_nodup hnodup hS).mpr fun x =>
      ⟨fun hx => hsub hx, hall x⟩⟩
  · push Not at hall
    obtain ⟨x, hxS, hxl⟩ := hall
    obtain ⟨a, ha, b, hbS, hbl, hab⟩ := (hreach x hxS).exists_leaving hgrown.mem hxl
    have hnodup' : (b :: l).Nodup := List.nodup_cons.mpr ⟨hbl, hnodup⟩
    have hsub' : b :: l ⊆ S := List.cons_subset.mpr ⟨hbS, hsub⟩
    have hle := (List.subperm_of_subset hnodup' hsub').length_le
    rw [List.length_cons] at hle
    refine ih (S.length - (b :: l).length) ?_ (.cons hgrown ⟨a, ha, hab⟩) hnodup' hsub' rfl
    rw [List.length_cons]
    omega

/-- Over all orders, the scan ends exactly with the elements that reach every element. -/
theorem exists_scan_eq_iff [DecidableRel R] (htotal : ∀ x y, R x y ∨ R y x) (hS : S.Nodup)
    (ht : t ∈ S) :
    (∃ x l, (x :: l).Perm S ∧ scan R x l = t) ↔ ∀ x ∈ S, Reaches R S t x := by
  constructor
  · rintro ⟨x, l, hperm, rfl⟩ y hy
    refine reaches_scan htotal (hperm.subset List.mem_cons_self) ?_ (hperm.symm.subset hy)
    exact fun z hz => hperm.subset (List.mem_cons_of_mem _ hz)
  · intro hreach
    obtain ⟨l, hgrown, hperm⟩ := Grown.exists_perm hreach .single (List.pairwise_singleton _ t)
      (List.cons_subset.mpr ⟨ht, List.nil_subset S⟩) hS
    cases hgrown with
    | single => exact ⟨t, [], hperm, rfl⟩
    | @cons x l hgrown hx => exact ⟨x, l, hperm, hgrown.scan_eq hx⟩

end Scan
