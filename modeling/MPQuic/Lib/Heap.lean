import Mathlib.Logic.Function.Basic
import Mathlib.Data.Nat.Basic
import Mathlib.Tactic.Common

/-!
# Shared mutable cells

A heap of cells of one type, for programs that pass pointers around and change what they point to.
A reference is valid if it is below `next`; `alloc` returns a new one, and cells are never freed.

* `get_modify_self`, `get_modify_of_ne`: changing a cell through one reference leaves the cells of
  all other references alone.
* `get_alloc_self`, `get_alloc_of_lt`: a new cell leaves all valid references alone.
-/

/-- Cells, and the first reference that is not in use. -/
structure CellHeap (α : Type*) where
  get : ℕ → α
  next : ℕ

namespace CellHeap

variable {α : Type*}

/-- Change the cell of a reference. -/
def modify (h : CellHeap α) (ref : ℕ) (f : α → α) : CellHeap α :=
  { h with get := Function.update h.get ref (f (h.get ref)) }

/-- A new cell. -/
def alloc (h : CellHeap α) (a : α) : ℕ × CellHeap α :=
  (h.next, { get := Function.update h.get h.next a, next := h.next + 1 })

variable {h : CellHeap α} {ref ref' : ℕ} {f : α → α} {a : α}

@[simp]
theorem next_modify : (h.modify ref f).next = h.next := rfl

@[simp]
theorem get_modify_self : (h.modify ref f).get ref = f (h.get ref) :=
  Function.update_self ..

theorem get_modify_of_ne (hne : ref' ≠ ref) : (h.modify ref f).get ref' = h.get ref' :=
  Function.update_of_ne hne ..

/-- A property of a cell that the change keeps. -/
theorem get_modify_of_forall {p : α → Prop} (hkeep : p (h.get ref) → p (f (h.get ref)))
    (hp : p (h.get ref')) : p ((h.modify ref f).get ref') := by
  by_cases heq : ref' = ref
  · subst heq
    rw [get_modify_self]
    exact hkeep hp
  · rwa [get_modify_of_ne heq]

@[simp]
theorem next_alloc : (h.alloc a).2.next = h.next + 1 := rfl

@[simp]
theorem get_alloc_self : (h.alloc a).2.get h.next = a :=
  Function.update_self ..

theorem get_alloc_of_lt (hlt : ref < h.next) : (h.alloc a).2.get ref = h.get ref :=
  Function.update_of_ne (Nat.ne_of_lt hlt) ..

/-- The cells of references among which the changed one is not. -/
theorem map_get_modify {refs : List ℕ} (hnot : ref ∉ refs) :
    refs.map (h.modify ref f).get = refs.map h.get :=
  List.map_congr_left fun _ hmem => get_modify_of_ne fun heq => hnot (heq ▸ hmem)

/-- The cells of valid references, after a new one was added. -/
theorem map_get_alloc {refs : List ℕ} (hlt : ∀ ref ∈ refs, ref < h.next) :
    refs.map (h.alloc a).2.get = refs.map h.get :=
  List.map_congr_left fun ref hmem => get_alloc_of_lt (hlt ref hmem)

end CellHeap
