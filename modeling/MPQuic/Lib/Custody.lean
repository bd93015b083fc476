import Mathlib.Data.Set.Basic
import Mathlib.Tactic.Common

/-!
# Custody of what was sent

A sender puts items into messages and has to keep every item until a message with it has arrived. A
`Ledger` has the contents of every message that was ever sent, the messages that have arrived, and
the items that the sender still holds. It is `Safe` if every item that was ever sent has arrived or
is held.

Messages may share items, and the same items can be held in several places and be given up in any
order. `Moves` says what a step may do: it gives up only items that have arrived, and it sends only
items that were sent before or that it holds. `Safe.moves` is the invariant rule.
-/

namespace Custody

variable {ι α : Type*}

/-- Messages with items of type `α`, and who has the items. -/
structure Ledger (ι α : Type*) where
  /-- The contents of each message that was sent. -/
  record : ι → Set α
  /-- The messages that have arrived. -/
  received : Set ι
  /-- What the sender can send again. -/
  held : Set α

namespace Ledger

variable {l l' l'' : Ledger ι α}

/-- The items that have arrived. -/
def delivered (l : Ledger ι α) : Set α := { x | ∃ i ∈ l.received, x ∈ l.record i }

/-- Everything that was sent has arrived or is held. -/
def Safe (l : Ledger ι α) : Prop := ∀ i, ∀ x ∈ l.record i, x ∈ l.delivered ∨ x ∈ l.held

/-- A step that gives up nothing that has not arrived. -/
structure Moves (l l' : Ledger ι α) : Prop where
  record : ∀ i, l.record i ⊆ l'.record i
  received : l.received ⊆ l'.received
  held : ∀ x ∈ l.held, x ∈ l'.delivered ∨ x ∈ l'.held
  covered : ∀ i, ∀ x ∈ l'.record i, (∃ j, x ∈ l.record j) ∨ x ∈ l'.delivered ∨ x ∈ l'.held

/-- What has arrived stays so. -/
theorem Moves.delivered (h : Moves l l') : l.delivered ⊆ l'.delivered :=
  fun _ ⟨i, hi, hx⟩ => ⟨i, h.received hi, h.record i hx⟩

theorem Moves.refl (l : Ledger ι α) : Moves l l where
  record := fun _ => Set.Subset.rfl
  received := Set.Subset.rfl
  held := fun _ => .inr
  covered := fun i _ hx => .inl ⟨i, hx⟩

theorem Moves.trans (h : Moves l l') (h' : Moves l' l'') : Moves l l'' where
  record := fun i => (h.record i).trans (h'.record i)
  received := h.received.trans h'.received
  held := fun x hx => (h.held x hx).elim (fun hx => .inl (h'.delivered hx)) (h'.held x)
  covered := by
    intro i x hx
    rcases h'.covered i x hx with ⟨j, hj⟩ | hx
    · rcases h.covered j x hj with hx | hx | hx
      · exact .inl hx
      · exact .inr (.inl (h'.delivered hx))
      · exact .inr (h'.held x hx)
    · exact .inr hx

/-- No step of this kind loses anything. -/
theorem Safe.moves (hsafe : l.Safe) (h : Moves l l') : l'.Safe := by
  intro i x hx
  rcases h.covered i x hx with ⟨j, hj⟩ | hx
  · rcases hsafe j x hj with hx | hx
    · exact .inl (h.delivered hx)
    · exact h.held x hx
  · exact hx

end Ledger

end Custody
