import Mathlib.Algebra.GroupWithZero.Nat
import Mathlib.Data.List.Nodup
import Mathlib.Tactic.Common

/-!
# Lists whose elements have distinct keys

A list of records in which a key identifies each record, as a linked list of elements or a table
with one row a key. `eraseKey key k l` takes the record with the key `k` out.

* `eraseKey_of_mem`: taking a record out splits the list at this record.
* `mem_eraseKey`: what is left are the records with other keys.
* `sublist_eraseKey`: the records after the one that is taken out are still there, in their order.
  A loop that collects records of the list first and takes them out one by one afterwards therefore
  finds every record it collected, and `mem_foldl_eraseKey` says what it leaves.
* `replaceKey key a l` puts `a` in the place of the record with its key; `sum_replaceKey` says what
  this does to a sum over the records.
-/

namespace KeyedList

variable {α κ : Type*} [DecidableEq κ] {key : α → κ}

/-- Take the first record with the key `k` out of the list. -/
def eraseKey (key : α → κ) (k : κ) (l : List α) : List α := l.eraseP fun a => key a = k

variable {l : List α} {a b : α} {k : κ}

theorem eraseKey_sublist (key : α → κ) (k : κ) (l : List α) : (eraseKey key k l).Sublist l :=
  List.eraseP_sublist

/-- Without a record with this key the list stays as it is. -/
theorem eraseKey_of_forall_ne (h : ∀ a ∈ l, key a ≠ k) : eraseKey key k l = l :=
  List.eraseP_of_forall_not fun a ha => by simpa using h a ha

/-- A record with another key is left, whether or not keys are distinct. -/
theorem mem_eraseKey_or (key : α → κ) (k : κ) (hb : b ∈ l) : b ∈ eraseKey key k l ∨ key b = k := by
  by_cases hk : key b = k
  · exact .inr hk
  · exact .inl ((List.mem_eraseP_of_neg (by simpa using hk)).mpr hb)

/-- Taking a record out splits the list at this record. -/
theorem eraseKey_of_mem (hl : (l.map key).Nodup) (ha : a ∈ l) :
    ∃ l₁ l₂, l = l₁ ++ a :: l₂ ∧ eraseKey key (key a) l = l₁ ++ l₂ := by
  obtain ⟨b, l₁, l₂, -, hb, hsplit, herase⟩ :=
    List.exists_of_eraseP (p := fun b => key b = key a) ha (by simp)
  have hmem : b ∈ l := by rw [hsplit]; simp
  obtain rfl : b = a := List.inj_on_of_nodup_map hl hmem ha (of_decide_eq_true hb)
  exact ⟨l₁, l₂, hsplit, herase⟩

/-- What is left are the records with other keys. -/
theorem mem_eraseKey (hl : (l.map key).Nodup) : b ∈ eraseKey key k l ↔ b ∈ l ∧ key b ≠ k := by
  by_cases hk : ∃ a ∈ l, key a = k
  · obtain ⟨a, ha, rfl⟩ := hk
    obtain ⟨l₁, l₂, hsplit, herase⟩ := eraseKey_of_mem hl ha
    have hne : ∀ b ∈ l₁ ++ l₂, key b ≠ key a := by
      rw [hsplit, List.map_append, List.map_cons, List.nodup_middle, List.nodup_cons] at hl
      intro b hb heq
      exact hl.1 (heq ▸ List.map_append ▸ List.mem_map_of_mem hb)
    rw [herase]
    constructor
    · intro hb
      refine ⟨?_, hne b hb⟩
      rw [hsplit]
      rcases List.mem_append.mp hb with h | h
      · exact List.mem_append_left _ h
      · exact List.mem_append_right _ (List.mem_cons_of_mem _ h)
    · rintro ⟨hb, hkey⟩
      rw [hsplit, List.mem_append, List.mem_cons] at hb
      rw [List.mem_append]
      rcases hb with h | rfl | h
      · exact .inl h
      · exact absurd rfl hkey
      · exact .inr h
  · have hall : ∀ a ∈ l, key a ≠ k := fun a ha hak => hk ⟨a, ha, hak⟩
    rw [eraseKey_of_forall_ne hall]
    exact ⟨fun hb => ⟨hb, hall b hb⟩, And.left⟩

theorem nodup_eraseKey (hl : (l.map key).Nodup) : ((eraseKey key k l).map key).Nodup :=
  hl.sublist ((eraseKey_sublist key k l).map key)

/-- The records that come after the one that is taken out stay in the list. -/
theorem sublist_eraseKey (hl : (l.map key).Nodup) {s : List α} (hs : (a :: s).Sublist l) :
    s.Sublist (eraseKey key (key a) l) := by
  obtain ⟨l₁, l₂, hsplit, herase⟩ := eraseKey_of_mem hl (hs.subset List.mem_cons_self)
  rw [herase]
  rw [hsplit] at hs hl
  -- `a` occurs once, so that the rest of `s` lies in `l₂`
  have ha₁ : a ∉ l₁ := by
    rw [List.map_append, List.map_cons, List.nodup_middle, List.nodup_cons] at hl
    exact fun h => hl.1 (List.mem_append_left _ (List.mem_map_of_mem h))
  have hsub : s.Sublist l₂ := by
    obtain ⟨s₁, s₂, hs₁₂, h₁, h₂⟩ := List.sublist_append_iff.mp hs
    cases s₁ with
    | nil =>
      rw [List.nil_append] at hs₁₂
      rw [← hs₁₂] at h₂
      exact List.cons_sublist_cons.mp h₂
    | cons b s₁ =>
      obtain ⟨rfl, -⟩ := List.cons.inj hs₁₂
      exact absurd (h₁.subset List.mem_cons_self) ha₁
  exact hsub.trans (List.sublist_append_right l₁ l₂)

/-- After the records of a sublist are taken out one by one, the others are left. -/
theorem mem_foldl_eraseKey (hl : (l.map key).Nodup) {s : List α} (hs : s.Sublist l) :
    b ∈ s.foldl (fun l a => eraseKey key (key a) l) l ↔ b ∈ l ∧ b ∉ s := by
  induction s generalizing l with
  | nil => simp
  | cons a s ih =>
    have ha := hs.subset List.mem_cons_self
    have hmem : b ∈ eraseKey key (key a) l ↔ b ∈ l ∧ b ≠ a := by
      rw [mem_eraseKey hl]
      refine and_congr_right fun hb => not_congr ⟨fun heq => ?_, fun heq => heq ▸ rfl⟩
      exact List.inj_on_of_nodup_map hl hb ha heq
    rw [List.foldl_cons, ih (nodup_eraseKey hl) (sublist_eraseKey hl hs), hmem, List.mem_cons,
      not_or, and_assoc]

/-- Put `a` in the place of the record with its key. -/
def replaceKey (key : α → κ) (a : α) (l : List α) : List α :=
  l.map fun b => if key b = key a then a else b

theorem map_key_replaceKey (key : α → κ) (a : α) (l : List α) :
    (replaceKey key a l).map key = l.map key := by
  rw [replaceKey, List.map_map]
  refine List.map_congr_left fun b _ => ?_
  rw [Function.comp_apply]
  split_ifs with h
  · exact h.symm
  · rfl

theorem nodup_replaceKey (hl : (l.map key).Nodup) : ((replaceKey key a l).map key).Nodup := by
  rw [map_key_replaceKey]
  exact hl

theorem mem_replaceKey (h : b ∈ replaceKey key a l) : b = a ∨ (b ∈ l ∧ key b ≠ key a) := by
  obtain ⟨c, hc, rfl⟩ := List.mem_map.mp h
  split_ifs with hkey
  · exact .inl rfl
  · exact .inr ⟨hc, hkey⟩

theorem replaceKey_self (hl : (l.map key).Nodup) (ha : a ∈ l) : replaceKey key a l = l := by
  refine (List.map_congr_left fun b hb => ?_).trans (List.map_id _)
  split_ifs with hkey
  · exact (List.inj_on_of_nodup_map hl hb ha hkey).symm
  · rfl

theorem mem_replaceKey_self (hb : b ∈ l) (hkey : key b = key a) : a ∈ replaceKey key a l :=
  List.mem_map.mpr ⟨b, hb, if_pos hkey⟩

/-- A record with another key stays. -/
theorem mem_replaceKey_of_ne (hb : b ∈ l) (hkey : key b ≠ key a) : b ∈ replaceKey key a l :=
  List.mem_map.mpr ⟨b, hb, if_neg hkey⟩

/-- A sum over the records changes by the one that is replaced. -/
theorem sum_replaceKey (hl : (l.map key).Nodup) (hb : b ∈ l) (hkey : key b = key a) (g : α → ℕ) :
    ((replaceKey key a l).map g).sum + g b = (l.map g).sum + g a := by
  obtain ⟨l₁, l₂, rfl, -⟩ := eraseKey_of_mem hl hb
  rw [List.map_append, List.map_cons, List.nodup_middle, List.nodup_cons, List.mem_append,
    not_or] at hl
  -- no other record has the key
  have hother : ∀ l' : List α, key b ∉ l'.map key → replaceKey key a l' = l' := by
    intro l' hnot
    refine (List.map_congr_left fun c hc => if_neg fun heq => hnot ?_).trans (List.map_id _)
    exact List.mem_map.mpr ⟨c, hc, heq.trans hkey.symm⟩
  have hsplit : replaceKey key a (l₁ ++ b :: l₂) = l₁ ++ a :: l₂ := by
    have h₁ := hother l₁ hl.1.1
    have h₂ := hother l₂ hl.1.2
    rw [replaceKey] at h₁ h₂ ⊢
    rw [List.map_append, List.map_cons, h₁, h₂, if_pos hkey]
  rw [hsplit]
  simp only [List.map_append, List.map_cons, List.sum_append, List.sum_cons]
  omega

end KeyedList
