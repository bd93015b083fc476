import Mathlib.Data.List.Basic
import Mathlib.Tactic.Common

/-!
# Readers that deliver a stream in chunks

A reader fills a buffer with the next elements of a stream. It may deliver fewer elements than the
buffer takes, and without an error; which ones come next does not depend on that. An error, which
includes the end of the stream, can come together with the last elements or after them.

* `ChunkedReader`: the contract. `rest s` is what the reader still delivers.
* `ChunkedReader.Result.buffer`: the buffer after a read, in which the elements that were not
  delivered keep their initial value.
* `ChunkedReader.FullRead`: a read is full, or leaves only zeros. By `buffer_eq_and_iff` the parts
  of a stream are read back, one after the other, exactly if all reads are of this kind.
* `ChunkedReader.chopped`: a reader for a given limit on the chunks.
-/

variable {σ α ε : Type}

/-- The outcome of a read. -/
structure ChunkedReader.Result (σ α ε : Type) where
  elements : List α
  err : Option ε
  next : σ

/-- The number of elements that were delivered. -/
def ChunkedReader.Result.count (result : ChunkedReader.Result σ α ε) : ℕ :=
  result.elements.length

/-- A buffer of `size` elements with the initial value `zero` to which a list was copied. -/
def ChunkedReader.padded (zero : α) (size : ℕ) (l : List α) : List α :=
  l ++ List.replicate (size - l.length) zero

/-- The buffer after the read. -/
def ChunkedReader.Result.buffer (zero : α) (size : ℕ) (result : ChunkedReader.Result σ α ε) :
    List α :=
  ChunkedReader.padded zero size result.elements

/-- A reader with states of type `σ`. -/
structure ChunkedReader (σ α ε : Type) where
  read : σ → ℕ → ChunkedReader.Result σ α ε
  rest : σ → List α
  count_le : ∀ s size, (read s size).count ≤ size
  rest_eq : ∀ s size, rest s = (read s size).elements ++ rest (read s size).next
  rest_of_err : ∀ s size, (read s size).err ≠ none → rest (read s size).next = []

namespace ChunkedReader

variable (reader : ChunkedReader σ α ε)

theorem elements_eq (s : σ) (size : ℕ) :
    (reader.read s size).elements = (reader.rest s).take (reader.read s size).count := by
  rw [reader.rest_eq s size]
  exact (List.take_left' rfl).symm

theorem rest_next (s : σ) (size : ℕ) :
    reader.rest (reader.read s size).next = (reader.rest s).drop (reader.read s size).count := by
  rw [reader.rest_eq s size]
  exact (List.drop_left' rfl).symm

@[simp]
theorem length_buffer (zero : α) (s : σ) (size : ℕ) :
    ((reader.read s size).buffer zero size).length = size := by
  have hle := reader.count_le s size
  unfold Result.buffer padded
  rw [List.length_append, List.length_replicate]
  exact Nat.add_sub_cancel' hle

/-- The read is full, or only zeros are left of the stream after it. -/
def FullRead (zero : α) (s : σ) (size : ℕ) : Prop :=
  (reader.read s size).count = size ∨ ∀ a ∈ reader.rest (reader.read s size).next, a = zero

section ReadingBack

variable {reader} {zero : α} {s : σ} {part more : List α} {behind : ℕ}

/-- If zeros precede a part in the stream and it is in the buffer all the same, it is zero, too. -/
theorem eq_zero_of_padded_eq {n : ℕ} (h : padded zero part.length
    ((List.replicate (behind + 1) zero ++ (part ++ more)).take n) = part) :
    ∀ a ∈ part, a = zero := by
  suffices hget : ∀ i (hi : i < part.length), part[i] = zero by
    intro a ha
    obtain ⟨i, hi, rfl⟩ := List.getElem_of_mem ha
    exact hget i hi
  intro i
  -- an element is zero, or the one `behind + 1` places before it
  induction i using Nat.strongRecOn with
  | ind i ih =>
    intro hi
    have hget := congrArg (·[i]?) h
    unfold padded at hget
    grind

theorem eq_zero_of_mem_behind (h : ∀ a ∈ part, a = zero) :
    ∀ a ∈ List.replicate behind zero ++ part, a = zero :=
  List.forall_mem_append.mpr ⟨fun _ => List.eq_of_mem_replicate, h⟩

-- the reader is `behind` zeros behind
variable (hrest : reader.rest s = List.replicate behind zero ++ (part ++ more))
include hrest

theorem rest_next_of_behind : reader.rest (reader.read s part.length).next =
    (List.replicate behind zero ++ part).drop (reader.read s part.length).count ++ more := by
  have hle := reader.count_le s part.length
  rw [rest_next, hrest, ← List.append_assoc, List.drop_append_of_le_length]
  rw [List.length_append]
  omega

/-- The next part is in the buffer if all that is missing is zero, and the part as well unless the
reader is in step. -/
theorem buffer_eq_iff : (reader.read s part.length).buffer zero part.length = part ↔
    (∀ a ∈ (List.replicate behind zero ++ part).drop (reader.read s part.length).count, a = zero) ∧
      (0 < behind → ∀ a ∈ part, a = zero) := by
  have hle := reader.count_le s part.length
  rw [Result.buffer, elements_eq, hrest]
  generalize (reader.read s part.length).count = n at hle ⊢
  cases behind with
  | zero =>
    have hlength : (part.take n).length = n := List.length_take_of_le hle
    rw [List.replicate_zero, List.nil_append, List.nil_append, List.take_append_of_le_length hle,
      padded, hlength]
    constructor
    · intro h
      have hdrop := congrArg (List.drop n) h
      rw [List.drop_left' hlength] at hdrop
      exact ⟨fun a ha => List.eq_of_mem_replicate (hdrop ▸ ha), nofun⟩
    · rintro ⟨h, -⟩
      rw [← List.length_drop, ← List.eq_replicate_of_mem h, List.take_append_drop]
  | succ behind =>
    constructor
    · intro h
      have hzero := eq_zero_of_padded_eq h
      exact ⟨fun a ha => eq_zero_of_mem_behind hzero a (List.mem_of_mem_drop ha), fun _ => hzero⟩
    · rintro ⟨-, hzero⟩
      rw [List.eq_replicate_of_mem (hzero (Nat.succ_pos _)), List.length_replicate,
        ← List.append_assoc, List.replicate_append_replicate,
        List.take_append_of_le_length (by rw [List.length_replicate]; omega), List.take_replicate,
        padded, List.length_replicate, List.replicate_append_replicate]
      congr 1
      omega

/-- A reader that has left the next part in the buffer is behind by what is missing. -/
theorem rest_next_of_buffer
    (hbuffer : (reader.read s part.length).buffer zero part.length = part) :
    reader.rest (reader.read s part.length).next =
      List.replicate (behind + part.length - (reader.read s part.length).count) zero ++ more := by
  have hdrop := List.eq_replicate_of_mem ((buffer_eq_iff hrest).mp hbuffer).1
  rw [List.length_drop, List.length_append, List.length_replicate] at hdrop
  rw [rest_next_of_behind hrest, hdrop]

/-- An error comes only with a full read: otherwise the stream has not ended. -/
theorem err_eq_none_or_count_eq
    (hbuffer : (reader.read s part.length).buffer zero part.length = part) :
    (reader.read s part.length).err = none ∨
      (reader.read s part.length).count = part.length := by
  have hle := reader.count_le s part.length
  by_contra! h
  have hnext := rest_next_of_buffer hrest hbuffer
  rw [reader.rest_of_err _ _ h.1, eq_comm, List.append_eq_nil_iff,
    List.replicate_eq_nil_iff] at hnext
  omega

/-- A part is in the buffer and a reader that is then behind finds only zeros, exactly if the read
is full up to zeros and a reader that was behind before finds only zeros. -/
theorem buffer_eq_and_iff : (reader.read s part.length).buffer zero part.length = part ∧
      (0 < behind + part.length - (reader.read s part.length).count → ∀ a ∈ more, a = zero) ↔
    reader.FullRead zero s part.length ∧ (0 < behind → ∀ a ∈ part ++ more, a = zero) := by
  have hle := reader.count_le s part.length
  rw [buffer_eq_iff hrest, FullRead, rest_next_of_behind hrest]
  simp only [List.forall_mem_append]
  constructor
  · rintro ⟨⟨hdrop, hpart⟩, hmore⟩
    refine ⟨?_, fun hbehind => ⟨hpart hbehind, hmore (by omega)⟩⟩
    rcases Nat.lt_or_eq_of_le hle with hlt | heq
    · exact .inr ⟨hdrop, hmore (by omega)⟩
    · exact .inl heq
  · rintro ⟨heq | ⟨hdrop, hmore⟩, hzero⟩
    · refine ⟨⟨fun a ha => ?_, fun hbehind => (hzero hbehind).1⟩,
        fun hpos => (hzero (by omega)).2⟩
      -- after a full read of a reader in step nothing is missing
      rcases Nat.eq_zero_or_pos behind with rfl | hbehind
      · simp [heq] at ha
      · exact eq_zero_of_mem_behind (hzero hbehind).1 a (List.mem_of_mem_drop ha)
    · exact ⟨⟨hdrop, fun hbehind => (hzero hbehind).1⟩, fun _ => hmore⟩

end ReadingBack

section Chopped

variable (limit : ℕ → ℕ) (eager : Bool) (eof : ε)

/-- The next elements of a list, at most `limit size` of them. The end of the list is reported with
the last ones if the reader is `eager`. -/
def readChopped (s : List α) (size : ℕ) : Result (List α) α ε where
  elements := s.take (min (limit size) size)
  err := if s = [] ∨ (eager ∧ s.drop (min (limit size) size) = []) then some eof else none
  next := s.drop (min (limit size) size)

theorem count_readChopped_le (s : List α) (size : ℕ) :
    (readChopped limit eager eof s size).count ≤ size :=
  Nat.le_trans (List.length_take_le _ _) (Nat.min_le_right _ _)

theorem next_readChopped_of_err (s : List α) (size : ℕ)
    (h : (readChopped limit eager eof s size).err ≠ none) :
    (readChopped limit eager eof s size).next = [] := by
  unfold readChopped at h ⊢
  dsimp only at h ⊢
  split_ifs at h with hend
  · obtain rfl | ⟨-, hdrop⟩ := hend
    · exact List.drop_nil
    · exact hdrop
  · exact absurd rfl h

/-- The reader of a list with the given limit on the chunks. -/
def chopped : ChunkedReader (List α) α ε where
  read := readChopped limit eager eof
  rest s := s
  count_le := count_readChopped_le limit eager eof
  rest_eq _ _ := (List.take_append_drop _ _).symm
  rest_of_err := next_readChopped_of_err limit eager eof

end Chopped

end ChunkedReader
