import Mathlib.Data.List.Infix
import MPQuic.Wire.AckFrame

/-!
# ACK blocks

The blocks that ranges are written as, and what the parser makes of them. `kept` are the ranges
that fit into 255 blocks, counting the first one; `numWritableNackRanges` counts their blocks.

* `writeRanges_ok`: the loop of `Write` writes the blocks of the kept ranges.
* `foldl_rangeBlocks`: the loop of the parser turns the blocks of a list of ranges into the ranges.
-/

namespace MPQuic

open Bytes

namespace AckedPackets

/-! ## Which ranges are kept -/

/-- The number of blocks that the ranges below `hi` take. -/
def totalBlocks : AckRange → List AckRange → ℕ
  | _, [] => 0
  | hi, a :: rest => blockCount (gapBetween hi a) + totalBlocks a rest

/-- The number of blocks that a list of ranges takes, counting the first one. -/
def neededBlocks : List AckRange → ℕ
  | [] => 0
  | r :: rest => 1 + totalBlocks r rest

/-- The ranges below `hi` that are written when `t` blocks are already used. -/
def kept : AckRange → List AckRange → ℕ → List AckRange
  | _, [], _ => []
  | hi, a :: rest, t =>
    if t + blockCount (gapBetween hi a) < 0xFF then
      a :: kept a rest (t + blockCount (gapBetween hi a))
    else []

/-- Non-empty ranges in descending order, with a packet missing in between, below `hi`. -/
def Below : AckRange → List AckRange → Prop
  | _, [] => True
  | hi, a :: rest => 1 ≤ a.first ∧ a.first ≤ a.last ∧ a.last + 1 < hi.first ∧ Below a rest

section Kept

variable {hi : AckRange} {l q : List AckRange} {t : ℕ}

theorem kept_isPrefix (hi : AckRange) (l : List AckRange) (t : ℕ) : kept hi l t <+: l := by
  induction l generalizing hi t with
  | nil => exact List.nil_prefix
  | cons a rest ih =>
    rw [kept]
    split_ifs
    · exact List.cons_prefix_cons.mpr ⟨rfl, ih _ _⟩
    · exact List.nil_prefix

/-- The code's count of writable blocks is that of the ranges it keeps. -/
theorem writableBlocks_eq (hi : AckRange) (l : List AckRange) (t : ℕ) :
    writableBlocks hi l t = t + totalBlocks hi (kept hi l t) := by
  induction l generalizing hi t with
  | nil => rfl
  | cons a rest ih =>
    simp only [writableBlocks, kept]
    split_ifs
    · rw [ih, totalBlocks, Nat.add_assoc]
    · rfl

/-- The kept ranges fit into 254 blocks. -/
theorem totalBlocks_kept_le (ht : t ≤ 254) : t + totalBlocks hi (kept hi l t) ≤ 254 := by
  induction l generalizing hi t with
  | nil => exact ht
  | cons a rest ih =>
    rw [kept]
    split_ifs with hfit
    · rw [totalBlocks, ← Nat.add_assoc]
      exact ih (by omega)
    · exact ht

/-- No longer list of leading ranges fits into 254 blocks. -/
theorem length_le_length_kept (hq : q <+: l) (hfit : t + totalBlocks hi q ≤ 254) :
    q.length ≤ (kept hi l t).length := by
  induction l generalizing hi t q with
  | nil => simp [List.prefix_nil.mp hq]
  | cons a rest ih =>
    cases q with
    | nil => simp
    | cons b q =>
      obtain ⟨rfl, hq'⟩ := List.cons_prefix_cons.mp hq
      rw [totalBlocks, ← Nat.add_assoc] at hfit
      rw [kept, if_pos (by omega), List.length_cons, List.length_cons]
      exact Nat.succ_le_succ (ih hq' hfit)

theorem Below.of_isPrefix (h : Below hi l) (hq : q <+: l) : Below hi q := by
  induction l generalizing hi q with
  | nil => rw [List.prefix_nil.mp hq]; trivial
  | cons a rest ih =>
    cases q with
    | nil => trivial
    | cons b q =>
      obtain ⟨rfl, hq'⟩ := List.cons_prefix_cons.mp hq
      exact ⟨h.1, h.2.1, h.2.2.1, ih h.2.2.2 hq'⟩

end Kept

/-! ## Blocks -/

/-- Every gap takes a block. -/
theorem blockCount_pos {gap : ℕ} (h : 0 < gap) : 0 < blockCount gap := by
  unfold blockCount
  split_ifs <;> omega

theorem blockCount_le_iff (gap n : ℕ) : blockCount gap ≤ n ↔ gap ≤ n * 255 := by
  unfold blockCount
  split_ifs <;> omega

/-- A long gap is written as full blocks of length zero and one last block. -/
theorem blocks_eq {gap n : ℕ} (length : ℕ) (hn : blockCount gap = n + 1) (hpos : 0 < n) :
    blocks gap length =
      List.replicate n (0xFF, 0) ++ [(1 + (gap - 1) % 255, length)] := by
  rw [blocks, if_neg (by omega), hn, List.range_succ, List.map_append]
  congr 1
  · rw [List.eq_replicate_iff]
    refine ⟨by simp, fun b hb => ?_⟩
    obtain ⟨i, hi, rfl⟩ := List.mem_map.mp hb
    rw [if_neg]
    have := List.mem_range.mp hi
    omega
  · simp

theorem length_blocks (gap length : ℕ) : (blocks gap length).length = blockCount gap := by
  unfold blocks
  split_ifs with h
  · exact h.symm
  · simp

/-- Gaps fit into a byte, and the lengths are zero or that of the range. -/
theorem mem_blocks {gap length : ℕ} (hgap : 0 < gap) {b : ℕ × ℕ} (hb : b ∈ blocks gap length) :
    b.1 < 256 ∧ (b.2 = 0 ∨ b.2 = length) := by
  unfold blocks at hb
  split_ifs at hb with h
  · have hle := (blockCount_le_iff gap 1).mp h.le
    rw [List.mem_singleton] at hb
    subst hb
    exact ⟨by dsimp only; omega, .inr rfl⟩
  · obtain ⟨i, -, rfl⟩ := List.mem_map.mp hb
    split_ifs
    · exact ⟨by dsimp only; omega, .inr rfl⟩
    · exact ⟨by decide, .inl rfl⟩

/-- The blocks of the ranges below `hi`. -/
def rangeBlocks : AckRange → List AckRange → List (ℕ × ℕ)
  | _, [] => []
  | hi, a :: rest => blocks (gapBetween hi a) (rangeLength a) ++ rangeBlocks a rest

theorem length_rangeBlocks (hi : AckRange) (l : List AckRange) :
    (rangeBlocks hi l).length = totalBlocks hi l := by
  induction l generalizing hi with
  | nil => rfl
  | cons a rest ih => rw [rangeBlocks, List.length_append, length_blocks, ih, totalBlocks]

/-- The bytes of a list of blocks. -/
def encodeBlocks (o : Order) (w : ℕ) (bs : List (ℕ × ℕ)) : List UInt8 :=
  bs.flatMap fun b => UInt8.ofNat b.1 :: toBytes o w b.2

theorem encodeBlocks_nil (o : Order) (w : ℕ) : encodeBlocks o w [] = [] := rfl

theorem encodeBlocks_append (o : Order) (w : ℕ) (bs bs' : List (ℕ × ℕ)) :
    encodeBlocks o w (bs ++ bs') = encodeBlocks o w bs ++ encodeBlocks o w bs' :=
  List.flatMap_append

theorem length_encodeBlocks (o : Order) (w : ℕ) (bs : List (ℕ × ℕ)) :
    (encodeBlocks o w bs).length = bs.length * (1 + w) := by
  induction bs with
  | nil => simp [encodeBlocks]
  | cons b bs ih =>
    rw [encodeBlocks, List.flatMap_cons, List.length_append, List.length_cons, length_toBytes,
      List.length_cons]
    rw [encodeBlocks] at ih
    rw [ih, Nat.succ_mul]
    omega

/-- The machine arithmetic on a range and the gap above it is exact. -/
theorem gap_length_eq {hi a : AckRange} (hhi : hi.first < 2 ^ 48) (hle : a.first ≤ a.last)
    (hlt : a.last + 1 < hi.first) :
    gapBetween hi a = hi.first - a.last - 1 ∧ rangeLength a = a.last - a.first + 1 := by
  have hsize : 2 ^ 48 < uint64Size := by decide
  constructor
  · have hsub : uint64Sub hi.first a.last = hi.first - a.last :=
      uint64Sub_eq (by omega) (by omega)
    rw [gapBetween, hsub, uint64Sub_eq (by omega) (by omega)]
  · rw [rangeLength, uint64Sub_eq (by omega) hle, uint64Add_eq (by omega)]

/-- Every list of ranges takes a block. -/
theorem totalBlocks_pos {hi : AckRange} {l : List AckRange} (hhi : hi.first < 2 ^ 48)
    (hbelow : Below hi l) (hl : l ≠ []) : 0 < totalBlocks hi l := by
  cases l with
  | nil => exact absurd rfl hl
  | cons a rest =>
    obtain ⟨-, hle, hlt, -⟩ := hbelow
    have hgap := (gap_length_eq hhi hle hlt).1
    have hpos : 0 < blockCount (gapBetween hi a) := blockCount_pos (by omega)
    rw [totalBlocks]
    omega

/-! ## Writing -/

section Write

variable {put : ℕ → Except WriteError (List UInt8)} {o : Order} {w : ℕ}

theorem writeBlocks_ok {bs : List (ℕ × ℕ)} (hput : ∀ b ∈ bs, put b.2 = .ok (toBytes o w b.2)) :
    writeBlocks put bs = .ok (encodeBlocks o w bs) := by
  induction bs with
  | nil => rfl
  | cons b bs ih =>
    rw [List.forall_mem_cons] at hput
    rw [writeBlocks, hput.1, ih hput.2]
    rfl

/-- The blocks of one range are written. -/
theorem writeBlocks_blocks {gap length : ℕ} (hgap : 0 < gap) (hzero : put 0 = .ok (toBytes o w 0))
    (hput : put length = .ok (toBytes o w length)) :
    writeBlocks put (blocks gap length) = .ok (encodeBlocks o w (blocks gap length)) := by
  refine writeBlocks_ok fun b hb => ?_
  rcases (mem_blocks hgap hb).2 with h | h
  · rw [h, hzero]
  · rw [h, hput]

/-- The loop of `Write` writes the blocks of the kept ranges, if there are any, and stops after
them. -/
theorem writeRanges_ok {hi : AckRange} {l : List AckRange} {t : ℕ} (hhi : hi.first < 2 ^ 48)
    (hbelow : Below hi l) (hzero : put 0 = .ok (toBytes o w 0))
    (hput : ∀ a ∈ l, put (rangeLength a) = .ok (toBytes o w (rangeLength a)))
    (hkept : kept hi l t ≠ []) :
    writeRanges put (writableBlocks hi l t + 1) hi l (1 + t) =
      .ok (encodeBlocks o w (rangeBlocks hi (kept hi l t)), writableBlocks hi l t + 1) := by
  induction l generalizing hi t with
  | nil => exact absurd rfl hkept
  | cons a rest ih =>
    obtain ⟨hpos, hle, hlt, hrest⟩ := hbelow
    obtain ⟨hgap, hlength⟩ := gap_length_eq hhi hle hlt
    rw [List.forall_mem_cons] at hput
    by_cases hfit : t + blockCount (gapBetween hi a) < 0xFF
    swap
    · exact absurd (if_neg hfit) hkept
    have hblocks := writeBlocks_blocks (show 0 < gapBetween hi a by omega) hzero hput.1
    have htotal := writableBlocks_eq a rest (t + blockCount (gapBetween hi a))
    rw [kept, if_pos hfit, writableBlocks, if_pos hfit, rangeBlocks, encodeBlocks_append]
    simp only [writeRanges, hblocks, length_blocks, Nat.add_assoc]
    rw [ok_bind]
    generalize hn : t + blockCount (gapBetween hi a) = n at *
    by_cases hlast : kept a rest n = []
    · -- the blocks written so far are all that is announced
      have hdone : writableBlocks a rest n = n := by rw [htotal, hlast, totalBlocks, Nat.add_zero]
      rw [hdone, hlast, if_pos (by omega), rangeBlocks, encodeBlocks_nil, List.append_nil,
        Nat.add_comm 1]
    · -- the next kept range takes at least one block more
      have hmore := totalBlocks_pos (by omega) (hrest.of_isPrefix (kept_isPrefix a rest n)) hlast
      rw [if_neg (by omega), ih (by omega) hrest hput.2 hlast, ok_bind]
      rfl

end Write

/-! ## Reading -/

section Read

variable {o : Order} {w : ℕ}

/-- The reader folds the step function over the written blocks. -/
theorem readBlocks_encode {bs : List (ℕ × ℕ)} (hbs : ∀ b ∈ bs, b.1 < 256 ∧ b.2 < 256 ^ w)
    (s : BlockState) (rest : List UInt8) :
    readBlocks o w bs.length s (encodeBlocks o w bs ++ rest) =
      .ok (bs.foldl (fun s b => s.step b.1 b.2) s, rest) := by
  induction bs generalizing s with
  | nil => rfl
  | cons b bs ih =>
    rw [List.forall_mem_cons] at hbs
    have hgap : (UInt8.ofNat b.1).toNat = b.1 := UInt8.toNat_ofNat_of_lt hbs.1.1
    rw [List.length_cons, readBlocks, encodeBlocks, List.flatMap_cons, List.cons_append,
      List.cons_append, Reader.bind_ok (readByte_cons _ _), List.append_assoc,
      Reader.bind_ok (readUintN_toBytes hbs.1.2 _), hgap, List.foldl_cons]
    exact ih hbs.2 _

/-- The state of the reader after `k` blocks of a gap that is not finished. -/
def longState (hi : AckRange) (earlier : List AckRange) (k : ℕ) : BlockState where
  earlier := hi :: earlier
  current := { first := hi.first - 255 * k, last := hi.first - 255 * k - 1 }
  inLongBlock := true
  lastRangeComplete := false

/-- The state of the reader after the last block of the range `a`. -/
def completeState (hi a : AckRange) (earlier : List AckRange) : BlockState where
  earlier := hi :: earlier
  current := a
  inLongBlock := false
  lastRangeComplete := true

/-- Blocks of length zero only move the start of the next range down. -/
theorem foldl_replicate {s : BlockState} {n : ℕ} (hs : s.inLongBlock = false) (hn : 0 < n)
    (hsize : s.current.first < uint64Size) (hroom : 255 * n < s.current.first) :
    (List.replicate n ((0xFF, 0) : ℕ × ℕ)).foldl (fun s b => s.step b.1 b.2) s =
      longState s.current s.earlier n := by
  induction n with
  | zero => omega
  | succ n ih =>
    rw [List.replicate_succ', List.foldl_append]
    rcases Nat.eq_zero_or_pos n with rfl | hn'
    · -- the first block of the gap opens a new range
      have hlast : uint64Sub (uint64Sub s.current.first 255) 1 = s.current.first - 255 - 1 := by
        rw [uint64Sub_eq hsize (by omega), uint64Sub_eq (by omega) (by omega)]
      have hfirst : uint64Add (uint64Sub (s.current.first - 255 - 1) 0) 1 =
          s.current.first - 255 := by
        rw [uint64Sub_eq (by omega) (by omega), uint64Add_eq (by omega)]
        omega
      simp [BlockState.step, longState, hs, hlast, hfirst]
    · -- the later ones move it
      have hfirst : uint64Sub (s.current.first - 255 * n) (uint64Add 255 0) =
          s.current.first - 255 * (n + 1) := by
        rw [uint64Add_eq (by decide), uint64Sub_eq (by omega) (by omega)]
        omega
      have hlast : uint64Sub (s.current.first - 255 * n - 1) 255 =
          s.current.first - 255 * (n + 1) - 1 := by
        rw [uint64Sub_eq (by omega) (by omega)]
        omega
      rw [ih hn' (by omega)]
      simp [BlockState.step, longState, hfirst, hlast]

/-- The last block of a long gap completes the range. -/
theorem step_longState {hi a : AckRange} {earlier : List AckRange} {n g : ℕ}
    (hsize : hi.first < uint64Size) (hpos : 1 ≤ a.first) (hle : a.first ≤ a.last)
    (hlast : a.last + (255 * n + g) + 1 = hi.first) :
    (longState hi earlier n).step g (a.last - a.first + 1) = completeState hi a earlier := by
  have hfirst : uint64Sub (hi.first - 255 * n) (uint64Add g (a.last - a.first + 1)) = a.first := by
    rw [uint64Add_eq (by omega), uint64Sub_eq (by omega) (by omega)]
    omega
  have hlast' : uint64Sub (hi.first - 255 * n - 1) g = a.last := by
    rw [uint64Sub_eq (by omega) (by omega)]
    omega
  simp [BlockState.step, longState, completeState, hfirst, hlast']

/-- A block that is not part of a long gap is a whole range. -/
theorem step_single {s : BlockState} {a : AckRange} {g : ℕ} (hs : s.inLongBlock = false)
    (hsize : s.current.first < uint64Size) (hpos : 1 ≤ a.first) (hle : a.first ≤ a.last)
    (hlast : a.last + g + 1 = s.current.first) :
    s.step g (a.last - a.first + 1) = completeState s.current a s.earlier := by
  have hlast' : uint64Sub (uint64Sub s.current.first g) 1 = a.last := by
    rw [uint64Sub_eq hsize (by omega), uint64Sub_eq (by omega) (by omega)]
    omega
  have hfirst : uint64Add (uint64Sub a.last (a.last - a.first + 1)) 1 = a.first := by
    rw [uint64Sub_eq (by omega) (by omega), uint64Add_eq (by omega)]
    omega
  simp [BlockState.step, completeState, hs, hlast', hfirst]

/-- The blocks of one range add exactly this range, whatever the size of the gap. -/
theorem foldl_blocks {s : BlockState} {a : AckRange} (hs : s.inLongBlock = false)
    (hhi : s.current.first < 2 ^ 48) (hpos : 1 ≤ a.first) (hle : a.first ≤ a.last)
    (hlt : a.last + 1 < s.current.first) :
    (blocks (gapBetween s.current a) (rangeLength a)).foldl (fun s b => s.step b.1 b.2) s =
      completeState s.current a s.earlier := by
  have hsize : s.current.first < uint64Size := hhi.trans (by decide)
  obtain ⟨hgap, hlength⟩ := gap_length_eq hhi hle hlt
  have hcount : 0 < blockCount (gapBetween s.current a) := blockCount_pos (by omega)
  by_cases hone : blockCount (gapBetween s.current a) = 1
  · rw [blocks, if_pos hone, hlength]
    exact step_single hs hsize hpos hle (by omega)
  · obtain ⟨n, hn⟩ := Nat.exists_eq_add_of_lt hcount
    have hn' : blockCount (gapBetween s.current a) = n + 1 := by omega
    have hupper := (blockCount_le_iff (gapBetween s.current a) (n + 1)).mp hn'.le
    have hlower : ¬ gapBetween s.current a ≤ n * 255 := by
      rw [← blockCount_le_iff]
      omega
    rw [blocks_eq _ hn' (by omega), List.foldl_append, foldl_replicate hs (by omega) hsize
      (by omega), hlength]
    exact step_longState hsize hpos hle (by omega)

/-- The blocks of a list of ranges add exactly these ranges. -/
theorem foldl_rangeBlocks {s : BlockState} {l : List AckRange} (hs : s.inLongBlock = false)
    (hhi : s.current.first < 2 ^ 48) (hbelow : Below s.current l)
    (hl : l ≠ [] ∨ s.lastRangeComplete = true) :
    ((rangeBlocks s.current l).foldl (fun s b => s.step b.1 b.2) s).ranges =
      s.earlier.reverse ++ s.current :: l := by
  induction l generalizing s with
  | nil => simp [rangeBlocks, BlockState.ranges, hl.resolve_left (· rfl)]
  | cons a rest ih =>
    obtain ⟨hpos, hle, hlt, hrest⟩ := hbelow
    rw [rangeBlocks, List.foldl_append, foldl_blocks hs hhi hpos hle hlt]
    have hnext := ih (s := completeState s.current a s.earlier) rfl
      (show a.first < 2 ^ 48 by omega) hrest (.inr rfl)
    simpa [completeState] using hnext

end Read

end AckedPackets

end MPQuic
