import Mathlib.Data.List.Forall2
import MPQuic.Wire.AckFrame

/-!
# Accepted ACK and CLOSE_PATH frames

The parser subtracts gaps and lengths from packet numbers on `uint64`, and checks the ranges when
it has read them all. `ExactState` runs the same loop on integers. The words of the parser are the
integers modulo `2 ^ 64`, and 255 blocks of at most six bytes cannot go around once: a range that
has wrapped around begins above every possible packet number, and is not below the range before
it. The ranges of an accepted frame are therefore those of the integers (`readAckBlocks_exact`), and
they are well formed (`readAckBlocks_wellFormed`), whatever the bytes.
-/

namespace MPQuic

open Bytes
open Reader hiding bind_eq_ok

/-! ## Well-formed frames -/

namespace AckedPackets

/-- What the users of a received frame rely on. -/
structure WellFormed (f : AckedPackets) : Prop where
  length_ranges : f.ackRanges = [] ∨ 2 ≤ f.ackRanges.length
  first_le_last : ∀ r ∈ f.ackRanges, r.first ≤ r.last
  /-- Each range lies below the ones before it, with a missing packet in between. -/
  descending : f.ackRanges.Pairwise fun a b => b.last + 1 < a.first
  largest_eq : ∀ r, f.ackRanges.head? = some r → r.last = f.largestAcked
  lowest_eq : ∀ r, f.ackRanges.getLast? = some r → f.lowestAcked = r.first
  lowest_le : f.lowestAcked ≤ f.largestAcked
  largest_lt : f.largestAcked < 2 ^ 48

end AckedPackets

/-! ## The loop on integers -/

/-- A range of integers. -/
structure ExactRange where
  first : ℤ
  last : ℤ

/-- The fields of a frame as integers. -/
structure ExactAcked where
  largestAcked : ℤ
  lowestAcked : ℤ
  ackRanges : List ExactRange

/-- The state of the loop over the blocks, on integers. -/
structure ExactState where
  earlier : List ExactRange
  current : ExactRange
  inLongBlock : Bool
  lastRangeComplete : Bool

namespace ExactState

/-- The state with the first range. -/
def start (largestAcked ackBlockLength : ℕ) : ExactState where
  earlier := []
  current := { first := largestAcked - ackBlockLength + 1, last := largestAcked }
  inLongBlock := false
  lastRangeComplete := false

def step (s : ExactState) (gap length : ℕ) : ExactState :=
  if s.inLongBlock then
    { s with
      current := { first := s.current.first - (gap + length), last := s.current.last - gap }
      lastRangeComplete := decide (0 < length) || s.lastRangeComplete
      inLongBlock := length == 0 }
  else
    let last := s.current.first - gap - 1
    { earlier := s.current :: s.earlier
      current := { first := last - length + 1, last := last }
      lastRangeComplete := decide (0 < length)
      inLongBlock := length == 0 }

def ranges (s : ExactState) : List ExactRange :=
  if s.lastRangeComplete then (s.current :: s.earlier).reverse else s.earlier.reverse

end ExactState

/-- The fields of a frame from which its ranges are computed. -/
structure AckFields where
  largestAcked : ℕ
  hasMissingRanges : Bool
  /-- The length of the first block. -/
  ackBlockLength : ℕ
  /-- Gap and length of the blocks below it. -/
  blocks : List (ℕ × ℕ)

namespace AckFields

/-- The loop over the blocks, on integers. -/
def run (a : AckFields) : ExactState :=
  a.blocks.foldl (fun s b => s.step b.1 b.2) (.start a.largestAcked a.ackBlockLength)

/-- What the fields say without wrap-around. -/
def acked (a : AckFields) : ExactAcked where
  largestAcked := a.largestAcked
  lowestAcked :=
    if a.hasMissingRanges then
      match a.run.ranges.getLast? with
      | none => 0
      | some lowest => lowest.first
    else if a.largestAcked = 0 then 0 else a.largestAcked + 1 - a.ackBlockLength
  ackRanges := if a.hasMissingRanges then a.run.ranges else []

end AckFields

namespace AckedPackets

/-- The blocks as they are on the wire. -/
def readBlockFields (o : Order) (deltaLen : ℕ) : ℕ → FrameReader (List (ℕ × ℕ))
  | 0 => pure []
  | n + 1 => do
    let gap ← readByte
    let ackBlockLength ← readUintN o deltaLen
    let rest ← readBlockFields o deltaLen n
    return (gap.toNat, ackBlockLength) :: rest

/-- The fields that `readAckBlocks` reads. -/
def readAckFields (o : Order) (deltaLen : ℕ) (hasMissingRanges : Bool) (numAckBlocks : ℕ)
    (largestAcked : ℕ) : FrameReader AckFields := do
  let ackBlockLength ← readUintN o deltaLen
  let blocks ← optional hasMissingRanges (readBlockFields o deltaLen numAckBlocks) []
  return { largestAcked, hasMissingRanges, ackBlockLength, blocks }

/-- The fields of a received frame as integers. -/
def toExact (f : AckedPackets) : ExactAcked where
  largestAcked := f.largestAcked
  lowestAcked := f.lowestAcked
  ackRanges := f.ackRanges.map fun r => { first := r.first, last := r.last }

end AckedPackets

open AckedPackets

/-- The fields of an ACK frame from which its ranges are computed. -/
def AckFrame.readFields (o : Order) : FrameReader AckFields := do
  let typeByte ← readByte
  let hasMissingRanges := typeByte &&& 0x20 == 0x20
  let _ ← optional (typeByte &&& 0x10 == 0x10) readByte initialPathID
  let largestAcked ← readUintN o (lenOfBits ((typeByte &&& 0x0C) >>> 2))
  let _ ← readUfloat16 o
  let numAckBlocks ← optional hasMissingRanges readByte 0
  readAckFields o (lenOfBits (typeByte &&& 0x03)) hasMissingRanges numAckBlocks.toNat largestAcked

/-- The fields of a CLOSE_PATH frame from which its ranges are computed. -/
def ClosePathFrame.readFields (o : Order) : FrameReader AckFields := do
  let _ ← readByte
  let _ ← readByte
  let flags ← readByte
  let hasMissingRanges := flags &&& 0x10 == 0x10
  let numAckBlocks ← optional hasMissingRanges readByte 0
  let largestAcked ← readUintN o (lenOfBits ((flags &&& 0x0C) >>> 2))
  readAckFields o (lenOfBits (flags &&& 0x03)) hasMissingRanges numAckBlocks.toNat largestAcked

/-! ## The words of the parser are the integers modulo `2 ^ 64` -/

theorem cast_uint64Add {a : ℕ} {x : ℤ} (h : (a : ℤ) = x % uint64Size) (b : ℕ) :
    (uint64Add a b : ℤ) = (x + b) % uint64Size := by
  unfold uint64Add uint64Size at *
  omega

theorem cast_uint64Sub {a : ℕ} {x : ℤ} (h : (a : ℤ) = x % uint64Size) (b : ℕ) :
    (uint64Sub a b : ℤ) = (x - b) % uint64Size := by
  unfold uint64Sub uint64Size at *
  omega

/-- The words of a range are its integers modulo `2 ^ 64`. -/
def Wraps (r : AckRange) (x : ExactRange) : Prop :=
  (r.first : ℤ) = x.first % uint64Size ∧ (r.last : ℤ) = x.last % uint64Size

/-- A state of the parser and the state on integers that it represents. -/
structure Represents (s : BlockState) (e : ExactState) : Prop where
  earlier : List.Forall₂ Wraps s.earlier e.earlier
  current : Wraps s.current e.current
  inLongBlock : s.inLongBlock = e.inLongBlock
  lastRangeComplete : s.lastRangeComplete = e.lastRangeComplete

theorem Represents.step {s : BlockState} {e : ExactState} (h : Represents s e) {gap length : ℕ}
    (hsize : gap + length < uint64Size) : Represents (s.step gap length) (e.step gap length) := by
  obtain ⟨hfirst, hlast⟩ := h.current
  unfold BlockState.step ExactState.step
  rw [h.inLongBlock]
  split_ifs
  · refine ⟨h.earlier, ⟨?_, cast_uint64Sub hlast gap⟩, rfl, by rw [h.lastRangeComplete]⟩
    rw [uint64Add_eq hsize]
    exact_mod_cast cast_uint64Sub hfirst (gap + length)
  · have hlast' := cast_uint64Sub (cast_uint64Sub hfirst gap) 1
    refine ⟨.cons h.current h.earlier, ⟨?_, hlast'⟩, rfl, rfl⟩
    exact cast_uint64Add (cast_uint64Sub hlast' length) 1

/-! ## Bounds of the integers -/

namespace ExactState

/-- One block moves a range down by less than `2 ^ 49`. -/
def blockReach : ℤ := 562949953421312

/-- The integers after `n` blocks. -/
structure Bounded (n : ℕ) (e : ExactState) : Prop where
  first_ge : ∀ x ∈ e.current :: e.earlier, -(n * blockReach) ≤ x.first
  last_lt : ∀ x ∈ e.current :: e.earlier, x.last < ((2 ^ 48 : ℕ) : ℤ)
  /-- The current range is empty while its gap is not finished. -/
  first_le : e.current.first ≤ e.current.last + 1
  complete : e.lastRangeComplete = true ∨ e.inLongBlock = false → e.current.first ≤ e.current.last
  earlier : ∀ x ∈ e.earlier, x.first ≤ x.last

theorem Bounded.step {n gap length : ℕ} {e : ExactState} (h : e.Bounded n) (hgap : gap < 256)
    (hlength : length < 2 ^ 48) : (e.step gap length).Bounded (n + 1) := by
  obtain ⟨hge, hgeEarlier⟩ := List.forall_mem_cons.mp h.first_ge
  obtain ⟨hlt, hltEarlier⟩ := List.forall_mem_cons.mp h.last_lt
  have hfirst := h.first_le
  have hreach : ((n + 1 : ℕ) : ℤ) * blockReach = n * blockReach + 562949953421312 := by
    rw [Nat.cast_succ, Int.add_mul, Int.one_mul]
    rfl
  have hbelow : ∀ x : ExactRange, -(n * blockReach) ≤ x.first →
      -(((n + 1 : ℕ) : ℤ) * blockReach) ≤ x.first := by
    intro x hx
    omega
  unfold ExactState.step
  by_cases hlong : e.inLongBlock = true
  · -- the gap above the current range goes on
    rw [if_pos hlong]
    refine ⟨List.forall_mem_cons.mpr ⟨?_, fun x hx => hbelow x (hgeEarlier x hx)⟩,
      List.forall_mem_cons.mpr ⟨?_, hltEarlier⟩, ?_, ?_, h.earlier⟩
    · dsimp only
      omega
    · dsimp only
      omega
    · dsimp only
      omega
    · intro hcomplete
      dsimp only at hcomplete ⊢
      rcases Nat.eq_zero_or_pos length with rfl | hpos
      · have := h.complete (.inl (by simpa using hcomplete))
        omega
      · omega
  · -- the current range is finished, and a new one starts below it
    rw [if_neg hlong]
    have hcurrent := h.complete (.inr (by simpa using hlong))
    refine ⟨List.forall_mem_cons.mpr ⟨?_, fun x hx => hbelow x (h.first_ge x hx)⟩,
      List.forall_mem_cons.mpr ⟨?_, h.last_lt⟩, ?_, ?_,
      List.forall_mem_cons.mpr ⟨hcurrent, h.earlier⟩⟩
    · dsimp only
      omega
    · dsimp only
      omega
    · dsimp only
      omega
    · intro hcomplete
      have hpos : 0 < length := by simpa [Nat.pos_iff_ne_zero] using hcomplete
      dsimp only
      omega

end ExactState

/-! ## The state after all blocks -/

section Blocks

variable {blocks : List (ℕ × ℕ)} {s : BlockState} {e : ExactState}

theorem Represents.foldl (h : Represents s e)
    (hblocks : ∀ b ∈ blocks, b.1 < 256 ∧ b.2 < 2 ^ 48) :
    Represents (blocks.foldl (fun s b => s.step b.1 b.2) s)
      (blocks.foldl (fun e b => e.step b.1 b.2) e) := by
  induction blocks generalizing s e with
  | nil => exact h
  | cons b blocks ih =>
    obtain ⟨hb, hblocks⟩ := List.forall_mem_cons.mp hblocks
    exact ih (h.step (by unfold uint64Size; omega)) hblocks

theorem ExactState.Bounded.foldl {n : ℕ} (h : e.Bounded n)
    (hblocks : ∀ b ∈ blocks, b.1 < 256 ∧ b.2 < 2 ^ 48) :
    (blocks.foldl (fun e b => e.step b.1 b.2) e).Bounded (n + blocks.length) := by
  induction blocks generalizing n e with
  | nil => exact h
  | cons b blocks ih =>
    obtain ⟨hb, hblocks⟩ := List.forall_mem_cons.mp hblocks
    rw [List.length_cons, Nat.add_comm blocks.length, ← Nat.add_assoc]
    exact ih (h.step hb.1 hb.2) hblocks

/-- Ranges are only appended. -/
theorem exists_earlier_foldl (s : BlockState) (blocks : List (ℕ × ℕ)) :
    ∃ l, (blocks.foldl (fun s b => s.step b.1 b.2) s).earlier = l ++ s.earlier := by
  induction blocks generalizing s with
  | nil => exact ⟨[], rfl⟩
  | cons b blocks ih =>
    obtain ⟨l, hl⟩ := ih (s.step b.1 b.2)
    rw [List.foldl_cons, hl, BlockState.step]
    split_ifs
    · exact ⟨l, rfl⟩
    · exact ⟨l ++ [s.current], by rw [List.append_assoc]; rfl⟩

/-- After a block the first range stays at the top. -/
theorem exists_ranges_eq_cons (hs : s.earlier = []) (hlong : s.inLongBlock = false)
    (hblocks : blocks ≠ []) :
    ∃ l, (blocks.foldl (fun s b => s.step b.1 b.2) s).ranges = s.current :: l := by
  obtain ⟨b, blocks, rfl⟩ := List.exists_cons_of_ne_nil hblocks
  obtain ⟨l, hl⟩ := exists_earlier_foldl (s.step b.1 b.2) blocks
  have hfirst : (s.step b.1 b.2).earlier = [s.current] := by
    rw [BlockState.step, if_neg (by simp [hlong]), hs]
  rw [List.foldl_cons, BlockState.ranges, hl, hfirst]
  split_ifs
  · exact ⟨_, by rw [← List.cons_append, List.reverse_append]; rfl⟩
  · exact ⟨_, by rw [List.reverse_append]; rfl⟩

/-- The ranges of the parser are those of the integers modulo `2 ^ 64`. -/
theorem Represents.ranges (h : Represents s e) : List.Forall₂ Wraps s.ranges e.ranges := by
  unfold BlockState.ranges ExactState.ranges
  rw [h.lastRangeComplete]
  split_ifs
  · exact List.forall₂_reverse_iff.mpr (.cons h.current h.earlier)
  · exact List.forall₂_reverse_iff.mpr h.earlier

/-- All ranges that are returned are complete. -/
theorem ExactState.Bounded.ranges {n : ℕ} (h : e.Bounded n) :
    ∀ x ∈ e.ranges, -(n * blockReach) ≤ x.first ∧ x.first ≤ x.last ∧
      x.last < ((2 ^ 48 : ℕ) : ℤ) := by
  intro x hx
  unfold ExactState.ranges at hx
  split_ifs at hx with hcomplete
  · rw [List.mem_reverse] at hx
    refine ⟨h.first_ge x hx, ?_, h.last_lt x hx⟩
    rcases List.mem_cons.mp hx with rfl | hx
    · exact h.complete (.inl hcomplete)
    · exact h.earlier x hx
  · rw [List.mem_reverse] at hx
    exact ⟨h.first_ge x (List.mem_cons_of_mem _ hx), h.earlier x hx,
      h.last_lt x (List.mem_cons_of_mem _ hx)⟩

end Blocks

/-! ## The validation rejects what has wrapped around -/

/-- A range below another one, with no more than 255 blocks, has not wrapped around. -/
theorem Wraps.eq_of_lt {r : AckRange} {x : ExactRange} (h : Wraps r x)
    (hge : -(255 * ExactState.blockReach) ≤ x.first) (hle : x.first ≤ x.last)
    (hlt : x.last < ((2 ^ 48 : ℕ) : ℤ)) (hr : r.first ≤ 2 ^ 48) :
    ({ first := r.first, last := r.last } : ExactRange) = x := by
  obtain ⟨hfirst, hlast⟩ := h
  unfold ExactState.blockReach at hge
  unfold uint64Size at hfirst hlast
  have hpos : 0 ≤ x.first := by omega
  have heq : (r.first : ℤ) = x.first := by omega
  have heq' : (r.last : ℤ) = x.last := by omega
  rw [heq, heq']

theorem map_eq_of_consistentRanges {hi : AckRange} {rs : List AckRange} {xs : List ExactRange}
    (h : List.Forall₂ Wraps rs xs) (hhi : hi.first ≤ 2 ^ 48)
    (hxs : ∀ x ∈ xs, -(255 * ExactState.blockReach) ≤ x.first ∧ x.first ≤ x.last ∧
      x.last < ((2 ^ 48 : ℕ) : ℤ))
    (hcons : consistentRanges hi rs = true) :
    (rs.map fun r => ({ first := r.first, last := r.last } : ExactRange)) = xs := by
  induction h generalizing hi with
  | nil => rfl
  | cons hwraps _ ih =>
    obtain ⟨hx, hxs⟩ := List.forall_mem_cons.mp hxs
    obtain ⟨hfirst, -, hrest⟩ := consistentRanges_cons_iff.mp hcons
    rw [List.map_cons, hwraps.eq_of_lt hx.1 hx.2.1 hx.2.2 (by omega), ih (by omega) hxs hrest]

/-- Consistent ranges that do not end at the top of the range are in descending order. -/
theorem pairwise_of_consistentRanges {hi : AckRange} {l : List AckRange}
    (hcons : consistentRanges hi l = true) (hle : ∀ r ∈ l, r.first ≤ r.last)
    (hlt : ∀ r ∈ l, r.last < 2 ^ 48) :
    (hi :: l).Pairwise fun a b => b.last + 1 < a.first := by
  induction l generalizing hi with
  | nil => exact List.pairwise_singleton _ _
  | cons a rest ih =>
    obtain ⟨ha, hle⟩ := List.forall_mem_cons.mp hle
    obtain ⟨ha', hlt⟩ := List.forall_mem_cons.mp hlt
    obtain ⟨-, hgap, hrest⟩ := consistentRanges_cons_iff.mp hcons
    rw [uint64Add_eq (by unfold uint64Size; omega)] at hgap
    have hpair := ih hrest hle hlt
    refine List.pairwise_cons.mpr ⟨List.forall_mem_cons.mpr ⟨hgap, fun b hb => ?_⟩, hpair⟩
    have := (List.pairwise_cons.mp hpair).1 b hb
    omega

/-! ## Accepted frames -/

namespace AckedPackets

variable {o : Order} {deltaLen numAckBlocks largestAcked : ℕ} {hasMissingRanges : Bool}
  {bs rest : List UInt8} {f : AckedPackets}

theorem readUintN_lt {len n : ℕ} (hlen : len ≤ 6) (h : readUintN o len bs = .ok (n, rest)) :
    n < 2 ^ 48 :=
  calc n < 256 ^ len := readNat_lt h
    _ ≤ 256 ^ 6 := Nat.pow_le_pow_right (by decide) hlen
    _ = 2 ^ 48 := by decide

/-- Reading the blocks folds the step function over their fields. -/
theorem readBlocks_eq_ok {n : ℕ} {s s' : BlockState} (hlen : deltaLen ≤ 6)
    (h : readBlocks o deltaLen n s bs = .ok (s', rest)) :
    ∃ blocks, readBlockFields o deltaLen n bs = .ok (blocks, rest) ∧ blocks.length = n ∧
      s' = blocks.foldl (fun s b => s.step b.1 b.2) s ∧
      ∀ b ∈ blocks, b.1 < 256 ∧ b.2 < 2 ^ 48 := by
  induction n generalizing s bs with
  | zero =>
    obtain ⟨rfl, rfl⟩ := pure_eq_ok h
    exact ⟨[], rfl, rfl, rfl, by simp⟩
  | succ n ih =>
    obtain ⟨gap, bs₁, hgap, h⟩ := Reader.bind_eq_ok h
    obtain ⟨length, bs₂, hlength, h⟩ := Reader.bind_eq_ok h
    obtain ⟨blocks, hread, hn, rfl, hblocks⟩ := ih h
    refine ⟨(gap.toNat, length) :: blocks, ?_, by rw [List.length_cons, hn], rfl,
      List.forall_mem_cons.mpr ⟨⟨gap.toNat_lt, ?_⟩, hblocks⟩⟩
    · rw [readBlockFields, bind_ok hgap, bind_ok hlength, bind_ok hread]
      rfl
    · exact readUintN_lt hlen hlength

/-- The state of the parser with the first range. -/
def startState (largestAcked ackBlockLength : ℕ) : BlockState where
  earlier := []
  current := { first := uint64Add (uint64Sub largestAcked ackBlockLength) 1, last := largestAcked }
  inLongBlock := false
  lastRangeComplete := false

section Start

variable {ackBlockLength : ℕ}

theorem startState_first (hle : ackBlockLength ≤ largestAcked) (hlarge : largestAcked < 2 ^ 48) :
    (startState largestAcked ackBlockLength).current.first = largestAcked - ackBlockLength + 1 := by
  have hsize : 2 ^ 48 < uint64Size := by decide
  rw [startState, uint64Sub_eq (by omega) hle, uint64Add_eq (by omega)]

theorem represents_start (hlarge : largestAcked < 2 ^ 48) :
    Represents (startState largestAcked ackBlockLength) (.start largestAcked ackBlockLength) := by
  have hself : (largestAcked : ℤ) = (largestAcked : ℤ) % uint64Size := by
    unfold uint64Size
    omega
  exact ⟨.nil, ⟨cast_uint64Add (cast_uint64Sub hself _) 1, hself⟩, rfl, rfl⟩

theorem bounded_start (hone : 1 ≤ ackBlockLength) (hle : ackBlockLength ≤ largestAcked)
    (hlarge : largestAcked < 2 ^ 48) :
    (ExactState.start largestAcked ackBlockLength).Bounded 0 := by
  unfold ExactState.start
  constructor
  · intro x hx
    obtain rfl := List.mem_singleton.mp hx
    simp only [Nat.cast_zero, Int.zero_mul]
    omega
  · intro x hx
    obtain rfl := List.mem_singleton.mp hx
    dsimp only
    omega
  · dsimp only
    omega
  · intro _
    dsimp only
    omega
  · simp

end Start

end AckedPackets

namespace AckFields

variable {a : AckFields} {f : AckedPackets}

/-- The state of the parser after all blocks. -/
def parsed (a : AckFields) : BlockState :=
  a.blocks.foldl (fun s b => s.step b.1 b.2) (startState a.largestAcked a.ackBlockLength)

/-- Fields with which the parser goes on to the validation. -/
structure InRange (a : AckFields) : Prop where
  length_le : a.ackBlockLength ≤ a.largestAcked
  largest_lt : a.largestAcked < 2 ^ 48
  blocks_lt : ∀ b ∈ a.blocks, b.1 < 256 ∧ b.2 < 2 ^ 48
  blocks_ne : a.blocks ≠ []
  blocks_length : a.blocks.length ≤ 255

/-- The first range is at the top, and begins at most at `2 ^ 48`. -/
theorem InRange.exists_cons (h : a.InRange) :
    ∃ top l, a.parsed.ranges = top :: l ∧ top.last = a.largestAcked ∧
      top.first = a.largestAcked - a.ackBlockLength + 1 := by
  obtain ⟨l, hl⟩ := exists_ranges_eq_cons
    (s := startState a.largestAcked a.ackBlockLength) rfl rfl h.blocks_ne
  exact ⟨_, l, hl, rfl, startState_first h.length_le h.largest_lt⟩

/-- If the first block has a length, all ranges on integers are within the reach of the blocks. -/
theorem InRange.bounds (h : a.InRange) (hone : 1 ≤ a.ackBlockLength) :
    ∀ x ∈ a.run.ranges, -(255 * ExactState.blockReach) ≤ x.first ∧ x.first ≤ x.last ∧
      x.last < ((2 ^ 48 : ℕ) : ℤ) := by
  intro x hx
  have hbounded := (bounded_start hone h.length_le h.largest_lt).foldl h.blocks_lt
  obtain ⟨hge, hle, hlt⟩ := hbounded.ranges x hx
  refine ⟨?_, hle, hlt⟩
  have hn := h.blocks_length
  unfold ExactState.blockReach at hge ⊢
  omega

/-- The ranges that pass the validation are those of the integers. -/
theorem InRange.toExact_eq (h : a.InRange) (hranges : f.ackRanges = a.parsed.ranges)
    (hvalid : f.validateAckRanges = true) :
    f.toExact.ackRanges = a.run.ranges ∧ (∀ r ∈ f.ackRanges, r.last < 2 ^ 48) := by
  obtain ⟨top, l, hl, hlast, hfirst⟩ := h.exists_cons
  have hle := h.length_le
  have hlarge := h.largest_lt
  rw [hl] at hranges
  obtain ⟨-, -, hfirst_le, hcons⟩ := (validateAckRanges_cons_iff hranges).mp hvalid
  -- the validation has seen the first range, so that its block was not empty
  have hone : 1 ≤ a.ackBlockLength := by
    have := hfirst_le top (by rw [hranges]; exact List.mem_cons_self)
    omega
  have hbounds := h.bounds hone
  have hwraps : List.Forall₂ Wraps a.parsed.ranges a.run.ranges :=
    ((represents_start hlarge).foldl h.blocks_lt).ranges
  rw [hl] at hwraps
  have hexact : f.toExact.ackRanges = a.run.ranges := by
    rw [toExact, hranges]
    cases hx : a.run.ranges with
    | nil =>
      rw [hx] at hwraps
      cases hwraps
    | cons x xs =>
      rw [hx] at hwraps hbounds
      obtain ⟨hx, hxs⟩ := List.forall_mem_cons.mp hbounds
      obtain ⟨htop, hl⟩ := List.forall₂_cons.mp hwraps
      rw [List.map_cons, htop.eq_of_lt hx.1 hx.2.1 hx.2.2 (by omega),
        map_eq_of_consistentRanges hl (by omega) hxs hcons]
  refine ⟨hexact, fun r hr => ?_⟩
  have hmem : (⟨r.first, r.last⟩ : ExactRange) ∈ a.run.ranges := by
    rw [← hexact]
    exact List.mem_map_of_mem hr
  have := (hbounds _ hmem).2.2
  dsimp only at this
  omega

/-- The ranges that pass the validation are well formed. -/
theorem InRange.wellFormed (h : a.InRange) (hranges : f.ackRanges = a.parsed.ranges)
    (hlargest : f.largestAcked = a.largestAcked)
    (hlowest : ∀ r, f.ackRanges.getLast? = some r → f.lowestAcked = r.first)
    (hvalid : f.validateAckRanges = true) : f.WellFormed := by
  obtain ⟨top, l, hl, hlast, -⟩ := h.exists_cons
  obtain ⟨-, hlt⟩ := h.toExact_eq hranges hvalid
  rw [hl] at hranges
  obtain ⟨hne, -, hle, hcons⟩ := (validateAckRanges_cons_iff hranges).mp hvalid
  have hpair : f.ackRanges.Pairwise fun a b => b.last + 1 < a.first := by
    rw [hranges] at hlt hle ⊢
    exact pairwise_of_consistentRanges hcons (List.forall_mem_cons.mp hle).2
      (List.forall_mem_cons.mp hlt).2
  constructor
  · right
    rw [hranges, List.length_cons]
    have := List.length_pos_iff.mpr hne
    omega
  · exact hle
  · exact hpair
  · intro r hr
    rw [hranges] at hr
    obtain rfl : top = r := by simpa using hr
    rw [hlast, hlargest]
  · exact hlowest
  · -- the lowest range is the top one or below it
    obtain ⟨r, hr⟩ : ∃ r, f.ackRanges.getLast? = some r := by
      rw [hranges]
      exact ⟨_, List.getLast?_cons⟩
    have hmem := List.mem_of_getLast? hr
    have htop := hle top (by rw [hranges]; exact List.mem_cons_self)
    have hrle := hle r hmem
    rw [hlowest r hr, hlargest]
    rw [hranges] at hmem hpair
    rcases List.mem_cons.mp hmem with rfl | hmem
    · omega
    · have := (List.pairwise_cons.mp hpair).1 r hmem
      omega
  · rw [hlargest]
    exact h.largest_lt

end AckFields

/-! ## The parsers -/

namespace AckedPackets

variable {o : Order} {deltaLen numAckBlocks largestAcked ackBlockLength : ℕ}
  {hasMissingRanges : Bool} {bs rest : List UInt8} {f : AckedPackets}

/-- What `readLowerBlocks` does for a frame that reports missing packets. -/
theorem readLowerBlocks_true_eq_ok (hlen : deltaLen ≤ 6)
    (h : readLowerBlocks o deltaLen true numAckBlocks largestAcked ackBlockLength bs =
      .ok (f, rest)) :
    ∃ blocks lowest, readBlockFields o deltaLen numAckBlocks bs = .ok (blocks, rest) ∧
      blocks.length = numAckBlocks ∧ (∀ b ∈ blocks, b.1 < 256 ∧ b.2 < 2 ^ 48) ∧
      f.ackRanges = (AckFields.parsed ⟨largestAcked, true, ackBlockLength, blocks⟩).ranges ∧
      f.ackRanges.getLast? = some lowest ∧ f.lowestAcked = lowest.first ∧
      f.largestAcked = largestAcked := by
  rw [readLowerBlocks, if_pos rfl] at h
  obtain ⟨s, bs₁, hreadBlocks, h⟩ := Reader.bind_eq_ok h
  obtain ⟨blocks, hread, hn, hs, hblocks⟩ := readBlocks_eq_ok hlen hreadBlocks
  cases hlowest : s.ranges.getLast? with
  | none =>
    simp only [hlowest] at h
    cases h
  | some lowest =>
    simp only [hlowest] at h
    obtain ⟨rfl, rfl⟩ := pure_eq_ok h
    exact ⟨blocks, lowest, hread, hn, hblocks, congrArg BlockState.ranges hs, hlowest, rfl, rfl⟩

/-- What is read is well formed, and what the fields say without wrap-around. -/
structure Reads (f : AckedPackets) (a : AckFields) : Prop where
  wellFormed : f.WellFormed
  toExact_eq : f.toExact = a.acked

theorem reads_of_missing {blocks : List (ℕ × ℕ)} {lowest : AckRange}
    (h : AckFields.InRange ⟨largestAcked, true, ackBlockLength, blocks⟩)
    (hranges : f.ackRanges =
      (AckFields.parsed ⟨largestAcked, true, ackBlockLength, blocks⟩).ranges)
    (hlargest : f.largestAcked = largestAcked) (hlast : f.ackRanges.getLast? = some lowest)
    (hlowest : f.lowestAcked = lowest.first) (hvalid : f.validateAckRanges = true) :
    f.Reads ⟨largestAcked, true, ackBlockLength, blocks⟩ := by
  obtain ⟨hexact, -⟩ := h.toExact_eq hranges hvalid
  constructor
  · refine h.wellFormed hranges hlargest (fun r hr => ?_) hvalid
    obtain rfl := Option.some.inj (hlast.symm.trans hr)
    exact hlowest
  · have hlastExact : f.toExact.ackRanges.getLast? = some ⟨lowest.first, lowest.last⟩ := by
      rw [toExact, List.getLast?_map, hlast]
      rfl
    rw [hexact] at hlastExact
    unfold AckFields.acked
    rw [if_pos rfl, if_pos rfl, hlastExact, ← hexact]
    simp only [toExact, hlargest, hlowest]

theorem reads_of_none (hone : 0 < largestAcked → 1 ≤ ackBlockLength)
    (hle : ackBlockLength ≤ largestAcked) (hlarge : largestAcked < 2 ^ 48) :
    AckedPackets.Reads
      { largestAcked, ackRanges := [],
        lowestAcked := if largestAcked = 0 then 0
          else uint64Sub (uint64Add largestAcked 1) ackBlockLength }
      ⟨largestAcked, false, ackBlockLength, []⟩ := by
  have hsize : 2 ^ 48 < uint64Size := by decide
  have hlowest : (if largestAcked = 0 then 0
      else uint64Sub (uint64Add largestAcked 1) ackBlockLength) =
      if largestAcked = 0 then 0 else largestAcked + 1 - ackBlockLength := by
    rw [uint64Add_eq (by omega), uint64Sub_eq (by omega) (by omega)]
  rw [hlowest]
  constructor
  · refine ⟨.inl rfl, by simp, .nil, by simp, by simp, ?_, hlarge⟩
    dsimp only
    split_ifs <;> omega
  · simp only [toExact, AckFields.acked, Bool.false_eq_true, if_false, List.map_nil]
    congr 1
    split_ifs <;> omega

/-- The frames that `readAckBlocks` accepts. -/
theorem readAckBlocks_eq_ok (hlen : deltaLen ≤ 6) (hlarge : largestAcked < 2 ^ 48)
    (hn : numAckBlocks ≤ 255) (hmissing : ¬ (hasMissingRanges = true ∧ numAckBlocks = 0))
    (h : readAckBlocks o deltaLen hasMissingRanges numAckBlocks largestAcked bs = .ok (f, rest)) :
    ∃ a rest', readAckFields o deltaLen hasMissingRanges numAckBlocks largestAcked bs =
      .ok (a, rest') ∧ f.Reads a := by
  obtain ⟨ackBlockLength, bs₁, hlength, h₁⟩ := Reader.bind_eq_ok h
  obtain ⟨_, bs₂, hcheck, h₂⟩ := Reader.bind_eq_ok h₁
  obtain ⟨hfirst, rfl⟩ := failIf_eq_ok hcheck
  obtain ⟨_, bs₃, hcheck', h₃⟩ := Reader.bind_eq_ok h₂
  obtain ⟨hle, rfl⟩ := failIf_eq_ok hcheck'
  obtain ⟨frame, bs₄, hlower, h₄⟩ := Reader.bind_eq_ok h₃
  obtain ⟨_, bs₅, hvalidate, h₅⟩ := Reader.bind_eq_ok h₄
  obtain ⟨hvalid, rfl⟩ := failIf_eq_ok hvalidate
  obtain ⟨rfl, rfl⟩ := pure_eq_ok h₅
  rw [readAckFields, bind_ok hlength]
  cases hasMissingRanges with
  | false =>
    rw [bind_ok (Reader.optional_false _ _ _)]
    rw [readLowerBlocks, if_neg (by decide)] at hlower
    obtain ⟨rfl, rfl⟩ := pure_eq_ok hlower
    exact ⟨_, _, rfl, reads_of_none (by omega) (by omega) hlarge⟩
  | true =>
    obtain ⟨blocks, lowest, hread, hlengthBlocks, hblocks, hranges, hlast, hlowest, hlargest⟩ :=
      readLowerBlocks_true_eq_ok hlen hlower
    rw [Reader.optional_true, bind_ok hread]
    refine ⟨_, _, rfl, reads_of_missing ⟨by dsimp only; omega, hlarge, hblocks, ?_, ?_⟩ hranges
      hlargest hlast hlowest (by simpa using hvalid)⟩
    · rintro rfl
      exact hmissing ⟨rfl, hlengthBlocks.symm⟩
    · exact hlengthBlocks.trans_le hn

theorem lenOfBits_low_le (b : UInt8) : lenOfBits (b &&& 0x03) ≤ 6 := by
  have hle : (b &&& 0x03).toNat ≤ 3 := by
    rw [UInt8.toNat_and]
    exact Nat.and_le_right
  unfold lenOfBits
  split_ifs <;> omega

theorem lenOfBits_high_le (b : UInt8) : lenOfBits ((b &&& 0x0C) >>> 2) ≤ 6 := by
  have hle : ((b &&& 0x0C) >>> 2).toNat ≤ 3 := by
    have hand : (b &&& 0x0C).toNat ≤ 12 := by
      rw [UInt8.toNat_and]
      exact Nat.and_le_right
    rw [UInt8.toNat_shiftRight, Nat.shiftRight_eq_div_pow]
    exact Nat.div_le_div_right hand
  unfold lenOfBits
  split_ifs <;> omega

theorem readBlocks_avoids (n : ℕ) (s : BlockState) :
    (readBlocks o deltaLen n s).Avoids .indexOutOfRange := by
  induction n generalizing s with
  | zero => exact avoids_pure _ _
  | succ n ih =>
    refine .bind (avoids_readByte (by decide)) fun gap _ bs₁ _ => ?_
    exact Avoids.bind (avoids_readNat (by decide)) (fun _ _ bs₂ _ => ih _ bs₂) bs₁

/-- An index would be out of range only if no block is read. -/
theorem readLowerBlocks_avoids (hlen : deltaLen ≤ 6)
    (hmissing : ¬ (hasMissingRanges = true ∧ numAckBlocks = 0)) :
    (readLowerBlocks o deltaLen hasMissingRanges numAckBlocks largestAcked ackBlockLength).Avoids
      .indexOutOfRange := by
  unfold readLowerBlocks
  by_cases hranges : hasMissingRanges = true
  · rw [if_pos hranges]
    refine .bind (readBlocks_avoids _ _) fun s bs₁ bs₂ hread => ?_
    obtain ⟨blocks, -, hn, hs, -⟩ := readBlocks_eq_ok hlen hread
    have hne : blocks ≠ [] := by
      rintro rfl
      exact hmissing ⟨hranges, hn.symm⟩
    obtain ⟨l, hl⟩ := exists_ranges_eq_cons (s := startState largestAcked ackBlockLength)
      rfl rfl hne
    obtain ⟨lowest, hlast⟩ : ∃ lowest, s.ranges.getLast? = some lowest := by
      rw [hs]
      exact ⟨_, (congrArg List.getLast? hl).trans List.getLast?_cons⟩
    simp only [hlast]
    exact avoids_pure _ _ bs₂
  · rw [if_neg hranges]
    exact avoids_pure _ _

theorem readAckBlocks_avoids (hlen : deltaLen ≤ 6)
    (hmissing : ¬ (hasMissingRanges = true ∧ numAckBlocks = 0)) :
    (readAckBlocks o deltaLen hasMissingRanges numAckBlocks largestAcked).Avoids
      .indexOutOfRange := by
  refine .bind (avoids_readNat (by decide)) fun ackBlockLength _ bs₁ _ => ?_
  refine Avoids.bind (avoids_failIf (by decide)) (fun _ _ bs₂ _ => ?_) bs₁
  refine Avoids.bind (avoids_failIf (by decide)) (fun _ _ bs₃ _ => ?_) bs₂
  refine Avoids.bind (readLowerBlocks_avoids hlen hmissing) (fun _ _ bs₄ _ => ?_) bs₃
  exact Avoids.bind (avoids_failIf (by decide))
    (fun _ _ bs₅ _ => avoids_pure _ _ bs₅) bs₄

end AckedPackets

/-- Accepted ACK frames. -/
theorem AckFrame.parse_reads {o : Order} {bs rest : List UInt8} {f : AckFrame}
    (h : AckFrame.parse o bs = .ok (f, rest)) :
    ∃ a rest', AckFrame.readFields o bs = .ok (a, rest') ∧ f.toAckedPackets.Reads a := by
  obtain ⟨typeByte, bs₁, htype, h₁⟩ := Reader.bind_eq_ok h
  obtain ⟨pathID, bs₂, hpath, h₂⟩ := Reader.bind_eq_ok h₁
  obtain ⟨largestAcked, bs₃, hlargest, h₃⟩ := Reader.bind_eq_ok h₂
  obtain ⟨delay, bs₄, hdelay, h₄⟩ := Reader.bind_eq_ok h₃
  obtain ⟨numAckBlocks, bs₅, hnum, h₅⟩ := Reader.bind_eq_ok h₄
  obtain ⟨_, bs₆, hcheck, h₆⟩ := Reader.bind_eq_ok h₅
  obtain ⟨hmissing, rfl⟩ := failIf_eq_ok hcheck
  obtain ⟨acked, bs₇, hacked, h₇⟩ := Reader.bind_eq_ok h₆
  obtain ⟨_, bs₈, _, h₈⟩ := Reader.bind_eq_ok h₇
  obtain ⟨_, bs₉, _, h₉⟩ := Reader.bind_eq_ok h₈
  obtain ⟨rfl, rfl⟩ := pure_eq_ok h₉
  obtain ⟨a, rest', hfields, hreads⟩ := readAckBlocks_eq_ok (lenOfBits_low_le typeByte)
    (readUintN_lt (lenOfBits_high_le typeByte) hlargest) (Nat.le_of_lt_succ numAckBlocks.toNat_lt)
    (by simpa [← UInt8.toNat_inj] using hmissing) hacked
  refine ⟨a, rest', ?_, hreads⟩
  rw [AckFrame.readFields, bind_ok htype, bind_ok hpath, bind_ok hlargest,
    bind_ok hdelay, bind_ok hnum, hfields]

theorem ClosePathFrame.parse_reads {o : Order} {bs rest : List UInt8} {f : ClosePathFrame}
    (h : ClosePathFrame.parse o bs = .ok (f, rest)) :
    ∃ a rest', ClosePathFrame.readFields o bs = .ok (a, rest') ∧ f.toAckedPackets.Reads a := by
  obtain ⟨_, bs₁, htype, h₁⟩ := Reader.bind_eq_ok h
  obtain ⟨pathID, bs₂, hpath, h₂⟩ := Reader.bind_eq_ok h₁
  obtain ⟨flags, bs₃, hflags, h₃⟩ := Reader.bind_eq_ok h₂
  obtain ⟨numAckBlocks, bs₄, hnum, h₄⟩ := Reader.bind_eq_ok h₃
  obtain ⟨_, bs₅, hcheck, h₅⟩ := Reader.bind_eq_ok h₄
  obtain ⟨hmissing, rfl⟩ := failIf_eq_ok hcheck
  obtain ⟨largestAcked, bs₆, hlargest, h₆⟩ := Reader.bind_eq_ok h₅
  obtain ⟨acked, bs₇, hacked, h₇⟩ := Reader.bind_eq_ok h₆
  obtain ⟨rfl, rfl⟩ := pure_eq_ok h₇
  obtain ⟨a, rest', hfields, hreads⟩ := readAckBlocks_eq_ok (lenOfBits_low_le flags)
    (readUintN_lt (lenOfBits_high_le flags) hlargest) (Nat.le_of_lt_succ numAckBlocks.toNat_lt)
    (by simpa [← UInt8.toNat_inj] using hmissing) hacked
  refine ⟨a, rest', ?_, hreads⟩
  rw [ClosePathFrame.readFields, bind_ok htype, bind_ok hpath, bind_ok hflags,
    bind_ok hnum, bind_ok hlargest, hfields]

theorem AckFrame.skipTimestamps_avoids (o : Order) (n : ℕ) :
    (AckFrame.skipTimestamps o n).Avoids .indexOutOfRange := by
  have hlater : ∀ n, (AckFrame.skipLaterTimestamps o n).Avoids .indexOutOfRange := by
    intro n
    induction n with
    | zero => exact avoids_pure _ _
    | succ n ih =>
      refine .bind (avoids_readByte (by decide)) fun _ _ bs₁ _ => ?_
      exact Avoids.bind (avoids_readNat (by decide)) (fun _ _ bs₂ _ => ih bs₂) bs₁
  cases n with
  | zero => exact avoids_pure _ _
  | succ n =>
    refine .bind (avoids_readByte (by decide)) fun _ _ bs₁ _ => ?_
    exact Avoids.bind (avoids_readNat (by decide)) (fun _ _ bs₂ _ => hlater n bs₂) bs₁

theorem AckFrame.parse_avoids (o : Order) : (AckFrame.parse o).Avoids .indexOutOfRange := by
  refine .bind (avoids_readByte (by decide)) fun typeByte _ bs₁ _ => ?_
  refine Avoids.bind (.optional (avoids_readByte (by decide))) (fun _ _ bs₂ _ => ?_) bs₁
  refine Avoids.bind (avoids_readNat (by decide)) (fun _ _ bs₃ _ => ?_) bs₂
  refine Avoids.bind (.bind (avoids_readNat (by decide)) fun _ _ bs _ =>
    avoids_pure _ _ bs) (fun _ _ bs₄ _ => ?_) bs₃
  refine Avoids.bind (.optional (avoids_readByte (by decide)))
    (fun numAckBlocks _ bs₅ _ => ?_) bs₄
  refine Avoids.bind (avoids_failIf (by decide)) (fun _ _ bs₆ hcheck => ?_) bs₅
  obtain ⟨hmissing, -⟩ := failIf_eq_ok hcheck
  refine Avoids.bind (readAckBlocks_avoids (lenOfBits_low_le typeByte)
    (by simpa [← UInt8.toNat_inj] using hmissing)) (fun _ _ bs₇ _ => ?_) bs₆
  refine Avoids.bind (avoids_readByte (by decide)) (fun _ _ bs₈ _ => ?_) bs₇
  exact Avoids.bind (AckFrame.skipTimestamps_avoids o _)
    (fun _ _ bs₉ _ => avoids_pure _ _ bs₉) bs₈

theorem ClosePathFrame.parse_avoids (o : Order) :
    (ClosePathFrame.parse o).Avoids .indexOutOfRange := by
  refine .bind (avoids_readByte (by decide)) fun _ _ bs₁ _ => ?_
  refine Avoids.bind (avoids_readByte (by decide)) (fun _ _ bs₂ _ => ?_) bs₁
  refine Avoids.bind (avoids_readByte (by decide)) (fun flags _ bs₃ _ => ?_) bs₂
  refine Avoids.bind (.optional (avoids_readByte (by decide)))
    (fun numAckBlocks _ bs₄ _ => ?_) bs₃
  refine Avoids.bind (avoids_failIf (by decide)) (fun _ _ bs₅ hcheck => ?_) bs₄
  obtain ⟨hmissing, -⟩ := failIf_eq_ok hcheck
  refine Avoids.bind (avoids_readNat (by decide)) (fun _ _ bs₆ _ => ?_) bs₅
  exact Avoids.bind (readAckBlocks_avoids (lenOfBits_low_le flags)
    (by simpa [← UInt8.toNat_inj] using hmissing))
    (fun _ _ bs₇ _ => avoids_pure _ _ bs₇) bs₆

/-- Whatever the bytes: an ACK or CLOSE_PATH frame that is accepted is well formed and has the
ranges that its blocks describe without wrap-around, and no index is out of range. -/
theorem ackFrames_wellFormed (o : Order) (bs : List UInt8) :
    (∀ f rest, AckFrame.parse o bs = .ok (f, rest) → f.toAckedPackets.WellFormed ∧
      ∃ a rest', AckFrame.readFields o bs = .ok (a, rest') ∧ f.toExact = a.acked) ∧
    (∀ f rest, ClosePathFrame.parse o bs = .ok (f, rest) → f.toAckedPackets.WellFormed ∧
      ∃ a rest', ClosePathFrame.readFields o bs = .ok (a, rest') ∧ f.toExact = a.acked) ∧
    AckFrame.parse o bs ≠ .error .indexOutOfRange ∧
    ClosePathFrame.parse o bs ≠ .error .indexOutOfRange := by
  refine ⟨fun f rest h => ?_, fun f rest h => ?_, AckFrame.parse_avoids o bs,
    ClosePathFrame.parse_avoids o bs⟩
  · obtain ⟨a, rest', hfields, hreads⟩ := AckFrame.parse_reads h
    exact ⟨hreads.wellFormed, a, rest', hfields, hreads.toExact_eq⟩
  · obtain ⟨a, rest', hfields, hreads⟩ := ClosePathFrame.parse_reads h
    exact ⟨hreads.wellFormed, a, rest', hfields, hreads.toExact_eq⟩

/-- A frame with packets 4 and 5 above a gap that is never finished is rejected. With packets 1 and
2 in between it is accepted. -/
theorem ackFrames_wellFormed_example :
    AckFrame.parse .big [0x60, 5, 0, 0, 1, 2, 0xFF, 0, 0] = .error .invalidAckRanges ∧
    ∃ f : AckFrame, AckFrame.parse .big [0x60, 5, 0, 0, 2, 2, 1, 2, 0xFF, 0, 0] = .ok (f, []) ∧
      f.ackRanges = [⟨4, 5⟩, ⟨1, 2⟩] ∧ f.toAckedPackets.WellFormed := by
  refine ⟨by decide, ?_⟩
  have hok : AckFrame.parse .big [0x60, 5, 0, 0, 2, 2, 1, 2, 0xFF, 0, 0] =
      .ok (⟨⟨5, 1, [⟨4, 5⟩, ⟨1, 2⟩]⟩, 0, 0, 0⟩, []) := by decide
  exact ⟨_, hok, rfl, ((ackFrames_wellFormed .big _).1 _ _ hok).1⟩

end MPQuic
