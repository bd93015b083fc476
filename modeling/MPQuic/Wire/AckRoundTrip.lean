import MPQuic.Lib.RunningMax
import MPQuic.Wire.AckBlocks

/-!
# Round trip of ACK and CLOSE_PATH frames

Writing a frame and reading it back keeps the ranges that fit into 255 blocks, the first one
included, and drops the others. There is one exception: when the first gap alone takes more than
254 blocks, `numWritableNackRanges` leaves the second range out, but `Write` has no way to stop
before it has written a range, and reports an inconsistent number of ranges.

`encodes_or_error` is about the fields that both frames share; the theorem for the two frame types
is `ack_roundTrip_iff`.
-/

namespace MPQuic

open Bytes
open Reader (bind_ok failIf_false)

namespace AckedPackets

/-! ## Valid frames -/

/-- The frames that the receiver side builds: the ranges are consistent, the lowest acked packet is
the lowest of the last range, and all packet numbers are between 1 and `2 ^ 48`. -/
structure Valid (f : AckedPackets) : Prop where
  validRanges : f.validateAckRanges = true
  lowest_eq : ∀ r, f.ackRanges.getLast? = some r → f.lowestAcked = r.first
  one_le_lowest : 1 ≤ f.lowestAcked
  lowest_le_largest : f.lowestAcked ≤ f.largestAcked
  largest_lt : f.largestAcked < 2 ^ 48
  last_lt : ∀ r ∈ f.ackRanges, r.last < 2 ^ 48

/-- The gap below the first range takes at most 254 blocks. -/
def FirstGapFits (f : AckedPackets) : Prop :=
  ∀ r₀ r₁ rest, f.ackRanges = r₀ :: r₁ :: rest → r₀.first - r₁.last - 1 ≤ 254 * 255

/-- The frame with the ranges that fit into 255 blocks. -/
def trimmed (f : AckedPackets) : AckedPackets :=
  match f.ackRanges with
  | [] => f
  | r :: rest =>
    { largestAcked := f.largestAcked
      lowestAcked := ((kept r rest 0).getLast?.getD r).first
      ackRanges := r :: kept r rest 0 }

variable {l : List AckRange}

theorem below_of_consistentRanges {hi : AckRange} (hcons : consistentRanges hi l = true)
    (hle : ∀ r ∈ l, r.first ≤ r.last) (hlt : ∀ r ∈ l, r.last < 2 ^ 48)
    (hpos : ∀ r, l.getLast? = some r → 1 ≤ r.first) :
    Below hi l := by
  induction l generalizing hi with
  | nil => trivial
  | cons a rest ih =>
    rw [List.forall_mem_cons] at hle hlt
    have hsize : 2 ^ 48 < uint64Size := by decide
    obtain ⟨-, hgap, hrest⟩ := consistentRanges_cons_iff.mp hcons
    rw [uint64Add_eq (by omega)] at hgap
    have hbelow : Below a rest := by
      refine ih hrest hle.2 hlt.2 fun r hr => hpos r ?_
      rw [List.getLast?_cons, hr]
      rfl
    refine ⟨?_, hle.1, hgap, hbelow⟩
    -- the lowest range is at least 1, and every other range lies above it
    cases rest with
    | nil => exact hpos a rfl
    | cons b rest => exact (Nat.zero_lt_of_lt hbelow.2.2.1)

theorem consistentRanges_of_below {hi : AckRange} (hhi : hi.first < 2 ^ 48) (h : Below hi l) :
    consistentRanges hi l = true ∧ ∀ r ∈ l, r.first ≤ r.last := by
  induction l generalizing hi with
  | nil => exact ⟨rfl, by simp⟩
  | cons a rest ih =>
    obtain ⟨hpos, hle, hlt, hrest⟩ := h
    have hsize : 2 ^ 48 < uint64Size := by decide
    have hadd : uint64Add a.last 1 = a.last + 1 := uint64Add_eq (by omega)
    obtain ⟨hcons, hall⟩ := ih (by omega) hrest
    refine ⟨?_, by simpa [hle] using hall⟩
    rw [consistentRanges_cons_iff, hadd]
    exact ⟨by omega, hlt, hcons⟩

/-- The ranges of a valid frame that reports missing packets. -/
structure MissingRanges (f : AckedPackets) (r : AckRange) (l : List AckRange) : Prop where
  ranges_eq : f.ackRanges = r :: l
  ne_nil : l ≠ []
  last_eq : r.last = f.largestAcked
  first_le : r.first ≤ r.last
  first_lt : r.first < 2 ^ 48
  below : Below r l

/-- A valid frame reports no missing packet, or its ranges lie below each other. -/
theorem Valid.ranges {f : AckedPackets} (h : f.Valid) :
    f.ackRanges = [] ∨ ∃ r l, f.MissingRanges r l := by
  have hvalid := h.validRanges
  have hlowest := h.lowest_eq
  have hlt := h.last_lt
  have hone := h.one_le_lowest
  rcases hranges : f.ackRanges with _ | ⟨r, rest⟩
  · exact .inl rfl
  · obtain ⟨hne, hlast, hle, hcons⟩ := (validateAckRanges_cons_iff hranges).mp hvalid
    rw [hranges] at hlt hlowest hle
    rw [List.forall_mem_cons] at hle hlt
    refine .inr ⟨r, rest, hranges, hne, hlast, hle.1, hle.1.trans_lt hlt.1,
      below_of_consistentRanges hcons hle.2 hlt.2 fun b hb => ?_⟩
    rw [← hlowest b (by rw [List.getLast?_cons, hb]; rfl)]
    exact hone

/-! ## The length of the block lengths -/

/-- The chosen length fits every block length up to the longest. -/
theorem lt_deltaLen {f : AckedPackets} {n : ℕ} (hn : n ≤ f.maxRangeLength) (hlt : n < 2 ^ 48) :
    n < 256 ^ f.getMissingSequenceNumberDeltaLen.toNat := by
  unfold getMissingSequenceNumberDeltaLen
  split_ifs <;> simp only [PacketNumberLen.toNat] <;> norm_num <;> omega

/-- What is assumed of the writer of block lengths: it writes the lengths that are reported. -/
def PutsLengths (f : AckedPackets) (o : Order) (put : ℕ → Except WriteError (List UInt8)) : Prop :=
  ∀ n < 2 ^ 48, put n = .ok (toBytes o f.getMissingSequenceNumberDeltaLen.toNat n)

section Missing

variable {f : AckedPackets} {o : Order} {put : ℕ → Except WriteError (List UInt8)}
  {r : AckRange} {l : List AckRange}

variable {a : AckRange}

theorem rangeLength_lt_deltaLen (hranges : f.ackRanges = r :: l) (ha : a ∈ r :: l)
    (hlt : rangeLength a < 2 ^ 48) :
    rangeLength a < 256 ^ f.getMissingSequenceNumberDeltaLen.toNat := by
  refine lt_deltaLen ?_ hlt
  rw [maxRangeLength, hasMissingRanges, hranges]
  exact RunningMax.le_foldl_max (.inr (List.mem_map_of_mem ha))

/-- The lengths of valid ranges are exact. -/
theorem Below.rangeLength_lt (hhi : r.first < 2 ^ 48) (h : Below r l) (ha : a ∈ l) :
    rangeLength a < 2 ^ 48 := by
  induction l generalizing r with
  | nil => simp at ha
  | cons b rest ih =>
    obtain ⟨hpos, hle, hlt, hrest⟩ := h
    rcases List.mem_cons.mp ha with rfl | ha
    · have := (gap_length_eq hhi hle hlt).2
      omega
    · exact ih (by omega) hrest ha

/-- The first gap decides whether any range below the first one is kept. -/
theorem kept_ne_nil_iff (hhi : r.first < 2 ^ 48) (h : Below r (a :: l)) :
    kept r (a :: l) 0 ≠ [] ↔ r.first - a.last - 1 ≤ 254 * 255 := by
  have hgap := (gap_length_eq hhi h.2.1 h.2.2.1).1
  rw [← hgap, ← blockCount_le_iff, kept]
  split_ifs with hfit
  · simp only [ne_eq, reduceCtorEq, not_false_eq_true, true_iff]
    omega
  · simp only [ne_eq, not_true_eq_false, false_iff]
    omega

theorem numWritableNackRanges_eq (hranges : f.ackRanges = r :: l) :
    f.numWritableNackRanges = totalBlocks r (kept r l 0) + 1 := by
  rw [numWritableNackRanges, hranges]
  simp only [writableBlocks_eq, Nat.zero_add]

/-- The number of blocks fits into its byte. -/
theorem writeNumBlocks_ok (hranges : f.ackRanges = r :: l) :
    f.writeNumBlocks = .ok [UInt8.ofNat (totalBlocks r (kept r l 0))] := by
  have hle : 0 + totalBlocks r (kept r l 0) ≤ 254 := totalBlocks_kept_le (by omega)
  rw [writeNumBlocks, hasMissingRanges, hranges, numWritableNackRanges_eq hranges,
    if_pos (by simp), if_neg (by omega), Nat.add_sub_cancel]

theorem MissingRanges.first_pos (h : f.MissingRanges r l) : 1 ≤ r.first := by
  obtain ⟨a, rest, rfl⟩ := List.exists_cons_of_ne_nil h.ne_nil
  exact Nat.zero_lt_of_lt h.below.2.2.1

/-- The first block is that of the range up to the largest acked packet. -/
theorem MissingRanges.rangeLength_eq (hvalid : f.Valid) (h : f.MissingRanges r l) :
    rangeLength r = r.last - r.first + 1 ∧ rangeLength r < 2 ^ 48 := by
  have hlarge := hvalid.largest_lt
  have hsize : 2 ^ 48 < uint64Size := by decide
  have hlast := h.last_eq
  have hpos := h.first_pos
  have heq : rangeLength r = r.last - r.first + 1 := by
    rw [rangeLength, uint64Sub_eq (by omega) h.first_le, uint64Add_eq (by omega)]
  exact ⟨heq, by omega⟩

/-- When a range below the first one is kept, `Write` writes the first range and the kept ones. -/
theorem writeAckBlocks_ok (hvalid : f.Valid) (h : f.MissingRanges r l) (hput : f.PutsLengths o put)
    (hkept : kept r l 0 ≠ []) :
    f.writeAckBlocks put =
      .ok (toBytes o f.getMissingSequenceNumberDeltaLen.toNat (rangeLength r) ++
        encodeBlocks o f.getMissingSequenceNumberDeltaLen.toNat (rangeBlocks r (kept r l 0))) := by
  have hlowest : f.lowestAcked = (l.getLast?.getD r).first :=
    hvalid.lowest_eq _ (by rw [h.ranges_eq, List.getLast?_cons])
  have hwritten := writeRanges_ok h.first_lt h.below (hput 0 (by omega))
    (fun a ha => hput _ (h.below.rangeLength_lt h.first_lt ha)) hkept
  rw [writableBlocks_eq, Nat.zero_add, Nat.add_zero, ← numWritableNackRanges_eq h.ranges_eq]
    at hwritten
  rw [writeAckBlocks, h.ranges_eq]
  dsimp only
  rw [if_neg (not_not.mpr h.last_eq.symm), if_neg (not_not.mpr hlowest), ← h.last_eq, ← rangeLength,
    hput _ (h.rangeLength_eq hvalid).2, ok_bind, hwritten, ok_bind, if_neg (not_not.mpr rfl)]

/-- When no range below the first one is kept, `Write` still writes one and fails. -/
theorem writeAckBlocks_error (hvalid : f.Valid) (h : f.MissingRanges r l)
    (hput : f.PutsLengths o put) (hkept : kept r l 0 = []) :
    f.writeAckBlocks put = .error .inconsistentNumberOfAckRanges := by
  have hlowest : f.lowestAcked = (l.getLast?.getD r).first :=
    hvalid.lowest_eq _ (by rw [h.ranges_eq, List.getLast?_cons])
  have hnum := numWritableNackRanges_eq h.ranges_eq
  rw [hkept, totalBlocks, Nat.zero_add] at hnum
  obtain ⟨a, rest, rfl⟩ := List.exists_cons_of_ne_nil h.ne_nil
  obtain ⟨hpos, hle, hlt, hrest⟩ := h.below
  have hgap := (gap_length_eq h.first_lt hle hlt).1
  have hcount : 0 < blockCount (gapBetween r a) := blockCount_pos (by omega)
  have hblocks := writeBlocks_blocks (show 0 < gapBetween r a by omega) (hput 0 (by omega))
    (hput _ (h.below.rangeLength_lt h.first_lt List.mem_cons_self))
  rw [writeAckBlocks, h.ranges_eq]
  dsimp only
  rw [if_neg (not_not.mpr h.last_eq.symm), if_neg (not_not.mpr hlowest), ← h.last_eq, ← rangeLength,
    hput _ (h.rangeLength_eq hvalid).2, ok_bind, hnum, writeRanges]
  rw [hblocks, ok_bind, length_blocks, if_pos (by omega), ok_bind, if_pos (by omega)]

/-- Every written block fits. -/
theorem mem_rangeBlocks {w : ℕ} (hhi : r.first < 2 ^ 48) (hbelow : Below r l)
    (hw : ∀ a ∈ l, rangeLength a < 256 ^ w) {b : ℕ × ℕ} (hb : b ∈ rangeBlocks r l) :
    b.1 < 256 ∧ b.2 < 256 ^ w := by
  induction l generalizing r with
  | nil => simp [rangeBlocks] at hb
  | cons a rest ih =>
    obtain ⟨-, hle, hlt, hrest⟩ := hbelow
    rw [List.forall_mem_cons] at hw
    rw [rangeBlocks, List.mem_append] at hb
    rcases hb with hb | hb
    · have hgap := (gap_length_eq hhi hle hlt).1
      obtain ⟨hb1, hb2 | hb2⟩ := mem_blocks (by omega) hb
      · exact ⟨hb1, hb2 ▸ Nat.pow_pos (by omega)⟩
      · exact ⟨hb1, hb2 ▸ hw.1⟩
    · exact ih (by omega) hrest hw.2 hb

/-- The loop of the parser takes back the ranges below the first one. -/
theorem readLowerBlocks_ok {w length : ℕ} (hl : l ≠ []) (hhi : r.first < 2 ^ 48)
    (hbelow : Below r l) (hw : ∀ a ∈ l, rangeLength a < 256 ^ w)
    (hfirst : uint64Add (uint64Sub r.last length) 1 = r.first) (rest : List UInt8) :
    readLowerBlocks o w true (totalBlocks r l) r.last length
        (encodeBlocks o w (rangeBlocks r l) ++ rest) =
      .ok ({ largestAcked := r.last, lowestAcked := (l.getLast?.getD r).first,
             ackRanges := r :: l }, rest) := by
  have hblocks := readBlocks_encode (o := o)
    (fun b hb => mem_rangeBlocks hhi hbelow hw hb)
    { earlier := [], current := r, inLongBlock := false, lastRangeComplete := false } rest
  rw [length_rangeBlocks] at hblocks
  have hdecoded := foldl_rangeBlocks
    (s := { earlier := [], current := r, inLongBlock := false, lastRangeComplete := false })
    rfl hhi hbelow (.inl hl)
  rw [List.reverse_nil, List.nil_append] at hdecoded
  rw [readLowerBlocks, if_pos rfl, hfirst]
  rw [bind_ok hblocks, hdecoded, List.getLast?_cons]
  rfl

/-- The parser takes back the first range and the ranges below it. -/
theorem readAckBlocks_ok {w : ℕ} (hl : l ≠ []) (hle : r.first ≤ r.last) (hlt : r.last < 2 ^ 48)
    (hbelow : Below r l) (hw : ∀ a ∈ r :: l, rangeLength a < 256 ^ w) (rest : List UInt8) :
    readAckBlocks o w true (totalBlocks r l) r.last
        (toBytes o w (rangeLength r) ++ encodeBlocks o w (rangeBlocks r l) ++ rest) =
      .ok ({ largestAcked := r.last, lowestAcked := (l.getLast?.getD r).first,
             ackRanges := r :: l }, rest) := by
  have hsize : 2 ^ 48 < uint64Size := by decide
  have hfirst_lt : r.first < 2 ^ 48 := by omega
  obtain ⟨a, l', rfl⟩ := List.exists_cons_of_ne_nil hl
  have hpos : 1 ≤ r.first := Nat.zero_lt_of_lt hbelow.2.2.1
  have hlength : rangeLength r = r.last - r.first + 1 := by
    rw [rangeLength, uint64Sub_eq (by omega) hle, uint64Add_eq (by omega)]
  have hfirst : uint64Add (uint64Sub r.last (rangeLength r)) 1 = r.first := by
    rw [hlength, uint64Sub_eq (by omega) (by omega), uint64Add_eq (by omega)]
    omega
  rw [List.forall_mem_cons] at hw
  obtain ⟨hcons, hall⟩ := consistentRanges_of_below hfirst_lt hbelow
  have hvalid : validateAckRanges
      { largestAcked := r.last, lowestAcked := ((a :: l').getLast?.getD r).first,
        ackRanges := r :: a :: l' } = true := by
    simp only [validateAckRanges, beq_self_eq_true, List.all_cons, Bool.true_and, hcons,
      Bool.and_true, List.all_eq_true, Bool.and_eq_true, decide_eq_true_eq]
    exact ⟨hle, List.forall_mem_cons.mp hall⟩
  rw [readAckBlocks, List.append_assoc, bind_ok (readUintN_toBytes hw.1 _),
    bind_ok (failIf_false (by omega) _ _),
    bind_ok (failIf_false (by omega) _ _),
    bind_ok (readLowerBlocks_ok hl hfirst_lt hbelow hw.2 hfirst rest),
    bind_ok (failIf_false (not_not.mpr hvalid) _ _)]
  rfl

end Missing

/-! ## The shared part of the two frames -/

/-- The two byte strings that the frames share, and what the parsers make of them. -/
structure Encodes (f : AckedPackets) (o : Order) (numBlocks ackBlocks : List UInt8) : Prop where
  readable : ∃ k : UInt8,
    (∀ rest, Reader.optional f.hasMissingRanges readByte 0 (numBlocks ++ rest) = .ok (k, rest)) ∧
    ¬ (f.hasMissingRanges = true ∧ k = 0) ∧
    ∀ rest, readAckBlocks o f.getMissingSequenceNumberDeltaLen.toNat f.hasMissingRanges k.toNat
      f.largestAcked (ackBlocks ++ rest) = .ok (f.trimmed, rest)
  length_eq : numBlocks.length + ackBlocks.length =
    if f.hasMissingRanges then
      (1 + f.getMissingSequenceNumberDeltaLen.toNat) * f.numWritableNackRanges
    else f.getMissingSequenceNumberDeltaLen.toNat

section RoundTrip

variable {f : AckedPackets} {o : Order} {put : ℕ → Except WriteError (List UInt8)}

/-- A frame that reports no missing packet is one block. -/
theorem encodes_of_nil (hvalid : f.Valid) (hranges : f.ackRanges = [])
    (hput : f.PutsLengths o put) :
    ∃ numBlocks ackBlocks, f.writeNumBlocks = .ok numBlocks ∧
      f.writeAckBlocks put = .ok ackBlocks ∧ f.Encodes o numBlocks ackBlocks := by
  have hone := hvalid.one_le_lowest
  have hle := hvalid.lowest_le_largest
  have hlarge := hvalid.largest_lt
  have hsize : 2 ^ 48 < uint64Size := by decide
  have hmissing : f.hasMissingRanges = false := by simp [hasMissingRanges, hranges]
  have hmax : f.maxRangeLength = f.largestAcked - f.lowestAcked + 1 := by
    rw [maxRangeLength, hmissing, if_neg (by decide), uint64Sub_eq (by omega) hle,
      uint64Add_eq (by omega)]
  have hwidth : f.maxRangeLength < 256 ^ f.getMissingSequenceNumberDeltaLen.toNat :=
    lt_deltaLen le_rfl (by omega)
  have hlowest : (if f.largestAcked = 0 then 0
      else uint64Sub (uint64Add f.largestAcked 1) f.maxRangeLength) = f.lowestAcked := by
    rw [if_neg (by omega), uint64Add_eq (by omega), uint64Sub_eq (by omega) (by omega)]
    omega
  refine ⟨[], toBytes o f.getMissingSequenceNumberDeltaLen.toNat f.maxRangeLength, ?_, ?_,
    ⟨0, ?_, by simp [hmissing], ?_⟩, ?_⟩
  · rw [writeNumBlocks, hmissing, if_neg (by decide)]
  · rw [← hput _ (by omega), writeAckBlocks, hranges, maxRangeLength, hmissing,
      if_neg (by decide)]
  · intro rest
    rw [hmissing, Reader.optional_false, List.nil_append]
  · intro rest
    rw [readAckBlocks, bind_ok (readUintN_toBytes hwidth _),
      bind_ok (failIf_false (by omega) _ _),
      bind_ok (failIf_false (by omega) _ _), hmissing, readLowerBlocks,
      if_neg (by decide), hlowest]
    have htrim : f.trimmed = { largestAcked := f.largestAcked, lowestAcked := f.lowestAcked,
                               ackRanges := [] } := by
      rw [trimmed, hranges]
      cases f
      simp_all
    rw [htrim]
    rfl
  · rw [hmissing, if_neg (by decide), length_toBytes, List.length_nil, Nat.zero_add]

/-- A frame that reports missing packets is the first block and those of the kept ranges. -/
theorem encodes_of_kept {r : AckRange} {l : List AckRange} (hvalid : f.Valid)
    (h : f.MissingRanges r l) (hput : f.PutsLengths o put) (hkept : kept r l 0 ≠ []) :
    ∃ numBlocks ackBlocks, f.writeNumBlocks = .ok numBlocks ∧
      f.writeAckBlocks put = .ok ackBlocks ∧ f.Encodes o numBlocks ackBlocks := by
  have hmissing : f.hasMissingRanges = true := by simp [hasMissingRanges, h.ranges_eq]
  have hbelow := h.below.of_isPrefix (kept_isPrefix r l 0)
  have hpos := totalBlocks_pos h.first_lt hbelow hkept
  have hle : 0 + totalBlocks r (kept r l 0) ≤ 254 := totalBlocks_kept_le (by omega)
  have hnum : (UInt8.ofNat (totalBlocks r (kept r l 0))).toNat = totalBlocks r (kept r l 0) :=
    UInt8.toNat_ofNat_of_lt (show _ < 256 by omega)
  have hwidth : ∀ a ∈ r :: kept r l 0,
      rangeLength a < 256 ^ f.getMissingSequenceNumberDeltaLen.toNat := by
    intro a ha
    have hmem : a ∈ r :: l := (List.cons_prefix_cons.mpr ⟨rfl, kept_isPrefix r l 0⟩).subset ha
    refine rangeLength_lt_deltaLen h.ranges_eq hmem ?_
    rcases List.mem_cons.mp hmem with rfl | hmem
    · exact (h.rangeLength_eq hvalid).2
    · exact h.below.rangeLength_lt h.first_lt hmem
  have htrim : f.trimmed = { largestAcked := r.last,
                             lowestAcked := ((kept r l 0).getLast?.getD r).first,
                             ackRanges := r :: kept r l 0 } := by
    rw [trimmed, h.ranges_eq, h.last_eq]
  refine ⟨_, _, writeNumBlocks_ok h.ranges_eq, writeAckBlocks_ok hvalid h hput hkept,
    ⟨UInt8.ofNat (totalBlocks r (kept r l 0)), ?_, ?_, ?_⟩, ?_⟩
  · intro rest
    rw [hmissing]
    rfl
  · rintro ⟨-, hzero⟩
    rw [hzero] at hnum
    exact absurd hnum (by simpa using hpos.ne)
  · intro rest
    rw [hmissing, hnum, ← h.last_eq, htrim]
    exact readAckBlocks_ok hkept h.first_le (h.last_eq ▸ hvalid.largest_lt) hbelow hwidth rest
  · rw [hmissing, if_pos rfl, numWritableNackRanges_eq h.ranges_eq, List.length_append,
      length_toBytes, length_encodeBlocks, length_rangeBlocks, List.length_singleton,
      Nat.mul_add_one, Nat.mul_comm (1 + _)]
    omega

/-- The shared part can be written exactly if the first gap fits, and is then read back. -/
theorem encodes_or_error (hvalid : f.Valid) (hput : f.PutsLengths o put) :
    (f.FirstGapFits ∧ ∃ numBlocks ackBlocks, f.writeNumBlocks = .ok numBlocks ∧
      f.writeAckBlocks put = .ok ackBlocks ∧ f.Encodes o numBlocks ackBlocks) ∨
    (¬ f.FirstGapFits ∧ f.writeAckBlocks put = .error .inconsistentNumberOfAckRanges) := by
  rcases hvalid.ranges with hnil | ⟨r, l, h⟩
  · exact .inl ⟨fun _ _ _ hc => by simp [hnil] at hc, encodes_of_nil hvalid hnil hput⟩
  · obtain ⟨a, rest, rfl⟩ := List.exists_cons_of_ne_nil h.ne_nil
    have hfits : f.FirstGapFits ↔ kept r (a :: rest) 0 ≠ [] := by
      rw [kept_ne_nil_iff h.first_lt h.below, FirstGapFits, h.ranges_eq]
      constructor
      · exact fun hfit => hfit r a rest rfl
      · rintro hle r₀ r₁ rest' heq
        cases heq
        exact hle
    by_cases hkept : kept r (a :: rest) 0 = []
    · exact .inr ⟨fun hfit => hfits.mp hfit hkept, writeAckBlocks_error hvalid h hput hkept⟩
    · exact .inl ⟨hfits.mpr hkept, encodes_of_kept hvalid h hput hkept⟩

end RoundTrip

/-! ## What is decoded -/

/-- The range that ends with the largest acked packet. -/
def firstRange (f : AckedPackets) : AckRange :=
  f.ackRanges.head?.getD { first := f.lowestAcked, last := f.largestAcked }

/-- `f'` is `f` cut to the ranges that fit into 255 blocks. -/
structure DecodesTo (f f' : AckedPackets) : Prop where
  largest_eq : f'.largestAcked = f.largestAcked
  ranges_isPrefix : f'.ackRanges <+: f.ackRanges
  neededBlocks_le : neededBlocks f'.ackRanges ≤ 255
  longest : ∀ q, q <+: f.ackRanges → neededBlocks q ≤ 255 → q.length ≤ f'.ackRanges.length
  lowest_eq : ∀ r, f'.ackRanges.getLast? = some r → f'.lowestAcked = r.first
  lowest_eq_of_nil : f.ackRanges = [] → f'.lowestAcked = f.lowestAcked
  acksPacket_subset : ∀ p, f'.acksPacket p = true → f.acksPacket p = true
  acksPacket_first : ∀ p, f.firstRange.first ≤ p → p ≤ f.firstRange.last → f'.acksPacket p = true

/-- The lowest range of a list is below all others. -/
theorem Below.getLast_le {r : AckRange} (h : Below r l) :
    (l.getLast?.getD r).first ≤ r.first ∧ ∀ a ∈ l, (l.getLast?.getD r).first ≤ a.first := by
  induction l generalizing r with
  | nil => simp
  | cons b rest ih =>
    obtain ⟨-, hle, hlt, hrest⟩ := h
    obtain ⟨hb, hall⟩ := ih hrest
    rw [List.getLast?_cons, Option.getD_some, List.forall_mem_cons]
    exact ⟨by omega, hb, hall⟩

/-- A frame that reports no missing packet is not cut. -/
theorem decodesTo_trimmed_of_nil {f : AckedPackets} (hvalid : f.Valid) (hnil : f.ackRanges = []) :
    f.DecodesTo f.trimmed := by
  have htrim : f.trimmed = f := by rw [trimmed, hnil]
  rw [htrim]
  refine ⟨rfl, List.prefix_rfl, by simp [hnil, neededBlocks], fun q hq _ => hq.length_le,
    hvalid.lowest_eq, fun _ => rfl, fun _ => id, fun p hfirst hlast => ?_⟩
  rw [firstRange, hnil] at hfirst hlast
  simp only [List.head?_nil, Option.getD_none] at hfirst hlast
  simp [acksPacket, hasMissingRanges, hnil, hfirst, hlast]

/-- A cut frame acknowledges a part of what the frame acknowledges, and all of its first range. -/
theorem decodesTo_trimmed_of_ranges {f : AckedPackets} {r : AckRange} (hvalid : f.Valid)
    (h : f.MissingRanges r l) : f.DecodesTo f.trimmed := by
  have htrim : f.trimmed = { largestAcked := f.largestAcked,
                             lowestAcked := ((kept r l 0).getLast?.getD r).first,
                             ackRanges := r :: kept r l 0 } := by
    rw [trimmed, h.ranges_eq]
  have hpre : r :: kept r l 0 <+: r :: l := List.cons_prefix_cons.mpr ⟨rfl, kept_isPrefix r l 0⟩
  have hlow := (h.below.of_isPrefix (kept_isPrefix r l 0)).getLast_le
  have hall := h.below.getLast_le
  have hlowest : f.lowestAcked = (l.getLast?.getD r).first :=
    hvalid.lowest_eq _ (by rw [h.ranges_eq, List.getLast?_cons])
  rw [htrim]
  refine ⟨rfl, by rw [h.ranges_eq]; exact hpre, ?_, ?_, ?_, ?_, ?_, ?_⟩
  · have hle : 0 + totalBlocks r (kept r l 0) ≤ 254 := totalBlocks_kept_le (by omega)
    rw [neededBlocks]
    omega
  · intro q hq hfit
    rw [h.ranges_eq] at hq
    cases q with
    | nil => simp
    | cons b q =>
      obtain ⟨rfl, hq'⟩ := List.cons_prefix_cons.mp hq
      rw [neededBlocks] at hfit
      exact Nat.succ_le_succ (length_le_length_kept hq' (by omega))
  · intro a ha
    rw [List.getLast?_cons, Option.some.injEq] at ha
    rw [← ha]
  · intro hnil
    simp [h.ranges_eq] at hnil
  · intro p hp
    rw [acksPacket_iff] at hp
    obtain ⟨-, hplast, hranges⟩ := hp
    obtain ⟨a, ha, hpa⟩ := hranges (by simp)
    rw [acksPacket_iff, h.ranges_eq]
    refine ⟨?_, hplast, fun _ => ⟨a, hpre.subset ha, hpa⟩⟩
    rcases List.mem_cons.mp (hpre.subset ha) with rfl | ha'
    · omega
    · have := hall.2 a ha'
      omega
  · intro p hfirst hlast
    rw [firstRange, h.ranges_eq, List.head?_cons, Option.getD_some] at hfirst hlast
    rw [acksPacket_iff]
    exact ⟨hlow.1.trans hfirst, hlast.trans h.last_eq.le,
      fun _ => ⟨r, List.mem_cons_self, hfirst, hlast⟩⟩

/-- The cut frame keeps as many ranges as fit. -/
theorem decodesTo_trimmed {f : AckedPackets} (hvalid : f.Valid) : f.DecodesTo f.trimmed := by
  rcases hvalid.ranges with hnil | ⟨r, l, h⟩
  · exact decodesTo_trimmed_of_nil hvalid hnil
  · exact decodesTo_trimmed_of_ranges hvalid h

/-- The lengths that are written in two bits. -/
theorem getMissingSequenceNumberDeltaLen_ne (f : AckedPackets) :
    f.getMissingSequenceNumberDeltaLen ≠ .invalid := by
  unfold getMissingSequenceNumberDeltaLen
  split_ifs <;> decide

end AckedPackets

open AckedPackets

theorem getPacketNumberLength_ne (n : ℕ) : getPacketNumberLength n ≠ .invalid := by
  unfold getPacketNumberLength
  split_ifs <;> decide

/-- The type byte of an ACK frame gives back what it was built from. -/
theorem AckFrame.typeByte_spec {largestAckedLen deltaLen : PacketNumberLen}
    (h : largestAckedLen ≠ .invalid) (h' : deltaLen ≠ .invalid) (hasMissing hasPathID : Bool) :
    let t := AckFrame.typeByte largestAckedLen deltaLen hasMissing hasPathID
    (t &&& 0x20 == 0x20) = hasMissing ∧ (t &&& 0x10 == 0x10) = hasPathID ∧
      lenOfBits ((t &&& 0x0C) >>> 2) = largestAckedLen.toNat ∧
      lenOfBits (t &&& 0x03) = deltaLen.toNat := by
  cases largestAckedLen <;> cases deltaLen <;> cases hasMissing <;> cases hasPathID <;>
    first | contradiction | decide

/-- The flags of a CLOSE_PATH frame give back what they were built from. -/
theorem ClosePathFrame.flags_spec {largestAckedLen deltaLen : PacketNumberLen}
    (h : largestAckedLen ≠ .invalid) (h' : deltaLen ≠ .invalid) (hasMissing : Bool) :
    let t := ClosePathFrame.flags largestAckedLen deltaLen hasMissing
    (t &&& 0x10 == 0x10) = hasMissing ∧
      lenOfBits ((t &&& 0x0C) >>> 2) = largestAckedLen.toNat ∧
      lenOfBits (t &&& 0x03) = deltaLen.toNat := by
  cases largestAckedLen <;> cases deltaLen <;> cases hasMissing <;>
    first | contradiction | decide

namespace AckFrame

/-- The frame that the peer reads: the ranges `acked`, and the delay as far as the 16-bit float
format can tell. -/
def received (f : AckFrame) (now : ℕ) (acked : AckedPackets) : AckFrame where
  toAckedPackets := acked
  pathID := f.pathID
  packetReceivedTime := 0
  delayTime := roundUfloat16 ((now - f.packetReceivedTime) / 1000) * 1000

/-- An ACK frame whose shared part can be written is written and read back, whatever follows. -/
theorem parse_write {f : AckFrame} {o : Order} (now : ℕ) (hlt : f.largestAcked < 2 ^ 48)
    {numBlocks ackBlocks : List UInt8} (hnum : f.writeNumBlocks = .ok numBlocks)
    (hack : f.writeAckBlocks (fun n => .ok (toBytes o f.getMissingSequenceNumberDeltaLen.toNat n)) =
      .ok ackBlocks) (henc : f.Encodes o numBlocks ackBlocks) :
    ∃ bytes, f.write o now = .ok bytes ∧ bytes.length = f.minLength ∧
      ∀ rest, parse o (bytes ++ rest) = .ok (f.received now f.trimmed, rest) := by
  obtain ⟨⟨k, hread, hk, hblocks⟩, hlength⟩ := henc
  obtain ⟨hmissing, hpath, hlen, hdelta⟩ := typeByte_spec (getPacketNumberLength_ne f.largestAcked)
    f.getMissingSequenceNumberDeltaLen_ne f.hasMissingRanges (decide (f.pathID ≠ initialPathID))
  have hlarge := lt_getPacketNumberLength hlt
  -- the path id is read from its byte, or is the default
  have hid : ∀ rest, Reader.optional (decide (f.pathID ≠ initialPathID)) readByte initialPathID
      ((if f.pathID ≠ initialPathID then [f.pathID] else []) ++ rest) = .ok (f.pathID, rest) := by
    intro rest
    by_cases h : f.pathID = initialPathID
    · simp [h]
    · simp [h, readByte_cons]
  have hwrite : f.write o now = .ok (typeByte (getPacketNumberLength f.largestAcked)
      f.getMissingSequenceNumberDeltaLen f.hasMissingRanges (f.pathID ≠ initialPathID) ::
        ((if f.pathID ≠ initialPathID then [f.pathID] else []) ++
        (toBytes o (getPacketNumberLength f.largestAcked).toNat f.largestAcked ++
        (writeUfloat16 o ((now - f.packetReceivedTime) / 1000) ++
          (numBlocks ++ (ackBlocks ++ [0])))))) := by
    rw [write, hnum, ok_bind, hack, ok_bind]
    rfl
  refine ⟨_, hwrite, ?_, fun rest => ?_⟩
  · have hoptional : (if f.pathID ≠ initialPathID then [f.pathID] else []).length =
        if f.pathID ≠ initialPathID then 1 else 0 := by split_ifs <;> rfl
    simp only [List.length_cons, List.length_append, length_toBytes, writeUfloat16, hoptional,
      minLength, List.length_nil]
    split_ifs at hlength ⊢ <;> omega
  · rw [parse, List.cons_append, bind_ok (readByte_cons _ _)]
    simp only [List.append_assoc]
    rw [hmissing, hpath, hlen, hdelta, bind_ok (hid _),
      bind_ok (readUintN_toBytes hlarge _), bind_ok (readUfloat16_write _ _ _),
      bind_ok (hread _), bind_ok (failIf_false hk _ _),
      bind_ok (hblocks _)]
    exact bind_ok (readByte_cons 0 rest)

end AckFrame

namespace ClosePathFrame

/-- A CLOSE_PATH frame whose shared part can be written is written and read back, whatever
follows. -/
theorem parse_write {f : ClosePathFrame} {o : Order} (hlt : f.largestAcked < 2 ^ 48)
    {numBlocks ackBlocks : List UInt8} (hnum : f.writeNumBlocks = .ok numBlocks)
    (hack : f.writeAckBlocks (put o f.getMissingSequenceNumberDeltaLen) = .ok ackBlocks)
    (henc : f.Encodes o numBlocks ackBlocks) :
    ∃ bytes, f.write o = .ok bytes ∧ bytes.length = f.minLength ∧
      ∀ rest, parse o (bytes ++ rest) =
        .ok ({ toAckedPackets := f.trimmed, pathID := f.pathID }, rest) := by
  obtain ⟨⟨k, hread, hk, hblocks⟩, hlength⟩ := henc
  obtain ⟨hmissing, hlen, hdelta⟩ := flags_spec (getPacketNumberLength_ne f.largestAcked)
    f.getMissingSequenceNumberDeltaLen_ne f.hasMissingRanges
  have hlarge := lt_getPacketNumberLength hlt
  have hput : put o (getPacketNumberLength f.largestAcked) f.largestAcked =
      .ok (toBytes o (getPacketNumberLength f.largestAcked).toNat f.largestAcked) := by
    rw [put, if_neg (by omega)]
  have hwrite : f.write o = .ok (0x11 :: f.pathID :: flags (getPacketNumberLength f.largestAcked)
      f.getMissingSequenceNumberDeltaLen f.hasMissingRanges ::
        (numBlocks ++ (toBytes o (getPacketNumberLength f.largestAcked).toNat f.largestAcked ++
          ackBlocks))) := by
    rw [write, hnum, ok_bind, hput, ok_bind, hack, ok_bind]
    rfl
  refine ⟨_, hwrite, ?_, fun rest => ?_⟩
  · simp only [List.length_cons, List.length_append, length_toBytes, minLength]
    split_ifs at hlength ⊢ <;> omega
  · simp only [List.cons_append, List.append_assoc]
    rw [parse, bind_ok (readByte_cons _ _), bind_ok (readByte_cons _ _),
      bind_ok (readByte_cons _ _)]
    rw [hmissing, hlen, hdelta, bind_ok (hread _),
      bind_ok (failIf_false hk _ _), bind_ok (readUintN_toBytes hlarge _),
      bind_ok (hblocks _)]
    rfl

end ClosePathFrame

/-- Both writers of block lengths write the lengths that valid frames have. -/
theorem putsLengths_put (f : AckedPackets) (o : Order) :
    f.PutsLengths o (ClosePathFrame.put o f.getMissingSequenceNumberDeltaLen) := by
  intro n hn
  rw [ClosePathFrame.put, if_neg (by omega)]

/-- An ACK frame survives encoding: `Write` writes `MinLength` bytes, and the parser consumes them
and returns the frame with the ranges that fit into 255 blocks. -/
def AckFrame.Survives (f : AckFrame) (o : Order) (now : ℕ) : Prop :=
  ∃ bytes f', f.write o now = .ok bytes ∧ bytes.length = f.minLength ∧
    AckFrame.parse o bytes = .ok (f', []) ∧ f'.pathID = f.pathID ∧
    f.toAckedPackets.DecodesTo f'.toAckedPackets

/-- A CLOSE_PATH frame survives encoding. -/
def ClosePathFrame.Survives (f : ClosePathFrame) (o : Order) : Prop :=
  ∃ bytes f', f.write o = .ok bytes ∧ bytes.length = f.minLength ∧
    ClosePathFrame.parse o bytes = .ok (f', []) ∧ f'.pathID = f.pathID ∧
    f.toAckedPackets.DecodesTo f'.toAckedPackets

/-- A valid ACK frame survives encoding exactly if its first gap fits. -/
theorem AckFrame.survives_iff {f : AckFrame} (hvalid : f.Valid) (o : Order) (now : ℕ) :
    f.Survives o now ↔ f.FirstGapFits := by
  rcases encodes_or_error hvalid (fun n _ => rfl) with ⟨hfits, nb, ab, hnum, hack, henc⟩ |
    ⟨hfits, herror⟩
  · obtain ⟨bytes, hwrite, hlength, hparse⟩ :=
      AckFrame.parse_write now hvalid.largest_lt hnum hack henc
    have hall := hparse []
    rw [List.append_nil] at hall
    exact iff_of_true ⟨bytes, _, hwrite, hlength, hall, rfl, decodesTo_trimmed hvalid⟩ hfits
  · refine iff_of_false ?_ hfits
    rintro ⟨bytes, f', hwrite, -⟩
    obtain ⟨_, -, hrest⟩ := bind_eq_ok hwrite
    obtain ⟨ackBlocks, hack, -⟩ := bind_eq_ok hrest
    rw [herror] at hack
    cases hack

/-- A valid CLOSE_PATH frame survives encoding exactly if its first gap fits. -/
theorem ClosePathFrame.survives_iff {f : ClosePathFrame} (hvalid : f.Valid) (o : Order) :
    f.Survives o ↔ f.FirstGapFits := by
  rcases encodes_or_error hvalid (putsLengths_put _ o) with ⟨hfits, nb, ab, hnum, hack, henc⟩ |
    ⟨hfits, herror⟩
  · obtain ⟨bytes, hwrite, hlength, hparse⟩ :=
      ClosePathFrame.parse_write hvalid.largest_lt hnum hack henc
    have hall := hparse []
    rw [List.append_nil] at hall
    exact iff_of_true ⟨bytes, _, hwrite, hlength, hall, rfl, decodesTo_trimmed hvalid⟩ hfits
  · refine iff_of_false ?_ hfits
    rintro ⟨bytes, f', hwrite, -⟩
    obtain ⟨_, -, hrest⟩ := bind_eq_ok hwrite
    obtain ⟨_, -, hblocks⟩ := bind_eq_ok hrest
    obtain ⟨ackBlocks, hack, -⟩ := bind_eq_ok hblocks
    rw [herror] at hack
    cases hack

/-- A valid frame survives encoding exactly if the gap below its first range is at most 64770
packets, which take 254 blocks. -/
theorem ack_roundTrip_iff (o : Order) :
    (∀ f : AckFrame, f.Valid → ∀ now, f.Survives o now ↔ f.FirstGapFits) ∧
      ∀ f : ClosePathFrame, f.Valid → (f.Survives o ↔ f.FirstGapFits) :=
  ⟨fun _ hvalid now => AckFrame.survives_iff hvalid o now,
    fun _ hvalid => ClosePathFrame.survives_iff hvalid o⟩

/-- Packets 5 to 9 and 1 to 2 were received on path 3. -/
theorem ack_roundTrip_iff_example :
    let f : AckFrame :=
      { largestAcked := 9, lowestAcked := 1, ackRanges := [⟨5, 9⟩, ⟨1, 2⟩], pathID := 3,
        packetReceivedTime := 0, delayTime := 0 }
    f.Valid ∧ f.Survives .big 1000 := by
  intro f
  have hvalid : f.Valid :=
    { validRanges := by decide
      lowest_eq := by simp [f]
      one_le_lowest := by decide
      lowest_le_largest := by decide
      largest_lt := by decide
      last_lt := by decide }
  refine ⟨hvalid, ((ack_roundTrip_iff .big).1 f hvalid 1000).mpr ?_⟩
  rintro r₀ r₁ rest h
  cases h
  decide

/-- The packets 1 and 64773 were received, and none of the 64771 packets in between: `Write` fails
on both frames. -/
theorem ack_longFirstGap :
    let acked : AckedPackets :=
      { largestAcked := 64773, lowestAcked := 1, ackRanges := [⟨64773, 64773⟩, ⟨1, 1⟩] }
    acked.Valid ∧
      AckFrame.write { acked with pathID := 0, packetReceivedTime := 0, delayTime := 0 } .big 0 =
        .error .inconsistentNumberOfAckRanges ∧
      ClosePathFrame.write { acked with pathID := 0 } .big =
        .error .inconsistentNumberOfAckRanges := by
  intro acked
  have hvalid : acked.Valid :=
    { validRanges := by decide
      lowest_eq := by simp [acked]
      one_le_lowest := by decide
      lowest_le_largest := by decide
      largest_lt := by decide
      last_lt := by decide }
  have hmissing : acked.MissingRanges ⟨64773, 64773⟩ [⟨1, 1⟩] :=
    ⟨rfl, by simp, rfl, le_rfl, by decide, by decide, by decide, by decide, trivial⟩
  -- the gap takes 255 blocks, so that only the first range is announced
  have hkept : kept ⟨64773, 64773⟩ [⟨1, 1⟩] 0 = [] := by decide
  have hnum := writeNumBlocks_ok hmissing.ranges_eq
  refine ⟨hvalid, ?_, ?_⟩
  · rw [AckFrame.write, hnum, ok_bind,
      writeAckBlocks_error hvalid hmissing (fun _ _ => rfl) hkept]
    rfl
  · rw [ClosePathFrame.write, hnum, ok_bind, ClosePathFrame.put, if_neg (by decide), ok_bind,
      writeAckBlocks_error hvalid hmissing (putsLengths_put acked .big) hkept]
    rfl

end MPQuic
