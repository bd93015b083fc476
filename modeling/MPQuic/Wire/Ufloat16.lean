import MPQuic.Lib.Minifloat
import MPQuic.Wire.ByteOrder

/-!
# The 16-bit float format

`internal/utils/float16.go`. A value is read back as the largest representable value that is not
larger: `writeUfloat16_rounds_down`.

The encoder shifts the highest bit of a value to position 11 by a binary search over the offsets
16, 8, 4, 2 and 1. `normalizeUfloat16_spec` is the invariant of the search: before the offset
`2 ^ k` the highest bit is less than `2 ^ (k + 1)` above position 11. The pattern is then that of
`Minifloat.encode`, cut off at the largest exponent (`encodeUfloat16_eq`).
-/

namespace MPQuic

open Bytes

/-! ## The format -/

/-- The value of an exponent and a mantissa, as documented for the wire format: an exponent of zero
stands for the mantissa itself, any other adds the hidden bit and shifts. -/
def ufloat16Value (exponent mantissa : ℕ) : ℕ :=
  if exponent = 0 then mantissa
  else (mantissa + 2 ^ uFloat16MantissaBits) * 2 ^ (exponent - 1)

/-- The values of 5 exponent and 11 mantissa bits. -/
def Ufloat16Representable (value : ℕ) : Prop :=
  ∃ exponent mantissa, exponent < 2 ^ 5 ∧ mantissa < 2 ^ uFloat16MantissaBits ∧
    value = ufloat16Value exponent mantissa

theorem decode_ufloat16Value {e f : ℕ} (hf : f < 2 ^ uFloat16MantissaBits) :
    Minifloat.decode uFloat16MantissaBits (f + e * 2 ^ uFloat16MantissaBits) =
      ufloat16Value e f := by
  have hpow : 2 ^ (uFloat16MantissaBits + 1) = 2 ^ uFloat16MantissaBits * 2 := Nat.pow_succ ..
  cases e with
  | zero => exact (Minifloat.decode_add (Or.inl rfl) (by omega)).trans (Nat.mul_one f)
  | succ e =>
    have hpattern : f + (e + 1) * 2 ^ uFloat16MantissaBits =
        (f + 2 ^ uFloat16MantissaBits) + e * 2 ^ uFloat16MantissaBits := by
      rw [Nat.succ_mul]
      omega
    rw [hpattern, Minifloat.decode_add (Or.inr (Nat.le_add_left _ _)) (by omega)]
    rfl

/-- The representable values are those of the 16-bit patterns. -/
theorem ufloat16Representable_iff {value : ℕ} :
    Ufloat16Representable value ↔
      ∃ p < 2 ^ 16, value = Minifloat.decode uFloat16MantissaBits p := by
  constructor
  · rintro ⟨e, f, he, hf, rfl⟩
    refine ⟨f + e * 2 ^ uFloat16MantissaBits, ?_, (decode_ufloat16Value hf).symm⟩
    rw [uFloat16MantissaBits] at hf ⊢
    omega
  · rintro ⟨p, hp, rfl⟩
    have hf : p % 2 ^ uFloat16MantissaBits < 2 ^ uFloat16MantissaBits :=
      Nat.mod_lt _ (Nat.two_pow_pos _)
    refine ⟨p / 2 ^ uFloat16MantissaBits, p % 2 ^ uFloat16MantissaBits, ?_, hf, ?_⟩
    · rw [uFloat16MantissaBits]
      omega
    · rw [← decode_ufloat16Value hf, Nat.mod_add_div']

/-! ## Decoding and encoding -/

theorem decodeUfloat16_eq (p : ℕ) :
    decodeUfloat16 p = Minifloat.decode uFloat16MantissaBits p := by
  unfold decodeUfloat16
  split_ifs with hlt
  · have h := Minifloat.decode_add (m := uFloat16MantissaBits) (f := p) (Or.inl rfl) hlt.le
    rw [Nat.zero_mul, Nat.add_zero, Nat.pow_zero, Nat.mul_one] at h
    exact h.symm
  · rfl

/-- The offsets of the binary search that starts with `2 ^ (k - 1)`. -/
def searchOffsets : ℕ → List ℕ
  | 0 => []
  | k + 1 => 2 ^ k :: searchOffsets k

/-- The search brings the highest bit to position 11 if it is less than `2 ^ k` positions above it,
and counts the shifts. -/
theorem normalizeUfloat16_spec (k : ℕ) {value : ℕ} (exponent : ℕ)
    (hge : 2 ^ uFloat16MantissaBits ≤ value) (hlt : value < 2 ^ (uFloat16MantissaBits + 2 ^ k)) :
    ∃ e, normalizeUfloat16 (searchOffsets k) value exponent = (value / 2 ^ e, exponent + e) ∧
      2 ^ uFloat16MantissaBits ≤ value / 2 ^ e ∧
      value / 2 ^ e < 2 ^ (uFloat16MantissaBits + 1) := by
  induction k generalizing value exponent with
  | zero =>
    refine ⟨0, ?_, ?_, ?_⟩
    · rw [searchOffsets, normalizeUfloat16, Nat.pow_zero, Nat.div_one, Nat.add_zero]
    · rwa [Nat.pow_zero, Nat.div_one]
    · rwa [Nat.pow_zero, Nat.div_one]
  | succ k ih =>
    rw [searchOffsets, normalizeUfloat16]
    split_ifs with hshift
    · have hge' : 2 ^ uFloat16MantissaBits ≤ value / 2 ^ 2 ^ k := by
        rwa [Nat.le_div_iff_mul_le (Nat.two_pow_pos _), ← Nat.pow_add]
      have hlt' : value / 2 ^ 2 ^ k < 2 ^ (uFloat16MantissaBits + 2 ^ k) := by
        rw [Nat.div_lt_iff_lt_mul (Nat.two_pow_pos _), ← Nat.pow_add]
        rwa [Nat.pow_succ, Nat.mul_two, ← Nat.add_assoc] at hlt
      obtain ⟨e, heq, hmantissa⟩ := ih (exponent + 2 ^ k) hge' hlt'
      refine ⟨2 ^ k + e, ?_, ?_⟩
      · rw [heq, Nat.div_div_eq_div_mul, ← Nat.pow_add, Nat.add_assoc]
      · rwa [Nat.pow_add, ← Nat.div_div_eq_div_mul]
    · exact ih exponent hge (Nat.lt_of_not_le hshift)

/-- The encoder writes the pattern of the format, cut off at the largest one. -/
theorem encodeUfloat16_eq (value : ℕ) :
    encodeUfloat16 value = min (Minifloat.encode uFloat16MantissaBits value) (2 ^ 16 - 1) := by
  unfold encodeUfloat16
  split_ifs with hsmall hlarge
  · rw [Minifloat.encode_of_lt hsmall, Nat.min_eq_left]
    rw [uFloat16MantissaEffectiveBits, uFloat16MantissaBits] at hsmall
    omega
  · rw [Nat.min_eq_right]
    rw [← Minifloat.gc_decode_encode]
    exact le_trans (by decide) hlarge
  · have hge : 2 ^ uFloat16MantissaBits ≤ value := by
      rw [uFloat16MantissaEffectiveBits, Nat.pow_succ] at hsmall
      omega
    have hlt : value < 2 ^ (uFloat16MantissaBits + 2 ^ 5) :=
      (Nat.lt_of_not_le hlarge).trans (by decide)
    obtain ⟨e, heq, hmantissa, hhidden⟩ := normalizeUfloat16_spec 5 0 hge hlt
    have hencode := Minifloat.encode_of_mantissa hmantissa hhidden
    -- a value below the largest one has a smaller pattern
    have hpattern : Minifloat.encode uFloat16MantissaBits value < 2 ^ 16 - 1 := by
      rw [← not_le, ← Minifloat.gc_decode_encode, not_le]
      exact (Nat.lt_of_not_le hlarge).trans_le (by decide)
    rw [show [16, 8, 4, 2, 1] = searchOffsets 5 from rfl, heq]
    dsimp only
    rw [Nat.zero_add, Nat.min_eq_left hpattern.le, hencode]
    rw [hencode] at hpattern
    rw [uFloat16MantissaBits] at *
    rw [Nat.mod_eq_of_lt (by omega), Nat.mod_eq_of_lt (by omega)]

theorem encodeUfloat16_mono {v w : ℕ} (h : v ≤ w) : encodeUfloat16 v ≤ encodeUfloat16 w := by
  rw [encodeUfloat16_eq, encodeUfloat16_eq]
  exact min_le_min_right _ ((Minifloat.gc_decode_encode _).monotone_u h)

theorem encodeUfloat16_decode {p : ℕ} (h : p < 2 ^ 16) : encodeUfloat16 (decodeUfloat16 p) = p := by
  rw [encodeUfloat16_eq, decodeUfloat16_eq, Minifloat.encode_decode, Nat.min_eq_left (by omega)]

/-- A value is read back as the largest representable one that is not larger. -/
theorem roundUfloat16_isGreatest (value : ℕ) :
    IsGreatest {x | Ufloat16Representable x ∧ x ≤ value} (roundUfloat16 value) := by
  have hgc := Minifloat.gc_decode_encode uFloat16MantissaBits
  rw [roundUfloat16, decodeUfloat16_eq, encodeUfloat16_eq]
  refine ⟨⟨ufloat16Representable_iff.mpr ⟨_, by omega, rfl⟩, ?_⟩, ?_⟩
  · exact (hgc _ _).mpr (min_le_left _ _)
  · rintro x ⟨hx, hle⟩
    obtain ⟨p, hp, rfl⟩ := ufloat16Representable_iff.mp hx
    exact hgc.monotone_l (le_min ((hgc p value).mp hle) (by omega))

/-- What is read back for a value is the largest representable value that is at most this value,
encoding is monotone, and every pattern is the encoding of its value, in both byte orders. -/
theorem writeUfloat16_rounds_down (o : Order) :
    (∀ v < uint64Size, ∃ r, readUfloat16 o (writeUfloat16 o v) = .ok (r, []) ∧
      IsGreatest {x | Ufloat16Representable x ∧ x ≤ v} r) ∧
    (∀ v w, v ≤ w → w < uint64Size → ∃ p q, p ≤ q ∧ q < 2 ^ 16 ∧
      writeUfloat16 o v = toBytes o 2 p ∧ writeUfloat16 o w = toBytes o 2 q) ∧
    ∀ u < 2 ^ 16, ∃ v, readUfloat16 o (toBytes o 2 u) = .ok (v, []) ∧
      writeUfloat16 o v = toBytes o 2 u := by
  refine ⟨fun v _ => ?_, fun v w hle _ => ?_, fun u hu => ?_⟩
  · have hread := readUfloat16_write o v []
    rw [List.append_nil] at hread
    exact ⟨_, hread, roundUfloat16_isGreatest v⟩
  · exact ⟨_, _, encodeUfloat16_mono hle, encodeUfloat16_lt w, rfl, rfl⟩
  · refine ⟨decodeUfloat16 u, ?_, congrArg (toBytes o 2) (encodeUfloat16_decode hu)⟩
    have hread := readUintN_toBytes (o := o) (w := 2) (n := u) (by omega) []
    rw [List.append_nil] at hread
    exact Reader.bind_ok hread

/-- The first value that is not representable. -/
theorem writeUfloat16_rounds_4097 :
    IsGreatest {x | Ufloat16Representable x ∧ x ≤ 4097} 4096 := by
  obtain ⟨r, hread, hgreatest⟩ := (writeUfloat16_rounds_down .little).1 4097 (by decide)
  have h4096 : readUfloat16 .little (writeUfloat16 .little 4097) = .ok (4096, []) := by decide
  obtain rfl : 4096 = r := congrArg Prod.fst (Except.ok.inj (h4096.symm.trans hread))
  exact hgreatest

end MPQuic
