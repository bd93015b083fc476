import Mathlib.Order.GaloisConnection.Basic
import Mathlib.Tactic.Ring
import Mathlib.Tactic.Linarith
import Mathlib.Data.Nat.Log

/-!
# Unsigned floats with a hidden bit

A pattern of such a format has `m` mantissa bits below its exponent. An exponent of zero marks a
denormal, a larger one adds the hidden bit: the pattern `f + e * 2 ^ m` has the value `f * 2 ^ e`
whenever `f` has at most `m + 1` bits and its hidden bit is set (`decode_add`). Consecutive
patterns have increasing values, since a mantissa that runs over increases the exponent.

Decoding is therefore the lower adjoint of encoding, `gc_decode_encode`: rounding down,
monotonicity and `encode_decode` are facts about this connection. Exponents are unbounded here.
-/

namespace Minifloat

variable {m : ℕ}

/-- The value of a pattern with `m` mantissa bits. -/
def decode (m p : ℕ) : ℕ := (p - (p / 2 ^ m - 1) * 2 ^ m) * 2 ^ (p / 2 ^ m - 1)

/-- The pattern of a value: its highest bits, shifted down to position `m`. -/
def encode (m v : ℕ) : ℕ := v / 2 ^ (v.log2 - m) + (v.log2 - m) * 2 ^ m

/-- The pattern of the mantissa `f` with the hidden bit and the exponent `e`. A mantissa that has
just run over is the smallest one of the next exponent. -/
theorem decode_add {f e : ℕ} (hhidden : e = 0 ∨ 2 ^ m ≤ f) (hf : f ≤ 2 ^ (m + 1)) :
    decode m (f + e * 2 ^ m) = f * 2 ^ e := by
  have hpos : 0 < 2 ^ m := Nat.two_pow_pos m
  have hdiv : (f + e * 2 ^ m) / 2 ^ m = f / 2 ^ m + e := Nat.add_mul_div_right _ _ hpos
  rw [Nat.pow_succ] at hf
  unfold decode
  rcases hf.lt_or_eq with hlt | rfl
  · have hle : f / 2 ^ m ≤ 1 := Nat.le_of_lt_succ (Nat.div_lt_of_lt_mul hlt)
    have hexp : (f + e * 2 ^ m) / 2 ^ m - 1 = e := by
      rw [hdiv]
      rcases hhidden with rfl | hge
      · omega
      · have := (Nat.one_le_div_iff hpos).mpr hge
        omega
    rw [hexp, Nat.add_sub_cancel]
  · have hexp : (2 ^ m * 2 + e * 2 ^ m) / 2 ^ m - 1 = e + 1 := by
      rw [hdiv, Nat.mul_div_cancel_left _ hpos]
      omega
    have hmantissa : 2 ^ m * 2 + e * 2 ^ m - (e + 1) * 2 ^ m = 2 ^ m := by
      rw [Nat.succ_mul]
      omega
    rw [hexp, hmantissa, Nat.pow_succ]
    ring

/-- Every pattern has a mantissa and an exponent. -/
theorem exists_eq_add (m p : ℕ) :
    ∃ f e, p = f + e * 2 ^ m ∧ (e = 0 ∨ 2 ^ m ≤ f) ∧ f < 2 ^ (m + 1) := by
  have hpos : 0 < 2 ^ m := Nat.two_pow_pos m
  have hdecomp := Nat.div_add_mod p (2 ^ m)
  have hmod := Nat.mod_lt p hpos
  have hpow : 2 ^ (m + 1) = 2 ^ m + 2 ^ m := by ring
  rcases hq : p / 2 ^ m with _ | e
  · rw [hq] at hdecomp
    exact ⟨p, 0, by omega, Or.inl rfl, by omega⟩
  · rw [hq, Nat.mul_succ] at hdecomp
    refine ⟨2 ^ m + p % 2 ^ m, e, ?_, Or.inr (Nat.le_add_right _ _), by omega⟩
    rw [Nat.mul_comm e]
    omega

theorem decode_lt_succ (m p : ℕ) : decode m p < decode m (p + 1) := by
  obtain ⟨f, e, rfl, hhidden, hf⟩ := exists_eq_add m p
  rw [decode_add hhidden hf.le, Nat.add_right_comm,
    decode_add (hhidden.imp_right Nat.le_succ_of_le) hf]
  exact Nat.mul_lt_mul_of_pos_right (Nat.lt_succ_self f) (Nat.two_pow_pos e)

theorem strictMono_decode (m : ℕ) : StrictMono (decode m) :=
  strictMono_nat_of_lt_succ (decode_lt_succ m)

/-- The shifted value has at most `m + 1` bits, and the highest one is set unless nothing was
shifted. -/
theorem encode_mantissa (m v : ℕ) :
    (v.log2 - m = 0 ∨ 2 ^ m ≤ v / 2 ^ (v.log2 - m)) ∧ v / 2 ^ (v.log2 - m) < 2 ^ (m + 1) := by
  have hlt : v < 2 ^ (v.log2 + 1) := Nat.lt_log2_self
  constructor
  · rcases Nat.eq_zero_or_pos (v.log2 - m) with hzero | hpos
    · exact Or.inl hzero
    · right
      have hne : v ≠ 0 := by
        rintro rfl
        simp at hpos
      rw [Nat.le_div_iff_mul_le (Nat.two_pow_pos _), ← Nat.pow_add]
      calc 2 ^ (m + (v.log2 - m)) = 2 ^ v.log2 := by congr 1; omega
        _ ≤ v := Nat.log2_self_le hne
  · rw [Nat.div_lt_iff_lt_mul (Nat.two_pow_pos _), ← Nat.pow_add]
    exact hlt.trans_le (Nat.pow_le_pow_right (by omega) (by omega))

theorem decode_encode_le (m v : ℕ) : decode m (encode m v) ≤ v := by
  obtain ⟨hhidden, hlt⟩ := encode_mantissa m v
  rw [encode, decode_add hhidden hlt.le]
  exact Nat.div_mul_le_self _ _

theorem lt_decode_encode_succ (m v : ℕ) : v < decode m (encode m v + 1) := by
  obtain ⟨hhidden, hlt⟩ := encode_mantissa m v
  rw [encode, Nat.add_right_comm, decode_add (hhidden.imp_right Nat.le_succ_of_le) hlt]
  exact Nat.lt_mul_of_div_lt (Nat.lt_succ_self _) (Nat.two_pow_pos _)

/-- A value is at least that of a pattern if and only if its own pattern is. -/
theorem gc_decode_encode (m : ℕ) : GaloisConnection (decode m) (encode m) := by
  intro p v
  constructor
  · intro h
    by_contra hlt
    have hmono := (strictMono_decode m).monotone (Nat.succ_le_of_lt (Nat.lt_of_not_le hlt))
    exact absurd (lt_decode_encode_succ m v) (Nat.not_lt.mpr (hmono.trans h))
  · intro h
    exact ((strictMono_decode m).monotone h).trans (decode_encode_le m v)

theorem encode_decode (m p : ℕ) : encode m (decode m p) = p := by
  refine (strictMono_decode m).injective ((decode_encode_le m _).antisymm ?_)
  exact (gc_decode_encode m).monotone_l ((gc_decode_encode m).le_u_l p)

/-- Small values are their own pattern. -/
theorem encode_of_lt {v : ℕ} (h : v < 2 ^ (m + 1)) : encode m v = v := by
  have hexp : v.log2 - m = 0 := by
    rcases Nat.eq_zero_or_pos v with rfl | hpos
    · simp
    · have := (Nat.log2_lt hpos.ne').mpr h
      omega
  rw [encode, hexp]
  omega

/-- A shift that brings the highest bit to position `m` gives the pattern. -/
theorem encode_of_mantissa {v e : ℕ} (hge : 2 ^ m ≤ v / 2 ^ e) (hlt : v / 2 ^ e < 2 ^ (m + 1)) :
    encode m v = v / 2 ^ e + e * 2 ^ m := by
  apply le_antisymm
  · rw [← Nat.lt_succ_iff, ← not_le, ← (gc_decode_encode m) _ v, not_le, Nat.succ_eq_add_one,
      Nat.add_right_comm, decode_add (Or.inr (Nat.le_succ_of_le hge)) hlt]
    exact Nat.lt_mul_of_div_lt (Nat.lt_succ_self _) (Nat.two_pow_pos _)
  · rw [← (gc_decode_encode m) _ v, decode_add (Or.inr hge) hlt.le]
    exact Nat.div_mul_le_self _ _

end Minifloat
