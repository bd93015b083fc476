import Mathlib.Algebra.Order.Group.Unbundled.Int
import Mathlib.Algebra.Order.Ring.Abs
import Mathlib.Data.Int.ModEq
import Mathlib.Data.Nat.Bitwise
import Mathlib.Data.Nat.ModEq
import Mathlib.Tactic.Common
import Mathlib.Tactic.Linarith
import Mathlib.Tactic.Ring

/-!
# FNV-1a hashes

The FNV-1a hash of a byte string with `w` bits: for each byte, the state is combined with the byte
by exclusive or and multiplied with an odd number.

* `foldl_ne`, `foldl_cons_ne`: a step can be undone, so that strings that differ in one byte have
  different hashes.
* `foldl_mod`: the low bits of a hash are a hash with fewer bits.
* `foldl_ne_of_drift`: if the multiplier is small modulo `2 ^ m`, then states whose difference is of
  a moderate size modulo `2 ^ m` stay different, whatever bytes follow in the one and in the other.
-/

namespace Fnv1a

variable {w p : ℕ}

/-- The state after a byte. -/
def step (w p h : ℕ) (b : UInt8) : ℕ := (h ^^^ b.toNat) * p % 2 ^ w

theorem step_lt (w p h : ℕ) (b : UInt8) : step w p h b < 2 ^ w :=
  Nat.mod_lt _ (Nat.two_pow_pos w)

theorem foldl_lt {h : ℕ} (hh : h < 2 ^ w) (bs : List UInt8) : bs.foldl (step w p) h < 2 ^ w := by
  induction bs generalizing h with
  | nil => exact hh
  | cons b bs ih => exact ih (step_lt w p h b)

section Injective

variable (hw : 8 ≤ w) (hp : Nat.Coprime (2 ^ w) p)
include hw

theorem toNat_lt_two_pow (b : UInt8) : b.toNat < 2 ^ w :=
  b.toNat_lt.trans_le (Nat.pow_le_pow_right (by decide) hw)

include hp

/-- Multiplication with a coprime number and exclusive or can be undone. -/
theorem xor_eq_of_step_eq {h h' : ℕ} {b b' : UInt8} (hh : h < 2 ^ w) (hh' : h' < 2 ^ w)
    (heq : step w p h b = step w p h' b') : h ^^^ b.toNat = h' ^^^ b'.toNat := by
  have hmod : (h ^^^ b.toNat) * p ≡ (h' ^^^ b'.toNat) * p [MOD 2 ^ w] := heq
  have hcancel := hmod.cancel_right_of_coprime hp
  exact hcancel.eq_of_lt_of_lt (Nat.xor_lt_two_pow hh (toNat_lt_two_pow hw b))
    (Nat.xor_lt_two_pow hh' (toNat_lt_two_pow hw b'))

theorem foldl_ne {h h' : ℕ} (hh : h < 2 ^ w) (hh' : h' < 2 ^ w) (hne : h ≠ h')
    (bs : List UInt8) : bs.foldl (step w p) h ≠ bs.foldl (step w p) h' := by
  induction bs generalizing h h' with
  | nil => exact hne
  | cons b bs ih =>
    refine ih (step_lt w p h b) (step_lt w p h' b) fun heq => hne ?_
    exact Nat.xor_left_inj.mp (xor_eq_of_step_eq hw hp hh hh' heq)

/-- Strings that differ in their first byte, and in no other, have different hashes. -/
theorem foldl_cons_ne {h : ℕ} (hh : h < 2 ^ w) {a b : UInt8} (hne : a ≠ b) (bs : List UInt8) :
    (a :: bs).foldl (step w p) h ≠ (b :: bs).foldl (step w p) h := by
  refine foldl_ne hw hp (step_lt w p h a) (step_lt w p h b) (fun heq => hne ?_) bs
  exact UInt8.toNat_inj.mp (Nat.xor_right_inj.mp (xor_eq_of_step_eq hw hp hh hh heq))

end Injective

/-! ## Low bits -/

/-- The low bits of a hash are the hash with fewer bits. -/
theorem foldl_mod {v : ℕ} (hv : 8 ≤ v) (hvw : v ≤ w) (h : ℕ) (bs : List UInt8) :
    bs.foldl (step w p) h % 2 ^ v = bs.foldl (step v p) (h % 2 ^ v) % 2 ^ v := by
  induction bs generalizing h with
  | nil => exact (Nat.mod_mod _ _).symm
  | cons b bs ih =>
    have hstep : step w p h b % 2 ^ v = step v p (h % 2 ^ v) b := by
      rw [step, step, Nat.mod_mod_of_dvd _ (Nat.pow_dvd_pow 2 hvw), Nat.mul_mod,
        Nat.xor_mod_two_pow, Nat.mod_eq_of_lt (toNat_lt_two_pow hv b), Nat.mul_mod_mod]
    rw [List.foldl_cons, ih, hstep, List.foldl_cons]

/-! ## Drift -/

/-- Exclusive or with a byte changes a number by less than 256. -/
theorem abs_xor_sub_le (x : ℕ) (b : UInt8) : |((x ^^^ b.toNat : ℕ) : ℤ) - x| ≤ 255 := by
  have hb := b.toNat_lt
  have hdiv : (x ^^^ b.toNat) / 2 ^ 8 = x / 2 ^ 8 := by
    rw [Nat.xor_div_two_pow, Nat.div_eq_of_lt hb, Nat.xor_zero]
  rw [abs_le]
  omega

variable {m q : ℕ}

theorem step_modEq (hm : m ≤ w) (hpq : p ≡ q [MOD 2 ^ m]) (h : ℕ) (b : UInt8) :
    (step w p h b : ℤ) ≡ ((h ^^^ b.toNat : ℕ) : ℤ) * q [ZMOD (2 ^ m : ℕ)] := by
  have hmod : step w p h b ≡ (h ^^^ b.toNat) * p [MOD 2 ^ m] :=
    (Nat.mod_modEq _ _).of_dvd (Nat.pow_dvd_pow 2 hm)
  have hcast := Int.natCast_modEq_iff.mpr (hmod.trans (hpq.mul_left _))
  rwa [Nat.cast_mul] at hcast

/-- A step multiplies the difference of two states, after a change by the two bytes. -/
theorem step_sub_modEq (hm : m ≤ w) (hpq : p ≡ q [MOD 2 ^ m]) {x y : ℕ} {d : ℤ}
    (hd : (x : ℤ) - y ≡ d [ZMOD (2 ^ m : ℕ)]) (a b : UInt8) :
    ∃ e : ℤ, |e| ≤ 510 ∧
      (step w p x a : ℤ) - step w p y b ≡ (d + e) * q [ZMOD (2 ^ m : ℕ)] := by
  refine ⟨((x ^^^ a.toNat : ℕ) - x : ℤ) - ((y ^^^ b.toNat : ℕ) - y : ℤ), ?_, ?_⟩
  · have hx := abs_xor_sub_le x a
    have hy := abs_xor_sub_le y b
    exact (abs_sub _ _).trans (by omega)
  · refine ((step_modEq hm hpq x a).sub (step_modEq hm hpq y b)).trans ?_
    rw [← sub_mul]
    refine Int.ModEq.mul_right _ ?_
    have heq : ((x ^^^ a.toNat : ℕ) : ℤ) - ((y ^^^ b.toNat : ℕ) : ℤ) =
        (x - y) + (((x ^^^ a.toNat : ℕ) - x : ℤ) - ((y ^^^ b.toNat : ℕ) - y : ℤ)) := by ring
    rw [heq]
    exact hd.add_right _

/-- A difference that is at least twice as large as the change by the bytes does not shrink, and it
grows at most by a factor of `2 * q`. -/
theorem abs_add_mul_bounds {d e : ℤ} (hq : 2 ≤ q) (hd : 1020 ≤ |d|) (he : |e| ≤ 510) :
    1020 ≤ |(d + e) * q| ∧ |(d + e) * q| ≤ |d| * (2 * q : ℕ) := by
  have hlow : |d| - |e| ≤ |d + e| := abs_sub_abs_le_abs_add d e
  have hup : |d + e| ≤ |d| + |e| := abs_add_le d e
  have hqz : (2 : ℤ) ≤ q := by exact_mod_cast hq
  rw [abs_mul, Nat.abs_cast]
  push_cast
  constructor <;> nlinarith

/-- States whose difference is of a moderate size modulo `2 ^ m` stay different. -/
theorem foldl_ne_of_drift (hm : m ≤ w) (hpq : p ≡ q [MOD 2 ^ m]) (hq : 2 ≤ q)
    {as bs : List UInt8} (hlen : as.length = bs.length) {x y : ℕ} {d : ℤ}
    (hd : (x : ℤ) - y ≡ d [ZMOD (2 ^ m : ℕ)]) (hlow : 1020 ≤ |d|)
    (hup : |d| * ((2 * q) ^ bs.length : ℕ) < (2 ^ m : ℕ)) :
    as.foldl (step w p) x % 2 ^ m ≠ bs.foldl (step w p) y % 2 ^ m := by
  induction as generalizing bs x y d with
  | nil =>
    obtain rfl : bs = [] := List.length_eq_zero_iff.mp hlen.symm
    intro heq
    -- equal states would have a difference that is divisible by `2 ^ m`, but too small for it
    have hzero : (x : ℤ) - y ≡ 0 [ZMOD (2 ^ m : ℕ)] :=
      Int.modEq_iff_dvd.mpr (by
        have hxy := Int.natCast_modEq_iff.mpr (show x ≡ y [MOD 2 ^ m] from heq)
        simpa using (Int.modEq_iff_dvd.mp hxy))
    have hdvd := Int.modEq_zero_iff_dvd.mp (hd.symm.trans hzero)
    have hzero' := Int.eq_zero_of_abs_lt_dvd hdvd (by simpa using hup)
    rw [hzero', abs_zero] at hlow
    omega
  | cons a as ih =>
    cases bs with
    | nil => cases hlen
    | cons b bs =>
      obtain ⟨e, he, hnext⟩ := step_sub_modEq hm hpq hd a b
      obtain ⟨hlow', hup'⟩ := abs_add_mul_bounds hq hlow he
      refine ih (Nat.succ.inj hlen) hnext hlow' (lt_of_le_of_lt ?_ hup)
      calc |(d + e) * q| * ((2 * q) ^ bs.length : ℕ)
          ≤ |d| * (2 * q : ℕ) * ((2 * q) ^ bs.length : ℕ) := by gcongr
        _ = |d| * ((2 * q) ^ (b :: bs).length : ℕ) := by
          rw [List.length_cons, Nat.pow_succ']
          push_cast
          ring

end Fnv1a
