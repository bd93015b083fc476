import Mathlib.Tactic.Linarith
import Mathlib.Tactic.NormNum
import Mathlib.Tactic.Positivity
import MPQuic.Congestion.OliaEpsilon

/-!
# The increase of OLIA

In congestion avoidance an ACK adds a fraction of a packet to `sndCwndCnt`, which is computed from
the windows and RTTs of all paths by a chain of products on 64 bits. The square of the rate grows
with the ratio of the RTTs: with windows of 2500 packets it can leave the 64 bits even with two
paths.

`increase_exact_iff`: for up to 255 paths, windows up to 2500 packets and RTTs from 1 ms to 10 s
only two of the products can wrap around, the denominator and the shifted numerator. If they fit,
then so do all others, and the count changes by the exact fraction, truncated toward zero.
-/

namespace MPQuic

namespace Olia

variable {o : Olia} {w rate : ℕ}

/-- The numerator of the change, before it is scaled. -/
def exactNumerator (o : Olia) (w rate : ℕ) : ℤ :=
  o.epsilonNum * rate + (o.epsilonDen * (oliaUnit * w) ^ 2 : ℕ)

/-- The exact change of `sndCwndCnt`, truncated toward zero. -/
def exactChange (o : Olia) (w rate : ℕ) : ℤ :=
  (oliaUnit * o.exactNumerator w rate).tdiv (o.epsilonDen * w * rate : ℕ)

/-- The quotient of an increment is far from the end of the range of `int64`. -/
theorem increment_eq {n d : ℕ} (hfit : n * oliaUnit < uint64Size)
    (hle : n * oliaUnit ≤ d * 2 ^ 42) :
    increment n d = ((n * oliaUnit / d : ℕ) : ℤ) ∧ n * oliaUnit / d ≤ 2 ^ 42 := by
  have hquot : n * oliaUnit / d ≤ 2 ^ 42 := Nat.div_le_of_le_mul hle
  refine ⟨?_, hquot⟩
  unfold increment oliaScale
  rw [uint64Mul_eq hfit]
  generalize n * oliaUnit / d = q at hquot
  refine int64Wrap_eq ?_ ?_ <;> rw [uint64Size] <;> omega

/-- Truncation toward zero keeps the sign. -/
theorem tdiv_eq_of_natAbs (z : ℤ) (d : ℕ) :
    (oliaUnit * z).tdiv d = if z < 0 then -((z.natAbs * oliaUnit / d : ℕ) : ℤ)
      else ((z.natAbs * oliaUnit / d : ℕ) : ℤ) := by
  split_ifs with hneg
  · obtain ⟨n, rfl⟩ : ∃ n : ℕ, z = -n := ⟨z.natAbs, by omega⟩
    rw [mul_neg, Int.neg_tdiv, Int.natAbs_neg, Int.natAbs_natCast, ← Nat.cast_mul, Nat.mul_comm,
      ← Int.ofNat_tdiv]
  · obtain ⟨n, rfl⟩ : ∃ n : ℕ, z = n := ⟨z.natAbs, by omega⟩
    rw [Int.natAbs_natCast, ← Nat.cast_mul, Nat.mul_comm, ← Int.ofNat_tdiv]

/-- The values that the increase is computed from, apart from the rate. -/
structure InRange (o : Olia) (w : ℕ) : Prop where
  epsilonNum_cases : o.epsilonNum = -1 ∨ o.epsilonNum = 0 ∨ o.epsilonNum = 1
  epsilonDen_pos : 1 ≤ o.epsilonDen
  epsilonDen_le : o.epsilonDen ≤ 255 * 255
  two_le : 2 ≤ w
  le_2500 : w ≤ 2500

/-- The rate fits if the denominator does. -/
theorem InRange.rate_lt (h : o.InRange w) (hden : o.epsilonDen * w * rate < uint64Size) :
    rate < uint64Size := by
  have hw : 0 < w := by
    have := h.two_le
    omega
  exact (Nat.le_mul_of_pos_left _ (Nat.mul_pos h.epsilonDen_pos hw)).trans_lt hden

/-- The square of the scaled window does not wrap around. -/
theorem InRange.square_eq (h : o.InRange w) :
    uint64Mul (uint64Mul o.epsilonDen (oliaScale w)) (oliaScale w) =
      o.epsilonDen * (oliaUnit * w) ^ 2 ∧ o.epsilonDen * (oliaUnit * w) ^ 2 < uint64Size := by
  obtain ⟨-, -, hden, -, hw⟩ := h
  have hscale : oliaScale w = oliaUnit * w := by
    rw [oliaScale, uint64Mul_eq, Nat.mul_comm]
    unfold oliaUnit oliaScaleBits uint64Size
    omega
  have hle : oliaUnit * w ≤ oliaUnit * 2500 := Nat.mul_le_mul_left _ hw
  have hfirst : o.epsilonDen * (oliaUnit * w) < uint64Size :=
    (Nat.mul_le_mul hden hle).trans_lt (by decide)
  have hsquare : o.epsilonDen * (oliaUnit * w) * (oliaUnit * w) < uint64Size :=
    (Nat.mul_le_mul (Nat.mul_le_mul hden hle) hle).trans_lt (by decide)
  rw [pow_two, ← Nat.mul_assoc, hscale, uint64Mul_eq hfirst, uint64Mul_eq hsquare]
  exact ⟨rfl, hsquare⟩

/-- The scaled numerator is at most `2 ^ 42` times the denominator. -/
theorem InRange.numerator_le (h : o.InRange w) (hrate : 1 ≤ rate) :
    (o.exactNumerator w rate).natAbs * oliaUnit ≤ o.epsilonDen * w * rate * 2 ^ 42 := by
  obtain ⟨heps, hden, -, hw, hw'⟩ := h
  have habs : (o.exactNumerator w rate).natAbs ≤ rate + o.epsilonDen * (oliaUnit * w) ^ 2 := by
    unfold exactNumerator
    generalize o.epsilonDen * (oliaUnit * w) ^ 2 = square
    rcases heps with h | h | h <;> rw [h] <;> omega
  have hpos : 1 ≤ o.epsilonDen * w := Nat.mul_pos hden (by omega)
  have hfirst : rate ≤ o.epsilonDen * w * rate := Nat.le_mul_of_pos_left _ hpos
  have hsecond : o.epsilonDen * (oliaUnit * w) ^ 2 ≤
      o.epsilonDen * w * rate * (oliaUnit ^ 2 * 2500) := by
    calc o.epsilonDen * (oliaUnit * w) ^ 2 = o.epsilonDen * w * 1 * (oliaUnit ^ 2 * w) := by ring
      _ ≤ o.epsilonDen * w * rate * (oliaUnit ^ 2 * 2500) :=
        Nat.mul_le_mul (Nat.mul_le_mul_left _ hrate) (Nat.mul_le_mul_left _ hw')
  unfold oliaUnit oliaScaleBits at *
  omega

theorem CountBounded.add_eq (hcount : o.CountBounded) {z : ℤ} (hlow : -(2 ^ 42) ≤ z)
    (hhigh : z ≤ 2 ^ 42) : int64Wrap (o.sndCwndCnt + z) = o.sndCwndCnt + z := by
  obtain ⟨hcount_low, hcount_high⟩ := hcount
  unfold oliaUnit oliaScaleBits at hcount_low hcount_high
  refine int64Wrap_eq ?_ ?_ <;> rw [uint64Size] <;> omega

/-- The numerator of an increase with an epsilon that is not negative. -/
theorem incNum_eq {square : ℕ} (heps : o.epsilonNum = 0 ∨ o.epsilonNum = 1)
    (hrate : rate < uint64Size) (hsquare : square < uint64Size)
    (hshift : (o.epsilonNum * (rate : ℤ) + square).natAbs * oliaUnit < uint64Size) :
    uint64Add (uint64Mul (o.epsilonNum % uint64Size).toNat rate) square =
      (o.epsilonNum * (rate : ℤ) + square).natAbs := by
  have hle : (o.epsilonNum * (rate : ℤ) + square).natAbs ≤
      (o.epsilonNum * (rate : ℤ) + square).natAbs * oliaUnit :=
    Nat.le_mul_of_pos_right _ (by decide)
  have hsum := hle.trans_lt hshift
  rcases heps with heps | heps
  · rw [heps] at hsum ⊢
    rw [Int.zero_emod, Int.toNat_zero, uint64Mul, Nat.zero_mul, Nat.zero_mod,
      uint64Add_eq (by omega)]
    omega
  · rw [heps] at hsum ⊢
    have hone : ((1 : ℤ) % (uint64Size : ℤ)).toNat = 1 := by decide
    rw [hone, uint64Mul_eq (by omega), uint64Add_eq (by omega)]
    omega

/-- If the denominator and the shifted numerator fit, then the count changes by the exact value. -/
theorem InRange.nextCount_eq (h : o.InRange w) (hcount : o.CountBounded) (hrate : 1 ≤ rate)
    (hden : o.epsilonDen * w * rate < uint64Size)
    (hshift : (o.exactNumerator w rate).natAbs * oliaUnit < uint64Size) :
    o.nextCount w rate (oliaScale w) - o.sndCwndCnt = o.exactChange w rate := by
  obtain ⟨hsquare, hsquare_lt⟩ := h.square_eq
  obtain ⟨hinc, hinc_le⟩ := increment_eq hshift (h.numerator_le hrate)
  have hrate_lt := h.rate_lt hden
  rw [exactChange, tdiv_eq_of_natAbs]
  unfold nextCount
  dsimp only
  rw [hsquare, incDen_eq h.epsilonDen_pos h.two_le hrate hden]
  unfold exactNumerator at *
  generalize o.epsilonDen * (oliaUnit * w) ^ 2 = square at *
  generalize o.epsilonDen * w * rate = d at *
  rcases h.epsilonNum_cases with heps | heps
  · rw [if_pos heps]
    rw [heps] at hinc hinc_le hshift ⊢
    by_cases hlt : square < rate
    · have habs : (-1 * (rate : ℤ) + square).natAbs = rate - square := by omega
      rw [habs] at hinc hinc_le ⊢
      rw [if_pos hlt, if_pos (by omega), uint64Sub_eq hrate_lt hlt.le, hinc]
      generalize (rate - square) * oliaUnit / d = q at hinc_le ⊢
      have hsub := hcount.add_eq (z := -(q : ℤ)) (by omega) (by omega)
      rw [← sub_eq_add_neg] at hsub
      rw [hsub]
      omega
    · have habs : (-1 * (rate : ℤ) + square).natAbs = square - rate := by omega
      rw [habs] at hinc hinc_le ⊢
      rw [if_neg hlt, if_neg (by omega), uint64Sub_eq hsquare_lt (by omega), hinc]
      generalize (square - rate) * oliaUnit / d = q at hinc_le ⊢
      rw [hcount.add_eq (by omega) (by omega)]
      omega
  · have hne : o.epsilonNum ≠ -1 := by omega
    have hnum := incNum_eq heps hrate_lt hsquare_lt hshift
    have hnonneg : ¬ o.epsilonNum * (rate : ℤ) + square < 0 := by
      rcases heps with heps | heps <;> rw [heps] <;> omega
    rw [if_neg hne, if_neg hnonneg, hnum, hinc]
    generalize (o.epsilonNum * (rate : ℤ) + square).natAbs * oliaUnit / d = q at hinc_le ⊢
    rw [hcount.add_eq (by omega) (by omega)]
    omega

end Olia

namespace OliaSenders

variable {m : OliaSenders} {reads : OliaReads} {pathID : PathID} {o : OliaSender}

/-- Up to 255 paths with windows between 2 and 2500 packets and RTTs between 1 ms and 10 s. -/
structure InRange (reads : OliaReads) (m : OliaSenders) : Prop where
  length_le : m.length ≤ 255
  two_le : ∀ q ∈ m, 2 ≤ q.2.congestionWindow
  le_2500 : ∀ q ∈ m, q.2.congestionWindow ≤ 2500
  one_ms_le : ∀ q ∈ m, 10 ^ 6 ≤ reads.smoothedRTT q.1
  le_ten_s : ∀ q ∈ m, reads.smoothedRTT q.1 ≤ 10 ^ 10

/-- The square root of the exact rate of a path with the given RTT. -/
def rateRoot (reads : OliaReads) (pathRTT : ℕ) (m : OliaSenders) : ℕ :=
  1 + (m.map fun q => oliaUnit * q.2.congestionWindow * pathRTT / reads.smoothedRTT q.1).sum

/-- The products, squares and shifts of an increase over the natural numbers. -/
def increaseProducts (reads : OliaReads) (pathRTT : ℕ) (m : OliaSenders) (olia : Olia) (w : ℕ) :
    List ℕ :=
  let rate := rateRoot reads pathRTT m ^ 2
  m.map (fun q => oliaUnit * q.2.congestionWindow) ++
    m.map (fun q => oliaUnit * q.2.congestionWindow * pathRTT) ++
    [rate, olia.epsilonDen * w, olia.epsilonDen * w * rate, oliaUnit * w,
      olia.epsilonDen * (oliaUnit * w), olia.epsilonDen * (oliaUnit * w) * (oliaUnit * w),
      olia.epsilonNum.toNat * rate, (olia.exactNumerator w rate).natAbs * oliaUnit]

namespace InRange

variable {q : PathID × OliaSender}

theorem scaled_lt (h : InRange reads m) (hq : q ∈ m) :
    oliaUnit * q.2.congestionWindow < uint64Size :=
  (Nat.mul_le_mul_left oliaUnit (h.le_2500 q hq)).trans_lt (by decide)

variable {pathRTT : ℕ}

theorem scaled_mul_lt (h : InRange reads m) (hq : q ∈ m) (hrtt : pathRTT ≤ 10 ^ 10) :
    oliaUnit * q.2.congestionWindow * pathRTT < uint64Size :=
  (Nat.mul_le_mul (Nat.mul_le_mul_left oliaUnit (h.le_2500 q hq)) hrtt).trans_lt (by decide)

/-- What a sender adds to the rate is exact. -/
theorem rateTerm_eq (h : InRange reads m) (hq : q ∈ m) (hrtt : pathRTT ≤ 10 ^ 10) :
    rateTerm reads pathRTT (q.1, setEpsilon reads m q) =
      oliaUnit * q.2.congestionWindow * pathRTT / reads.smoothedRTT q.1 := by
  have hpos : reads.smoothedRTT q.1 ≠ 0 := by
    have := h.one_ms_le q hq
    omega
  have hscale : oliaScale q.2.congestionWindow = oliaUnit * q.2.congestionWindow := by
    rw [oliaScale, Nat.mul_comm oliaUnit, uint64Mul_eq (Nat.mul_comm _ _ ▸ h.scaled_lt hq)]
  unfold rateTerm setEpsilon
  dsimp only
  rw [if_neg hpos, hscale, uint64Mul_eq (h.scaled_mul_lt hq hrtt)]

theorem rateSum_eq (h : InRange reads m) (hrtt : pathRTT ≤ 10 ^ 10) :
    rateSum reads pathRTT (getEpsilon reads m) = rateRoot reads pathRTT m := by
  unfold rateSum rateRoot getEpsilon
  rw [List.map_map]
  congr 2
  exact List.map_congr_left fun q hq => h.rateTerm_eq hq hrtt

/-- The epsilon of a sender and its window are in range. -/
theorem olia (h : InRange reads m) (hmem : (pathID, o) ∈ m) :
    (setEpsilon reads m (pathID, o)).olia.InRange o.congestionWindow where
  epsilonNum_cases := by
    change (epsilon reads m (pathID, o)).1 = -1 ∨ (epsilon reads m (pathID, o)).1 = 0 ∨
      (epsilon reads m (pathID, o)).1 = 1
    rw [epsilon_eq hmem h.length_le]
    split_ifs <;> simp
  epsilonDen_pos := epsilonDen_pos hmem h.length_le
  epsilonDen_le := by
    have hle : ∀ c ≤ m.length, m.length * c ≤ 255 * 255 := fun c hc =>
      Nat.mul_le_mul h.length_le (hc.trans h.length_le)
    change (epsilon reads m (pathID, o)).2 ≤ 255 * 255
    rw [epsilon_eq hmem h.length_le]
    split_ifs
    · decide
    · exact hle _ List.countP_le_length
    · exact hle _ List.countP_le_length
    · decide
  two_le := h.two_le _ hmem
  le_2500 := h.le_2500 _ hmem

/-- All products fit if the denominator and the shifted numerator do. -/
theorem products_lt (h : InRange reads m) {olia : Olia} {w pathRTT : ℕ} (holia : olia.InRange w)
    (hrtt : pathRTT ≤ 10 ^ 10)
    (hden : olia.epsilonDen * w * rateRoot reads pathRTT m ^ 2 < uint64Size)
    (hshift : (olia.exactNumerator w (rateRoot reads pathRTT m ^ 2)).natAbs * oliaUnit <
      uint64Size) : ∀ x ∈ increaseProducts reads pathRTT m olia w, x < uint64Size := by
  have hrate := holia.rate_lt hden
  have hscaled : oliaUnit * w ≤ oliaUnit * 2500 := Nat.mul_le_mul_left _ holia.le_2500
  have hsquare := holia.square_eq.2
  rw [pow_two, ← Nat.mul_assoc] at hsquare
  have heps : olia.epsilonNum.toNat ≤ 1 := by
    have := holia.epsilonNum_cases
    omega
  intro x hx
  simp only [increaseProducts, List.mem_append, List.mem_map, List.mem_cons, List.not_mem_nil,
    or_false] at hx
  rcases hx with (⟨q, hq, rfl⟩ | ⟨q, hq, rfl⟩) | rfl | rfl | rfl | rfl | rfl | rfl | rfl | rfl
  · exact h.scaled_lt hq
  · exact h.scaled_mul_lt hq hrtt
  · exact hrate
  · exact (Nat.mul_le_mul holia.epsilonDen_le holia.le_2500).trans_lt (by decide)
  · exact hden
  · exact hscaled.trans_lt (by decide)
  · exact (Nat.mul_le_mul holia.epsilonDen_le hscaled).trans_lt (by decide)
  · exact hsquare
  · exact (Nat.mul_le_mul_right _ heps).trans_lt (by rwa [Nat.one_mul])
  · exact hshift

end InRange

/-- No product, square or shift of an increase wraps around and the count changes by the exact
value, if and only if the denominator and the shifted numerator fit into 64 bits. -/
theorem increase_exact_iff (reads : OliaReads) (m : OliaSenders) (pathID : PathID) (o : OliaSender)
    (hrange : InRange reads m) (hmem : (pathID, o) ∈ m) (hcount : o.olia.CountBounded) :
    let olia := (setEpsilon reads m (pathID, o)).olia
    let w := o.congestionWindow
    let pathRTT := reads.smoothedRTT pathID
    let rate := rateRoot reads pathRTT m ^ 2
    (olia.nextCount w (getRate reads pathRTT (getEpsilon reads m)) (oliaScale w) - olia.sndCwndCnt =
        olia.exactChange w rate ∧
      ∀ x ∈ increaseProducts reads pathRTT m olia w, x < uint64Size) ↔
      olia.epsilonDen * w * rate < uint64Size ∧
        (olia.exactNumerator w rate).natAbs * oliaUnit < uint64Size := by
  intro olia w pathRTT rate
  have holia : olia.InRange w := hrange.olia hmem
  have hrtt : pathRTT ≤ 10 ^ 10 := hrange.le_ten_s _ hmem
  constructor
  · rintro ⟨-, hfit⟩
    exact ⟨hfit _ (by simp [increaseProducts, rate]), hfit _ (by simp [increaseProducts, rate])⟩
  · rintro ⟨hden, hshift⟩
    have hrate_pos : 1 ≤ rate := Nat.pow_pos (Nat.le_add_right 1 _)
    have hrate_lt : rate < uint64Size := holia.rate_lt hden
    have hroot : rateSum reads pathRTT (getEpsilon reads m) = rateRoot reads pathRTT m :=
      hrange.rateSum_eq hrtt
    have hrate : getRate reads pathRTT (getEpsilon reads m) = rate := by
      rw [(getRate_eq (by rw [hroot, ← pow_two]; exact hrate_lt)).1, hroot, ← pow_two]
    rw [hrate]
    exact ⟨holia.nextCount_eq hcount hrate_pos hden hshift,
      hrange.products_lt holia hrtt hden hshift⟩

theorem inRange_exampleSenders : InRange exampleReads exampleSenders where
  length_le := by decide
  two_le := by decide
  le_2500 := by decide
  one_ms_le := by decide
  le_ten_s := by decide

/-- The first of the two senders loses window. -/
theorem increase_exact_first :
    let olia := (setEpsilon exampleReads exampleSenders (1, .new 10 100)).olia
    let rate := rateRoot exampleReads (20 * 10 ^ 6) exampleSenders ^ 2
    olia.epsilonNum = -1 ∧
      olia.nextCount 10
        (getRate exampleReads (20 * 10 ^ 6) (getEpsilon exampleReads exampleSenders))
        (oliaScale 10) - olia.sndCwndCnt = olia.exactChange 10 rate :=
  ⟨by decide, ((increase_exact_iff exampleReads exampleSenders 1 (.new 10 100)
    inRange_exampleSenders (by decide) Olia.countBounded_zero).mpr (by decide)).1⟩

/-- A sender with a window of two packets on a path with an RTT of 400 ms, and one with 2500 packets
on a path with an RTT of 1 ms. -/
def slowAndFast : OliaSenders := [(1, .new 2 100), (2, .new 2500 2500)]

def slowAndFastReads : OliaReads :=
  ⟨fun pathID => if pathID = 1 then 400 * 10 ^ 6 else 10 ^ 6, [1, 2]⟩

/-- The slow path should gain a quarter of a packet with this ACK, and gets nothing. -/
theorem increase_wraps_slow_path :
    let olia := (setEpsilon slowAndFastReads slowAndFast (1, .new 2 100)).olia
    let rate := rateRoot slowAndFastReads (400 * 10 ^ 6) slowAndFast ^ 2
    InRange slowAndFastReads slowAndFast ∧ olia.CountBounded ∧ olia.exactChange 2 rate = 256 ∧
      olia.nextCount 2 (getRate slowAndFastReads (400 * 10 ^ 6)
        (getEpsilon slowAndFastReads slowAndFast)) (oliaScale 2) - olia.sndCwndCnt = 0 :=
  ⟨⟨by decide, by decide, by decide, by decide, by decide⟩, Olia.countBounded_zero, by decide,
    by decide⟩

end OliaSenders

end MPQuic
