import MPQuic.Wire.ByteOrder

/-!
# Truncated packet numbers

The public header carries only the low bytes of a packet number
(`internal/protocol/packet_number.go`). The sender chooses how many from the distance to the least
packet it is still waiting for, and the receiver takes the candidate that is closest to the number
after the largest one it has received. `inferPacketNumber_eq_iff` says exactly for which distance
the receiver gets the right number when packets arrive in order; `inferPacketNumber_of_close` also
covers packets that arrive late.
-/

namespace MPQuic

/-- The distance of two packet numbers. -/
def delta (a b : ℕ) : ℕ := if a < b then b - a else a - b

/-- The one of `a` and `b` that is closer to the target, or `b`. -/
def closestTo (target a b : ℕ) : ℕ := if delta target a < delta target b then a else b

/-- The number of packet numbers with the same high bytes. -/
def epochDelta (len : PacketNumberLen) : ℕ := 2 ^ (8 * len.toNat)

/-- The packet number of a received packet, from its low bytes. -/
def inferPacketNumber (packetNumberLength : PacketNumberLen)
    (lastPacketNumber wirePacketNumber : ℕ) : ℕ :=
  let epochDelta := epochDelta packetNumberLength
  -- clear the low bytes
  let epoch := lastPacketNumber / epochDelta * epochDelta
  let prevEpochBegin := uint64Sub epoch epochDelta
  let nextEpochBegin := uint64Add epoch epochDelta
  let target := uint64Add lastPacketNumber 1
  closestTo target (uint64Add epoch wirePacketNumber)
    (closestTo target (uint64Add prevEpochBegin wirePacketNumber)
      (uint64Add nextEpochBegin wirePacketNumber))

/-- The length of the packet number for the public header, which is never 1 byte. -/
def getPacketNumberLengthForPublicHeader (packetNumber leastUnacked : ℕ) : PacketNumberLen :=
  let diff := uint64Sub packetNumber leastUnacked
  if diff < 2 ^ 15 then .len2
  else if diff < 2 ^ 31 then .len4
  -- we do not check if there are less than 2^46 packets in flight
  else .len6

variable {n : ℕ}

/-- The length depends on the distance only. -/
theorem getPacketNumberLengthForPublicHeader_eq {g : ℕ} (hg : g ≤ n) (hn : n < uint64Size) :
    getPacketNumberLengthForPublicHeader n g =
      if n < g + 2 ^ 15 then .len2 else if n < g + 2 ^ 31 then .len4 else .len6 := by
  unfold getPacketNumberLengthForPublicHeader
  simp only [uint64Sub_eq hn hg]
  split_ifs <;> first | rfl | omega

theorem getPacketNumberLengthForPublicHeader_ne (n g : ℕ) :
    getPacketNumberLengthForPublicHeader n g ≠ .invalid := by
  unfold getPacketNumberLengthForPublicHeader
  dsimp only
  split_ifs <;> decide

theorem delta_of_le {a b : ℕ} (h : a ≤ b) : delta a b = b - a := by
  unfold delta
  split_ifs <;> omega

/-- The lower one of two numbers is closer exactly to the targets below their middle. -/
theorem closestTo_of_lt {t a b : ℕ} (h : a < b) :
    closestTo t a b = if 2 * t < a + b then a else b := by
  refine if_congr ?_ rfl rfl
  unfold delta
  split_ifs <;> omega

theorem closestTo_of_gt {t a b : ℕ} (h : b < a) :
    closestTo t a b = if a + b < 2 * t then a else b := by
  refine if_congr ?_ rfl rfl
  unfold delta
  split_ifs <;> omega

/-- In the first epoch the lowest candidate wraps around and is never the closest one. -/
theorem closestTo_first_eq_iff {half w r far : ℕ} (hw : w < 2 * half) (hr : r < n)
    (hr' : r < 2 * half) (hn : n = w ∨ n = 2 * half + w ∨ 4 * half + w ≤ n)
    (hfar : 2 * half + w ≤ far) :
    closestTo (r + 1) w (closestTo (r + 1) far (2 * half + w)) = n ↔
      n < 2 * half ∨ n ≤ r + half ∨ (n = r + half + 1 ∧ n ≠ w) := by
  have hnext : closestTo (r + 1) far (2 * half + w) = 2 * half + w := by
    rw [closestTo, delta_of_le (by omega : r + 1 ≤ far), delta_of_le (by omega), if_neg (by omega)]
  rw [hnext, closestTo_of_lt (by omega)]
  split_ifs <;> omega

/-- In a later epoch `e` the three candidates are `2 * half` apart. -/
theorem closestTo_later_eq_iff {e half w r : ℕ} (hw : w < 2 * half) (hr : r < n) (he : e ≤ r)
    (hr' : r < e + 2 * half) (hlater : 2 * half ≤ e)
    (hn : n = e + w ∨ n = e + 2 * half + w ∨ e + 4 * half + w ≤ n) :
    closestTo (r + 1) (e + w) (closestTo (r + 1) (e - 2 * half + w) (e + 2 * half + w)) = n ↔
      n < 2 * half ∨ n ≤ r + half ∨ (n = r + half + 1 ∧ n ≠ e + w) := by
  obtain ⟨d, rfl⟩ : ∃ d, e = d + 2 * half := ⟨e - 2 * half, by omega⟩
  rw [Nat.add_sub_cancel, closestTo_of_lt (a := d + w) (by omega)]
  -- the middle of the two outer candidates is the one between them
  by_cases hbelow : 2 * (r + 1) < d + w + (d + 2 * half + 2 * half + w)
  · rw [if_pos hbelow, closestTo_of_gt (by omega)]
    split_ifs <;> omega
  · rw [if_neg hbelow, closestTo_of_lt (by omega)]
    split_ifs <;> omega

/-- A packet is in a given epoch `q`, in the next one, or further away. -/
theorem epoch_cases {q k half w : ℕ} (hle : q ≤ k) (hn : k * (2 * half) + w = n) :
    n = q * (2 * half) + w ∨ n = q * (2 * half) + 2 * half + w ∨
      q * (2 * half) + 4 * half + w ≤ n := by
  rcases hle.eq_or_lt with rfl | hlt
  · exact .inl hn.symm
  · rcases (Nat.succ_le_of_lt hlt).eq_or_lt with rfl | hlt
    · rw [Nat.succ_mul] at hn
      exact .inr (.inl hn.symm)
    · have := Nat.mul_le_mul_right (2 * half) hlt
      rw [Nat.succ_mul, Nat.succ_mul] at this
      omega

/-- The first epoch starts at 0, a later one at least one epoch above. -/
theorem epoch_eq_zero_or_le (r m : ℕ) : r / m * m = 0 ∨ m ≤ r / m * m := by
  rcases Nat.eq_zero_or_pos (r / m) with hq | hq
  · exact .inl (by rw [hq, Nat.zero_mul])
  · exact .inr (Nat.le_mul_of_pos_left m hq)

variable {len : PacketNumberLen}

/-- The candidates without wrap-around: below the epoch `e` of `r` lies the previous one, or in the
first epoch a number near the upper end of the range. -/
theorem inferPacketNumber_eq {half e r w : ℕ} (hhalf : epochDelta len = 2 * half)
    (he : r / (2 * half) * (2 * half) = e) (hw : w < 2 * half) (hsize : r + 4 * half < uint64Size) :
    inferPacketNumber len r w =
      closestTo (r + 1) (e + w)
        (closestTo (r + 1) (if e = 0 then uint64Size - 2 * half + w else e - 2 * half + w)
          (e + 2 * half + w)) := by
  have hle := Nat.div_mul_le_self r (2 * half)
  have hfirst := epoch_eq_zero_or_le r (2 * half)
  rw [he] at hle hfirst
  unfold inferPacketNumber
  dsimp only
  rw [hhalf, he, uint64Add_eq (by omega : r + 1 < uint64Size), uint64Add_eq (by omega : e + w < _),
    uint64Add_eq (by omega : e + 2 * half < uint64Size),
    uint64Add_eq (by omega : e + 2 * half + w < uint64Size)]
  rcases hfirst with rfl | hlater
  · have hprev : uint64Add (uint64Sub 0 (2 * half)) w = uint64Size - 2 * half + w := by
      unfold uint64Add uint64Sub uint64Size at *
      omega
    rw [hprev, if_pos rfl]
  · rw [uint64Sub_eq (by omega) hlater, uint64Add_eq (by omega), if_neg (by omega)]

/-- The receiver of a packet `n` whose largest packet is `r` gets `n` back from its low bytes if
and only if `n` is in the first epoch, or at most half an epoch above `r`. One packet number more
is right when the next epoch starts in between. -/
theorem inferPacketNumber_eq_iff {half r : ℕ} (hhalf : epochDelta len = 2 * half) (hr : r < n)
    (hsize : n + 4 * half < uint64Size) :
    inferPacketNumber len r (n % epochDelta len) = n ↔
      n < epochDelta len ∨ n ≤ r + half ∨
        (n = r + half + 1 ∧ r / epochDelta len < n / epochDelta len) := by
  have hpos : 0 < epochDelta len := Nat.two_pow_pos _
  rw [hhalf] at hpos ⊢
  have hw := Nat.mod_lt n hpos
  rw [inferPacketNumber_eq hhalf rfl hw (by omega)]
  have hepoch := Nat.div_add_mod' r (2 * half)
  have hlow := Nat.mod_lt r hpos
  have hnumber := Nat.div_add_mod' n (2 * half)
  have hle : r / (2 * half) ≤ n / (2 * half) := Nat.div_le_div_right hr.le
  generalize r / (2 * half) = q at *
  generalize n / (2 * half) = k at *
  generalize n % (2 * half) = w at *
  have hcases := epoch_cases hle hnumber
  have hsame : q < k ↔ n ≠ q * (2 * half) + w := by
    rw [← hnumber, Ne, Nat.add_right_cancel_iff, Nat.mul_left_inj hpos.ne']
    omega
  rw [hsame]
  rcases Nat.eq_zero_or_pos q with rfl | hq
  · simp only [Nat.zero_mul, Nat.zero_add, if_pos] at *
    exact closestTo_first_eq_iff hw hr (by omega) hcases (by omega)
  · have hlater := Nat.le_mul_of_pos_left (2 * half) hq
    rw [if_neg (by omega)]
    exact closestTo_later_eq_iff hw hr (by omega) (by omega) hlater hcases

/-- The same for all receivers that hold a packet from `l` on: the one that holds `l` decides. -/
theorem forall_inferPacketNumber_eq_iff {half l : ℕ} (hhalf : epochDelta len = 2 * half)
    (hsize : n + 4 * half < uint64Size) :
    (∀ r, l ≤ r → r < n → inferPacketNumber len r (n % epochDelta len) = n) ↔
      n < epochDelta len ∨ n ≤ l + half ∨
        (n = l + half + 1 ∧ l / epochDelta len < n / epochDelta len) := by
  constructor
  · intro h
    by_cases hl : l < n
    · exact (inferPacketNumber_eq_iff hhalf hl hsize).mp (h l le_rfl hl)
    · exact .inr (.inl (by omega))
  · intro h r hr hrn
    rw [inferPacketNumber_eq_iff hhalf hrn hsize]
    rcases hr.eq_or_lt with rfl | hlt
    · exact h
    · exact h.imp id fun h => .inl (by omega)

theorem delta_lt_iff {a b h : ℕ} : delta a b < h ↔ a < b + h ∧ b < a + h := by
  unfold delta
  split_ifs <;> omega

theorem le_delta_iff {a b h : ℕ} : h ≤ delta a b ↔ b + h ≤ a ∨ a + h ≤ b := by
  rw [← not_lt, delta_lt_iff]
  omega

/-- A candidate less than `half` from the target is taken when every other one is at least that
far away. -/
theorem closestTo_eq_of_close {t half a b c : ℕ} (hn : delta t n < half)
    (hmem : n = a ∨ n = b ∨ n = c) (ha : a = n ∨ a + half ≤ t ∨ t + half ≤ a)
    (hb : b = n ∨ b + half ≤ t ∨ t + half ≤ b) (hc : c = n ∨ c + half ≤ t ∨ t + half ≤ c) :
    closestTo t a (closestTo t b c) = n := by
  have hnear {x : ℕ} (hx : x ≠ n) (h : x = n ∨ x + half ≤ t ∨ t + half ≤ x) :
      delta t n < delta t x :=
    hn.trans_le (le_delta_iff.mpr (h.resolve_left hx))
  by_cases hba : a = n
  · subst hba
    have hinner : closestTo t b c = a ∨ delta t a < delta t (closestTo t b c) := by
      rw [or_iff_not_imp_left]
      intro hne
      rw [closestTo] at hne ⊢
      split_ifs at hne ⊢
      · exact hnear hne hb
      · exact hnear hne hc
    rcases hinner with heq | hlt
    · rw [heq, closestTo, ite_self]
    · rw [closestTo, if_pos hlt]
  · have hinner : closestTo t b c = n := by
      by_cases hbn : b = n
      · subst hbn
        rcases eq_or_ne c b with rfl | hcn
        · rw [closestTo, ite_self]
        · rw [closestTo, if_pos (hnear hcn hc)]
      · have hcn : n = c := (hmem.resolve_left (Ne.symm hba)).resolve_left (Ne.symm hbn)
        subst hcn
        rw [closestTo, if_neg (hnear hbn hb).le.not_gt]
    rw [hinner, closestTo, if_neg (hnear hba ha).le.not_gt]

/-- A packet number less than half an epoch from the expected one, on either side, is inferred
from its low bytes. -/
theorem inferPacketNumber_of_close {half r : ℕ} (hhalf : epochDelta len = 2 * half)
    (hlow : n < r + 1 + half) (hhigh : r + 1 < n + half) (hsize : n + 8 * half < uint64Size) :
    inferPacketNumber len r (n % epochDelta len) = n := by
  have hpos : 0 < epochDelta len := Nat.two_pow_pos _
  rw [hhalf] at hpos ⊢
  have hw := Nat.mod_lt n hpos
  rw [inferPacketNumber_eq hhalf rfl hw (by omega)]
  have hepoch := Nat.div_add_mod' r (2 * half)
  have hr := Nat.mod_lt r hpos
  have hnumber := Nat.div_add_mod' n (2 * half)
  have hkq : n / (2 * half) ≤ r / (2 * half) + 1 := by
    rw [← Nat.add_div_right r hpos]
    exact Nat.div_le_div_right (by omega)
  have hqk : r / (2 * half) ≤ n / (2 * half) + 1 := by
    rw [← Nat.add_div_right n hpos]
    exact Nat.div_le_div_right (by omega)
  -- the packet number is in the epoch of `r`, in the one before it or in the one after it
  have hcases : r / (2 * half) * (2 * half) = n / (2 * half) * (2 * half) + 2 * half ∨
      r / (2 * half) * (2 * half) = n / (2 * half) * (2 * half) ∨
      n / (2 * half) * (2 * half) = r / (2 * half) * (2 * half) + 2 * half := by
    rcases lt_trichotomy (r / (2 * half)) (n / (2 * half)) with h | h | h
    · right; right
      rw [← Nat.succ_mul, show n / (2 * half) = r / (2 * half) + 1 by omega]
    · right; left
      rw [h]
    · left
      rw [← Nat.succ_mul, show r / (2 * half) = n / (2 * half) + 1 by omega]
  have hfirst := epoch_eq_zero_or_le r (2 * half)
  generalize r / (2 * half) * (2 * half) = e at *
  generalize n / (2 * half) * (2 * half) = f at *
  generalize n % (2 * half) = w at *
  apply closestTo_eq_of_close (delta_lt_iff.mpr ⟨hhigh, hlow⟩)
  · rcases hfirst with rfl | hlater
    · omega
    · rw [if_neg (by omega)]
      omega
  · omega
  · split_ifs <;> omega
  · omega

/-- The length that the sender chooses leaves less than half an epoch between the packet and the
least one it is still waiting for, below 2^47. -/
theorem lt_of_getPacketNumberLengthForPublicHeader {g : ℕ} (hg : g ≤ n) (hn : n < uint64Size)
    (hfar : n - g < 2 ^ 47) :
    n < g + 2 ^ (8 * (getPacketNumberLengthForPublicHeader n g).toNat - 1) := by
  rw [getPacketNumberLengthForPublicHeader_eq hg hn]
  split_ifs <;> simp only [PacketNumberLen.toNat] <;> omega

theorem epochDelta_getPacketNumberLengthForPublicHeader (n g : ℕ) :
    epochDelta (getPacketNumberLengthForPublicHeader n g) =
      2 * 2 ^ (8 * (getPacketNumberLengthForPublicHeader n g).toNat - 1) ∧
    2 ^ (8 * (getPacketNumberLengthForPublicHeader n g).toNat - 1) ≤ 2 ^ 47 := by
  unfold getPacketNumberLengthForPublicHeader
  dsimp only
  split_ifs <;> decide

/-- A receiver that expects a packet no earlier than the least one the sender waits for, and less
than half an epoch ahead of the packet, gets the packet number back. -/
theorem inferPacketNumber_getPacketNumberLengthForPublicHeader {n leastUnacked r : ℕ}
    (hleast : leastUnacked ≤ n) (hn : n < 2 ^ 62) (hfar : n - leastUnacked < 2 ^ 47)
    (hr : leastUnacked ≤ r + 1)
    (hahead : r + 1 <
      n + 2 ^ (8 * (getPacketNumberLengthForPublicHeader n leastUnacked).toNat - 1)) :
    inferPacketNumber (getPacketNumberLengthForPublicHeader n leastUnacked) r
      (n % 2 ^ (8 * (getPacketNumberLengthForPublicHeader n leastUnacked).toNat)) = n := by
  have hsize : uint64Size = 2 ^ 64 := rfl
  have hnear := lt_of_getPacketNumberLengthForPublicHeader hleast (by omega) hfar
  obtain ⟨hhalf, hle⟩ := epochDelta_getPacketNumberLengthForPublicHeader n leastUnacked
  exact inferPacketNumber_of_close hhalf (by omega) hahead (by omega)

/-- A packet that arrives late, when its receiver is already in the next epoch. -/
theorem inferPacketNumber_of_late :
    inferPacketNumber (getPacketNumberLengthForPublicHeader 65530 65500) 65540
      (65530 % 2 ^ (8 * (getPacketNumberLengthForPublicHeader 65530 65500).toNat)) = 65530 :=
  inferPacketNumber_getPacketNumberLengthForPublicHeader (by decide) (by decide) (by decide)
    (by decide) (by decide)

end MPQuic
