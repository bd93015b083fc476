import Mathlib.Algebra.Group.Int.Defs
import MPQuic.Congestion.Bounds

/-!
# The epoch of the Cubic algorithm

`CongestionWindowAfterAck` subtracts the distance from the origin point on unsigned numbers as long
as the origin point is not reached. The distance is at most the window of the origin point if the
time since the start of the cycle is not negative, which it is not if the cycle did not start in the
future.

A cycle starts in the future when an application-limited period shifts it that began before it did:
a loss ends the cycle, but `appLimitedStartTime` stays until the second ACK of the next one. This is
the first condition of `Cubic.Regular`; the others are that the time fits the `int64` it is scaled
on, and that the distance fits the `int64` it is cubed on.

## Main results

* `Cubic.Sound`: the invariant, for a clock that does not go back.
* `Cubic.ack_does_not_wrap`: no regular run wraps around.
-/

namespace MPQuic

open Transition

/-- The cube root is not rounded up. -/
def FloatArithmetic.FloorsCbrt (fl : FloatArithmetic) : Prop :=
  ∀ x < uint64Size, fl.cbrt x ^ 3 ≤ x

namespace Cubic

variable {fl : FloatArithmetic} {reads : CubicReads} {c c' : Cubic} {rounds w w' : ℕ}

/-! ## The clock -/

/-- The calls of the algorithm. -/
inductive Event where
  | ack (currentCongestionWindow : ℕ) (reads : CubicReads)
  | loss (currentCongestionWindow : ℕ)
  | applicationLimited (now : ℤ)
  | reset

/-- What a call reads from the clock, if the clock was last seen at `time`. -/
def Event.now (time : ℤ) : Event → ℤ
  | .ack _ reads => reads.now
  | .applicationLimited now => now
  | .loss _ | .reset => time

/-- The state, and when the clock was last read. -/
structure Clocked where
  cubic : Cubic
  time : ℤ

/-- The state after a call. There is none if the loop over the estimate does not end. -/
def apply (fl : FloatArithmetic) (c : Cubic) : Event → Option Cubic
  | .ack w reads => (c.congestionWindowAfterAck fl reads w).map Prod.snd
  | .loss w => some (c.congestionWindowAfterPacketLoss fl w).2
  | .applicationLimited now => some (c.onApplicationLimited now)
  | .reset => some c.reset

/-- The steps of a run, in which the clock does not go back. -/
def Step (fl : FloatArithmetic) (s : Clocked) (event : Event) (t : Clocked) : Prop :=
  s.time ≤ event.now s.time ∧ t.time = event.now s.time ∧ s.cubic.apply fl event = some t.cubic

/-- The state after a call, unless the clock went back. -/
def step? (fl : FloatArithmetic) (s : Clocked) (event : Event) : Option Clocked :=
  if s.time ≤ event.now s.time then (s.cubic.apply fl event).map (⟨·, event.now s.time⟩) else none

theorem step_of_step? {s t : Clocked} {event : Event} (h : step? fl s event = some t) :
    Step fl s event t := by
  unfold step? at h
  split_ifs at h with hclock
  obtain ⟨c, happly, rfl⟩ := Option.map_eq_some_iff.mp h
  exact ⟨hclock, rfl, happly⟩

/-- An ACK finds no application-limited period that began before the cycle, and fits `int64`: the
time since the start of the cycle when it is scaled, which is below 285 years, and the distance from
the last maximum when it is cubed. -/
def Regular (c : Cubic) (currentCongestionWindow : ℕ) (reads : CubicReads) : Prop :=
  (∀ epoch ∈ c.epoch, ∀ start ∈ c.appLimitedStartTime, epoch ≤ start) ∧
    reads.now + reads.minRTT - c.epoch.getD reads.now < 2 ^ 53 * 1000 ∧
    (c.epoch = none → c.lastMaxCongestionWindow < currentCongestionWindow + 2 ^ 23)

instance (c : Cubic) (w : ℕ) (reads : CubicReads) : Decidable (c.Regular w reads) := by
  unfold Regular
  infer_instance

/-- An event is regular unless it is an ACK that computes a target and is not. -/
def Event.Regular (c : Cubic) : Event → Prop
  | .ack w reads => c.isRecent w reads.now ∨ c.Regular w reads
  | .loss _ | .applicationLimited _ | .reset => True

instance (c : Cubic) (event : Event) : Decidable (event.Regular c) := by
  unfold Event.Regular
  split <;> infer_instance

/-- If the target is computed as the difference from the origin point, it does not wrap around. -/
def StaysBelowOrigin (c : Cubic) (now : ℤ) (delayMin : ℕ) : Prop :=
  ¬ c.timeToOriginPoint < c.elapsedTime now delayMin →
    c.deltaCongestionWindow now delayMin ≤ c.originPointCongestionWindow

instance (c : Cubic) (now : ℤ) (delayMin : ℕ) : Decidable (c.StaysBelowOrigin now delayMin) := by
  unfold StaysBelowOrigin
  infer_instance

/-- An ACK that computes a target does so without wrap-around, and after every ACK the cycle is not
later than the current time. -/
def Wrapless (fl : FloatArithmetic) (c : Cubic) (w : ℕ) (reads : CubicReads) : Prop :=
  (¬ c.isRecent w reads.now →
    (c.entered fl w reads.now).StaysBelowOrigin reads.now reads.minRTT) ∧
  ∀ w' c', c.congestionWindowAfterAck fl reads w = some (w', c') →
    ∀ epoch ∈ c'.epoch, epoch ≤ reads.now

/-! ## The invariant -/

/-- The cubic function starts at a window that is not negative, and its cube fits `int64`. -/
def OriginInReach (c : Cubic) : Prop :=
  cubeCongestionWindowScale * c.timeToOriginPoint ^ 3 ≤
      2 ^ cubeScale * c.originPointCongestionWindow ∧
    cubeCongestionWindowScale * c.timeToOriginPoint ^ 3 < 2 ^ 63

/-- Nothing in the state lies in the future, and every cycle starts above zero. -/
structure Sound (c : Cubic) (time : ℤ) : Prop where
  epoch_le : ∀ epoch ∈ c.epoch, epoch ≤ time
  start_le : ∀ start ∈ c.appLimitedStartTime, start ≤ time
  reach : c.epoch.isSome → c.OriginInReach

variable {now time : ℤ} {delayMin : ℕ}

theorem Sound.mono (h : c.Sound time) (htime : time ≤ now) : c.Sound now :=
  ⟨fun epoch he => (h.epoch_le epoch he).trans htime,
    fun start hs => (h.start_le start hs).trans htime, h.reach⟩

theorem sound_initial (numConnections : ℕ) (time : ℤ) : (initial numConnections).Sound time :=
  ⟨fun _ he => (Option.not_mem_none _ he).elim, fun _ hs => (Option.not_mem_none _ hs).elim,
    fun he => absurd he Bool.false_ne_true⟩

/-- The time to the origin point is that of the distance from it, cubed. -/
theorem scale_mul_cbrt_le (hfl : fl.FloorsCbrt) (n : ℕ) :
    cubeCongestionWindowScale * fl.cbrt (uint64Mul cubeFactor n) ^ 3 ≤ 2 ^ cubeScale * n := by
  have hroot : fl.cbrt (uint64Mul cubeFactor n) ^ 3 ≤ cubeFactor * n :=
    (hfl _ (Nat.mod_lt _ (by decide))).trans (Nat.mod_le _ _)
  calc cubeCongestionWindowScale * fl.cbrt (uint64Mul cubeFactor n) ^ 3
      ≤ cubeCongestionWindowScale * (cubeFactor * n) := Nat.mul_le_mul_left _ hroot
    _ = cubeCongestionWindowScale * cubeFactor * n := (Nat.mul_assoc _ _ _).symm
    _ ≤ 2 ^ cubeScale * n := Nat.mul_le_mul_right n (by decide)

theorem originInReach_startEpoch (hfl : fl.FloorsCbrt)
    (hdrop : c.lastMaxCongestionWindow < w + 2 ^ 23) : (c.startEpoch fl w now).OriginInReach := by
  unfold startEpoch
  dsimp only
  split_ifs with hle
  · exact ⟨Nat.zero_le _, by dsimp only; decide⟩
  · have hroot := scale_mul_cbrt_le hfl (c.lastMaxCongestionWindow - w)
    refine ⟨hroot.trans (Nat.mul_le_mul_left _ (Nat.sub_le _ _)), hroot.trans_lt ?_⟩
    have hlt : c.lastMaxCongestionWindow - w < 2 ^ 23 := by omega
    exact (Nat.mul_lt_mul_left (by decide)).mpr hlt

theorem timeSub_nonneg {t u : ℤ} (h : u ≤ t) : 0 ≤ timeSub t u := by
  unfold timeSub
  have hsize : (0 : ℤ) ≤ (uint64Size / 2 : ℕ) - 1 := by decide
  exact le_max_of_le_right (le_min hsize (Int.sub_nonneg_of_le h))

theorem timeSub_le {t u : ℤ} (h : u ≤ t) : timeSub t u ≤ t - u := by
  unfold timeSub
  refine max_le ?_ (min_le_right _ _)
  have hsize : (0 : ℤ) ≤ (uint64Size / 2 : ℕ) := Int.natCast_nonneg _
  omega

/-- The cycle of a regular ACK: it does not lie in the future, and not before the cycle of the
state. -/
theorem Regular.epoch_entered (fl : FloatArithmetic) (hregular : c.Regular w reads)
    (h : c.Sound reads.now) :
    ∃ epoch, (c.entered fl w reads.now).epoch = some epoch ∧
      c.epoch.getD reads.now ≤ epoch ∧ epoch ≤ reads.now := by
  obtain ⟨hlimited, -, -⟩ := hregular
  unfold entered enterEpoch
  cases hepoch : c.epoch with
  | none =>
    refine ⟨reads.now, ?_, le_refl _, le_refl _⟩
    dsimp only [startEpoch]
    split_ifs <;> rfl
  | some epoch =>
    have hle := h.epoch_le epoch hepoch
    dsimp only [shiftEpoch]
    cases hstart : c.appLimitedStartTime with
    | none => exact ⟨epoch, rfl, le_refl _, hle⟩
    | some start =>
      -- the period began within the cycle, so that the shift ends before now
      have hwithin := hlimited epoch hepoch start hstart
      have hpast := h.start_le start hstart
      have hnonneg := timeSub_nonneg hpast
      have hshift := timeSub_le hpast
      exact ⟨_, rfl, by dsimp only [Option.getD_some]; omega, by omega⟩

theorem Regular.originInReach_entered (hfl : fl.FloorsCbrt) (hregular : c.Regular w reads)
    (h : c.Sound reads.now) : (c.entered fl w reads.now).OriginInReach := by
  obtain ⟨-, -, hdrop⟩ := hregular
  unfold entered enterEpoch
  cases hepoch : c.epoch with
  | none => exact originInReach_startEpoch hfl (hdrop hepoch)
  | some epoch =>
    have hreach := h.reach (by rw [hepoch]; rfl)
    dsimp only [shiftEpoch]
    split <;> exact hreach

/-- No application-limited period begins with an ACK. -/
theorem appLimitedStartTime_entered {start : ℤ}
    (h : start ∈ (c.entered fl w now).appLimitedStartTime) : start ∈ c.appLimitedStartTime := by
  unfold entered enterEpoch at h
  cases hepoch : c.epoch with
  | none =>
    simp only [hepoch, startEpoch] at h
    split_ifs at h <;> exact h
  | some epoch =>
    cases hstart : c.appLimitedStartTime with
    | none => simp [hepoch, shiftEpoch, hstart] at h
    | some start' => simp [hepoch, shiftEpoch, hstart] at h

theorem Regular.sound_entered (hfl : fl.FloorsCbrt) (hregular : c.Regular w reads)
    (h : c.Sound reads.now) : (c.entered fl w reads.now).Sound reads.now := by
  obtain ⟨epoch, hepoch, -, hle⟩ := hregular.epoch_entered fl h
  refine ⟨?_, ?_, fun _ => hregular.originInReach_entered hfl h⟩
  · intro epoch' hepoch'
    rw [hepoch] at hepoch'
    exact Option.some.inj hepoch' ▸ hle
  · exact fun start hstart => h.start_le start (appLimitedStartTime_entered hstart)

/-! ## The distance from the origin point -/

theorem elapsedTime_nonneg {epoch : ℤ} (hepoch : c.epoch = some epoch) (hle : epoch ≤ now)
    (hlt : now + delayMin - epoch < 2 ^ 53 * 1000) : 0 ≤ c.elapsedTime now delayMin := by
  have hsub : timeSub (now + delayMin) epoch = now + delayMin - epoch := by
    unfold timeSub
    simp only [uint64Size]
    omega
  have hdiv : (now + delayMin - epoch).tdiv 1000 = (now + delayMin - epoch) / 1000 :=
    Int.tdiv_eq_ediv_of_nonneg (by omega)
  unfold elapsedTime
  rw [hepoch, Option.getD_some, hsub, hdiv, int64Wrap_eq]
  · exact Int.tdiv_nonneg (by omega) (by decide)
  · simp only [uint64Size]
    omega
  · simp only [uint64Size]
    omega

/-- Before the origin point, the distance is largest at the start of the cycle. -/
theorem OriginInReach.offset_le (h : c.OriginInReach) (helapsed : 0 ≤ c.elapsedTime now delayMin)
    (hbefore : ¬ c.timeToOriginPoint < c.elapsedTime now delayMin) :
    (int64Wrap (c.timeToOriginPoint - c.elapsedTime now delayMin)).natAbs ≤
      c.timeToOriginPoint := by
  -- the cube is below `2 ^ 63`, so that the difference cannot wrap around
  have htime : c.timeToOriginPoint < 2 ^ 21 := by
    by_contra hlarge
    have hcube := Nat.pow_le_pow_left (Nat.le_of_not_lt hlarge) 3
    have hfits := h.2
    simp only [cubeCongestionWindowScale] at hfits
    omega
  rw [int64Wrap_eq (by simp only [uint64Size]; omega) (by simp only [uint64Size]; omega)]
  omega

theorem OriginInReach.staysBelowOrigin (h : c.OriginInReach)
    (helapsed : 0 ≤ c.elapsedTime now delayMin) : c.StaysBelowOrigin now delayMin := by
  intro hbefore
  have hle := h.offset_le helapsed hbefore
  unfold deltaCongestionWindow
  dsimp only
  generalize (int64Wrap (c.timeToOriginPoint - c.elapsedTime now delayMin)).natAbs = offset at hle ⊢
  have hcube : cubeCongestionWindowScale * offset * offset * offset ≤
      cubeCongestionWindowScale * c.timeToOriginPoint ^ 3 := by
    rw [Nat.mul_assoc, Nat.mul_assoc, ← Nat.mul_assoc offset, ← pow_three']
    exact Nat.mul_le_mul_left _ (Nat.pow_le_pow_left hle 3)
  generalize cubeCongestionWindowScale * offset * offset * offset = cube at hcube ⊢
  have hfits : cube < 2 ^ 63 := hcube.trans_lt h.2
  have hreach := hcube.trans h.1
  rw [int64Wrap_eq (by simp only [uint64Size]; omega) (by simp only [uint64Size]; omega)]
  simp only [cubeScale, uint64Size] at hreach ⊢
  omega

/-! ## Runs -/

/-- The state after a regular ACK. -/
theorem Sound.congestionWindowAfterAck (hfl : fl.FloorsCbrt) (h : c.Sound reads.now)
    (hregular : c.isRecent w reads.now ∨ c.Regular w reads)
    (hresult : c.congestionWindowAfterAck fl reads w = some (w', c')) : c'.Sound reads.now := by
  obtain ⟨-, rfl⟩ | ⟨hrecent, acked, estimated, target, rfl⟩ :=
    congestionWindowAfterAck_cases hresult
  · exact ⟨h.epoch_le, h.start_le, h.reach⟩
  · have hentered := (hregular.resolve_left hrecent).sound_entered hfl h
    exact ⟨hentered.epoch_le, hentered.start_le, hentered.reach⟩

theorem Sound.wrapless (hfl : fl.FloorsCbrt) (h : c.Sound reads.now)
    (hregular : c.isRecent w reads.now ∨ c.Regular w reads) : c.Wrapless fl w reads := by
  constructor
  · intro hrecent
    have hregular := hregular.resolve_left hrecent
    obtain ⟨epoch, hepoch, hle, hnow⟩ := hregular.epoch_entered fl h
    have hlt := hregular.2.1
    refine (hregular.originInReach_entered hfl h).staysBelowOrigin ?_
    exact elapsedTime_nonneg hepoch hnow (by omega)
  · intro w' c' hresult
    exact (h.congestionWindowAfterAck hfl hregular hresult).epoch_le

/-- Every step that is not an irregular ACK keeps the invariant. -/
theorem Sound.step {s t : Clocked} {event : Event} (hfl : fl.FloorsCbrt)
    (h : s.cubic.Sound s.time) (hregular : event.Regular s.cubic) (hstep : Step fl s event t) :
    t.cubic.Sound t.time := by
  obtain ⟨hclock, htime, happly⟩ := hstep
  -- what was not in the future at the last reading of the clock is not at this one
  have hnow := h.mono hclock
  rw [htime]
  cases event with
  | ack w reads =>
    obtain ⟨⟨w', c'⟩, hresult, heq⟩ := Option.map_eq_some_iff.mp happly
    exact heq ▸ hnow.congestionWindowAfterAck hfl hregular hresult
  | loss w =>
    -- a loss ends the cycle, but not the application-limited period
    rw [← Option.some.inj happly]
    exact ⟨fun _ he => (Option.not_mem_none _ he).elim, hnow.start_le,
      fun he => absurd he Bool.false_ne_true⟩
  | applicationLimited now =>
    rw [← Option.some.inj happly]
    refine ⟨hnow.epoch_le, fun start hstart => ?_, hnow.reach⟩
    obtain hstart | ⟨-, hstart⟩ := Option.or_eq_some_iff.mp hstart
    · exact hnow.start_le start hstart
    · -- the period begins now
      exact (Option.some.inj hstart).symm.le
  | reset =>
    rw [← Option.some.inj happly]
    exact sound_initial _ _

/-- In a run whose events are all regular, no ACK wraps around or leaves the cycle in the future. -/
theorem ack_does_not_wrap (hfl : fl.FloorsCbrt) {start : ℤ} {events : List Event} {s : Clocked}
    (hrun : Run (fun s event t => event.Regular s.cubic ∧ Step fl s event t) ⟨.new, start⟩ events s)
    (w : ℕ) (reads : CubicReads) (hclock : s.time ≤ reads.now)
    (hregular : (Event.ack w reads).Regular s.cubic) : s.cubic.Wrapless fl w reads := by
  have hsound : s.cubic.Sound s.time := by
    refine Run.invariant (I := fun _ s => s.cubic.Sound s.time) (sound_initial _ _) ?_ hrun
    exact fun _ s event t h hstep => h.step hfl hstep.1 hstep.2
  exact (hsound.mono hclock).wrapless hfl hregular

theorem floorsCbrt_exactArithmetic : exactArithmetic.FloorsCbrt := by
  intro x _
  -- a digit is only set if the cube stays below
  have hdigits : ∀ l : List ℕ,
      l.foldr (fun i r => if (r + 2 ^ i) ^ 3 ≤ x then r + 2 ^ i else r) 0 ^ 3 ≤ x := by
    intro l
    induction l with
    | nil => exact Nat.zero_le x
    | cons i l ih =>
      rw [List.foldr_cons]
      split_ifs with hle
      · exact hle
      · exact ih
  exact hdigits (List.range 22)

/-- What an ACK reads at a time in milliseconds, with a minimum RTT of 50 ms. -/
def readsAt (milliseconds : ℤ) : CubicReads where
  now := milliseconds * 10 ^ 6
  minRTT := 5 * 10 ^ 7
  rounds := 100

/-- A loss, the first ACK at 1 s, and a second one at 4 s, after two application-limited seconds,
which shifts the cycle to 3 s: the ACK at 5 s does not wrap around. -/
theorem ack_does_not_wrap_shifted :
    ∃ s : Clocked,
      Run (fun s event t => event.Regular s.cubic ∧ Step exactArithmetic s event t) ⟨.new, 0⟩
          [.loss 100, .ack 85 (readsAt 1000), .applicationLimited (2 * 10 ^ 9),
            .ack 85 (readsAt 4000)] s ∧
        s.cubic.epoch = some (3 * 10 ^ 9) ∧ s.cubic.Wrapless exactArithmetic 85 (readsAt 5000) := by
  let next (s : Clocked) (event : Event) : Option Clocked :=
    if event.Regular s.cubic then step? exactArithmetic s event else none
  have hnext : ∀ s event t, next s event = some t →
      event.Regular s.cubic ∧ Step exactArithmetic s event t := by
    intro s event t h
    obtain ⟨hregular, hstep⟩ := Option.ite_none_right_eq_some.mp h
    exact ⟨hregular, step_of_step? hstep⟩
  have hevents : (List.foldlM next ⟨.new, 0⟩ [.loss 100, .ack 85 (readsAt 1000),
      .applicationLimited (2 * 10 ^ 9), .ack 85 (readsAt 4000)]).any fun s =>
        s.cubic.epoch = some (3 * 10 ^ 9) ∧ s.time ≤ (readsAt 5000).now ∧
          (Event.ack 85 (readsAt 5000)).Regular s.cubic := by
    decide +kernel
  obtain ⟨s, hrun, hepoch, hclock, hregular⟩ := Run.exists_of_any hnext hevents
  exact ⟨s, hrun, hepoch, ack_does_not_wrap floorsCbrt_exactArithmetic hrun 85 _ hclock hregular⟩

/-- The sender is application-limited at 0 s and loses a packet. The first ACK, at 10 s, starts a
cycle, and the second one, at 11 s, shifts it by the 11 seconds to 21 s. The distance from the
origin point of 100 packets is then 940 packets, and the new window wraps around. -/
theorem ack_wraps_after_loss :
    exactArithmetic.FloorsCbrt ∧ exactArithmetic.BacksOff ∧
      ∃ s : Clocked,
        Run (Step exactArithmetic) ⟨.new, 0⟩
            [.applicationLimited 0, .loss 100, .ack 85 (readsAt 10000)] s ∧
          s.time ≤ (readsAt 11000).now ∧ ¬ s.cubic.isRecent 85 (readsAt 11000).now ∧
          ¬ (s.cubic.entered exactArithmetic 85 (readsAt 11000).now).StaysBelowOrigin
            (readsAt 11000).now (readsAt 11000).minRTT ∧
          (s.cubic.congestionWindowAfterAck exactArithmetic (readsAt 11000) 85).map
            (fun r => (r.1, r.2.epoch)) = some (uint64Size - 840, some (21 * 10 ^ 9)) := by
  refine ⟨floorsCbrt_exactArithmetic, backsOff_exactArithmetic, ?_⟩
  exact Run.exists_of_any (fun _ _ _ => step_of_step?) (by decide +kernel)

end Cubic

end MPQuic
