import MPQuic.Congestion.WindowState
import MPQuic.Lib.Transition

/-!
# The Cubic sender

`congestion/cubic.go` and `congestion/cubic_sender.go`. In congestion avoidance the window follows a
cubic function of the time since the last loss, or the window that TCP Reno would have by now, if
that is larger. Within 30 ms the last result is used again, which can be older than the last loss.

A zero `time.Time` is `none`, and the time an ACK arrives at is part of what it reads, as is the
minimum RTT. The loop that updates the estimate of the Reno window has no bound in the source; it is
run for a number of rounds, and there is a result if it ends by then (see
`updateEstimate_isSome_of_large`).

The window does not fall below the minimum since no result is below the estimate, and the estimate
starts at the window of the first ACK after a loss and only grows. This holds for stale results too
(`Cubic.Ready`).
-/

namespace MPQuic

open Transition

/-- The scale of the cubic function, in bits. -/
def cubeScale : ℕ := 40

def cubeCongestionWindowScale : ℕ := 410

def cubeFactor : ℕ := 2 ^ cubeScale / cubeCongestionWindowScale

/-- The time for which a result is used again, in nanoseconds. -/
def maxCubicTimeInterval : ℕ := 30 * 10 ^ 6

/-- `Time.Sub`: a difference of two times is cut off at the range of a `Duration`. -/
def timeSub (t u : ℤ) : ℤ := max (-(uint64Size / 2 : ℕ)) (min ((uint64Size / 2 : ℕ) - 1) (t - u))

/-- The state of the Cubic algorithm. Times are in nanoseconds. -/
structure Cubic where
  numConnections : ℕ
  /-- When this cycle started, after the last loss event. -/
  epoch : Option ℤ
  /-- When the sender went into an application-limited period. -/
  appLimitedStartTime : Option ℤ
  /-- When `lastCongestionWindow` was updated. -/
  lastUpdateTime : Option ℤ
  lastCongestionWindow : ℕ
  /-- The window just before the last loss event. -/
  lastMaxCongestionWindow : ℕ
  /-- The number of packets acked since the cycle started. -/
  ackedPacketsCount : ℕ
  /-- The window of TCP Reno. -/
  estimatedTCPcongestionWindow : ℕ
  originPointCongestionWindow : ℕ
  /-- In 2^10 fractions of a second. -/
  timeToOriginPoint : ℕ
  /-- The last window computed by the cubic function. -/
  lastTargetCongestionWindow : ℕ

/-- What the ACK of a packet reads from the clock and the RTT statistics. The loop over the estimate
makes at most `rounds` rounds. -/
structure CubicReads where
  now : ℤ
  minRTT : ℕ
  rounds : ℕ

namespace Cubic

/-- The state after `Reset`. -/
def initial (numConnections : ℕ) : Cubic where
  numConnections := numConnections
  epoch := none
  appLimitedStartTime := none
  lastUpdateTime := none
  lastCongestionWindow := 0
  lastMaxCongestionWindow := 0
  ackedPacketsCount := 0
  estimatedTCPcongestionWindow := 0
  originPointCongestionWindow := 0
  timeToOriginPoint := 0
  lastTargetCongestionWindow := 0

/-- `NewCubic`. -/
def new : Cubic := initial defaultNumConnections

def reset (c : Cubic) : Cubic := initial c.numConnections

def onApplicationLimited (c : Cubic) (now : ℤ) : Cubic :=
  { c with appLimitedStartTime := c.appLimitedStartTime.or (some now) }

/-- The window after a loss, and the state that starts a new cycle with the next ACK. -/
def congestionWindowAfterPacketLoss (fl : FloatArithmetic) (c : Cubic)
    (currentCongestionWindow : ℕ) : ℕ × Cubic :=
  (fl.cubicBackoff c.numConnections currentCongestionWindow,
    { c with
      lastMaxCongestionWindow :=
        if currentCongestionWindow < c.lastMaxCongestionWindow then
          fl.lastMaxBackoff currentCongestionWindow
        else currentCongestionWindow
      epoch := none })

/-- Whether the last result is used again. -/
def isRecent (c : Cubic) (currentCongestionWindow : ℕ) (now : ℤ) : Bool :=
  c.lastCongestionWindow = currentCongestionWindow &&
    c.lastUpdateTime.any fun lastUpdateTime => timeSub now lastUpdateTime ≤ maxCubicTimeInterval

/-- The first ACK after a loss event starts a cycle. -/
def startEpoch (fl : FloatArithmetic) (c : Cubic) (currentCongestionWindow : ℕ) (now : ℤ) : Cubic :=
  let c := { c with
    epoch := some now
    ackedPacketsCount := 1
    estimatedTCPcongestionWindow := currentCongestionWindow }
  if c.lastMaxCongestionWindow ≤ currentCongestionWindow then
    { c with timeToOriginPoint := 0, originPointCongestionWindow := currentCongestionWindow }
  else
    { c with
      timeToOriginPoint :=
        fl.cbrt (uint64Mul cubeFactor (c.lastMaxCongestionWindow - currentCongestionWindow))
      originPointCongestionWindow := c.lastMaxCongestionWindow }

/-- A later ACK moves the start of the cycle by the time of an application-limited period. -/
def shiftEpoch (c : Cubic) (epoch now : ℤ) : Cubic :=
  match c.appLimitedStartTime with
  | none => c
  | some start => { c with epoch := some (epoch + timeSub now start), appLimitedStartTime := none }

/-- The cycle an ACK belongs to. -/
def enterEpoch (fl : FloatArithmetic) (c : Cubic) (currentCongestionWindow : ℕ) (now : ℤ) : Cubic :=
  match c.epoch with
  | none => c.startEpoch fl currentCongestionWindow now
  | some epoch => c.shiftEpoch epoch now

/-- The time since the start of the cycle in 2^10 fractions of a second, on `int64`. -/
def elapsedTime (c : Cubic) (now : ℤ) (delayMin : ℕ) : ℤ :=
  (int64Wrap ((timeSub (now + delayMin) (c.epoch.getD 0)).tdiv 1000 * 1024)).tdiv 1000000

/-- The distance of the cubic function from its origin point, on `int64` and then `uint64`. -/
def deltaCongestionWindow (c : Cubic) (now : ℤ) (delayMin : ℕ) : ℕ :=
  let offset := (int64Wrap (c.timeToOriginPoint - c.elapsedTime now delayMin)).natAbs
  let cube := int64Wrap (cubeCongestionWindowScale * offset * offset * offset : ℕ)
  (cube / (2 ^ cubeScale : ℕ) % uint64Size).toNat

/-- The cubic function of the time since the start of the cycle. -/
def targetCongestionWindow (c : Cubic) (now : ℤ) (delayMin : ℕ) : ℕ :=
  if c.timeToOriginPoint < c.elapsedTime now delayMin then
    uint64Add c.originPointCongestionWindow (c.deltaCongestionWindow now delayMin)
  else uint64Sub c.originPointCongestionWindow (c.deltaCongestionWindow now delayMin)

/-- The loop that updates the estimate of the Reno window. -/
def updateEstimate (fl : FloatArithmetic) : ℕ → Cubic → Option Cubic
  | 0, _ => none
  | rounds + 1, c =>
    let requiredAckCount := fl.requiredAckCount c.numConnections c.estimatedTCPcongestionWindow
    if c.ackedPacketsCount < requiredAckCount then some c
    else
      updateEstimate fl rounds { c with
        ackedPacketsCount := c.ackedPacketsCount - requiredAckCount
        estimatedTCPcongestionWindow := c.estimatedTCPcongestionWindow + 1 }

/-- The window after an ACK, and the new state. -/
def congestionWindowAfterAck (fl : FloatArithmetic) (reads : CubicReads) (c : Cubic)
    (currentCongestionWindow : ℕ) : Option (ℕ × Cubic) :=
  let c := { c with ackedPacketsCount := c.ackedPacketsCount + 1 }
  if c.isRecent currentCongestionWindow reads.now then
    some (max c.lastTargetCongestionWindow c.estimatedTCPcongestionWindow, c)
  else
    let c := { c with
      lastCongestionWindow := currentCongestionWindow
      lastUpdateTime := some reads.now }
    let c := c.enterEpoch fl currentCongestionWindow reads.now
    let target := c.targetCongestionWindow reads.now reads.minRTT
    (c.updateEstimate fl reads.rounds).map fun c =>
      (max target c.estimatedTCPcongestionWindow, { c with lastTargetCongestionWindow := target })

end Cubic

/-- `cubicSender`. -/
structure CubicSender extends WindowState where
  cubic : Cubic
  reno : Bool

namespace CubicSender

/-- `NewCubicSender`. -/
def new (reno : Bool) (initialCongestionWindow initialMaxCongestionWindow : ℕ) : CubicSender where
  toWindowState := .new initialCongestionWindow initialMaxCongestionWindow
  cubic := .new
  reno := reno

/-- Reno in congestion avoidance: the window grows by one packet for a window of ACKs, divided by
the number of connections. -/
def renoIncrease (s : CubicSender) : CubicSender :=
  let count := s.congestionWindowCount + 1
  if s.congestionWindow ≤ uint64Mul count s.numConnections then
    { s with congestionWindow := s.congestionWindow + 1, congestionWindowCount := 0 }
  else { s with congestionWindowCount := count }

def maybeIncreaseCwnd (fl : FloatArithmetic) (reads : CubicReads) (s : CubicSender)
    (bytesInFlight : ℕ) : Option CubicSender :=
  if !s.isCwndLimited bytesInFlight then
    some { s with cubic := s.cubic.onApplicationLimited reads.now }
  else if s.maxTCPCongestionWindow ≤ s.congestionWindow then some s
  else if s.inSlowStart then some { s with toWindowState := s.grow }
  else if s.reno then some s.renoIncrease
  else
    (s.cubic.congestionWindowAfterAck fl reads s.congestionWindow).map fun r =>
      { s with congestionWindow := min s.maxTCPCongestionWindow r.1, cubic := r.2 }

def onPacketAcked (fl : FloatArithmetic) (reads : CubicReads) (s : CubicSender)
    (ackedPacketNumber bytesInFlight : ℕ) : Option CubicSender :=
  let s := { s with toWindowState := s.acked ackedPacketNumber }
  if s.inRecovery then some s else s.maybeIncreaseCwnd fl reads bytesInFlight

/-- The back-off and the state after a new loss event, unless slow start is left with the large
reduction. -/
def backoff (fl : FloatArithmetic) (s : CubicSender) : ℕ × Cubic :=
  if s.reno then (fl.renoBackoff s.numConnections s.congestionWindow, s.cubic)
  else s.cubic.congestionWindowAfterPacketLoss fl s.congestionWindow

def onPacketLost (fl : FloatArithmetic) (s : CubicSender) (packetNumber lostBytes : ℕ) :
    CubicSender :=
  { s with
    toWindowState := s.toWindowState.onPacketLost (s.backoff fl).1 packetNumber lostBytes
    cubic :=
      if s.isNewLoss packetNumber && !(s.slowStartLargeReduction && s.inSlowStart) then
        (s.backoff fl).2
      else s.cubic }

def onRetransmissionTimeout (s : CubicSender) (packetsRetransmitted : Bool) : CubicSender :=
  { s with
    toWindowState := s.toWindowState.onRetransmissionTimeout packetsRetransmitted
    cubic := if packetsRetransmitted then s.cubic.reset else s.cubic }

def onConnectionMigration (s : CubicSender) : CubicSender :=
  { s with
    toWindowState := s.toWindowState.onConnectionMigration
    cubic := s.cubic.reset }

/-- A call of the sender. There is no result if the loop over the estimate does not end. -/
def apply (fl : FloatArithmetic) (s : CubicSender) : SenderCall CubicReads → Option CubicSender
  | .onPacketSent packetNumber isRetransmittable =>
    some { s with toWindowState := (s.onPacketSent packetNumber isRetransmittable).2 }
  | .onPacketAcked reads ackedPacketNumber _ bytesInFlight =>
    s.onPacketAcked fl reads ackedPacketNumber bytesInFlight
  | .onPacketLost packetNumber lostBytes => some (s.onPacketLost fl packetNumber lostBytes)
  | .exitSlowstart => some { s with toWindowState := s.exitSlowstart }
  | .onRetransmissionTimeout packetsRetransmitted =>
    some (s.onRetransmissionTimeout packetsRetransmitted)
  | .onConnectionMigration => some s.onConnectionMigration
  | .setSlowStartLargeReduction enabled =>
    some { s with toWindowState := s.setSlowStartLargeReduction enabled }

/-- The steps of a run. -/
def Step (fl : FloatArithmetic) (s : CubicSender) (call : SenderCall CubicReads) (t : CubicSender) :
    Prop :=
  s.apply fl call = some t

end CubicSender

/-! ## The ACK of a packet -/

namespace Cubic

variable {fl : FloatArithmetic} {reads : CubicReads} {c c' : Cubic} {rounds w w' : ℕ}

/-- The state in which an ACK computes the target. -/
def entered (fl : FloatArithmetic) (c : Cubic) (currentCongestionWindow : ℕ) (now : ℤ) : Cubic :=
  enterEpoch fl { c with
    ackedPacketsCount := c.ackedPacketsCount + 1
    lastCongestionWindow := currentCongestionWindow
    lastUpdateTime := some now } currentCongestionWindow now

/-- The loop over the estimate changes the estimate and the count of ACKs only. -/
theorem updateEstimate_eq (h : c.updateEstimate fl rounds = some c') :
    c' = { c with
      ackedPacketsCount := c'.ackedPacketsCount
      estimatedTCPcongestionWindow := c'.estimatedTCPcongestionWindow } := by
  induction rounds generalizing c with
  | zero => exact absurd h (by simp [updateEstimate])
  | succ rounds ih =>
    rw [updateEstimate] at h
    split at h
    · rw [Option.some.inj h]
    · exact (ih h :)

theorem congestionWindowAfterAck_of_isRecent (h : c.isRecent w reads.now) :
    c.congestionWindowAfterAck fl reads w =
      some (max c.lastTargetCongestionWindow c.estimatedTCPcongestionWindow,
        { c with ackedPacketsCount := c.ackedPacketsCount + 1 }) :=
  if_pos h

theorem congestionWindowAfterAck_of_not_isRecent (h : ¬ c.isRecent w reads.now) :
    c.congestionWindowAfterAck fl reads w =
      ((c.entered fl w reads.now).updateEstimate fl reads.rounds).map fun c' =>
        (max ((c.entered fl w reads.now).targetCongestionWindow reads.now reads.minRTT)
            c'.estimatedTCPcongestionWindow,
          { c' with
            lastTargetCongestionWindow :=
              (c.entered fl w reads.now).targetCongestionWindow reads.now reads.minRTT }) :=
  if_neg h

/-- An ACK repeats the last result, or it computes the target in the state `entered`. -/
theorem congestionWindowAfterAck_cases (h : c.congestionWindowAfterAck fl reads w = some (w', c')) :
    (c.isRecent w reads.now ∧ c' = { c with ackedPacketsCount := c.ackedPacketsCount + 1 }) ∨
    (¬ c.isRecent w reads.now ∧ ∃ acked estimated target,
      c' = { c.entered fl w reads.now with
        ackedPacketsCount := acked
        estimatedTCPcongestionWindow := estimated
        lastTargetCongestionWindow := target }) := by
  by_cases hrecent : c.isRecent w reads.now
  · rw [congestionWindowAfterAck_of_isRecent hrecent] at h
    exact .inl ⟨hrecent, (Prod.mk.inj (Option.some.inj h)).2.symm⟩
  · rw [congestionWindowAfterAck_of_not_isRecent hrecent] at h
    obtain ⟨c₁, hloop, heq⟩ := Option.map_eq_some_iff.mp h
    obtain ⟨-, rfl⟩ := Prod.mk.inj heq
    refine .inr ⟨hrecent, c₁.ackedPacketsCount, c₁.estimatedTCPcongestionWindow,
      (c.entered fl w reads.now).targetCongestionWindow reads.now reads.minRTT, ?_⟩
    rw [updateEstimate_eq hloop]

/-! ## The estimate -/

/-- Whenever a result can be used again and in every cycle, the estimate is at least the minimum. -/
def Ready (c : Cubic) : Prop :=
  c.lastCongestionWindow ≠ 0 ∨ c.epoch.isSome →
    defaultMinimumCongestionWindow ≤ c.estimatedTCPcongestionWindow

theorem ready_initial (numConnections : ℕ) : (initial numConnections).Ready := by
  rintro (h | h)
  · exact absurd rfl h
  · exact absurd h Bool.false_ne_true

/-- A loss ends the cycle, and the results of before can still be used again. -/
theorem Ready.congestionWindowAfterPacketLoss (h : c.Ready) (fl : FloatArithmetic) (w : ℕ) :
    (c.congestionWindowAfterPacketLoss fl w).2.Ready := by
  rintro (hlast | hepoch)
  · exact h (.inl hlast)
  · exact absurd hepoch Bool.false_ne_true

/-- The estimate only grows. -/
theorem le_updateEstimate (h : c.updateEstimate fl rounds = some c') :
    c.estimatedTCPcongestionWindow ≤ c'.estimatedTCPcongestionWindow := by
  induction rounds generalizing c with
  | zero => exact absurd h (by simp [updateEstimate])
  | succ rounds ih =>
    rw [updateEstimate] at h
    split at h
    · exact (Option.some.inj h ▸ le_refl _)
    · exact (Nat.le_succ _).trans (ih h)

/-- In the cycle an ACK belongs to, the estimate is at least the minimum. -/
theorem min_le_enterEpoch (hw : defaultMinimumCongestionWindow ≤ w) (now : ℤ)
    (h : c.epoch.isSome → defaultMinimumCongestionWindow ≤ c.estimatedTCPcongestionWindow) :
    defaultMinimumCongestionWindow ≤ (c.enterEpoch fl w now).estimatedTCPcongestionWindow := by
  unfold Cubic.enterEpoch
  cases hepoch : c.epoch with
  | none =>
    dsimp only [startEpoch]
    split_ifs <;> exact hw
  | some epoch =>
    have hest := h (by rw [hepoch]; rfl)
    dsimp only [shiftEpoch]
    split <;> exact hest

/-- No window after an ACK is below the minimum, also if the last result is used again. -/
theorem Ready.congestionWindowAfterAck (h : c.Ready) (hw : defaultMinimumCongestionWindow ≤ w)
    (hresult : c.congestionWindowAfterAck fl reads w = some (w', c')) :
    defaultMinimumCongestionWindow ≤ w' ∧ c'.Ready := by
  by_cases hrecent : c.isRecent w reads.now
  · rw [congestionWindowAfterAck_of_isRecent hrecent] at hresult
    -- the last result was for this window, which is not zero
    have hlast : c.lastCongestionWindow = w :=
      of_decide_eq_true (Bool.and_eq_true_iff.mp hrecent).1
    have hne : c.lastCongestionWindow ≠ 0 := by
      rw [hlast]
      exact Nat.ne_of_gt (Nat.lt_of_lt_of_le (by decide) hw)
    obtain ⟨rfl, rfl⟩ := Prod.mk.inj (Option.some.inj hresult)
    exact ⟨(h (.inl hne)).trans (le_max_right _ _), h⟩
  · rw [congestionWindowAfterAck_of_not_isRecent hrecent] at hresult
    obtain ⟨c₁, hloop, heq⟩ := Option.map_eq_some_iff.mp hresult
    obtain ⟨rfl, rfl⟩ := Prod.mk.inj heq
    have hest : defaultMinimumCongestionWindow ≤ c₁.estimatedTCPcongestionWindow := by
      refine le_trans ?_ (le_updateEstimate hloop)
      exact min_le_enterEpoch hw reads.now fun hepoch => h (.inr hepoch)
    exact ⟨hest.trans (le_max_right _ _), fun _ => hest⟩

end Cubic

/-! ## The invariant -/

namespace CubicSender

variable {fl : FloatArithmetic} {reads : CubicReads} {s t : CubicSender}

/-- The window is within its bounds, and no stale result is below the minimum. -/
structure Bounded (s : CubicSender) : Prop where
  window : s.toWindowState.Bounded
  ready : s.cubic.Ready

theorem Bounded.renoIncrease (h : s.Bounded)
    (hlt : s.congestionWindow < s.maxTCPCongestionWindow) : s.renoIncrease.Bounded := by
  unfold CubicSender.renoIncrease
  dsimp only
  split_ifs
  · exact ⟨h.window.of_limits_eq rfl (Nat.le_succ_of_le h.window.min_le) hlt, h.ready⟩
  · exact ⟨h.window.of_window_eq rfl rfl, h.ready⟩

theorem Bounded.maybeIncreaseCwnd (h : s.Bounded) {bytesInFlight : ℕ}
    (hresult : s.maybeIncreaseCwnd fl reads bytesInFlight = some t) : t.Bounded := by
  unfold CubicSender.maybeIncreaseCwnd at hresult
  split at hresult
  · obtain rfl := Option.some.inj hresult
    exact ⟨h.window, h.ready⟩
  split at hresult
  · obtain rfl := Option.some.inj hresult
    exact h
  next hfull =>
  have hlt := Nat.lt_of_not_le hfull
  split at hresult
  · obtain rfl := Option.some.inj hresult
    exact ⟨h.window.grow hlt, h.ready⟩
  split at hresult
  · obtain rfl := Option.some.inj hresult
    exact h.renoIncrease hlt
  · obtain ⟨r, hafter, rfl⟩ := Option.map_eq_some_iff.mp hresult
    obtain ⟨hmin, hready⟩ := h.ready.congestionWindowAfterAck h.window.min_le hafter
    have hmax := h.window.min_le.trans h.window.le_max
    exact ⟨h.window.of_limits_eq rfl (le_min hmax hmin) (min_le_left _ _), hready⟩

theorem Bounded.onPacketAcked (h : s.Bounded) {ackedPacketNumber bytesInFlight : ℕ}
    (hresult : s.onPacketAcked fl reads ackedPacketNumber bytesInFlight = some t) : t.Bounded := by
  have hacked : Bounded { s with toWindowState := s.acked ackedPacketNumber } :=
    ⟨h.window.acked _, h.ready⟩
  unfold CubicSender.onPacketAcked at hresult
  dsimp only at hresult
  split at hresult
  · exact Option.some.inj hresult ▸ hacked
  · exact hacked.maybeIncreaseCwnd hresult

theorem Bounded.backoff (h : s.Bounded) (hfl : fl.BacksOff) :
    (s.backoff fl).1 ≤ s.congestionWindow ∧ (s.backoff fl).2.Ready := by
  unfold CubicSender.backoff
  split
  · exact ⟨hfl.reno_le _ _, h.ready⟩
  · exact ⟨hfl.cubic_le _ _, h.ready.congestionWindowAfterPacketLoss fl _⟩

theorem Bounded.onPacketLost (h : s.Bounded) (hfl : fl.BacksOff) (packetNumber lostBytes : ℕ) :
    (s.onPacketLost fl packetNumber lostBytes).Bounded := by
  obtain ⟨hle, hready⟩ := h.backoff hfl
  refine ⟨h.window.onPacketLost hle _ _, ?_⟩
  unfold CubicSender.onPacketLost
  dsimp only
  split
  · exact hready
  · exact h.ready

theorem Bounded.onRetransmissionTimeout (h : s.Bounded) (packetsRetransmitted : Bool) :
    (s.onRetransmissionTimeout packetsRetransmitted).Bounded := by
  refine ⟨h.window.onRetransmissionTimeout packetsRetransmitted, ?_⟩
  cases packetsRetransmitted with
  | false => exact h.ready
  | true => exact Cubic.ready_initial _

/-- Every call keeps the bounds. -/
theorem Bounded.apply (h : s.Bounded) (hfl : fl.BacksOff) {call : SenderCall CubicReads}
    (hresult : s.apply fl call = some t) : t.Bounded := by
  cases call with
  | onPacketSent packetNumber isRetransmittable =>
    exact Option.some.inj hresult ▸ ⟨h.window.onPacketSent _ _, h.ready⟩
  | onPacketAcked reads ackedPacketNumber ackedBytes bytesInFlight => exact h.onPacketAcked hresult
  | onPacketLost packetNumber lostBytes => exact Option.some.inj hresult ▸ h.onPacketLost hfl _ _
  | exitSlowstart => exact Option.some.inj hresult ▸ ⟨h.window.exitSlowstart, h.ready⟩
  | onRetransmissionTimeout packetsRetransmitted =>
    exact Option.some.inj hresult ▸ h.onRetransmissionTimeout packetsRetransmitted
  | onConnectionMigration =>
    exact Option.some.inj hresult ▸ ⟨h.window.onConnectionMigration, Cubic.ready_initial _⟩
  | setSlowStartLargeReduction enabled =>
    exact Option.some.inj hresult ▸ ⟨h.window.setSlowStartLargeReduction enabled, h.ready⟩

/-- In every run the window stays within its bounds. -/
theorem Bounded.run (hfl : fl.BacksOff) {reno : Bool}
    {initialCongestionWindow initialMaxCongestionWindow : ℕ}
    (hstarts : WindowState.Starts initialCongestionWindow initialMaxCongestionWindow)
    {calls : List (SenderCall CubicReads)}
    (hrun : Run (Step fl) (new reno initialCongestionWindow initialMaxCongestionWindow) calls s) :
    s.Bounded := by
  refine Run.invariant (I := fun _ s => s.Bounded) ⟨.new hstarts, Cubic.ready_initial _⟩ ?_ hrun
  exact fun _ s call t h hstep => h.apply hfl hstep

end CubicSender

end MPQuic
