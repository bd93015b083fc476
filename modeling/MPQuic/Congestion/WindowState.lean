import Mathlib.Order.Basic
import MPQuic.Protocol

/-!
# The congestion window of a sender

What `congestion/olia_sender.go` and `congestion/cubic_sender.go` have in common, field by field and
branch by branch: the congestion window in packets, the slow start threshold, the cutbacks after a
loss and the restart after a retransmission timeout. The two senders differ in how the window grows
in congestion avoidance, and in the back-off of a cutback, which is an argument here.

Hybrid slow start and proportional rate reduction are left out. They decide when `ExitSlowstart` is
called and when a packet may be sent, and nothing that changes the window reads them.

`Bounded` says that the window lies between the minimum and the maximum, and every call keeps it.
-/

namespace MPQuic

/-- `int64(z)`: the value of `z` on 64 bits with a sign. -/
def int64Wrap (z : ℤ) : ℤ := z.bmod uint64Size

/-- A value that fits is not changed. -/
theorem int64Wrap_eq {z : ℤ} (hlow : -(uint64Size : ℤ) ≤ z * 2) (hhigh : z * 2 < uint64Size) :
    int64Wrap z = z :=
  Int.bmod_eq_of_le_mul_two hlow hhigh

/-- The maximum packet size the senders count with. -/
def defaultTCPMSS : ℕ := 1460

/-- The bytes a sender may have left over and still count as limited by its window. -/
def maxBurstBytes : ℕ := 3 * defaultTCPMSS

/-- The minimum congestion window, in packets. -/
def defaultMinimumCongestionWindow : ℕ := 2

/-- The number of connections a sender emulates. -/
def defaultNumConnections : ℕ := 2

/-- The results of the senders' floating point computations, converted back to integers. -/
structure FloatArithmetic where
  /-- `float32(congestionWindow) * RenoBeta()`. -/
  renoBackoff : (numConnections congestionWindow : ℕ) → ℕ
  /-- `float32(currentCongestionWindow) * beta()`. -/
  cubicBackoff : (numConnections currentCongestionWindow : ℕ) → ℕ
  /-- `betaLastMax * float32(currentCongestionWindow)`. -/
  lastMaxBackoff : (currentCongestionWindow : ℕ) → ℕ
  /-- `float32(estimatedTCPcongestionWindow) / alpha()`. -/
  requiredAckCount : (numConnections estimatedTCPcongestionWindow : ℕ) → ℕ
  /-- `uint32(math.Cbrt(float64(x)))`. -/
  cbrt : ℕ → ℕ

/-- A back-off does not raise the window. -/
structure FloatArithmetic.BacksOff (fl : FloatArithmetic) : Prop where
  reno_le : ∀ n w, fl.renoBackoff n w ≤ w
  cubic_le : ∀ n w, fl.cubicBackoff n w ≤ w

/-- The calls of a sender. The ACK of a packet reads `reads` from outside of the sender. -/
inductive SenderCall (ρ : Type) where
  | onPacketSent (packetNumber : ℕ) (isRetransmittable : Bool)
  | onPacketAcked (reads : ρ) (ackedPacketNumber ackedBytes bytesInFlight : ℕ)
  | onPacketLost (packetNumber lostBytes : ℕ)
  | exitSlowstart
  | onRetransmissionTimeout (packetsRetransmitted : Bool)
  | onConnectionMigration
  | setSlowStartLargeReduction (enabled : Bool)

/-- The fields that `OliaSender` and `cubicSender` have in common. -/
structure WindowState where
  largestSentPacketNumber : ℕ
  largestAckedPacketNumber : ℕ
  /-- The largest packet number outstanding when the window was last cut back. -/
  largestSentAtLastCutback : ℕ
  /-- The congestion window, in packets. -/
  congestionWindow : ℕ
  /-- The slow start congestion window, in packets. -/
  slowstartThreshold : ℕ
  lastCutbackExitedSlowstart : Bool
  slowStartLargeReduction : Bool
  minCongestionWindow : ℕ
  maxTCPCongestionWindow : ℕ
  numConnections : ℕ
  /-- The ACK counter of the Reno implementation. -/
  congestionWindowCount : ℕ
  initialCongestionWindow : ℕ
  initialMaxCongestionWindow : ℕ
  /-- The statistics of `connectionStats`. -/
  slowstartPacketsLost : ℕ
  slowstartBytesLost : ℕ
  deriving DecidableEq

namespace WindowState

/-- The fields of a new sender. -/
def new (initialCongestionWindow initialMaxCongestionWindow : ℕ) : WindowState where
  largestSentPacketNumber := 0
  largestAckedPacketNumber := 0
  largestSentAtLastCutback := 0
  congestionWindow := initialCongestionWindow
  slowstartThreshold := initialMaxCongestionWindow
  lastCutbackExitedSlowstart := false
  slowStartLargeReduction := false
  minCongestionWindow := defaultMinimumCongestionWindow
  maxTCPCongestionWindow := initialMaxCongestionWindow
  numConnections := defaultNumConnections
  congestionWindowCount := 0
  initialCongestionWindow := initialCongestionWindow
  initialMaxCongestionWindow := initialMaxCongestionWindow
  slowstartPacketsLost := 0
  slowstartBytesLost := 0

/-- The congestion window in bytes. -/
def getCongestionWindow (s : WindowState) : ℕ := uint64Mul s.congestionWindow defaultTCPMSS

/-- The slow start threshold in bytes. -/
def getSlowStartThreshold (s : WindowState) : ℕ := uint64Mul s.slowstartThreshold defaultTCPMSS

def inSlowStart (s : WindowState) : Bool := s.getCongestionWindow < s.getSlowStartThreshold

def inRecovery (s : WindowState) : Bool :=
  s.largestAckedPacketNumber ≤ s.largestSentAtLastCutback && s.largestAckedPacketNumber ≠ 0

/-- Whether the sender is close to using its window. -/
def isCwndLimited (s : WindowState) (bytesInFlight : ℕ) : Bool :=
  let congestionWindow := s.getCongestionWindow
  if congestionWindow ≤ bytesInFlight then true
  else
    let availableBytes := congestionWindow - bytesInFlight
    let slowStartLimited := s.inSlowStart && decide (congestionWindow / 2 < bytesInFlight)
    slowStartLimited || decide (availableBytes ≤ maxBurstBytes)

/-- A packet is sent. The result says whether it counts as in flight. -/
def onPacketSent (s : WindowState) (packetNumber : ℕ) (isRetransmittable : Bool) :
    Bool × WindowState :=
  if !isRetransmittable then (false, s)
  else (true, { s with largestSentPacketNumber := packetNumber })

def exitSlowstart (s : WindowState) : WindowState :=
  { s with slowstartThreshold := s.congestionWindow }

/-- A packet is acknowledged; the window grows afterwards, if at all. -/
def acked (s : WindowState) (ackedPacketNumber : ℕ) : WindowState :=
  { s with largestAckedPacketNumber := max ackedPacketNumber s.largestAckedPacketNumber }

/-- Slow start: the window grows by one for each ACK. -/
def grow (s : WindowState) : WindowState := { s with congestionWindow := s.congestionWindow + 1 }

/-- The loss of a packet that was outstanding at the last cutback, so that it belongs to the loss
event that caused it. The window is reduced by one for every MSS of bytes lost, if the large
reduction is enabled. -/
def onLossOfLastCutback (s : WindowState) (lostBytes : ℕ) : WindowState :=
  if s.lastCutbackExitedSlowstart then
    let s := { s with
      slowstartPacketsLost := s.slowstartPacketsLost + 1
      slowstartBytesLost := uint64Add s.slowstartBytesLost lostBytes }
    if s.slowStartLargeReduction then
      let congestionWindow :=
        if s.slowstartPacketsLost = 1 ∨
            uint64Sub s.slowstartBytesLost lostBytes / defaultTCPMSS <
              s.slowstartBytesLost / defaultTCPMSS then
          max (uint64Sub s.congestionWindow 1) s.minCongestionWindow
        else s.congestionWindow
      { s with congestionWindow, slowstartThreshold := congestionWindow }
    else s
  else s

/-- A new loss event cuts the window back, to `backoff` unless slow start is left with the large
reduction, and to no less than the minimum. -/
def cutBack (s : WindowState) (backoff : ℕ) : WindowState :=
  let reduced :=
    if s.slowStartLargeReduction && s.inSlowStart then uint64Sub s.congestionWindow 1 else backoff
  let congestionWindow := if reduced < s.minCongestionWindow then s.minCongestionWindow else reduced
  { s with
    lastCutbackExitedSlowstart := s.inSlowStart
    slowstartPacketsLost :=
      if s.inSlowStart then s.slowstartPacketsLost + 1 else s.slowstartPacketsLost
    congestionWindow
    slowstartThreshold := congestionWindow
    largestSentAtLastCutback := s.largestSentPacketNumber
    congestionWindowCount := 0 }

/-- Whether the loss of a packet is a new loss event. -/
def isNewLoss (s : WindowState) (packetNumber : ℕ) : Bool :=
  s.largestSentAtLastCutback < packetNumber

def onPacketLost (s : WindowState) (backoff packetNumber lostBytes : ℕ) : WindowState :=
  if s.isNewLoss packetNumber then s.cutBack backoff else s.onLossOfLastCutback lostBytes

def onRetransmissionTimeout (s : WindowState) (packetsRetransmitted : Bool) : WindowState :=
  let s := { s with largestSentAtLastCutback := 0 }
  if !packetsRetransmitted then s
  else { s with
    slowstartThreshold := s.congestionWindow / 2
    congestionWindow := s.minCongestionWindow }

def onConnectionMigration (s : WindowState) : WindowState :=
  { s with
    largestSentPacketNumber := 0
    largestAckedPacketNumber := 0
    largestSentAtLastCutback := 0
    lastCutbackExitedSlowstart := false
    congestionWindowCount := 0
    congestionWindow := s.initialCongestionWindow
    slowstartThreshold := s.initialMaxCongestionWindow
    maxTCPCongestionWindow := s.initialMaxCongestionWindow }

def setSlowStartLargeReduction (s : WindowState) (enabled : Bool) : WindowState :=
  { s with slowStartLargeReduction := enabled }

/-! ## The bounds of the window -/

/-- The window a sender starts with lies between the minimum and the maximum. -/
structure Starts (initialCongestionWindow initialMaxCongestionWindow : ℕ) : Prop where
  min_le : defaultMinimumCongestionWindow ≤ initialCongestionWindow
  le_max : initialCongestionWindow ≤ initialMaxCongestionWindow
  max_lt : initialMaxCongestionWindow < uint64Size

/-- The window lies between the minimum and the maximum, and the window after a connection migration
does so too. -/
structure Bounded (s : WindowState) : Prop where
  min_eq : s.minCongestionWindow = defaultMinimumCongestionWindow
  min_le : defaultMinimumCongestionWindow ≤ s.congestionWindow
  le_max : s.congestionWindow ≤ s.maxTCPCongestionWindow
  max_eq : s.maxTCPCongestionWindow = s.initialMaxCongestionWindow
  starts : Starts s.initialCongestionWindow s.initialMaxCongestionWindow

/-- The fields that a call does not change. -/
def limits (s : WindowState) : ℕ × ℕ × ℕ × ℕ :=
  (s.minCongestionWindow, s.maxTCPCongestionWindow, s.initialCongestionWindow,
    s.initialMaxCongestionWindow)

variable {s t : WindowState}

/-- The initial window is within its limits. -/
theorem Bounded.new {initialCongestionWindow initialMaxCongestionWindow : ℕ}
    (h : Starts initialCongestionWindow initialMaxCongestionWindow) :
    (WindowState.new initialCongestionWindow initialMaxCongestionWindow).Bounded :=
  ⟨rfl, h.min_le, h.le_max, rfl, h⟩

section

variable (h : s.Bounded)
include h

/-- With the same limits it is enough that the new window lies between them. -/
theorem Bounded.of_limits_eq (hlimits : t.limits = s.limits)
    (hmin : defaultMinimumCongestionWindow ≤ t.congestionWindow)
    (hmax : t.congestionWindow ≤ s.maxTCPCongestionWindow) : t.Bounded := by
  simp only [limits, Prod.mk.injEq] at hlimits
  obtain ⟨hm, hM, hi, hI⟩ := hlimits
  refine ⟨hm.trans h.min_eq, hmin, hM ▸ hmax, by rw [hM, hI, h.max_eq], ?_⟩
  rw [hi, hI]
  exact h.starts

/-- A call that does not touch the window. -/
theorem Bounded.of_window_eq (hlimits : t.limits = s.limits)
    (hwindow : t.congestionWindow = s.congestionWindow) : t.Bounded :=
  h.of_limits_eq hlimits (hwindow ▸ h.min_le) (hwindow ▸ h.le_max)

/-- The window fits 64 bits. -/
theorem Bounded.window_lt : s.congestionWindow < uint64Size :=
  h.le_max.trans_lt (h.max_eq ▸ h.starts.max_lt)

/-- One packet less does not wrap around, since the window is not empty. -/
theorem Bounded.sub_one :
    uint64Sub s.congestionWindow 1 = s.congestionWindow - 1 := by
  have hmin := h.min_le
  rw [defaultMinimumCongestionWindow] at hmin
  exact uint64Sub_eq h.window_lt (by omega)

theorem Bounded.onPacketSent (packetNumber : ℕ) (isRetransmittable : Bool) :
    (s.onPacketSent packetNumber isRetransmittable).2.Bounded := by
  cases isRetransmittable with
  | false => exact h
  | true => exact h.of_window_eq rfl rfl

theorem Bounded.exitSlowstart : s.exitSlowstart.Bounded := h.of_window_eq rfl rfl

theorem Bounded.acked (ackedPacketNumber : ℕ) :
    (s.acked ackedPacketNumber).Bounded :=
  h.of_window_eq rfl rfl

/-- One packet more fits below the maximum. -/
theorem Bounded.grow (hlt : s.congestionWindow < s.maxTCPCongestionWindow) :
    s.grow.Bounded :=
  h.of_limits_eq rfl (Nat.le_succ_of_le h.min_le) hlt

theorem Bounded.onLossOfLastCutback (lostBytes : ℕ) :
    (s.onLossOfLastCutback lostBytes).Bounded := by
  have hmin := h.min_le
  have hmax := h.le_max
  unfold WindowState.onLossOfLastCutback
  dsimp only
  by_cases hexited : s.lastCutbackExitedSlowstart = true
  · rw [if_pos hexited]
    by_cases hlarge : s.slowStartLargeReduction = true
    · rw [if_pos hlarge]
      refine h.of_limits_eq rfl ?_ ?_ <;> dsimp only <;> rw [h.sub_one, h.min_eq] <;> split_ifs <;>
        omega
    · rw [if_neg hlarge]
      exact h.of_window_eq rfl rfl
  · rw [if_neg hexited]
    exact h

/-- A smaller window is not below the minimum. -/
theorem Bounded.cutBack {backoff : ℕ} (hbackoff : backoff ≤ s.congestionWindow) :
    (s.cutBack backoff).Bounded := by
  have hmin := h.min_le
  have hmax := h.le_max
  refine h.of_limits_eq rfl ?_ ?_ <;> simp only [WindowState.cutBack] <;>
    rw [h.sub_one, h.min_eq] <;> split_ifs <;> omega

/-- A loss cuts the window back at most once. -/
theorem Bounded.onPacketLost {backoff : ℕ} (hbackoff : backoff ≤ s.congestionWindow)
    (packetNumber lostBytes : ℕ) : (s.onPacketLost backoff packetNumber lostBytes).Bounded := by
  unfold WindowState.onPacketLost
  split_ifs
  · exact h.cutBack hbackoff
  · exact h.onLossOfLastCutback lostBytes

theorem Bounded.onRetransmissionTimeout (packetsRetransmitted : Bool) :
    (s.onRetransmissionTimeout packetsRetransmitted).Bounded := by
  cases packetsRetransmitted with
  | false => exact h.of_window_eq rfl rfl
  | true => exact h.of_limits_eq rfl h.min_eq.ge (h.min_eq.le.trans (h.min_le.trans h.le_max))

theorem Bounded.onConnectionMigration : s.onConnectionMigration.Bounded :=
  ⟨h.min_eq, h.starts.min_le, h.starts.le_max, rfl, h.starts⟩

theorem Bounded.setSlowStartLargeReduction (enabled : Bool) :
    (s.setSlowStartLargeReduction enabled).Bounded :=
  h.of_window_eq rfl rfl

end

end WindowState

end MPQuic
