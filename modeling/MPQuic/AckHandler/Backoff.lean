import Mathlib.Algebra.Group.Int.Defs
import MPQuic.AckHandler.SentPacketHandler
import MPQuic.Lib.Transition

/-!
# The backoff of the retransmission timeout

`computeRTOTimeout` doubles the timeout for every retransmission timeout since the last ACK. It
shifts an `int64` by a counter without a bound and limits the result afterwards. Until the shift
overflows, the timeout is within its bounds and grows. The first shift that overflows makes it
negative, and `updateLossDetectionAlarm` then sets the alarm as early as it can:
`computeRTOTimeout_backoff_iff` and `alarm_shrinks`.

On a dead path the counter only grows (`rtoCount_le_of_run`). Other paths can keep the session alive
meanwhile.
-/

namespace MPQuic

open Transition

namespace SentPacketHandler

variable {h h' : SentPacketHandler} {env : Env}

/-! ## Calls until an ACK arrives -/

/-- A call of a handler other than those for an ACK. -/
inductive SilentCall where
  | sentPacket (packet : Packet) (env : Env)
  | duplicatePacket (packet : Packet)
  | dequeuePacketForRetransmission
  | setInflightAsLost
  | onAlarm (env : Env) (potentiallyFailed : Bool)

/-- The delay that the congestion controller reports in all calls. It changes only with a sample of
the RTT, which an ACK brings. -/
def SilentCall.HasDelay (delay : ℕ) : SilentCall → Prop
  | .sentPacket _ env => env.retransmissionDelay = delay
  | .onAlarm env _ => env.retransmissionDelay = delay
  | _ => True

instance (delay : ℕ) (c : SilentCall) : Decidable (c.HasDelay delay) := by
  cases c <;> unfold SilentCall.HasDelay <;> infer_instance

/-- The effect of a call. A packet that is not accepted closes the session. -/
def silent (h : SentPacketHandler) : SilentCall → Option SentPacketHandler
  | .sentPacket packet env => (h.sentPacket packet env).toOption
  | .duplicatePacket packet => some (h.duplicatePacket packet)
  | .dequeuePacketForRetransmission => some h.dequeuePacketForRetransmission.2
  | .setInflightAsLost => some h.setInflightAsLost
  | .onAlarm env potentiallyFailed => some (h.onAlarm env potentiallyFailed)

/-- A step on a path from which no ACK arrives. -/
def SilentStep (delay : ℕ) (h : SentPacketHandler) (c : SilentCall) (h' : SentPacketHandler) :
    Prop :=
  c.HasDelay delay ∧ h.silent c = some h'

/-! ## The counter -/

/-- Setting the alarm counts no timeout. -/
@[simp]
theorem rtoCount_updateLossDetectionAlarm (h : SentPacketHandler) (env : Env) :
    (h.updateLossDetectionAlarm env).rtoCount = h.rtoCount := by
  unfold updateLossDetectionAlarm
  split
  · rfl
  · split
    · rfl
    · split <;> rfl

/-- Queuing packets counts no timeout. -/
@[simp]
theorem rtoCount_foldl_queue (lost : List Packet) (h : SentPacketHandler) :
    (lost.foldl queuePacketForRetransmission h).rtoCount = h.rtoCount := by
  induction lost generalizing h with
  | nil => rfl
  | cons p lost ih => exact ih (h.queuePacketForRetransmission p)

@[simp]
theorem rtoCount_retransmitOldestPacket (h : SentPacketHandler) :
    h.retransmitOldestPacket.rtoCount = h.rtoCount := by
  unfold retransmitOldestPacket
  split <;> rfl

@[simp]
theorem rtoCount_retransmitAllPackets (h : SentPacketHandler) :
    h.retransmitAllPackets.rtoCount = h.rtoCount := by
  unfold retransmitAllPackets
  generalize h.packetHistory.length = n
  induction n generalizing h with
  | zero => rfl
  | succ n ih => rw [Function.iterate_succ_apply, ih, rtoCount_retransmitOldestPacket]

@[simp]
theorem rtoCount_retransmitTLP (h : SentPacketHandler) :
    h.retransmitTLP.rtoCount = h.rtoCount := by
  unfold retransmitTLP
  split <;> rfl

/-- Only a retransmission timeout is counted. -/
theorem rtoCount_le_onAlarm (h : SentPacketHandler) (env : Env) (potentiallyFailed : Bool) :
    h.rtoCount ≤ (h.onAlarm env potentiallyFailed).rtoCount := by
  unfold onAlarm
  split_ifs
  · rfl
  · simp [detectLostPackets]
  · simp
  · simp
  · simp [retransmitOldestTwoPackets]

/-- Sending counts no timeout. -/
theorem rtoCount_sentPacket {packet : Packet} (hok : h.sentPacket packet env = .ok h') :
    h'.rtoCount = h.rtoCount := by
  unfold sentPacket at hok
  split_ifs at hok
  rw [← Except.ok.inj hok, rtoCount_updateLossDetectionAlarm]
  split_ifs <;> rfl

/-- The count is reset only by an ACK. -/
theorem SilentStep.rtoCount_le {delay : ℕ} {c : SilentCall} (hstep : SilentStep delay h c h') :
    h.rtoCount ≤ h'.rtoCount := by
  obtain ⟨-, happly⟩ := hstep
  cases c with
  | sentPacket packet env =>
    cases hsent : h.sentPacket packet env with
    | error e =>
      rw [silent, hsent] at happly
      cases happly
    | ok h₁ =>
      rw [silent, hsent] at happly
      rw [← Option.some.inj happly, rtoCount_sentPacket hsent]
  | duplicatePacket packet => rw [← Option.some.inj happly, duplicatePacket]
  | dequeuePacketForRetransmission =>
    rw [← Option.some.inj happly, dequeuePacketForRetransmission]
    split <;> rfl
  | setInflightAsLost => rw [← Option.some.inj happly, setInflightAsLost, rtoCount_foldl_queue]
  | onAlarm env potentiallyFailed =>
    rw [← Option.some.inj happly]
    exact rtoCount_le_onAlarm h env potentiallyFailed

/-- Until an ACK arrives, the number of retransmission timeouts only grows. -/
theorem rtoCount_le_of_run {delay : ℕ} {calls : List SilentCall}
    (hrun : Run (SilentStep delay) h calls h') : h.rtoCount ≤ h'.rtoCount :=
  hrun.invariant (I := fun _ h' => h.rtoCount ≤ h'.rtoCount) le_rfl
    fun _ _ _ _ hle hstep => hle.trans hstep.rtoCount_le

/-! ## The timeout -/

/-- The timeout before the backoff. -/
def initialRTO (env : Env) : ℕ :=
  max (if env.retransmissionDelay = 0 then defaultRTOTimeout else env.retransmissionDelay)
    minRTOTimeout

/-- One hour. -/
def hour : ℕ := 3600 * 10 ^ 9

theorem initialRTO_le (hdelay : env.retransmissionDelay ≤ hour) : initialRTO env ≤ hour := by
  unfold initialRTO
  refine max_le ?_ (by decide)
  split_ifs
  · decide
  · exact hdelay

theorem bmod_of_lt {x : ℕ} (h : x < 2 ^ 63) : Int.bmod x (2 ^ 64) = x := by
  rw [Int.bmod_def]
  split_ifs <;> omega

theorem bmod_neg {x : ℕ} (hge : 2 ^ 63 ≤ x) (hlt : x < 2 ^ 64) : Int.bmod x (2 ^ 64) < 0 := by
  rw [Int.bmod_def]
  split_ifs <;> omega

/-- The timeout is doubled in 64 bits and capped. -/
theorem computeRTOTimeout_eq (h : SentPacketHandler) (env : Env) :
    h.computeRTOTimeout env =
      min (Int.bmod (initialRTO env * 2 ^ h.rtoCount : ℕ) (2 ^ 64)) maxRTOTimeout := by
  rw [computeRTOTimeout, initialRTO]
  push_cast
  rfl

/-- As long as the shift does not overflow, the timeout is the shifted one up to the maximum. -/
theorem computeRTOTimeout_of_lt (hfit : initialRTO env * 2 ^ h.rtoCount < 2 ^ 63) :
    h.computeRTOTimeout env = min ((initialRTO env * 2 ^ h.rtoCount : ℕ) : ℤ) maxRTOTimeout := by
  rw [computeRTOTimeout_eq, bmod_of_lt hfit]

/-- The first shift that overflows makes the timeout negative. -/
theorem computeRTOTimeout_neg (hge : 2 ^ 63 ≤ initialRTO env * 2 ^ h.rtoCount)
    (hlt : initialRTO env * 2 ^ h.rtoCount < 2 ^ 64) : h.computeRTOTimeout env < 0 := by
  rw [computeRTOTimeout_eq]
  exact (min_le_left _ _).trans_lt (bmod_neg hge hlt)

/-- The timeout is within its limits if doubling it does not overflow. -/
theorem computeRTOTimeout_bounds (hfit : initialRTO env * 2 ^ h.rtoCount < 2 ^ 63) :
    (minRTOTimeout : ℤ) ≤ h.computeRTOTimeout env ∧ h.computeRTOTimeout env ≤ maxRTOTimeout := by
  rw [computeRTOTimeout_of_lt hfit]
  refine ⟨le_min ?_ (by decide), min_le_right _ _⟩
  have hmin : minRTOTimeout ≤ initialRTO env := le_max_right _ _
  exact Int.ofNat_le.mpr (hmin.trans (Nat.le_mul_of_pos_right _ (Nat.two_pow_pos _)))

/-- The timeout grows with the count if doubling it does not overflow. -/
theorem computeRTOTimeout_mono (hle : h.rtoCount ≤ h'.rtoCount)
    (hfit : initialRTO env * 2 ^ h'.rtoCount < 2 ^ 63) :
    h.computeRTOTimeout env ≤ h'.computeRTOTimeout env := by
  have hshift : initialRTO env * 2 ^ h.rtoCount ≤ initialRTO env * 2 ^ h'.rtoCount :=
    Nat.mul_le_mul_left _ (Nat.pow_le_pow_right Nat.two_pos hle)
  rw [computeRTOTimeout_of_lt hfit, computeRTOTimeout_of_lt (hshift.trans_lt hfit)]
  exact min_le_min (Int.ofNat_le.mpr hshift) le_rfl

/-- If the shift by `N` overflows, then some shift up to `N` is the first one. -/
theorem exists_overflow (hdelay : env.retransmissionDelay ≤ hour) {N : ℕ}
    (hover : 2 ^ 63 ≤ initialRTO env * 2 ^ N) :
    ∃ n ≤ N, 2 ^ 63 ≤ initialRTO env * 2 ^ n ∧ initialRTO env * 2 ^ n < 2 ^ 64 := by
  induction N with
  | zero =>
    have hle := initialRTO_le hdelay
    have hhour : hour < 2 ^ 63 := by decide
    rw [Nat.pow_zero, Nat.mul_one] at hover
    omega
  | succ N ih =>
    by_cases hN : 2 ^ 63 ≤ initialRTO env * 2 ^ N
    · obtain ⟨n, hn, hfirst⟩ := ih hN
      exact ⟨n, hn.trans (Nat.le_succ N), hfirst⟩
    · refine ⟨N + 1, le_rfl, hover, ?_⟩
      rw [Nat.pow_succ, ← Nat.mul_assoc]
      omega

/-- For every delay up to an hour that the congestion controller reports: up to `N` retransmission
timeouts the timeout is between 200 ms and 60 s and does not decrease with their number, so that it
does not shrink on a path from which no ACK arrives, if and only if the shift by `N` fits. -/
theorem computeRTOTimeout_backoff_iff (env : Env) (hdelay : env.retransmissionDelay ≤ hour)
    (N : ℕ) :
    ((∀ h : SentPacketHandler, h.rtoCount ≤ N →
        (minRTOTimeout : ℤ) ≤ h.computeRTOTimeout env ∧ h.computeRTOTimeout env ≤ maxRTOTimeout) ∧
      (∀ h h' : SentPacketHandler, h.rtoCount ≤ h'.rtoCount → h'.rtoCount ≤ N →
        h.computeRTOTimeout env ≤ h'.computeRTOTimeout env) ∧
      ∀ h calls h', Run (SilentStep env.retransmissionDelay) h calls h' → h'.rtoCount ≤ N →
        h.computeRTOTimeout env ≤ h'.computeRTOTimeout env) ↔
    initialRTO env * 2 ^ N < 2 ^ 63 := by
  constructor
  · rintro ⟨hbounds, -, -⟩
    by_contra hover
    obtain ⟨n, hn, hge, hlt⟩ := exists_overflow hdelay (not_lt.mp hover)
    have hlower := (hbounds { new with rtoCount := n } hn).1
    have hneg : computeRTOTimeout { new with rtoCount := n } env < 0 :=
      computeRTOTimeout_neg hge hlt
    exact absurd (hlower.trans_lt hneg) (by decide)
  · intro hfit
    have hall : ∀ h : SentPacketHandler, h.rtoCount ≤ N →
        initialRTO env * 2 ^ h.rtoCount < 2 ^ 63 := fun h hle =>
      (Nat.mul_le_mul_left _ (Nat.pow_le_pow_right Nat.two_pos hle)).trans_lt hfit
    refine ⟨fun h hle => computeRTOTimeout_bounds (hall h hle), fun h h' hle hle' => ?_,
      fun h calls h' hrun hle' => ?_⟩
    · exact computeRTOTimeout_mono hle (hall h' hle')
    · exact computeRTOTimeout_mono (rtoCount_le_of_run hrun) (hall h' hle')

/-- Without samples of the RTT, 34 retransmission timeouts are within the range. -/
theorem computeRTOTimeout_backoff_default :
    (∀ h : SentPacketHandler, h.rtoCount ≤ 34 →
      (minRTOTimeout : ℤ) ≤ h.computeRTOTimeout (noSamples 0) ∧
        h.computeRTOTimeout (noSamples 0) ≤ maxRTOTimeout) ∧
    ∀ h calls h', Run (SilentStep 0) h calls h' → h'.rtoCount ≤ 34 →
      h.computeRTOTimeout (noSamples 0) ≤ h'.computeRTOTimeout (noSamples 0) := by
  have hbackoff := (computeRTOTimeout_backoff_iff (noSamples 0) (by decide) 34).mpr (by decide)
  exact ⟨hbackoff.1, hbackoff.2.2⟩

/-- The packet with the number `n` is sent `n` minutes after the start. -/
def sendAt (n : ℕ) : SilentCall :=
  let packet : Packet :=
    { packetNumber := n, frames := [.stream 0], length := 40, encryptionLevel := .forwardSecure
      sendTime := 0 }
  .sentPacket packet (noSamples (n * (60 * 10 ^ 9)))

/-- A dead path: the alarm expires after each of `n` packets, and then one more packet is sent. -/
def deadPath (n : ℕ) : List SilentCall :=
  (List.range n).flatMap (fun i => [sendAt (i + 1), .onAlarm (noSamples ((i + 2) * (60 * 10 ^ 9)))
    false]) ++ [sendAt (n + 1)]

/-- The first two alarms of a dead path are tail loss probes. After 34 retransmission timeouts the
alarm is set for 60 s, and after one more for 200 ms. -/
theorem alarm_shrinks :
    (∃ h, Run (SilentStep 0) new (deadPath 36) h ∧ h.rtoCount = 34 ∧
      h.computeRTOTimeout (noSamples 0) = 60 * 10 ^ 9 ∧
      h.alarm = some (h.lastSentTime + 60 * 10 ^ 9)) ∧
    ∃ h, Run (SilentStep 0) new (deadPath 37) h ∧ h.rtoCount = 35 ∧
      h.computeRTOTimeout (noSamples 0) < 0 ∧
      h.alarm = some (h.lastSentTime + 200 * 10 ^ 6) := by
  have hstep : ∀ (h : SentPacketHandler) (c : SilentCall) (h' : SentPacketHandler),
      (if c.HasDelay 0 then h.silent c else none) = some h' → SilentStep 0 h c h' := by
    intro h c h' happly
    split_ifs at happly with hdelay
    exact ⟨hdelay, happly⟩
  exact ⟨Run.exists_of_any hstep (by decide +kernel), Run.exists_of_any hstep (by decide +kernel)⟩

end SentPacketHandler

end MPQuic
