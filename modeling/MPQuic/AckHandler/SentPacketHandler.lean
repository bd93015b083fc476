import MPQuic.AckHandler.Packet
import MPQuic.Lib.KeyedList

/-!
# The sent packet handler

`ackhandler/sent_packet_handler.go`: it keeps the sent packets of a path until they are
acknowledged, lost, or dropped because a duplicate was acknowledged on another path. Packets that
are lost move from the packet history to the retransmission queue.

The clock, the RTT statistics and the congestion controller are inputs (`Env`). `ReceivedAck` and
`ReceivedClosePath` call back into the scheduler, which changes the handlers of other paths; they
are stated on all handlers together in `MPQuic.Scheduler.CrossAck`, from the parts given here.
-/

namespace MPQuic

open KeyedList

/-- The errors of the sent packet handler. -/
inductive SentPacketError where
  | duplicateOrOutOfOrderAck
  | tooManyTrackedSentPackets
  | ackForSkippedPacket
  | ackForUnsentPacket
  | packetNumberNotIncreasing
  /-- "BUG: ackhandler would have acked wrong packet" -/
  | ackedWrongPacket
  deriving DecidableEq

/-- What the handler reads from the clock, the RTT statistics and the congestion controller. -/
structure Env where
  now : ℕ
  latestRTT : ℕ
  smoothedRTT : ℕ
  retransmissionDelay : ℕ

/-- What is read before there is an RTT sample. -/
def noSamples (now : ℕ) : Env := { now, latestRTT := 0, smoothedRTT := 0, retransmissionDelay := 0 }

/-! ## STOP_WAITING -/

/-- The state of the STOP_WAITING manager. -/
structure StopWaitingManager where
  largestLeastUnackedSent : ℕ
  nextLeastUnacked : ℕ
  /-- The least unacked packet number of the last frame. -/
  lastStopWaitingFrame : Option ℕ

namespace StopWaitingManager

/-- The least unacked packet number to announce, if a STOP_WAITING frame is due. -/
def getStopWaitingFrame (s : StopWaitingManager) (force : Bool) :
    Option ℕ × StopWaitingManager :=
  if s.nextLeastUnacked ≤ s.largestLeastUnackedSent then
    if force then
      -- this case is possible when no previous frame was sent (lost first packet)
      if s.lastStopWaitingFrame.isNone && 0 < s.largestLeastUnackedSent then
        (some s.nextLeastUnacked, { s with lastStopWaitingFrame := some s.nextLeastUnacked })
      else (s.lastStopWaitingFrame, s)
    else (none, s)
  else
    (some s.nextLeastUnacked,
      { s with
        largestLeastUnackedSent := s.nextLeastUnacked
        lastStopWaitingFrame := some s.nextLeastUnacked })

/-- An ACK was received. -/
def receivedAck (s : StopWaitingManager) (largestAcked : ℕ) : StopWaitingManager :=
  if s.nextLeastUnacked ≤ largestAcked then { s with nextLeastUnacked := largestAcked + 1 } else s

/-- A packet was queued for retransmission. -/
def queuedRetransmissionForPacketNumber (s : StopWaitingManager) (p : ℕ) : StopWaitingManager :=
  if s.nextLeastUnacked ≤ p then { s with nextLeastUnacked := p + 1 } else s

end StopWaitingManager

/-! ## The tracked packets -/

/-- The packets that a handler keeps track of. -/
structure TrackedPackets where
  lastSentPacketNumber : ℕ
  packetHistory : List Packet
  retransmissionQueue : List Packet
  bytesInFlight : ℕ
  /-- The packets that were taken out of `packetHistory`, the last one first. This is a ghost
  variable: the source has no such field, and no function reads it. -/
  removed : List ℕ

namespace TrackedPackets

/-- Take a packet out of the history. A list element is identified by its packet number. -/
def remove (t : TrackedPackets) (packet : Packet) : TrackedPackets :=
  { t with
    bytesInFlight := uint64Sub t.bytesInFlight packet.length
    packetHistory := eraseKey Packet.packetNumber packet.packetNumber t.packetHistory
    removed := packet.packetNumber :: t.removed }

/-- Move a packet of the history to the retransmission queue. -/
def queue (t : TrackedPackets) (packet : Packet) : TrackedPackets :=
  { t.remove packet with retransmissionQueue := t.retransmissionQueue ++ [packet] }

/-- Add a packet that was sent to the history. -/
def push (t : TrackedPackets) (packet : Packet) : TrackedPackets :=
  { t with
    lastSentPacketNumber := packet.packetNumber
    bytesInFlight := uint64Add t.bytesInFlight packet.length
    packetHistory := t.packetHistory ++ [packet] }

/-- The packet of the history with the given number. -/
def find (t : TrackedPackets) (num : ℕ) : Option Packet :=
  t.packetHistory.find? (·.packetNumber == num)

/-- Take a packet out of the retransmission queue. -/
def unqueue (t : TrackedPackets) (num : ℕ) : TrackedPackets :=
  { t with retransmissionQueue := eraseKey Packet.packetNumber num t.retransmissionQueue }

end TrackedPackets

/-! ## The handler -/

/-- What the handler checks received frames against. -/
structure AckState where
  skippedPackets : List ℕ
  largestAcked : ℕ
  largestReceivedPacketWithAck : ℕ
  /-- The numbers of the packets that were sent, the last one first. This is a ghost variable. -/
  sent : List ℕ

/-- The state of the sent packet handler. A zero `time.Time` is `none`. -/
structure SentPacketHandler extends TrackedPackets, AckState where
  /-- The number of non-retransmittable packets since the last retransmittable packet. -/
  numNonRetransmittablePackets : ℕ
  stopWaitingManager : StopWaitingManager
  rtoCount : ℕ
  tlpCount : ℕ
  /-- The time at which the next packet will be considered lost. -/
  lossTime : Option ℕ
  lastSentTime : ℕ
  alarm : Option ℕ

namespace SentPacketHandler

/-- A new sent packet handler. -/
def new : SentPacketHandler where
  lastSentPacketNumber := 0
  packetHistory := []
  retransmissionQueue := []
  bytesInFlight := 0
  removed := []
  skippedPackets := []
  largestAcked := 0
  largestReceivedPacketWithAck := 0
  sent := []
  numNonRetransmittablePackets := 0
  stopWaitingManager :=
    { largestLeastUnackedSent := 0, nextLeastUnacked := 0, lastStopWaitingFrame := none }
  rtoCount := 0
  tlpCount := 0
  lossTime := none
  lastSentTime := 0
  alarm := none

/-- The largest packet number below which all packets are acknowledged. Packet numbers are at
least 1. -/
def largestInOrderAcked (h : SentPacketHandler) : ℕ :=
  match h.packetHistory with
  | f :: _ => f.packetNumber - 1
  | [] => h.largestAcked

/-- Whether a retransmittable frame has to be added to the next packet. -/
def shouldSendRetransmittablePacket (h : SentPacketHandler) : Bool :=
  maxNonRetransmittablePackets ≤ h.numNonRetransmittablePackets

/-! ### The alarm -/

/-- The RTO time on new connections (500 ms). -/
def defaultRTOTimeout : ℕ := 500 * 10 ^ 6

/-- The minimum time in the future an RTO alarm may be set for (200 ms). -/
def minRTOTimeout : ℕ := 200 * 10 ^ 6

/-- The maximum RTO time (60 s). -/
def maxRTOTimeout : ℤ := 60 * 10 ^ 9

/-- The minimum time until a retransmission (200 ms). -/
def minRetransmissionTime : ℕ := 200 * 10 ^ 6

/-- The minimum tail loss probe time (10 ms). -/
def minTailLossProbeTimeout : ℕ := 10 * 10 ^ 6

/-- The number of tail loss probes that are sent before a retransmission timeout. -/
def maxTailLossProbes : ℕ := 2

/-- The retransmission timeout. The exponential backoff is a shift of an `int64`. -/
def computeRTOTimeout (h : SentPacketHandler) (env : Env) : ℤ :=
  let rto := if env.retransmissionDelay = 0 then defaultRTOTimeout else env.retransmissionDelay
  let rto := max rto minRTOTimeout
  min (Int.bmod (rto * 2 ^ h.rtoCount) (2 ^ 64)) maxRTOTimeout

/-- The tail loss probe timeout. -/
def computeTLPTimeout (h : SentPacketHandler) (env : Env) : ℕ :=
  if 2 ≤ h.packetHistory.length then
    max (2 * env.smoothedRTT) (env.smoothedRTT * 3 / 2 + minRetransmissionTime / 2)
  else max (2 * env.smoothedRTT) minTailLossProbeTimeout

/-- Set the alarm, or cancel it if no packets are outstanding. -/
def updateLossDetectionAlarm (h : SentPacketHandler) (env : Env) : SentPacketHandler :=
  if h.packetHistory.isEmpty then { h with alarm := none }
  else
    match h.lossTime with
    -- early retransmit timer or time loss detection
    | some lossTime => { h with alarm := some lossTime }
    | none =>
      if env.smoothedRTT ≠ 0 ∧ h.tlpCount < maxTailLossProbes then
        { h with alarm := some (h.lastSentTime + h.computeTLPTimeout env) }
      else
        { h with
          alarm := some (h.lastSentTime +
            (max (h.computeRTOTimeout env) minRetransmissionTime).toNat) }

/-! ### Sending -/

/-- The skipped packet numbers when a packet is sent: the numbers since the last packet are
appended one by one, and the oldest ones are forgotten. -/
def skipPackets (h : SentPacketHandler) (packetNumber : ℕ) : List ℕ :=
  (List.range' (h.lastSentPacketNumber + 1) (packetNumber - (h.lastSentPacketNumber + 1))).foldl
    (fun skippedPackets p =>
      let skippedPackets := skippedPackets ++ [p]
      if maxTrackedSkippedPackets < skippedPackets.length then skippedPackets.drop 1
      else skippedPackets)
    h.skippedPackets

/-- A packet is sent. -/
def sentPacket (h : SentPacketHandler) (packet : Packet) (env : Env) :
    Except SentPacketError SentPacketHandler :=
  if packet.packetNumber ≤ h.lastSentPacketNumber then .error .packetNumberNotIncreasing
  else if maxTrackedSentPackets < h.retransmissionQueue.length + h.packetHistory.length + 1 then
    .error .tooManyTrackedSentPackets
  else
    let frames := stripNonRetransmittableFrames packet.frames
    let h := { h with
      skippedPackets := h.skipPackets packet.packetNumber
      lastSentPacketNumber := packet.packetNumber
      sent := packet.packetNumber :: h.sent
      lastSentTime := env.now }
    let h :=
      if frames.isEmpty then
        { h with numNonRetransmittablePackets := h.numNonRetransmittablePackets + 1 }
      else
        { h with
          toTrackedPackets := h.push { packet with frames := frames, sendTime := env.now }
          numNonRetransmittablePackets := 0 }
    .ok (h.updateLossDetectionAlarm env)

/-- Put a packet into the retransmission queue. -/
def duplicatePacket (h : SentPacketHandler) (packet : Packet) : SentPacketHandler :=
  { h with retransmissionQueue := h.retransmissionQueue ++ [packet] }

/-- Take the first packet out of the retransmission queue. -/
def dequeuePacketForRetransmission (h : SentPacketHandler) : Option Packet × SentPacketHandler :=
  match h.retransmissionQueue with
  | [] => (none, h)
  | packet :: rest => (some packet, { h with retransmissionQueue := rest })

theorem dequeuePacketForRetransmission_cons {h : SentPacketHandler} {packet : Packet}
    {rest : List Packet} (hqueue : h.retransmissionQueue = packet :: rest) :
    h.dequeuePacketForRetransmission = (some packet, { h with retransmissionQueue := rest }) := by
  unfold dequeuePacketForRetransmission
  rw [hqueue]

/-- Whether a packet may be sent, for the congestion window of the controller. -/
def sendingAllowed (h : SentPacketHandler) (congestionWindow : ℕ) : Bool :=
  let congestionLimited := decide (congestionWindow < h.bytesInFlight)
  let maxTrackedLimited :=
    decide (maxTrackedSentPackets ≤ h.retransmissionQueue.length + h.packetHistory.length)
  -- always allow sending of retransmissions
  let haveRetransmissions := !h.retransmissionQueue.isEmpty
  !maxTrackedLimited && (!congestionLimited || haveRetransmissions)

/-! ### Loss -/

/-- Move a packet to the retransmission queue. -/
def queuePacketForRetransmission (h : SentPacketHandler) (packet : Packet) : SentPacketHandler :=
  { h with
    toTrackedPackets := h.queue packet
    stopWaitingManager :=
      h.stopWaitingManager.queuedRetransmissionForPacketNumber packet.packetNumber }

/-- The packets up to the largest acked one that were sent too long ago, and the time at which the
first of the others is lost. -/
def scanLost (largestAcked now delayUntilLost : ℕ) :
    List Packet → Option ℕ → List Packet × Option ℕ
  | [], lossTime => ([], lossTime)
  | packet :: rest, lossTime =>
    if largestAcked < packet.packetNumber then ([], lossTime)
    else if delayUntilLost < now - packet.sendTime then
      let r := scanLost largestAcked now delayUntilLost rest lossTime
      (packet :: r.1, r.2)
    else
      scanLost largestAcked now delayUntilLost rest
        (lossTime.or (some (now + (delayUntilLost - (now - packet.sendTime)))))

/-- Queue the packets that were sent too long ago. The delay is 1 + 1/8 of an RTT. -/
def detectLostPackets (h : SentPacketHandler) (env : Env) : SentPacketHandler :=
  let maxRTT := max env.latestRTT env.smoothedRTT
  let delayUntilLost := maxRTT * 9 / 8
  let r := scanLost h.largestAcked env.now delayUntilLost h.packetHistory none
  r.1.foldl queuePacketForRetransmission { h with lossTime := r.2 }

/-- Queue all packets up to the largest acked one. -/
def setInflightAsLost (h : SentPacketHandler) : SentPacketHandler :=
  let lostPackets := h.packetHistory.takeWhile (·.packetNumber ≤ h.largestAcked)
  lostPackets.foldl queuePacketForRetransmission h

/-- Queue the last packet. -/
def retransmitTLP (h : SentPacketHandler) : SentPacketHandler :=
  match h.packetHistory.getLast? with
  | some packet => h.queuePacketForRetransmission packet
  | none => h

/-- Queue the first packet. -/
def retransmitOldestPacket (h : SentPacketHandler) : SentPacketHandler :=
  match h.packetHistory with
  | packet :: _ => h.queuePacketForRetransmission packet
  | [] => h

/-- Queue the first two packets. -/
def retransmitOldestTwoPackets (h : SentPacketHandler) : SentPacketHandler :=
  h.retransmitOldestPacket.retransmitOldestPacket

/-- Queue the first packet as long as there is one. -/
def retransmitAllPackets (h : SentPacketHandler) : SentPacketHandler :=
  retransmitOldestPacket^[h.packetHistory.length] h

/-- The alarm expired. `potentiallyFailed` is the result of the callback on a retransmission
timeout. -/
def onAlarm (h : SentPacketHandler) (env : Env) (potentiallyFailed : Bool) : SentPacketHandler :=
  if !h.packetHistory.any Packet.isRetransmittable then { h with alarm := none }
  else
    let h :=
      if h.lossTime.isSome then h.detectLostPackets env
      else if h.tlpCount < maxTailLossProbes then
        { h.retransmitTLP with tlpCount := h.tlpCount + 1 }
      else
        let h := if potentiallyFailed then h.retransmitAllPackets else h.retransmitOldestTwoPackets
        { h with rtoCount := h.rtoCount + 1 }
    h.updateLossDetectionAlarm env

/-! ### Acknowledgements -/

/-- Move on to the first range that does not end below packet `n`, or to the last one. The ranges
are given with the lowest first. -/
def advanceRange (n : ℕ) : List AckRange → List AckRange
  | r :: r' :: rest => if r.last < n then advanceRange n (r' :: rest) else r :: r' :: rest
  | ranges => ranges

/-- The packets that the frame acknowledges, for the ranges from the current one on. -/
def newlyAcked (f : AckedPackets) :
    List AckRange → List Packet → Except SentPacketError (List Packet)
  | _, [] => .ok []
  | ranges, packet :: rest =>
    -- ignore packets below the lowest acked one
    if packet.packetNumber < f.lowestAcked then newlyAcked f ranges rest
    -- break after the largest acked one is reached
    else if f.largestAcked < packet.packetNumber then .ok []
    else if f.hasMissingRanges then
      match advanceRange packet.packetNumber ranges with
      | [] => .ok []
      | ackRange :: later =>
        if ackRange.first ≤ packet.packetNumber then
          if ackRange.last < packet.packetNumber then .error .ackedWrongPacket
          else do
            let ackedPackets ← newlyAcked f (ackRange :: later) rest
            return packet :: ackedPackets
        else newlyAcked f (ackRange :: later) rest
    else do
      let ackedPackets ← newlyAcked f ranges rest
      return packet :: ackedPackets

/-- The packets of the history that the frame acknowledges. -/
def determineNewlyAckedPackets (h : SentPacketHandler) (f : AckedPackets) :
    Except SentPacketError (List Packet) :=
  newlyAcked f f.ackRanges.reverse h.packetHistory

/-- Whether the frame acknowledges a packet number that was never sent. -/
def skippedPacketsAcked (h : SentPacketHandler) (f : AckedPackets) : Bool :=
  h.skippedPackets.any f.acksPacket

/-- A packet was acknowledged. -/
def onPacketAcked (h : SentPacketHandler) (packet : Packet) : SentPacketHandler :=
  { h with toTrackedPackets := h.remove packet, rtoCount := 0, tlpCount := 0 }

/-- Forget the skipped packet numbers up to the last one that is acknowledged in order. -/
def garbageCollectSkippedPackets (h : SentPacketHandler) : SentPacketHandler :=
  let deleteIndex := h.skippedPackets.zipIdx.foldl
    (fun deleteIndex p => if p.1 ≤ h.largestInOrderAcked then p.2 + 1 else deleteIndex) 0
  { h with skippedPackets := h.skippedPackets.drop deleteIndex }

/-- Drop a packet of which a duplicate was acknowledged, from the history or else from the
retransmission queue. The result says whether a packet was dropped. -/
def removePacketByNumber (h : SentPacketHandler) (num : ℕ) : Bool × SentPacketHandler :=
  let (removedBytes, h) :=
    match h.find num with
    | some packet => (packet.length, { h with toTrackedPackets := h.remove packet })
    | none => (0, h)
  if 0 < removedBytes then (true, { h with rtoCount := 0, tlpCount := 0 })
  -- maybe also remove from the retransmission queue
  else if h.retransmissionQueue.any (·.packetNumber == num) then
    (true, { h with toTrackedPackets := h.unqueue num })
  else (false, h)

end SentPacketHandler

end MPQuic
