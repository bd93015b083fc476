import MPQuic.AckHandler.ReceivedPacketHistory
import MPQuic.Wire.Frame

/-!
# The received packet handler

`ackhandler/received_packet_handler.go`: decides when an ACK is sent for the packets of a path
and builds the ACK and CLOSE_PATH frames. `LargestAcked` comes from a field of its own while the
ranges come from the history, from which STOP_WAITING frames delete; `ReceiverState.Inv` is what
ties the two together in every run.
-/

namespace MPQuic

open Bytes IntervalList Transition

/-- The state of the received packet handler. A zero `time.Time` is `none`. -/
structure ReceivedPacketHandler where
  largestObserved : ℕ
  lowerLimit : ℕ
  largestObservedReceivedTime : ℕ
  packetHistory : ReceivedPacketHistory
  ackSendDelay : ℕ
  packetsReceivedSinceLastAck : ℕ
  retransmittablePacketsReceivedSinceLastAck : ℕ
  ackQueued : Bool
  ackAlarm : Option ℕ
  lastAck : Option AckFrame
  version : VersionNumber
  packets : ℕ
  recvStreamFrameBytes : ℕ

namespace ReceivedPacketHandler

/-- A new received packet handler. -/
def new (version : VersionNumber) : ReceivedPacketHandler where
  largestObserved := 0
  lowerLimit := 0
  largestObservedReceivedTime := 0
  packetHistory := .new
  ackSendDelay := MPQuic.ackSendDelay
  packetsReceivedSinceLastAck := 0
  retransmittablePacketsReceivedSinceLastAck := 0
  ackQueued := false
  ackAlarm := none
  lastAck := none
  version := version
  packets := 0
  recvStreamFrameBytes := 0

/-- Whether an ACK is due because of what the last one reported, or because there was none. -/
def ackDue (h : ReceivedPacketHandler) (packetNumber : ℕ) : Bool :=
  match h.lastAck with
  -- always ack the first packet
  | none => true
  -- a packet that was reported missing, or a new missing range above the previous ones
  | some lastAck => packetNumber < lastAck.largestAcked ||
      lastAck.largestAcked < h.packetHistory.getHighestAckRange.first

/-- Decide whether the packet just received is acknowledged at once, or when an alarm expires. -/
def maybeQueueAck (h : ReceivedPacketHandler) (now packetNumber : ℕ) (shouldInstigateAck : Bool) :
    ReceivedPacketHandler :=
  let received := h.packetsReceivedSinceLastAck + 1
  let retransmittable :=
    h.retransmittablePacketsReceivedSinceLastAck + if shouldInstigateAck then 1 else 0
  let ackQueued := h.ackQueued || h.ackDue packetNumber ||
    (decide (h.version < version39) && decide (maxPacketsReceivedBeforeAckSend ≤ received))
  let ackAlarm :=
    if !ackQueued && shouldInstigateAck &&
        decide (retransmittable < retransmittablePacketsBeforeAck) && h.ackAlarm.isNone then
      some (now + h.ackSendDelay)
    else h.ackAlarm
  let ackQueued := ackQueued ||
    (shouldInstigateAck && decide (retransmittablePacketsBeforeAck ≤ retransmittable))
  { h with
    packetsReceivedSinceLastAck := received
    retransmittablePacketsReceivedSinceLastAck := retransmittable
    ackQueued := ackQueued
    -- cancel the ack alarm
    ackAlarm := if ackQueued then none else ackAlarm }

/-- Register a packet that was received at the time `now`. -/
def receivedPacket (h : ReceivedPacketHandler) (now packetNumber : ℕ) (shouldInstigateAck : Bool)
    (payloadLength : ℕ) : ReceivedPacketHandler × Option ReceivedPacketError :=
  if packetNumber = 0 then (h, some .invalidPacketNumber)
  else
    let h := { h with
      packets := h.packets + 1
      recvStreamFrameBytes := h.recvStreamFrameBytes + payloadLength }
    let h := if h.largestObserved < packetNumber then
        { h with largestObserved := packetNumber, largestObservedReceivedTime := now }
      else h
    if packetNumber ≤ h.lowerLimit then (h, none)
    else
      match h.packetHistory.receivedPacket packetNumber with
      | .error err => (h, some err)
      | .ok packetHistory =>
        (({ h with packetHistory } : ReceivedPacketHandler).maybeQueueAck now packetNumber
          shouldInstigateAck, none)

/-- Set a lower limit for acking packets: packets up to and including `p` will not be acked. -/
def setLowerLimit (h : ReceivedPacketHandler) (p : ℕ) : ReceivedPacketHandler :=
  { h with lowerLimit := p, packetHistory := h.packetHistory.deleteUpTo p }

/-- The packets that a frame built now reports. -/
def ackedPackets (h : ReceivedPacketHandler) : Except ReceivedPacketError AckedPackets :=
  let ackRanges := h.packetHistory.getAckRanges
  match ackRanges.getLast? with
  | none => .error .indexOutOfRange
  | some lowest => .ok
    { largestAcked := h.largestObserved
      lowestAcked := lowest.first
      ackRanges := if 1 < ackRanges.length then ackRanges else [] }

/-- The ACK frame to be sent at the time `now`, if any. -/
def getAckFrame (h : ReceivedPacketHandler) (now : ℕ) :
    Except ReceivedPacketError (Option AckFrame × ReceivedPacketHandler) :=
  if !h.ackQueued && h.ackAlarm.all (fun alarm => now < alarm) then .ok (none, h)
  else do
    let acked ← h.ackedPackets
    let ack : AckFrame :=
      { toAckedPackets := acked
        pathID := initialPathID
        packetReceivedTime := h.largestObservedReceivedTime
        delayTime := 0 }
    return (some ack, { h with
      lastAck := some ack
      ackAlarm := none
      ackQueued := false
      packetsReceivedSinceLastAck := 0
      retransmittablePacketsReceivedSinceLastAck := 0 })

/-- The CLOSE_PATH frame for the packets received so far. -/
def getClosePathFrame (h : ReceivedPacketHandler) : Except ReceivedPacketError ClosePathFrame := do
  let acked ← h.ackedPackets
  return { toAckedPackets := acked, pathID := initialPathID }

end ReceivedPacketHandler

/-! ## Frames that report a history -/

/-- The frame reports exactly the ranges of the history, in a form that `validateAckRanges`
accepts. -/
structure AckedPackets.Reports (f : AckedPackets) (h : ReceivedPacketHistory) : Prop where
  largestAcked : f.largestAcked = h.getHighestAckRange.last
  lowestAcked : h.ranges.head?.map PacketInterval.start = some f.lowestAcked
  ackRanges : (h.ranges.length = 1 ∧ f.ackRanges = []) ∨
    (2 ≤ h.ranges.length ∧ f.ackRanges = h.getAckRanges ∧ f.validateAckRanges)

namespace ReceivedPacketHistory

/-- The largest stored packet number is the last one of the highest range. -/
theorem getHighestAckRange_last {h : ReceivedPacketHistory} {n : ℕ} (hwf : h.WellFormed)
    (hn : h.Contains n) (hmax : ∀ m, h.Contains m → m ≤ n) : h.getHighestAckRange.last = n := by
  rcases List.eq_nil_or_concat h.ranges with hnil | ⟨init, r, hr⟩
  · rw [Contains, hnil] at hn
    exact absurd hn (covers_nil n)
  · rw [List.concat_eq_append] at hr
    rw [getHighestAckRange, hr, List.getLast?_concat]
    rw [WellFormed, hr] at hwf
    have hrne : r.start ≤ r.stop := Nat.lt_succ_iff.mp (hwf.nonempty r (by simp))
    have hstop : r.stop ≤ n := hmax _ ⟨r, by simp [hr], hrne, Nat.lt_succ_self _⟩
    obtain ⟨a, ha, -, hlt⟩ := hn
    rw [hr] at ha
    rcases List.mem_append.mp ha with ha | ha
    · have := hwf.lt_of_append ha (List.mem_singleton_self r)
      omega
    · obtain rfl := List.mem_singleton.mp ha
      exact le_antisymm hstop (Nat.lt_succ_iff.mp hlt)

theorem ranges_ne_nil {h : ReceivedPacketHistory} {n : ℕ} (hn : h.Contains n) : h.ranges ≠ [] := by
  rintro hnil
  rw [Contains, hnil] at hn
  exact covers_nil n hn

end ReceivedPacketHistory

namespace ReceivedPacketHandler

variable {h h' : ReceivedPacketHandler}

/-- What `receivedPacket` does when it returns no error: a packet above the lower limit enters the
history, and the largest observed packet number is kept up to date. -/
theorem receivedPacket_eq_none {now n : ℕ} {inst : Bool} {len : ℕ}
    (hcall : h.receivedPacket now n inst len = (h', none)) :
    0 < n ∧ h'.lowerLimit = h.lowerLimit ∧ h'.largestObserved = max h.largestObserved n ∧
      ((n ≤ h.lowerLimit ∧ h'.packetHistory = h.packetHistory) ∨
        (h.lowerLimit < n ∧ h.packetHistory.receivedPacket n = .ok h'.packetHistory)) := by
  unfold receivedPacket at hcall
  by_cases hn : n = 0
  · simp [hn] at hcall
  simp only [hn, ↓reduceIte] at hcall
  -- the state after the largest observed packet was updated
  generalize hg : (if h.largestObserved < n then _ else _ : ReceivedPacketHandler) = g at hcall
  have hlimit : g.lowerLimit = h.lowerLimit := by
    rw [← hg]
    split_ifs <;> rfl
  have hhistory : g.packetHistory = h.packetHistory := by
    rw [← hg]
    split_ifs <;> rfl
  have hlargest : g.largestObserved = max h.largestObserved n := by
    rw [← hg]
    split_ifs with hlt
    · exact (max_eq_right hlt.le).symm
    · exact (max_eq_left (not_lt.mp hlt)).symm
  rw [hlimit, hhistory] at hcall
  by_cases hlow : n ≤ h.lowerLimit
  · simp only [hlow, ↓reduceIte, Prod.mk.injEq, and_true] at hcall
    subst hcall
    exact ⟨Nat.pos_of_ne_zero hn, hlimit, hlargest, .inl ⟨hlow, hhistory⟩⟩
  · simp only [hlow, ↓reduceIte] at hcall
    cases hrec : h.packetHistory.receivedPacket n with
    | error err => simp [hrec] at hcall
    | ok packetHistory =>
      simp only [hrec, Prod.mk.injEq, and_true] at hcall
      subst hcall
      exact ⟨Nat.pos_of_ne_zero hn, rfl, hlargest, .inr ⟨not_le.mp hlow, rfl⟩⟩

/-- A frame built from a well-formed history that contains the largest observed packet reports
that history. -/
theorem ackedPackets_reports (hwf : h.packetHistory.WellFormed)
    (hcontains : h.packetHistory.Contains h.largestObserved)
    (hmax : ∀ n, h.packetHistory.Contains n → n ≤ h.largestObserved) :
    ∃ f, h.ackedPackets = .ok f ∧ f.Reports h.packetHistory := by
  have hne := ReceivedPacketHistory.ranges_ne_nil hcontains
  have hlargest := ReceivedPacketHistory.getHighestAckRange_last hwf hcontains hmax
  have hlength : h.packetHistory.getAckRanges.length = h.packetHistory.ranges.length := by
    simp [ReceivedPacketHistory.getAckRanges]
  obtain ⟨lowest, rest, hranges⟩ := List.exists_cons_of_ne_nil hne
  have hlast : h.packetHistory.getAckRanges.getLast? = some lowest.toAckRange := by
    simp [ReceivedPacketHistory.getAckRanges, hranges]
  refine ⟨_, by rw [ackedPackets]; simp only [hlast]; rfl, ?_⟩
  refine ⟨hlargest.symm, by rw [hranges]; rfl, ?_⟩
  -- a single range is not listed: the largest and the lowest packet describe it
  by_cases htwo : 2 ≤ h.packetHistory.ranges.length
  · have hif : 1 < h.packetHistory.getAckRanges.length := by omega
    refine .inr ⟨htwo, if_pos hif, ?_⟩
    exact ReceivedPacketHistory.validateAckRanges_getAckRanges hwf htwo (if_pos hif) hlargest.symm
  · have hone : h.packetHistory.ranges.length = 1 := by
      rw [hranges, List.length_cons] at htwo ⊢
      omega
    exact .inl ⟨hone, if_neg (by omega)⟩

/-- `getAckFrame` changes neither the history nor the two limits. -/
theorem getAckFrame_ok {now : ℕ} {ack : Option AckFrame}
    (hcall : h.getAckFrame now = .ok (ack, h')) :
    h'.packetHistory = h.packetHistory ∧ h'.largestObserved = h.largestObserved ∧
      h'.lowerLimit = h.lowerLimit := by
  unfold getAckFrame at hcall
  split_ifs at hcall
  · cases hcall
    exact ⟨rfl, rfl, rfl⟩
  · cases hacked : h.ackedPackets with
    | error err => simp [hacked, bind, Except.bind] at hcall
    | ok f =>
      simp only [hacked, bind, Except.bind, pure, Except.pure, Except.ok.injEq,
        Prod.mk.injEq] at hcall
      obtain ⟨-, rfl⟩ := hcall
      exact ⟨rfl, rfl, rfl⟩

end ReceivedPacketHandler

/-! ## Runs of one path -/

/-- The receiving side of a path: its handler, and the number of the packet whose frames are being
handled. -/
structure ReceiverState where
  handler : ReceivedPacketHandler
  current : Option ℕ

/-- An event on the receiving side of a path. -/
inductive ReceiverEvent where
  | receivedPacket (now packetNumber : ℕ) (shouldInstigateAck : Bool) (payloadLength : ℕ)
  | stopWaiting (o : Order) (len : PacketNumberLen) (bytes : List UInt8)
  | getAckFrame (now : ℕ)
  | getClosePathFrame

/-- The effect of an event. A STOP_WAITING frame belongs to the packet that was received last, and
frames are built only after the first packet. -/
def ReceiverStep (s : ReceiverState) (e : ReceiverEvent) (s' : ReceiverState) : Prop :=
  match e with
  | .receivedPacket now n inst len =>
    s.handler.receivedPacket now n inst len = (s'.handler, none) ∧ s'.current = some n
  | .stopWaiting o len bytes => ∃ n f rest, s.current = some n ∧
    StopWaitingFrame.parse o n len bytes = .ok (f, rest) ∧
    s' = { s with handler := s.handler.setLowerLimit (f.leastUnacked - 1) }
  | .getAckFrame now => s.current.isSome ∧ ∃ ack,
    s.handler.getAckFrame now = .ok (ack, s'.handler) ∧ s'.current = s.current
  | .getClosePathFrame => s.current.isSome ∧ ∃ f, s.handler.getClosePathFrame = .ok f ∧ s' = s

namespace ReceiverState

/-- A path on which nothing was received. -/
def init (version : VersionNumber) : ReceiverState :=
  { handler := .new version, current := none }

/-- The history is well-formed and, from the first packet on, its largest element is the largest
observed packet number, which the lower limit stays below. -/
structure Inv (s : ReceiverState) : Prop where
  wellFormed : s.handler.packetHistory.WellFormed
  le_largest : ∀ n, s.handler.packetHistory.Contains n → n ≤ s.handler.largestObserved
  limit_le : s.handler.lowerLimit ≤ s.handler.largestObserved
  largest_zero : s.current = none → s.handler.largestObserved = 0
  contains_largest : ∀ n, s.current = some n → n ≤ s.handler.largestObserved ∧
    s.handler.lowerLimit < s.handler.largestObserved ∧
    s.handler.packetHistory.Contains s.handler.largestObserved

theorem inv_init (version : VersionNumber) : (init version).Inv where
  wellFormed := ReceivedPacketHistory.wellFormed_new
  le_largest n hn := absurd hn (ReceivedPacketHistory.not_contains_new n)
  limit_le := le_rfl
  largest_zero _ := rfl
  contains_largest n hn := by cases hn

variable {s s' : ReceiverState}

/-- In a path that received a packet, the lower limit is below the largest observed packet. -/
theorem Inv.limit_lt_max (hinv : s.Inv) {n : ℕ} (hn : 0 < n) :
    s.handler.lowerLimit < max s.handler.largestObserved n := by
  cases hc : s.current with
  | none =>
    have := hinv.largest_zero hc
    have := hinv.limit_le
    omega
  | some m =>
    have := (hinv.contains_largest m hc).2.1
    omega

theorem Inv.receivedPacket (hinv : s.Inv) {now n : ℕ} {inst : Bool} {len : ℕ}
    (hcall : s.handler.receivedPacket now n inst len = (s'.handler, none))
    (hcurrent : s'.current = some n) : s'.Inv := by
  obtain ⟨hn, hlimit, hlargest, hhistory⟩ := ReceivedPacketHandler.receivedPacket_eq_none hcall
  have hlt := hinv.limit_lt_max hn
  rcases hhistory with ⟨hlow, hhistory⟩ | ⟨hlow, hhistory⟩
  · -- the packet is below the limit, so it is not the largest one
    have hmax : s'.handler.largestObserved = s.handler.largestObserved := by omega
    refine ⟨by rw [hhistory]; exact hinv.wellFormed, by rw [hhistory, hmax]; exact hinv.le_largest,
      by omega, by simp [hcurrent], fun m hm => ⟨by rw [hcurrent] at hm; cases hm; omega,
      by omega, ?_⟩⟩
    cases hc : s.current with
    | none =>
      have := hinv.largest_zero hc
      omega
    | some m => rw [hhistory, hmax]; exact (hinv.contains_largest m hc).2.2
  · obtain ⟨hwf, hcontains⟩ :=
      ReceivedPacketHistory.receivedPacket_spec hinv.wellFormed hn hhistory
    refine ⟨hwf, fun m hm => ?_, by omega, by simp [hcurrent], fun m hm =>
      ⟨by rw [hcurrent] at hm; cases hm; omega, by omega, ?_⟩⟩
    · rcases (hcontains m).mp hm with rfl | hm
      · omega
      · have := hinv.le_largest m hm
        omega
    · -- the largest observed packet is the new one, or the one from before
      rw [hcontains]
      by_cases hnew : s.handler.largestObserved < n
      · exact .inl (by omega)
      · cases hc : s.current with
        | none =>
          have := hinv.largest_zero hc
          omega
        | some m =>
          have hmax : s'.handler.largestObserved = s.handler.largestObserved := by omega
          exact .inr (hmax ▸ (hinv.contains_largest m hc).2.2)

theorem Inv.setLowerLimit (hinv : s.Inv) {n p : ℕ} (hcurrent : s.current = some n) (hp : p < n) :
    Inv { s with handler := s.handler.setLowerLimit p } := by
  obtain ⟨hle, -, hcontains⟩ := hinv.contains_largest n hcurrent
  obtain ⟨hwf', hcontains'⟩ := ReceivedPacketHistory.deleteUpTo_spec (p := p) hinv.wellFormed
  refine ⟨hwf', fun m hm => hinv.le_largest m ((hcontains' m).mp hm).2, ?_, ?_, ?_⟩
  · simp only [ReceivedPacketHandler.setLowerLimit]
    omega
  · simp [hcurrent]
  · intro m hm
    obtain rfl : n = m := by simpa [hcurrent] using hm
    exact ⟨hle, hp.trans_le hle, (hcontains' _).mpr ⟨hp.trans_le hle, hcontains⟩⟩

/-- Every event keeps the invariant. -/
theorem Inv.step (hinv : s.Inv) {e : ReceiverEvent} (hstep : ReceiverStep s e s') : s'.Inv := by
  cases e with
  | receivedPacket now n inst len => exact hinv.receivedPacket hstep.1 hstep.2
  | stopWaiting o len bytes =>
    obtain ⟨n, f, rest, hcurrent, hparse, rfl⟩ := hstep
    obtain ⟨hpos, hle⟩ := StopWaitingFrame.leastUnacked_of_parse hparse
    exact hinv.setLowerLimit hcurrent (by omega)
  | getAckFrame now =>
    obtain ⟨-, ack, hcall, hcurrent⟩ := hstep
    obtain ⟨hhistory, hlargest, hlimit⟩ := ReceivedPacketHandler.getAckFrame_ok hcall
    obtain ⟨hwf, hle, hlim, hzero, hcontains⟩ := hinv
    exact ⟨by rwa [hhistory], by rwa [hhistory, hlargest], by rwa [hlimit, hlargest],
      by rwa [hcurrent, hlargest], by rwa [hcurrent, hhistory, hlargest, hlimit]⟩
  | getClosePathFrame =>
    obtain ⟨-, f, -, rfl⟩ := hstep
    exact hinv

end ReceiverState

/-- Whenever a frame is built after the first packet, the list of ranges is not empty, and the ACK
or CLOSE_PATH frame reports exactly the ranges of the history, in a form that the peer accepts. -/
theorem receivedPacketHandler_reports {version : VersionNumber} {events : List ReceiverEvent}
    {s : ReceiverState} (hrun : Run ReceiverStep (ReceiverState.init version) events s)
    (hfirst : s.current.isSome) :
    (∀ now, ∃ ack h', s.handler.getAckFrame now = .ok (ack, h') ∧
      ∀ f, ack = some f → f.Reports s.handler.packetHistory) ∧
    ∃ f, s.handler.getClosePathFrame = .ok f ∧ f.Reports s.handler.packetHistory := by
  have hinv : s.Inv := hrun.invariant (I := fun _ s => s.Inv) (ReceiverState.inv_init version)
    fun _ _ _ _ hinv => hinv.step
  obtain ⟨n, hn⟩ := Option.isSome_iff_exists.mp hfirst
  obtain ⟨-, -, hcontains⟩ := hinv.contains_largest n hn
  obtain ⟨acked, hacked, hreports⟩ :=
    ReceivedPacketHandler.ackedPackets_reports hinv.wellFormed hcontains hinv.le_largest
  refine ⟨fun now => ?_, ?_⟩
  · rw [ReceivedPacketHandler.getAckFrame, hacked]
    split_ifs
    · exact ⟨none, _, rfl, by simp⟩
    · exact ⟨_, _, rfl, by rintro f ⟨rfl⟩; exact hreports⟩
  · rw [ReceivedPacketHandler.getClosePathFrame, hacked]
    exact ⟨_, rfl, hreports⟩

/-- The packets 1, 5 and 4 arrive, the last one with a STOP_WAITING frame for packet 2. -/
theorem receivedPacketHandler_reports_example : ∃ s : ReceiverState,
    s.handler.packetHistory.ranges = [⟨4, 5⟩] ∧
      ∃ f, s.handler.getClosePathFrame = .ok f ∧ f.Reports s.handler.packetHistory := by
  have hrun : Run ReceiverStep (ReceiverState.init versionMP)
      [.receivedPacket 10 1 true 0, .receivedPacket 11 5 true 0, .receivedPacket 12 4 true 0,
        .stopWaiting .big .len1 [0x06, 2]] _ :=
    (((Run.nil.snoc (t := ⟨_, some 1⟩) ⟨rfl, rfl⟩).snoc (t := ⟨_, some 5⟩) ⟨rfl, rfl⟩).snoc
      (t := ⟨_, some 4⟩) ⟨rfl, rfl⟩).snoc ⟨4, ⟨2, .invalid, 0⟩, [], rfl, rfl, rfl⟩
  exact ⟨_, rfl, (receivedPacketHandler_reports hrun rfl).2⟩

end MPQuic
