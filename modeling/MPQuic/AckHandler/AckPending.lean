import MPQuic.AckHandler.LowerLimit

/-!
# Pending acknowledgements

When the received packet handler owes the peer an ACK. `maybeQueueAck` has several reasons to queue
an ACK at once, each of which cancels the alarm, and sets the alarm for the other packets that ask
for an ACK.

* `Watched`: a handler with the arrival of the first packet that the next ACK is owed to;
  `exists_watched` says that every run of a handler can be watched.
* `Watched.Pending`: as long as no ACK is queued, the alarm is set for exactly this packet.
* `ack_pending_of_eliciting`: the ACK for it is queued, or will be when an alarm expires that is not
  set later than its arrival allows.
-/

namespace MPQuic

open Transition

namespace ReceivedPacketHandler

variable {h : ReceivedPacketHandler}

/-! ## What the calls do to the alarm -/

/-- A queued ACK stays queued and cancels the alarm. Otherwise a packet that asks for an ACK sets
the alarm, unless it is set already. -/
theorem maybeQueueAck_spec (h : ReceivedPacketHandler) (now n : ℕ) (inst : Bool) :
    (h.maybeQueueAck now n inst).ackSendDelay = h.ackSendDelay ∧
      (h.ackQueued → (h.maybeQueueAck now n inst).ackQueued) ∧
      ((h.maybeQueueAck now n inst).ackQueued → (h.maybeQueueAck now n inst).ackAlarm = none) ∧
      ((h.maybeQueueAck now n inst).ackQueued = false →
        (h.maybeQueueAck now n inst).ackAlarm =
          if inst then h.ackAlarm.or (some (now + h.ackSendDelay)) else h.ackAlarm) := by
  refine ⟨rfl, fun hq => ?_, fun hq => ?_, fun hq => ?_⟩
  · simp [maybeQueueAck, hq]
  · simp only [maybeQueueAck] at hq ⊢
    rw [if_pos hq]
  · simp only [maybeQueueAck] at hq ⊢
    rw [hq]
    -- neither the reasons for a queued ACK nor the number of packets applies
    rw [Bool.or_eq_false_iff] at hq
    obtain ⟨hqueued, hmany⟩ := hq
    cases inst with
    | false => simp
    | true =>
      have hfew : h.retransmittablePacketsReceivedSinceLastAck + 1 <
          retransmittablePacketsBeforeAck := by
        simpa using hmany
      cases halarm : h.ackAlarm <;> simp [hqueued, hfew]

/-- A packet changes the queued ACK and the alarm only if it is above the lower limit. -/
theorem receivedPacket_alarm (now n : ℕ) (inst : Bool) (len : ℕ)
    (herr : (h.receivedPacket now n inst len).2 ≠ some .tooManyOutstandingReceivedAckRanges) :
    ∃ g : ReceivedPacketHandler, g.ackSendDelay = h.ackSendDelay ∧ g.ackQueued = h.ackQueued ∧
      g.ackAlarm = h.ackAlarm ∧ (h.receivedPacket now n inst len).1 =
        if h.lowerLimit < n then g.maybeQueueAck now n inst else g := by
  by_cases hn : n = 0
  · subst hn
    exact ⟨h, rfl, rfl, rfl, by simp [receivedPacket]⟩
  unfold receivedPacket at herr ⊢
  simp only [hn, ↓reduceIte] at herr ⊢
  -- the state after the packet was counted
  generalize hg : (if h.largestObserved < n then _ else _ : ReceivedPacketHandler) = g at herr ⊢
  obtain ⟨hlimit, hdelay, hqueued, halarm⟩ : g.lowerLimit = h.lowerLimit ∧
      g.ackSendDelay = h.ackSendDelay ∧ g.ackQueued = h.ackQueued ∧ g.ackAlarm = h.ackAlarm := by
    rw [← hg]
    split_ifs <;> exact ⟨rfl, rfl, rfl, rfl⟩
  by_cases hlow : h.lowerLimit < n
  · cases hrec : g.packetHistory.receivedPacket n with
    | error err =>
      have hmany : err = .tooManyOutstandingReceivedAckRanges := by
        simp only [ReceivedPacketHistory.receivedPacket] at hrec
        split_ifs at hrec
        exact (Except.error.inj hrec).symm
      simp [hlimit, hlow.not_ge, hrec, hmany] at herr
    | ok packetHistory =>
      refine ⟨{ g with packetHistory }, hdelay, hqueued, halarm, ?_⟩
      simp [hlimit, hlow, hlow.not_ge]
  · refine ⟨g, hdelay, hqueued, halarm, ?_⟩
    simp [hlimit, hlow, not_lt.mp hlow]

/-- A call of `getAckFrame` that returns a frame starts over, any other one changes nothing. -/
theorem getAckFrame_alarm {now : ℕ} {ack : Option AckFrame} {h' : ReceivedPacketHandler}
    (hcall : h.getAckFrame now = .ok (ack, h')) :
    ack = none ∧ h' = h ∨ ack.isSome ∧ h'.ackQueued = false ∧ h'.ackAlarm = none := by
  unfold getAckFrame at hcall
  split_ifs at hcall
  · cases hcall
    exact .inl ⟨rfl, rfl⟩
  · obtain ⟨acked, -, heq⟩ := Bytes.bind_eq_ok hcall
    cases heq
    exact .inr ⟨rfl, rfl, rfl⟩

/-! ## The first packet that asks for an ACK -/

/-- The call does not fail because of too many ranges. -/
def InRange (h : ReceivedPacketHandler) : Call → Prop
  | .receivedPacket now n inst len =>
    (h.receivedPacket now n inst len).2 ≠ some .tooManyOutstandingReceivedAckRanges
  | _ => True

instance (h : ReceivedPacketHandler) (c : Call) : Decidable (h.InRange c) :=
  match c with
  | .receivedPacket now n inst len => inferInstanceAs (Decidable
      ((h.receivedPacket now n inst len).2 ≠ some .tooManyOutstandingReceivedAckRanges))
  | .setLowerLimit _ => .isTrue trivial
  | .getAckFrame _ => .isTrue trivial

/-- A handler and the arrival of the first packet that asked for an ACK, was above the lower limit
when it arrived and came after the last ACK frame. -/
structure Watched where
  handler : ReceivedPacketHandler
  first : Option ℕ

namespace Watched

/-- A new handler. -/
def init (version : VersionNumber) : Watched := { handler := .new version, first := none }

/-- The first packet after a call. -/
def observe (s : Watched) : Call → Option ℕ
  | .receivedPacket now n inst _ =>
    if inst ∧ s.handler.lowerLimit < n then s.first.or (some now) else s.first
  | .setLowerLimit _ => s.first
  | .getAckFrame now =>
    match s.handler.getAckFrame now with
    | .ok (some _, _) => none
    | _ => s.first

/-- The effect of a call that does not fail because of too many ranges. -/
def Step (s : Watched) (c : Call) (s' : Watched) : Prop :=
  s.handler.InRange c ∧ ReceivedPacketHandler.Step s.handler c s'.handler ∧ s'.first = s.observe c

/-- Watching the handler rules out no run. -/
theorem exists_watched {version : VersionNumber} {calls : List Call}
    (hrun : Run (fun h c h' => InRange h c ∧ ReceivedPacketHandler.Step h c h') (new version)
      calls h) : ∃ s, Run Step (init version) calls s ∧ s.handler = h := by
  induction hrun with
  | nil => exact ⟨_, .nil, rfl⟩
  | @snoc calls h c h' _ hstep ih =>
    obtain ⟨s, hrun, rfl⟩ := ih
    exact ⟨⟨h', s.observe c⟩, hrun.snoc ⟨hstep.1, hstep.2, rfl⟩, rfl⟩

/-- An ACK is queued and the alarm is off, or the alarm is set for the first packet. -/
structure Pending (s : Watched) : Prop where
  queued : s.handler.ackQueued → s.handler.ackAlarm = none
  alarm : s.handler.ackQueued = false →
    s.handler.ackAlarm = s.first.map (· + s.handler.ackSendDelay)

variable {s s' : Watched}

/-- A packet that asks for an ACK sets the alarm only if it is the first one. -/
theorem Pending.receivedPacket (hinv : s.Pending) {now n : ℕ} {inst : Bool} {len : ℕ}
    (hrange : s.handler.InRange (.receivedPacket now n inst len))
    (hcall : s'.handler = (s.handler.receivedPacket now n inst len).1)
    (hfirst : s'.first = s.observe (.receivedPacket now n inst len)) : s'.Pending := by
  obtain ⟨g, hdelay, hqueued, halarm, heq⟩ := receivedPacket_alarm now n inst len hrange
  have hhandler := hcall.trans heq
  rw [observe] at hfirst
  by_cases hlow : s.handler.lowerLimit < n
  · rw [if_pos hlow] at hhandler
    obtain ⟨hdelay', hstay, hcancel, hset⟩ := g.maybeQueueAck_spec now n inst
    rw [← hhandler] at hdelay' hstay hcancel hset
    refine ⟨hcancel, fun hnot => ?_⟩
    -- no ACK was queued before either, so the alarm is the one of the first packet, if any
    have hbefore : s.handler.ackQueued = false := by
      rw [← hqueued]
      exact Bool.eq_false_iff.mpr fun hq => by simp [hstay hq] at hnot
    rw [hset hnot, hfirst, hdelay', hdelay, halarm, hinv.alarm hbefore]
    cases inst <;> cases s.first <;> simp [hlow]
  · -- a packet below the limit is only counted
    rw [if_neg hlow] at hhandler
    rw [if_neg (by simp [hlow])] at hfirst
    rw [← hhandler] at hdelay hqueued halarm
    exact ⟨by rw [hqueued, halarm]; exact hinv.queued,
      by rw [hqueued, halarm, hdelay, hfirst]; exact hinv.alarm⟩

/-- Every call keeps the obligation. -/
theorem Pending.step {c : Call} (hinv : s.Pending) (hstep : Step s c s') : s'.Pending := by
  obtain ⟨hrange, hcall, hfirst⟩ := hstep
  cases c with
  | receivedPacket now n inst len => exact hinv.receivedPacket hrange hcall hfirst
  | setLowerLimit p =>
    obtain ⟨h', first'⟩ := s'
    obtain rfl : h' = s.handler.setLowerLimit p := hcall
    obtain rfl : first' = s.first := hfirst
    exact ⟨hinv.queued, hinv.alarm⟩
  | getAckFrame now =>
    obtain ⟨ack, hget⟩ := hcall
    simp only [observe, hget] at hfirst
    obtain ⟨rfl, hsame⟩ | ⟨hsome, -, halarm⟩ := getAckFrame_alarm hget
    · exact ⟨by rw [hsame]; exact hinv.queued, by rw [hsame, hfirst]; exact hinv.alarm⟩
    · obtain ⟨f, rfl⟩ := Option.isSome_iff_exists.mp hsome
      exact ⟨fun _ => halarm, fun _ => by rw [halarm, hfirst]; rfl⟩

end Watched

/-- In every run without too many ranges: if a packet that asks for an ACK and was above the lower
limit on its arrival has been received since the last ACK frame, then an ACK is queued or the alarm
is set to at most `ackSendDelay` after the arrival of the first such packet. The alarm is never set
while an ACK is queued. -/
theorem ack_pending_of_eliciting {version : VersionNumber} {calls : List Call} {s : Watched}
    (hrun : Run Watched.Step (Watched.init version) calls s) :
    (∀ arrival, s.first = some arrival → s.handler.ackQueued ∨
      ∃ alarm, s.handler.ackAlarm = some alarm ∧ alarm ≤ arrival + s.handler.ackSendDelay) ∧
    ¬(s.handler.ackQueued ∧ s.handler.ackAlarm.isSome) := by
  have hinv : s.Pending := hrun.invariant (I := fun _ s => s.Pending)
    ⟨fun _ => rfl, fun _ => rfl⟩ fun _ _ _ _ hinv hstep => hinv.step hstep
  refine ⟨fun arrival hfirst => ?_, fun ⟨hqueued, halarm⟩ => ?_⟩
  · cases hqueued : s.handler.ackQueued with
    | true => exact .inl rfl
    | false =>
      have halarm := hinv.alarm hqueued
      rw [hfirst] at halarm
      exact .inr ⟨_, halarm, le_rfl⟩
  · simp [hinv.queued hqueued] at halarm

/-- The first packet is acknowledged at once. The next one sets the alarm, which a packet without
retransmittable frames leaves as it is. -/
theorem ack_pending_of_eliciting_second : ∃ s : Watched, s.first = some 12 ∧
    s.handler.ackQueued = false ∧
    ((∀ arrival, s.first = some arrival → s.handler.ackQueued ∨
      ∃ alarm, s.handler.ackAlarm = some alarm ∧ alarm ≤ arrival + s.handler.ackSendDelay) ∧
    ¬(s.handler.ackQueued ∧ s.handler.ackAlarm.isSome)) := by
  have hrun : Run Watched.Step (Watched.init versionMP)
      [.receivedPacket 10 1 true 0, .getAckFrame 11, .receivedPacket 12 2 true 0,
        .receivedPacket 13 3 false 0] ⟨_, some 12⟩ :=
    (((Run.nil.snoc (t := ⟨_, some 10⟩) ⟨by decide, rfl, rfl⟩).snoc (t := ⟨_, none⟩)
      ⟨trivial, ⟨_, rfl⟩, rfl⟩).snoc (t := ⟨_, some 12⟩) ⟨by decide, rfl, rfl⟩).snoc
      ⟨by decide, rfl, rfl⟩
  exact ⟨_, rfl, rfl, ack_pending_of_eliciting hrun⟩

end ReceivedPacketHandler

end MPQuic
