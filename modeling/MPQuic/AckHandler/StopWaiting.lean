import MPQuic.AckHandler.Acknowledged
import MPQuic.AckHandler.Skipped

/-!
# The least unacked packet number

The STOP_WAITING manager does not look at the packet history. It announces the number after the
largest one that was acknowledged or queued for a retransmission, whatever is still outstanding
below. This module says what the functions of the handler do to the manager:

* `StopWaitingManager.Announced` and `StopWaiting` hold without any condition: a frame always
  carries `nextLeastUnacked`, which is at most one above the last packet that was sent;
* `Settled` says that no packet of the history is below `nextLeastUnacked`. Packets that are queued
  keep it only if no older packet stays behind (`Settled.foldl_queue`).
-/

namespace MPQuic

open TrackedPackets

namespace StopWaitingManager

variable {m m' m'' : StopWaitingManager} {b : ℕ}

/-- The last frame is the largest one, and the next one does not fall below it. -/
structure Announced (m : StopWaitingManager) : Prop where
  sent_le : m.largestLeastUnackedSent ≤ m.nextLeastUnacked
  last_eq : m.lastStopWaitingFrame =
    if m.largestLeastUnackedSent = 0 then none else some m.largestLeastUnackedSent

/-- `m'` is `m` after the next number to announce was raised, to at most `b`. -/
structure RaisedTo (m : StopWaitingManager) (b : ℕ) (m' : StopWaitingManager) : Prop where
  sent_eq : m'.largestLeastUnackedSent = m.largestLeastUnackedSent
  last_eq : m'.lastStopWaitingFrame = m.lastStopWaitingFrame
  next_le : m.nextLeastUnacked ≤ m'.nextLeastUnacked
  le_max : m'.nextLeastUnacked ≤ max m.nextLeastUnacked b

/-- Raising by nothing. -/
theorem RaisedTo.refl (m : StopWaitingManager) (b : ℕ) : m.RaisedTo b m :=
  ⟨rfl, rfl, le_rfl, le_max_left _ _⟩

/-- Two raises with one bound are a raise with it. -/
theorem RaisedTo.trans (h : m.RaisedTo b m') (h' : m'.RaisedTo b m'') : m.RaisedTo b m'' := by
  refine ⟨h'.sent_eq.trans h.sent_eq, h'.last_eq.trans h.last_eq, h.next_le.trans h'.next_le, ?_⟩
  exact h'.le_max.trans (max_le h.le_max (le_max_right _ _))

/-- What was announced stays announced when the next number is raised. -/
theorem Announced.raisedTo (h : m.Announced) (hm : m.RaisedTo b m') : m'.Announced := by
  refine ⟨?_, ?_⟩
  · rw [hm.sent_eq]
    exact h.sent_le.trans hm.next_le
  · rw [hm.last_eq, hm.sent_eq, h.last_eq]

/-- An acknowledged packet below `b` raises the next number to at most `b`. -/
theorem receivedAck_raisedTo {n : ℕ} (hn : n < b) : m.RaisedTo b (m.receivedAck n) := by
  unfold receivedAck
  split_ifs with h
  · exact ⟨rfl, rfl, by dsimp only; omega, by dsimp only; omega⟩
  · exact .refl m b

/-- A queued packet below `b` raises the next number to at most `b`. -/
theorem queuedRetransmissionForPacketNumber_raisedTo {n : ℕ} (hn : n < b) :
    m.RaisedTo b (m.queuedRetransmissionForPacketNumber n) := by
  unfold queuedRetransmissionForPacketNumber
  split_ifs with h
  · exact ⟨rfl, rfl, by dsimp only; omega, by dsimp only; omega⟩
  · exact .refl m b

/-- A frame carries the next number to announce, also when it repeats the last one. -/
theorem Announced.leastUnacked_eq (h : m.Announced) {force : Bool} {u : ℕ}
    (hframe : (m.getStopWaitingFrame force).1 = some u) : u = m.nextLeastUnacked ∧ 0 < u := by
  have hle := h.sent_le
  have hlast := h.last_eq
  unfold getStopWaitingFrame at hframe
  by_cases hnew : m.nextLeastUnacked ≤ m.largestLeastUnackedSent
  · rw [if_pos hnew] at hframe
    cases force with
    | false => cases hframe
    | true =>
      -- a frame that was sent is remembered, so that the last one is repeated
      split_ifs at hlast with hzero
      · simp [hlast, hzero] at hframe
      · simp only [↓reduceIte, hlast, Option.isNone_some, Bool.false_and, Bool.false_eq_true,
          Option.some.injEq] at hframe
        omega
  · rw [if_neg hnew] at hframe
    obtain rfl := Option.some.inj hframe
    exact ⟨rfl, by omega⟩

/-- A frame does not change the next number. -/
theorem getStopWaitingFrame_nextLeastUnacked (m : StopWaitingManager) (force : Bool) :
    (m.getStopWaitingFrame force).2.nextLeastUnacked = m.nextLeastUnacked := by
  unfold getStopWaitingFrame
  split_ifs <;> rfl

/-- A frame that is sent is remembered as the last and the largest one. -/
theorem Announced.getStopWaitingFrame (h : m.Announced) (force : Bool) :
    (m.getStopWaitingFrame force).2.Announced := by
  have hlast := h.last_eq
  unfold StopWaitingManager.getStopWaitingFrame
  split_ifs with hnew hforce hfirst
  · rw [hlast] at hfirst
    simp at hfirst
    omega
  · exact h
  · exact h
  · refine ⟨le_rfl, ?_⟩
    dsimp only
    rw [if_neg (by omega)]

end StopWaitingManager

namespace SentPacketHandler

variable {h h' h'' : SentPacketHandler} {env : Env} {p : Packet} {lost : List Packet}

/-! ## What is announced -/

/-- The numbers that the handler reports are those of packets that were sent. -/
structure StopWaiting (h : SentPacketHandler) : Prop where
  announced : h.stopWaitingManager.Announced
  next_le : h.stopWaitingManager.nextLeastUnacked ≤ h.lastSentPacketNumber + 1
  largestAcked_le : h.largestAcked ≤ h.lastSentPacketNumber

/-- `h'` is `h` after packets left the history, for the retransmission queue or for good. -/
structure Releases (h h' : SentPacketHandler) : Prop where
  lastSent : h'.lastSentPacketNumber = h.lastSentPacketNumber
  largestAcked : h'.largestAcked = h.largestAcked
  stopWaiting : h.stopWaitingManager.RaisedTo (h.lastSentPacketNumber + 1) h'.stopWaitingManager

/-- `h'` is `h` after packets left the history for good. The manager is not told. -/
structure Drops (h h' : SentPacketHandler) : Prop where
  lastSent : h'.lastSentPacketNumber = h.lastSentPacketNumber
  largestAcked : h'.largestAcked = h.largestAcked
  history : h'.packetHistory ⊆ h.packetHistory
  stopWaiting : h'.stopWaitingManager = h.stopWaitingManager

/-- No packet left. -/
theorem Releases.refl (h : SentPacketHandler) : h.Releases h := ⟨rfl, rfl, .refl _ _⟩

/-- Packets leave in several steps. -/
theorem Releases.trans (hr : h.Releases h') (hr' : h'.Releases h'') : h.Releases h'' := by
  refine ⟨hr'.lastSent.trans hr.lastSent, hr'.largestAcked.trans hr.largestAcked, ?_⟩
  exact hr.stopWaiting.trans (hr.lastSent ▸ hr'.stopWaiting)

/-- No packet left. -/
theorem Drops.refl (h : SentPacketHandler) : h.Drops h := ⟨rfl, rfl, List.Subset.refl _, rfl⟩

/-- Packets leave in several steps. -/
theorem Drops.trans (hd : h.Drops h') (hd' : h'.Drops h'') : h.Drops h'' :=
  ⟨hd'.lastSent.trans hd.lastSent, hd'.largestAcked.trans hd.largestAcked,
    List.Subset.trans hd'.history hd.history, hd'.stopWaiting.trans hd.stopWaiting⟩

/-- Without a notice to the manager the next number stays. -/
theorem Drops.releases (hd : h.Drops h') : h.Releases h' :=
  ⟨hd.lastSent, hd.largestAcked, hd.stopWaiting ▸ .refl _ _⟩

/-- A new handler has announced nothing. -/
theorem stopWaiting_new : new.StopWaiting := ⟨⟨le_rfl, rfl⟩, by decide, le_rfl⟩

/-- Packets that leave the history were sent before. -/
theorem StopWaiting.releases (hs : h.StopWaiting) (hr : h.Releases h') : h'.StopWaiting := by
  have hnext := hr.stopWaiting.le_max
  have hle := hs.next_le
  refine ⟨hs.announced.raisedTo hr.stopWaiting, ?_, ?_⟩
  · rw [hr.lastSent]
    omega
  · rw [hr.lastSent, hr.largestAcked]
    exact hs.largestAcked_le

/-- The alarm leaves the packets alone. -/
theorem drops_updateLossDetectionAlarm (h : SentPacketHandler) (env : Env) :
    h.Drops (h.updateLossDetectionAlarm env) := by
  unfold updateLossDetectionAlarm
  split
  · exact ⟨rfl, rfl, List.Subset.refl _, rfl⟩
  · split
    · exact ⟨rfl, rfl, List.Subset.refl _, rfl⟩
    · split <;> exact ⟨rfl, rfl, List.Subset.refl _, rfl⟩

/-- An acknowledged packet leaves for good. -/
theorem drops_onPacketAcked (h : SentPacketHandler) (p : Packet) : h.Drops (h.onPacketAcked p) :=
  ⟨rfl, rfl, (KeyedList.eraseKey_sublist _ _ _).subset, rfl⟩

/-- So do all packets that a frame acknowledges. -/
theorem drops_foldl_onPacketAcked (h : SentPacketHandler) (acked : List Packet) :
    h.Drops (acked.foldl onPacketAcked h) := by
  induction acked generalizing h with
  | nil => exact .refl h
  | cons p acked ih => exact (h.drops_onPacketAcked p).trans (ih _)

/-- A packet that was acknowledged on another path leaves for good. -/
theorem drops_removePacketByNumber (h : SentPacketHandler) (num : ℕ) :
    h.Drops (h.removePacketByNumber num).2 := by
  have herase := (KeyedList.eraseKey_sublist Packet.packetNumber · h.packetHistory)
  unfold removePacketByNumber
  cases h.find num with
  | some p =>
    dsimp only
    split_ifs <;> exact ⟨rfl, rfl, (herase p.packetNumber).subset, rfl⟩
  | none =>
    dsimp only
    split_ifs <;> exact ⟨rfl, rfl, List.Subset.refl _, rfl⟩

/-! ## Queuing packets -/

/-- Queuing packets raises the next number to at most the one after the last packet. -/
theorem releases_foldl_queue (hlost : ∀ p ∈ lost, p.packetNumber ≤ h.lastSentPacketNumber) :
    h.Releases (lost.foldl queuePacketForRetransmission h) := by
  induction lost generalizing h with
  | nil => exact .refl h
  | cons p lost ih =>
    obtain ⟨hp, hlost⟩ := List.forall_mem_cons.mp hlost
    have hqueue : h.Releases (h.queuePacketForRetransmission p) :=
      ⟨rfl, rfl, StopWaitingManager.queuedRetransmissionForPacketNumber_raisedTo (by omega)⟩
    exact hqueue.trans (ih hlost)

/-- Packets below `b` do not raise the next number to announce above `b`. -/
theorem nextLeastUnacked_foldl_queue_le {b : ℕ} (hlost : ∀ p ∈ lost, p.packetNumber < b)
    (hnext : h.stopWaitingManager.nextLeastUnacked ≤ b) :
    (lost.foldl queuePacketForRetransmission h).stopWaitingManager.nextLeastUnacked ≤ b := by
  induction lost generalizing h with
  | nil => exact hnext
  | cons p lost ih =>
    obtain ⟨hp, hlost⟩ := List.forall_mem_cons.mp hlost
    have hraised := StopWaitingManager.queuedRetransmissionForPacketNumber_raisedTo
      (m := h.stopWaitingManager) hp
    exact ih hlost (hraised.le_max.trans (max_le hnext le_rfl))

/-- The packets that loss detection gives up are the overdue ones up to the largest acked one. -/
theorem mem_scanLost {largestAcked now delayUntilLost : ℕ} {l : List Packet} {lossTime : Option ℕ}
    (hsorted : l.Pairwise (·.packetNumber < ·.packetNumber)) :
    p ∈ (scanLost largestAcked now delayUntilLost l lossTime).1 ↔
      p ∈ l ∧ p.packetNumber ≤ largestAcked ∧ delayUntilLost < now - p.sendTime := by
  induction l generalizing lossTime with
  | nil => simp [scanLost]
  | cons q l ih =>
    obtain ⟨hq, hl⟩ := List.pairwise_cons.mp hsorted
    rw [scanLost]
    split_ifs with habove hlate
    · -- the scan stops here: the later packets are above the largest acked one as well
      simp only [List.not_mem_nil, List.mem_cons, false_iff]
      rintro ⟨rfl | hp, hle, -⟩
      · omega
      · have := hq p hp
        omega
    · simp only [List.mem_cons, ih hl]
      constructor
      · rintro (rfl | ⟨hp, hle, hdue⟩)
        · exact ⟨.inl rfl, not_lt.mp habove, hlate⟩
        · exact ⟨.inr hp, hle, hdue⟩
      · rintro ⟨rfl | hp, hle, hdue⟩
        · exact .inl rfl
        · exact .inr ⟨hp, hle, hdue⟩
    · simp only [List.mem_cons, ih hl]
      constructor
      · rintro ⟨hp, hle, hdue⟩
        exact ⟨.inr hp, hle, hdue⟩
      · rintro ⟨rfl | hp, hle, hdue⟩
        · exact absurd hdue hlate
        · exact ⟨hp, hle, hdue⟩

/-- Loss detection queues packets of the history. -/
theorem releases_detectLostPackets (hinv : h.InFlight) (env : Env) :
    h.Releases (h.detectLostPackets env) := by
  have hrange : ∀ p ∈ h.packetHistory, p.packetNumber ≤ h.lastSentPacketNumber :=
    fun p hp => (hinv.range p hp).2
  unfold detectLostPackets
  dsimp only
  generalize hscan : scanLost h.largestAcked env.now _ h.packetHistory none = r
  have hsub : r.1.Sublist h.packetHistory := hscan ▸ scanLost_sublist _ _ _ _ _
  have hlost : ∀ p ∈ r.1, p.packetNumber ≤ h.lastSentPacketNumber :=
    fun p hp => hrange p (hsub.subset hp)
  obtain ⟨hlast, hlargest, hwaiting⟩ := releases_foldl_queue
    (h := { h with lossTime := r.2 }) hlost
  exact ⟨hlast, hlargest, hwaiting⟩

/-- Giving up a path queues packets of the history. -/
theorem releases_setInflightAsLost (hinv : h.InFlight) : h.Releases h.setInflightAsLost :=
  releases_foldl_queue fun p hp => (hinv.range p ((List.takeWhile_sublist _).subset hp)).2

/-- A tail loss probe queues the last packet. -/
theorem retransmitTLP_eq (h : SentPacketHandler) :
    h.retransmitTLP = h.packetHistory.getLast?.toList.foldl queuePacketForRetransmission h := by
  unfold retransmitTLP
  cases h.packetHistory.getLast? <;> rfl

/-- A retransmission timeout queues the first packet. -/
theorem retransmitOldestPacket_eq (h : SentPacketHandler) :
    h.retransmitOldestPacket = (h.packetHistory.take 1).foldl queuePacketForRetransmission h := by
  unfold retransmitOldestPacket
  cases h.packetHistory <;> rfl

/-- The last packet of the history was sent. -/
theorem releases_retransmitTLP (hinv : h.InFlight) : h.Releases h.retransmitTLP := by
  rw [retransmitTLP_eq]
  refine releases_foldl_queue fun p hp => (hinv.range p ?_).2
  exact List.mem_of_getLast? (Option.mem_toList.mp hp)

/-- Queuing the first packet keeps the accounting. -/
theorem inFlight_retransmitOldestPacket (hinv : h.InFlight) :
    h.retransmitOldestPacket.InFlight :=
  hinv.queues ⟨_, List.take_sublist 1 _, iterate_retransmitOldestPacket h 1⟩

/-- The first packets of the history were sent. -/
theorem releases_iterate_retransmitOldestPacket (hinv : h.InFlight) (n : ℕ) :
    h.Releases (retransmitOldestPacket^[n] h) := by
  induction n generalizing h with
  | zero => exact .refl h
  | succ n ih =>
    have hfirst : h.Releases h.retransmitOldestPacket := by
      rw [retransmitOldestPacket_eq]
      exact releases_foldl_queue fun p hp => (hinv.range p (List.mem_of_mem_take hp)).2
    exact hfirst.trans (ih (inFlight_retransmitOldestPacket hinv))

/-- Whatever the alarm is for, it queues packets of the history. -/
theorem releases_onAlarm (hinv : h.InFlight) (env : Env) (potentiallyFailed : Bool) :
    h.Releases (h.onAlarm env potentiallyFailed) := by
  have halarm := fun h : SentPacketHandler => (h.drops_updateLossDetectionAlarm env).releases
  unfold onAlarm
  split_ifs
  · exact ⟨rfl, rfl, .refl _ _⟩
  · exact (releases_detectLostPackets hinv env).trans (halarm _)
  · obtain ⟨hlast, hlargest, hwaiting⟩ := releases_retransmitTLP hinv
    refine Releases.trans ?_ (halarm _)
    exact ⟨hlast, hlargest, hwaiting⟩
  · obtain ⟨hlast, hlargest, hwaiting⟩ :=
      releases_iterate_retransmitOldestPacket hinv h.packetHistory.length
    refine Releases.trans ?_ (halarm _)
    exact ⟨hlast, hlargest, hwaiting⟩
  · obtain ⟨hlast, hlargest, hwaiting⟩ := releases_iterate_retransmitOldestPacket hinv 2
    refine Releases.trans ?_ (halarm _)
    exact ⟨hlast, hlargest, hwaiting⟩

/-- The manager is not told about packets that are sent. -/
theorem sentPacket_stopWaitingManager {packet : Packet} (hok : h.sentPacket packet env = .ok h') :
    h'.stopWaitingManager = h.stopWaitingManager := by
  unfold sentPacket at hok
  split_ifs at hok
  rw [← Except.ok.inj hok, (drops_updateLossDetectionAlarm _ env).stopWaiting]
  split_ifs <;> rfl

/-- A packet that is sent has a higher number than what is announced. -/
theorem StopWaiting.sentPacket {packet : Packet} (hs : h.StopWaiting)
    (hok : h.sentPacket packet env = .ok h') : h'.StopWaiting := by
  have hmanager := sentPacket_stopWaitingManager hok
  obtain ⟨hnumber, -, hack, htracked⟩ := sentPacket_ok hok
  have hlast : h'.lastSentPacketNumber = packet.packetNumber := by
    rcases htracked with ⟨-, heq⟩ | ⟨-, heq⟩ <;> rw [heq]
    rfl
  have hlargest : h'.largestAcked = h.largestAcked := by rw [hack]
  have hnext := hs.next_le
  have hle := hs.largestAcked_le
  refine ⟨hmanager ▸ hs.announced, ?_, ?_⟩
  · rw [hmanager, hlast]
    omega
  · rw [hlargest, hlast]
    omega

/-! ## What is outstanding -/

/-- No packet of the history is below the next number to announce. -/
def Settled (h : SentPacketHandler) : Prop :=
  ∀ p ∈ h.packetHistory, h.stopWaitingManager.nextLeastUnacked ≤ p.packetNumber

/-- A packet that was sent so long ago that loss detection gives it up. -/
def Overdue (env : Env) (p : Packet) : Prop :=
  max env.latestRTT env.smoothedRTT * 9 / 8 < env.now - p.sendTime

instance (env : Env) (p : Packet) : Decidable (Overdue env p) := by
  unfold Overdue
  infer_instance

/-- A new handler has no packets. -/
theorem settled_new : new.Settled := by simp [Settled, new]

/-- Packets that leave the history need not be above the next number. -/
theorem Settled.drops (hs : h.Settled) (hd : h.Drops h') : h'.Settled := by
  intro p hp
  rw [hd.stopWaiting]
  exact hs p (hd.history hp)

/-- Queuing packets is safe if no older packet stays behind. -/
theorem Settled.foldl_queue (hs : h.Settled) (hinv : h.InFlight)
    (hsub : lost.Sublist h.packetHistory)
    (hclosed : ∀ p ∈ h.packetHistory, p ∉ lost → ∀ q ∈ lost, q.packetNumber < p.packetNumber) :
    (lost.foldl queuePacketForRetransmission h).Settled := by
  intro p hp
  rw [foldl_queuePacketForRetransmission, hinv.mem_foldl_queue hsub] at hp
  exact nextLeastUnacked_foldl_queue_le (hclosed p hp.1 hp.2) (hs p hp.1)

/-- The packets that loss detection leaves in the history. -/
theorem mem_detectLostPackets (hinv : h.InFlight) :
    p ∈ (h.detectLostPackets env).packetHistory ↔
      p ∈ h.packetHistory ∧ ¬ (p.packetNumber ≤ h.largestAcked ∧ Overdue env p) := by
  unfold detectLostPackets
  dsimp only
  rw [foldl_queuePacketForRetransmission]
  refine (hinv.mem_foldl_queue (scanLost_sublist _ _ _ _ _)).trans (and_congr_right fun hp => ?_)
  rw [mem_scanLost hinv.sorted]
  exact not_congr (and_iff_right hp)

/-- Loss detection raises the next number to announce to at most the one after the largest acked
packet. -/
theorem nextLeastUnacked_detectLostPackets_le {b : ℕ} (hinv : h.InFlight)
    (hlargest : h.largestAcked < b) (hnext : h.stopWaitingManager.nextLeastUnacked ≤ b) :
    (h.detectLostPackets env).stopWaitingManager.nextLeastUnacked ≤ b := by
  refine nextLeastUnacked_foldl_queue_le (h := { h with lossTime := _ }) (fun p hp => ?_) hnext
  rw [mem_scanLost hinv.sorted] at hp
  exact hp.2.1.trans_lt hlargest

/-- Loss detection is safe if an older packet is overdue when a later one is. -/
theorem Settled.detectLostPackets (hs : h.Settled) (hinv : h.InFlight)
    (horder : ∀ p ∈ h.packetHistory, ∀ q ∈ h.packetHistory, p.packetNumber < q.packetNumber →
      q.packetNumber ≤ h.largestAcked → Overdue env q → Overdue env p) :
    (h.detectLostPackets env).Settled := by
  refine Settled.foldl_queue (h := { h with lossTime := _ }) hs hinv (scanLost_sublist _ _ _ _ _)
    fun p hp hkept q hq => ?_
  rw [mem_scanLost hinv.sorted] at hkept hq
  by_contra hlt
  rcases (not_lt.mp hlt).lt_or_eq with hlt | heq
  · exact hkept ⟨hp, by omega, horder p hp q hq.1 hlt hq.2.1 hq.2.2⟩
  · obtain rfl : p = q := List.inj_on_of_nodup_map hinv.nodup hp hq.1 heq
    exact hkept hq

/-- Giving up a path is safe: the packets that stay are above `LargestAcked`. -/
theorem Settled.setInflightAsLost (hs : h.Settled) (hinv : h.InFlight) :
    h.setInflightAsLost.Settled := by
  refine hs.foldl_queue hinv (List.takeWhile_sublist _) fun p hp hkept q hq => ?_
  rw [mem_takeWhile_of_sorted hinv.sorted] at hkept hq
  have hlt : h.largestAcked < p.packetNumber := not_le.mp fun hle => hkept ⟨hp, hle⟩
  omega

/-- A tail loss probe is safe if there is no other packet. -/
theorem Settled.retransmitTLP (hs : h.Settled) (hinv : h.InFlight)
    (hone : h.packetHistory.length ≤ 1) : h.retransmitTLP.Settled := by
  rw [retransmitTLP_eq]
  rcases hhist : h.packetHistory with _ | ⟨p, _ | ⟨q, rest⟩⟩
  · exact hs
  · refine hs.foldl_queue hinv ?_ fun q hq hkept => ?_
    · rw [hhist]
      exact List.Sublist.refl _
    · rw [hhist] at hq
      exact absurd hq hkept
  · rw [hhist] at hone
    simp at hone

/-- A retransmission timeout queues the oldest packets first. -/
theorem Settled.iterate_retransmitOldestPacket (hs : h.Settled) (hinv : h.InFlight) (n : ℕ) :
    (retransmitOldestPacket^[n] h).Settled := by
  induction n generalizing h with
  | zero => exact hs
  | succ n ih =>
    refine ih ?_ (inFlight_retransmitOldestPacket hinv)
    rw [retransmitOldestPacket_eq]
    refine hs.foldl_queue hinv (List.take_sublist 1 _) fun p hp hkept q hq => ?_
    have hsorted := hinv.sorted
    cases hhist : h.packetHistory with
    | nil => simp [hhist] at hp
    | cons first rest =>
      rw [hhist] at hp hkept hq hsorted
      obtain rfl : q = first := by simpa using hq
      have hp : p ∈ rest := by simpa using (List.mem_cons.mp hp).resolve_left (by simpa using hkept)
      exact (List.pairwise_cons.mp hsorted).1 p hp

/-- When an alarm is safe. The first condition holds with a clock that does not run backwards. -/
theorem Settled.onAlarm (hs : h.Settled) (hinv : h.InFlight) {potentiallyFailed : Bool}
    (hloss : h.lossTime.isSome → ∀ p ∈ h.packetHistory, ∀ q ∈ h.packetHistory,
      p.packetNumber < q.packetNumber → q.packetNumber ≤ h.largestAcked →
        Overdue env q → Overdue env p)
    (hprobe : h.lossTime = none → h.tlpCount < maxTailLossProbes → h.packetHistory.length ≤ 1) :
    (h.onAlarm env potentiallyFailed).Settled := by
  have halarm := fun h : SentPacketHandler => h.drops_updateLossDetectionAlarm env
  unfold SentPacketHandler.onAlarm
  -- nothing to retransmit, early retransmit, tail loss probe, and a retransmission timeout, after
  -- which the path is potentially failed or not
  split_ifs with hnone hlossTime htlp
  · exact hs
  · exact (hs.detectLostPackets hinv (hloss hlossTime)).drops (halarm _)
  · have htail := hs.retransmitTLP hinv (hprobe (by simpa using hlossTime) htlp)
    refine Settled.drops ?_ (halarm _)
    exact htail
  · have hall := hs.iterate_retransmitOldestPacket hinv h.packetHistory.length
    refine Settled.drops ?_ (halarm _)
    exact hall
  · have htwo := hs.iterate_retransmitOldestPacket hinv 2
    refine Settled.drops ?_ (halarm _)
    exact htwo

/-- A packet that is sent is above what is announced. -/
theorem Settled.sentPacket {packet : Packet} (hs : h.Settled) (hw : h.StopWaiting)
    (hok : h.sentPacket packet env = .ok h') : h'.Settled := by
  have hmanager := sentPacket_stopWaitingManager hok
  obtain ⟨hnumber, -, -, ⟨-, heq⟩ | ⟨-, heq⟩⟩ := sentPacket_ok hok <;> intro p hp <;>
    rw [hmanager] <;> rw [heq] at hp
  · exact hs p hp
  · rcases List.mem_append.mp hp with hp | hp
    · exact hs p hp
    · obtain rfl := List.mem_singleton.mp hp
      exact hw.next_le.trans hnumber

end SentPacketHandler

end MPQuic
