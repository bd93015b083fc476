import MPQuic.AckHandler.InFlight

/-!
# Skipped packet numbers

The handler remembers the packet numbers that it skipped, to detect a peer that acknowledges
packets it did not receive. `Skips` says that these numbers were never sent, so that a frame which
acknowledges only packets that were sent passes the check. Together with the accounting of the
packets in flight it is the invariant of the handler.
-/

namespace MPQuic

open TrackedPackets

namespace SentPacketHandler

/-- The skipped packet numbers were not sent, and no number above the last one was. -/
structure Skips (h : SentPacketHandler) : Prop where
  not_sent : ∀ n ∈ h.skippedPackets, n ∉ h.sent
  skipped_le : ∀ n ∈ h.skippedPackets, n ≤ h.lastSentPacketNumber
  sent_le : ∀ n ∈ h.sent, n ≤ h.lastSentPacketNumber

/-- `h'` sent the same packets as `h`, and remembers no other skipped numbers. -/
structure Forgets (h h' : SentPacketHandler) : Prop where
  lastSent : h'.lastSentPacketNumber = h.lastSentPacketNumber
  sent : h'.sent = h.sent
  skipped : h'.skippedPackets ⊆ h.skippedPackets

variable {h h' h'' : SentPacketHandler} {env : Env}

/-- Nothing is forgotten if what was sent and skipped stays. -/
theorem Forgets.of_eq (hlast : h'.lastSentPacketNumber = h.lastSentPacketNumber)
    (hack : h'.toAckState = h.toAckState) : h.Forgets h' :=
  ⟨hlast, by rw [hack], by rw [hack]; exact fun _ => id⟩

/-- Forgetting twice is forgetting. -/
theorem Forgets.trans (hf : h.Forgets h') (hf' : h'.Forgets h'') : h.Forgets h'' :=
  ⟨hf'.lastSent.trans hf.lastSent, hf'.sent.trans hf.sent, fun _ hn => hf.skipped (hf'.skipped hn)⟩

/-- Forgotten numbers need no check. -/
theorem Skips.forgets (hs : h.Skips) (hf : h.Forgets h') : h'.Skips := by
  refine ⟨fun n hn => ?_, fun n hn => ?_, fun n hn => ?_⟩
  · rw [hf.sent]
    exact hs.not_sent n (hf.skipped hn)
  · rw [hf.lastSent]
    exact hs.skipped_le n (hf.skipped hn)
  · rw [hf.lastSent]
    exact hs.sent_le n (hf.sent ▸ hn)

/-! ## What the functions forget -/

/-- `h'` sent the same packets as `h`, and forgot at most the oldest skipped numbers. -/
structure Trims (h h' : SentPacketHandler) : Prop extends Forgets h h' where
  suffix : h'.skippedPackets <:+ h.skippedPackets

/-- Nothing is trimmed if what was sent and skipped stays. -/
theorem Trims.of_eq (hlast : h'.lastSentPacketNumber = h.lastSentPacketNumber)
    (hack : h'.toAckState = h.toAckState) : h.Trims h' :=
  ⟨.of_eq hlast hack, by simp only [hack, List.suffix_rfl]⟩

/-- Trimming twice is trimming. -/
theorem Trims.trans (hf : h.Trims h') (hf' : h'.Trims h'') : h.Trims h'' :=
  ⟨hf.toForgets.trans hf'.toForgets, hf'.suffix.trans hf.suffix⟩

/-- A loop trims if each round does. -/
theorem trims_foldl {f : SentPacketHandler → Packet → SentPacketHandler}
    (hf : ∀ (h : SentPacketHandler) p, h.Trims (f h p)) (h : SentPacketHandler)
    (l : List Packet) : h.Trims (l.foldl f h) := by
  induction l generalizing h with
  | nil => exact .of_eq rfl rfl
  | cons p l ih => exact (hf h p).trans (ih (f h p))

section

variable (h)

/-- The alarm is of no concern here. -/
theorem trims_updateLossDetectionAlarm (env : Env) :
    h.Trims (h.updateLossDetectionAlarm env) := by
  refine .of_eq ?_ (updateLossDetectionAlarm_ackState h env)
  rw [updateLossDetectionAlarm_tracked]

/-- Queuing a packet keeps its number among the sent ones. -/
theorem trims_queuePacketForRetransmission (p : Packet) :
    h.Trims (h.queuePacketForRetransmission p) := .of_eq rfl rfl

/-- Loss detection only queues packets. -/
theorem trims_detectLostPackets (env : Env) :
    h.Trims (h.detectLostPackets env) := by
  refine .trans ?_ (trims_foldl trims_queuePacketForRetransmission _ _)
  exact .of_eq rfl rfl

/-- Giving up a path only queues packets. -/
theorem trims_setInflightAsLost : h.Trims h.setInflightAsLost :=
  trims_foldl trims_queuePacketForRetransmission h _

/-- At most one packet is queued. -/
theorem trims_retransmitOldestPacket :
    h.Trims h.retransmitOldestPacket := by
  unfold retransmitOldestPacket
  split
  · exact h.trims_queuePacketForRetransmission _
  · exact .of_eq rfl rfl

/-- At most one packet is queued. -/
theorem trims_retransmitTLP : h.Trims h.retransmitTLP := by
  unfold retransmitTLP
  split
  · exact h.trims_queuePacketForRetransmission _
  · exact .of_eq rfl rfl

/-- The oldest packet is queued until there is none. -/
theorem trims_retransmitAllPackets :
    h.Trims h.retransmitAllPackets := by
  unfold retransmitAllPackets
  generalize h.packetHistory.length = n
  induction n generalizing h with
  | zero => exact .of_eq rfl rfl
  | succ n ih => exact h.trims_retransmitOldestPacket.trans (ih _)

/-- Whatever the alarm is for, it only queues packets. -/
theorem trims_onAlarm (env : Env) (potentiallyFailed : Bool) :
    h.Trims (h.onAlarm env potentiallyFailed) := by
  unfold onAlarm
  split_ifs
  · exact .of_eq rfl rfl
  · exact (h.trims_detectLostPackets env).trans (trims_updateLossDetectionAlarm _ env)
  · refine .trans ?_ (trims_updateLossDetectionAlarm _ env)
    exact h.trims_retransmitTLP.trans (.of_eq rfl rfl)
  · refine .trans ?_ (trims_updateLossDetectionAlarm _ env)
    exact h.trims_retransmitAllPackets.trans (.of_eq rfl rfl)
  · refine .trans ?_ (trims_updateLossDetectionAlarm _ env)
    exact (h.trims_retransmitOldestPacket.trans (trims_retransmitOldestPacket _)).trans
      (.of_eq rfl rfl)

/-- The garbage collection drops the oldest numbers. -/
theorem trims_garbageCollectSkippedPackets :
    h.Trims h.garbageCollectSkippedPackets :=
  ⟨⟨rfl, rfl, fun _ hn => List.mem_of_mem_drop hn⟩, List.drop_suffix _ _⟩

/-- A packet of another path is removed from the history only. -/
theorem trims_removePacketByNumber (num : ℕ) :
    h.Trims (h.removePacketByNumber num).2 := by
  unfold removePacketByNumber
  cases h.find num with
  | some p =>
    dsimp only
    split_ifs <;> exact .of_eq rfl rfl
  | none =>
    dsimp only
    split_ifs <;> exact .of_eq rfl rfl

/-- The loop appends the numbers since the last packet, and forgets from the front. -/
theorem skipPackets_suffix (packetNumber : ℕ) :
    h.skipPackets packetNumber <:+ h.skippedPackets ++
      List.range' (h.lastSentPacketNumber + 1) (packetNumber - (h.lastSentPacketNumber + 1)) := by
  unfold skipPackets
  generalize List.range' _ _ = l
  generalize h.skippedPackets = skipped
  induction l generalizing skipped with
  | nil => rw [List.append_nil]; exact List.suffix_rfl
  | cons p l ih =>
    refine (ih _).trans ?_
    have hround : ∀ next : List ℕ, next <:+ skipped ++ [p] → next ++ l <:+ skipped ++ p :: l := by
      rintro next ⟨forgotten, heq⟩
      exact ⟨forgotten, by rw [← List.append_assoc, heq, List.append_assoc]; rfl⟩
    dsimp only
    split_ifs
    · exact hround _ (List.drop_suffix 1 _)
    · exact hround _ List.suffix_rfl

end

/-- The loop remembers at most `maxTrackedSkippedPackets` numbers. -/
theorem length_skipPackets_le (hlen : h.skippedPackets.length ≤ maxTrackedSkippedPackets)
    (packetNumber : ℕ) : (h.skipPackets packetNumber).length ≤ maxTrackedSkippedPackets := by
  unfold skipPackets
  generalize List.range' _ _ = l
  generalize h.skippedPackets = skipped at hlen
  induction l generalizing skipped with
  | nil => exact hlen
  | cons p l ih =>
    refine ih _ ?_
    dsimp only
    -- one number is appended in a round, so that one number is enough to forget
    split_ifs with hfull
    · rw [List.length_drop, List.length_append, List.length_singleton]
      omega
    · exact not_lt.mp hfull

/-- A packet that is sent skips the numbers since the last one. -/
theorem mem_skipPackets {packetNumber n : ℕ} (hn : n ∈ h.skipPackets packetNumber) :
    n ∈ h.skippedPackets ∨ (h.lastSentPacketNumber < n ∧ n < packetNumber) := by
  rcases List.mem_append.mp ((h.skipPackets_suffix packetNumber).subset hn) with hmem | hmem
  · exact .inl hmem
  · rw [List.mem_range'_1] at hmem
    exact .inr ⟨by omega, by omega⟩

/-- The new number and the numbers it skips are above the last one. -/
theorem skips_sentPacket {packet : Packet} (hs : h.Skips)
    (hok : h.sentPacket packet env = .ok h') : h'.Skips := by
  obtain ⟨hnumber, -, hack, htracked⟩ := sentPacket_ok hok
  have hlast : h'.lastSentPacketNumber = packet.packetNumber := by
    rcases htracked with ⟨-, heq⟩ | ⟨-, heq⟩
    · rw [heq]
    · rw [heq]
      rfl
  have hsent : h'.sent = packet.packetNumber :: h.sent := by rw [hack]
  -- a number that is newly skipped lies between the last packet and this one
  have hmem : ∀ n ∈ h'.skippedPackets,
      n ∈ h.skippedPackets ∨ (h.lastSentPacketNumber < n ∧ n < packet.packetNumber) := by
    rw [hack]
    exact fun n hn => mem_skipPackets hn
  refine ⟨fun n hn => ?_, fun n hn => ?_, fun n hn => ?_⟩
  · rw [hsent, List.mem_cons, not_or]
    rcases hmem n hn with h' | ⟨hlow, hhigh⟩
    · have hle := hs.skipped_le n h'
      exact ⟨by omega, hs.not_sent n h'⟩
    · exact ⟨by omega, fun hmem => absurd (hs.sent_le n hmem) (by omega)⟩
  · rw [hlast]
    rcases hmem n hn with h' | h'
    · have hle := hs.skipped_le n h'
      omega
    · omega
  · rw [hlast]
    rw [hsent, List.mem_cons] at hn
    rcases hn with rfl | hn
    · exact le_rfl
    · have hle := hs.sent_le n hn
      omega

/-- The skipped packet numbers are listed in increasing order, and there are not too many. -/
structure SkipsInOrder (h : SentPacketHandler) : Prop extends Skips h where
  sorted : h.skippedPackets.Pairwise (· < ·)
  length_le : h.skippedPackets.length ≤ maxTrackedSkippedPackets

/-- What is left after trimming is still in order. -/
theorem SkipsInOrder.trims (hs : h.SkipsInOrder) (ht : h.Trims h') : h'.SkipsInOrder :=
  ⟨hs.toSkips.forgets ht.toForgets, hs.sorted.sublist ht.suffix.sublist,
    ht.suffix.length_le.trans hs.length_le⟩

/-- A new handler has skipped nothing. -/
theorem skipsInOrder_new : new.SkipsInOrder :=
  ⟨⟨by simp [new], by simp [new], by simp [new]⟩, by simp [new], by simp [new]⟩

/-- Skipped numbers are appended in increasing order. -/
theorem skipsInOrder_sentPacket {packet : Packet} (hs : h.SkipsInOrder)
    (hok : h.sentPacket packet env = .ok h') : h'.SkipsInOrder := by
  obtain ⟨-, -, hack, -⟩ := sentPacket_ok hok
  have hskipped : h'.skippedPackets = h.skipPackets packet.packetNumber := by rw [hack]
  refine ⟨skips_sentPacket hs.toSkips hok, ?_, ?_⟩
  · -- the appended numbers are above the last packet, the others are not
    rw [hskipped]
    refine List.Pairwise.sublist (h.skipPackets_suffix _).sublist ?_
    refine List.pairwise_append.mpr ⟨hs.sorted, List.pairwise_lt_range', fun n hn m hm => ?_⟩
    have hle := hs.skipped_le n hn
    rw [List.mem_range'_1] at hm
    omega
  · rw [hskipped]
    exact length_skipPackets_le hs.length_le _

/-! ## The invariant of the handler -/

/-- The accounting of the packets in flight, and the skipped packet numbers. -/
structure Inv (h : SentPacketHandler) : Prop where
  inFlight : h.InFlight
  skips : h.Skips

/-- A new handler has sent nothing. -/
theorem inv_new : new.Inv := ⟨inFlight_new, by simp [new], by simp [new], by simp [new]⟩

/-- A function that only declares packets lost keeps the invariant. -/
theorem Inv.queues (hinv : h.Inv) (hq : h.Queues h'.toTrackedPackets) (hf : h.Forgets h') :
    h'.Inv :=
  ⟨hinv.inFlight.queues hq, hinv.skips.forgets hf⟩

/-- Sending a packet keeps the invariant. -/
theorem Inv.sentPacket {packet : Packet} (hinv : h.Inv) (hlength : packet.length < 2 ^ 48)
    (hok : h.sentPacket packet env = .ok h') : h'.Inv :=
  ⟨inFlight_sentPacket hinv.inFlight hlength hok, skips_sentPacket hinv.skips hok⟩

/-- Removing a packet that was duplicated keeps the invariant. -/
theorem Inv.removePacketByNumber (hinv : h.Inv) (num : ℕ) :
    (h.removePacketByNumber num).2.Inv :=
  ⟨inFlight_removePacketByNumber hinv.inFlight num,
    hinv.skips.forgets (h.trims_removePacketByNumber num).toForgets⟩

/-- An acknowledged packet leaves the history. -/
theorem Inv.onPacketAcked (hinv : h.Inv) {p : Packet} (hp : p ∈ h.packetHistory) :
    (h.onPacketAcked p).Inv :=
  ⟨hinv.inFlight.remove hp, hinv.skips.forgets (.of_eq rfl rfl)⟩

/-- The retransmission queue is not part of the invariant. -/
theorem Inv.of_retransmissionQueue (hinv : h.Inv) (l : List Packet) :
    { h with retransmissionQueue := l }.Inv :=
  ⟨hinv.inFlight.of_retransmissionQueue l, hinv.skips.forgets (.of_eq rfl rfl)⟩

/-- A frame that acknowledges only packets that were sent acknowledges no skipped one. -/
theorem Skips.skippedPacketsAcked_eq_false (hs : h.Skips) {f : AckedPackets}
    (hf : ∀ n, f.acksPacket n = true → n ∈ h.sent) : h.skippedPacketsAcked f = false := by
  rw [skippedPacketsAcked, List.any_eq_false]
  exact fun n hn hacks => hs.not_sent n hn (hf n hacks)

end SentPacketHandler

end MPQuic
