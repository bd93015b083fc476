import Mathlib.Algebra.Order.BigOperators.Group.List
import MPQuic.AckHandler.SentPacketHandler

/-!
# The packets in flight

`InFlight` is the invariant of the tracked packets of a handler: the history is strictly
increasing, `bytesInFlight` is the sum of its lengths, and a packet that was taken out of it once
never comes back. It is shown for the changes that the handler makes to the history (`push`,
`remove`, `queue`). Every function of the handler is a sequence of such changes on packets that are
in the history at that time; `Queues` says this for the functions that declare packets lost.
-/

namespace MPQuic

open Bytes KeyedList

namespace TrackedPackets

/-- The accounting of the packets in flight. -/
structure InFlight (t : TrackedPackets) : Prop where
  sorted : t.packetHistory.Pairwise (·.packetNumber < ·.packetNumber)
  range : ∀ p ∈ t.packetHistory, 1 ≤ p.packetNumber ∧ p.packetNumber ≤ t.lastSentPacketNumber
  bytes : t.bytesInFlight = (t.packetHistory.map Packet.length).sum
  length_lt : ∀ p ∈ t.packetHistory, p.length < 2 ^ 48
  tracked : t.packetHistory.length ≤ maxTrackedSentPackets
  removed_nodup : t.removed.Nodup
  removed_le : ∀ n ∈ t.removed, n ≤ t.lastSentPacketNumber
  removed_disjoint : ∀ p ∈ t.packetHistory, p.packetNumber ∉ t.removed

variable {t : TrackedPackets} {p : Packet}

theorem InFlight.nodup (h : t.InFlight) : (t.packetHistory.map Packet.packetNumber).Nodup :=
  List.pairwise_map.mpr (h.sorted.imp fun hlt => hlt.ne)

theorem sum_length_lt {l : List Packet} (hlength : ∀ p ∈ l, p.length < 2 ^ 48) :
    (l.map Packet.length).sum ≤ l.length * 2 ^ 48 := by
  induction l with
  | nil => simp
  | cons p l ih =>
    rw [List.forall_mem_cons] at hlength
    have hrest := ih hlength.2
    rw [List.map_cons, List.sum_cons, List.length_cons]
    omega

/-- The sum of the lengths is far from the end of the 64-bit range. -/
theorem InFlight.bytes_lt (h : t.InFlight) : t.bytesInFlight < 2 ^ 63 := by
  have hsum := sum_length_lt h.length_lt
  have htracked := h.tracked
  rw [h.bytes]
  unfold maxTrackedSentPackets defaultMaxCongestionWindow at htracked
  omega

/-- No subtraction from `bytesInFlight` underflows. -/
theorem InFlight.length_le_bytes (h : t.InFlight) (hp : p ∈ t.packetHistory) :
    p.length ≤ t.bytesInFlight := by
  rw [h.bytes]
  exact List.le_sum_of_mem (List.mem_map_of_mem hp)

/-- Taking a packet out of the history keeps the accounting. -/
theorem InFlight.remove (h : t.InFlight) (hp : p ∈ t.packetHistory) : (t.remove p).InFlight := by
  obtain ⟨l₁, l₂, hsplit, herase⟩ := eraseKey_of_mem h.nodup hp
  have hsub : (t.remove p).packetHistory.Sublist t.packetHistory := eraseKey_sublist _ _ _
  have hlt := h.bytes_lt
  have hle := h.length_le_bytes hp
  refine ⟨h.sorted.sublist hsub, fun q hq => h.range q (hsub.subset hq), ?_,
    fun q hq => h.length_lt q (hsub.subset hq), hsub.length_le.trans h.tracked, ?_, ?_, ?_⟩
  · -- the length of the packet is part of the sum, so the subtraction does not wrap
    have hbytes := h.bytes
    rw [hsplit] at hbytes
    rw [TrackedPackets.remove, herase]
    dsimp only
    rw [uint64Sub_eq (by unfold uint64Size; omega) hle, hbytes]
    simp only [List.map_append, List.map_cons, List.sum_append, List.sum_cons]
    omega
  · exact List.nodup_cons.mpr ⟨h.removed_disjoint p hp, h.removed_nodup⟩
  · exact List.forall_mem_cons.mpr ⟨(h.range p hp).2, h.removed_le⟩
  · intro q hq hmem
    obtain ⟨hq, hne⟩ := (mem_eraseKey h.nodup).mp hq
    rcases List.mem_cons.mp hmem with heq | hmem
    · exact hne heq
    · exact h.removed_disjoint q hq hmem

/-- The retransmission queue plays no part in the accounting. -/
theorem InFlight.of_retransmissionQueue (h : t.InFlight) (l : List Packet) :
    { t with retransmissionQueue := l }.InFlight :=
  ⟨h.sorted, h.range, h.bytes, h.length_lt, h.tracked, h.removed_nodup, h.removed_le,
    h.removed_disjoint⟩

theorem InFlight.queue (h : t.InFlight) (hp : p ∈ t.packetHistory) : (t.queue p).InFlight :=
  (h.remove hp).of_retransmissionQueue _

/-- The last sent packet number only grows. -/
theorem InFlight.of_lastSentPacketNumber (h : t.InFlight) {n : ℕ}
    (hn : t.lastSentPacketNumber ≤ n) : { t with lastSentPacketNumber := n }.InFlight :=
  ⟨h.sorted, fun p hp => ⟨(h.range p hp).1, (h.range p hp).2.trans hn⟩, h.bytes, h.length_lt,
    h.tracked, h.removed_nodup, fun m hm => (h.removed_le m hm).trans hn, h.removed_disjoint⟩

/-- Sending a packet with a higher number keeps the accounting. -/
theorem InFlight.push (h : t.InFlight) (hn : t.lastSentPacketNumber < p.packetNumber)
    (hlength : p.length < 2 ^ 48) (htracked : t.packetHistory.length < maxTrackedSentPackets) :
    (t.push p).InFlight := by
  have hlt := h.bytes_lt
  refine ⟨?_, ?_, ?_, ?_, ?_, h.removed_nodup, ?_, ?_⟩
  · refine List.pairwise_append.mpr ⟨h.sorted, List.pairwise_singleton _ _, fun q hq r hr => ?_⟩
    obtain rfl := List.mem_singleton.mp hr
    exact (h.range q hq).2.trans_lt hn
  · refine List.forall_mem_append.mpr ⟨fun q hq => ?_, List.forall_mem_singleton.mpr ?_⟩
    · exact ⟨(h.range q hq).1, (h.range q hq).2.trans hn.le⟩
    · exact ⟨Nat.one_le_of_lt hn, le_rfl⟩
  · rw [TrackedPackets.push]
    dsimp only
    rw [uint64Add_eq (by unfold uint64Size; omega), h.bytes]
    simp
  · exact List.forall_mem_append.mpr ⟨h.length_lt, List.forall_mem_singleton.mpr hlength⟩
  · rw [TrackedPackets.push, List.length_append]
    exact htracked
  · exact fun m hm => (h.removed_le m hm).trans hn.le
  · refine List.forall_mem_append.mpr ⟨h.removed_disjoint, List.forall_mem_singleton.mpr ?_⟩
    -- a number that was removed is not above the last one
    exact fun hmem => absurd (h.removed_le _ hmem) hn.not_ge

/-! ## Declaring packets lost -/

/-- `t'` is `t` after some packets of the history were queued, in their order. -/
def Queues (t t' : TrackedPackets) : Prop :=
  ∃ lost : List Packet, lost.Sublist t.packetHistory ∧ t' = lost.foldl queue t

theorem Queues.history_subset {t' : TrackedPackets} (hq : t.Queues t') :
    t'.packetHistory ⊆ t.packetHistory := by
  obtain ⟨lost, -, rfl⟩ := hq
  induction lost generalizing t with
  | nil => exact List.Subset.refl _
  | cons p lost ih => exact List.Subset.trans ih (eraseKey_sublist _ _ _).subset

/-- Queuing packets that were collected from the history keeps the accounting. -/
theorem InFlight.foldl_queue {lost : List Packet} (h : t.InFlight)
    (hlost : lost.Sublist t.packetHistory) : (lost.foldl TrackedPackets.queue t).InFlight := by
  induction lost generalizing t with
  | nil => exact h
  | cons p lost ih =>
    exact ih (h.queue (hlost.subset List.mem_cons_self)) (sublist_eraseKey h.nodup hlost)

theorem InFlight.queues {t' : TrackedPackets} (h : t.InFlight) (hq : t.Queues t') :
    t'.InFlight := by
  obtain ⟨lost, hlost, rfl⟩ := hq
  exact h.foldl_queue hlost

/-- Acknowledging packets that were collected from the history keeps the accounting. -/
theorem InFlight.foldl_remove {acked : List Packet} (h : t.InFlight)
    (hacked : acked.Sublist t.packetHistory) : (acked.foldl TrackedPackets.remove t).InFlight := by
  induction acked generalizing t with
  | nil => exact h
  | cons p acked ih =>
    exact ih (h.remove (hacked.subset List.mem_cons_self)) (sublist_eraseKey h.nodup hacked)

end TrackedPackets

namespace SentPacketHandler

open TrackedPackets

variable {h : SentPacketHandler} {env : Env}

theorem inFlight_new : new.InFlight :=
  ⟨List.Pairwise.nil, by simp [new], rfl, by simp [new], by simp [new], List.nodup_nil,
    by simp [new], by simp [new]⟩

/-- The alarm is set without a change to the tracked packets. -/
@[simp]
theorem updateLossDetectionAlarm_tracked (h : SentPacketHandler) (env : Env) :
    (h.updateLossDetectionAlarm env).toTrackedPackets = h.toTrackedPackets := by
  unfold updateLossDetectionAlarm
  split
  · rfl
  · split
    · rfl
    · split <;> rfl

@[simp]
theorem updateLossDetectionAlarm_ackState (h : SentPacketHandler) (env : Env) :
    (h.updateLossDetectionAlarm env).toAckState = h.toAckState := by
  unfold updateLossDetectionAlarm
  split
  · rfl
  · split
    · rfl
    · split <;> rfl

/-- Queuing a list of packets does to the tracked packets what the name says. -/
theorem foldl_queuePacketForRetransmission (h : SentPacketHandler) (lost : List Packet) :
    (lost.foldl queuePacketForRetransmission h).toTrackedPackets =
      lost.foldl queue h.toTrackedPackets := by
  induction lost generalizing h with
  | nil => rfl
  | cons p lost ih => exact ih (h.queuePacketForRetransmission p)

theorem scanLost_sublist (largestAcked now delayUntilLost : ℕ) (l : List Packet)
    (lossTime : Option ℕ) :
    (scanLost largestAcked now delayUntilLost l lossTime).1.Sublist l := by
  induction l generalizing lossTime with
  | nil => exact List.Sublist.refl _
  | cons p l ih =>
    rw [scanLost]
    split_ifs
    · exact List.nil_sublist _
    · exact (ih lossTime).cons_cons p
    · exact (ih _).cons p

section

variable (h)

theorem detectLostPackets_queues (env : Env) :
    h.Queues (h.detectLostPackets env).toTrackedPackets :=
  ⟨_, scanLost_sublist _ _ _ _ _, foldl_queuePacketForRetransmission _ _⟩

theorem setInflightAsLost_tracked :
    h.setInflightAsLost.toTrackedPackets =
      (h.packetHistory.takeWhile (·.packetNumber ≤ h.largestAcked)).foldl queue
        h.toTrackedPackets :=
  foldl_queuePacketForRetransmission _ _

theorem setInflightAsLost_queues :
    h.Queues h.setInflightAsLost.toTrackedPackets :=
  ⟨_, List.takeWhile_sublist _, setInflightAsLost_tracked h⟩

theorem retransmitTLP_queues :
    h.Queues h.retransmitTLP.toTrackedPackets := by
  unfold retransmitTLP
  cases hlast : h.packetHistory.getLast? with
  | none => exact ⟨[], List.nil_sublist _, rfl⟩
  | some p =>
    exact ⟨[p], List.singleton_sublist.mpr (List.mem_of_getLast? hlast), rfl⟩

/-- Queuing the first packet as often as there are packets to queue queues them in order. -/
theorem iterate_retransmitOldestPacket (n : ℕ) :
    (retransmitOldestPacket^[n] h).toTrackedPackets =
      (h.packetHistory.take n).foldl queue h.toTrackedPackets := by
  induction n generalizing h with
  | zero => rfl
  | succ n ih =>
    rw [Function.iterate_succ_apply, ih]
    cases hhist : h.packetHistory with
    | nil => simp [retransmitOldestPacket, hhist]
    | cons p rest =>
      have hnext : (h.retransmitOldestPacket).toTrackedPackets = h.queue p := by
        rw [retransmitOldestPacket, hhist]
        rfl
      have hrest : (h.queue p).packetHistory = rest := by
        simp [queue, TrackedPackets.remove, hhist, eraseKey]
      rw [hnext, hrest]
      rfl

/-- A retransmission timeout on a failed path empties the history. -/
theorem retransmitAllPackets_tracked :
    h.retransmitAllPackets.toTrackedPackets = h.packetHistory.foldl queue h.toTrackedPackets := by
  rw [retransmitAllPackets, iterate_retransmitOldestPacket, List.take_length]

/-- An alarm declares packets lost, or does nothing to the tracked packets. -/
theorem onAlarm_queues (env : Env) (potentiallyFailed : Bool) :
    h.Queues (h.onAlarm env potentiallyFailed).toTrackedPackets := by
  unfold onAlarm
  split_ifs
  · exact ⟨[], List.nil_sublist _, rfl⟩
  · rw [updateLossDetectionAlarm_tracked]
    exact h.detectLostPackets_queues env
  · rw [updateLossDetectionAlarm_tracked]
    exact h.retransmitTLP_queues
  · rw [updateLossDetectionAlarm_tracked]
    exact ⟨_, List.Sublist.refl _, h.retransmitAllPackets_tracked⟩
  · rw [updateLossDetectionAlarm_tracked]
    exact ⟨_, List.take_sublist 2 _, iterate_retransmitOldestPacket h 2⟩

end

/-! ## Sending -/

/-- What a successful `SentPacket` does: the packet is added to the history without the frames that
are not retransmitted, or it had no other frames. -/
theorem sentPacket_ok {packet : Packet} {h' : SentPacketHandler}
    (hok : h.sentPacket packet env = .ok h') :
    h.lastSentPacketNumber < packet.packetNumber ∧
      h.packetHistory.length < maxTrackedSentPackets ∧
      h'.toAckState = { h.toAckState with
        skippedPackets := h.skipPackets packet.packetNumber
        sent := packet.packetNumber :: h.sent } ∧
      ((stripNonRetransmittableFrames packet.frames = [] ∧ h'.toTrackedPackets =
          { h.toTrackedPackets with lastSentPacketNumber := packet.packetNumber }) ∨
        (stripNonRetransmittableFrames packet.frames ≠ [] ∧ h'.toTrackedPackets =
          h.push { packet with
            frames := stripNonRetransmittableFrames packet.frames
            sendTime := env.now })) := by
  unfold sentPacket at hok
  split_ifs at hok with hnumber hlimit
  refine ⟨by omega, by omega, ?_⟩
  rw [← Except.ok.inj hok, updateLossDetectionAlarm_tracked, updateLossDetectionAlarm_ackState]
  by_cases hframes : stripNonRetransmittableFrames packet.frames = []
  · rw [if_pos (List.isEmpty_iff.mpr hframes)]
    exact ⟨rfl, .inl ⟨hframes, rfl⟩⟩
  · rw [if_neg (mt List.isEmpty_iff.mp hframes)]
    exact ⟨rfl, .inr ⟨hframes, rfl⟩⟩

theorem inFlight_sentPacket {packet : Packet} {h' : SentPacketHandler} (hinv : h.InFlight)
    (hlength : packet.length < 2 ^ 48) (hok : h.sentPacket packet env = .ok h') :
    h'.InFlight := by
  obtain ⟨hnumber, htracked, -, ⟨-, heq⟩ | ⟨-, heq⟩⟩ := sentPacket_ok hok
  · rw [heq]
    exact hinv.of_lastSentPacketNumber hnumber.le
  · rw [heq]
    exact hinv.push hnumber hlength htracked

/-! ## Acknowledgements -/

theorem advanceRange_suffix (n : ℕ) (ranges : List AckRange) :
    advanceRange n ranges <:+ ranges := by
  fun_induction advanceRange n ranges with
  | case1 r r' rest hlt ih => exact ih.trans (List.suffix_cons r _)
  | case2 => exact List.suffix_rfl
  | case3 => exact List.suffix_rfl

/-- The packets that are collected are packets of the history that the frame acknowledges. -/
theorem newlyAcked_ok {f : AckedPackets} {ranges : List AckRange} {l acked : List Packet}
    (hranges : ranges ⊆ f.ackRanges) (hok : newlyAcked f ranges l = .ok acked) :
    acked.Sublist l ∧ ∀ p ∈ acked, f.acksPacket p.packetNumber = true := by
  induction l generalizing ranges acked with
  | nil =>
    obtain rfl := Except.ok.inj hok
    exact ⟨List.Sublist.refl _, by simp⟩
  | cons p l ih =>
    rw [newlyAcked] at hok
    split_ifs at hok with hlow hlarge hmissing
    · obtain ⟨hsub, hacks⟩ := ih hranges hok
      exact ⟨hsub.cons p, hacks⟩
    · obtain rfl := Except.ok.inj hok
      exact ⟨List.nil_sublist _, by simp⟩
    · have hsuffix := advanceRange_suffix p.packetNumber ranges
      split at hok
      · obtain rfl := Except.ok.inj hok
        exact ⟨List.nil_sublist _, by simp⟩
      · next ackRange later hadvance =>
        have hlater : ackRange :: later ⊆ f.ackRanges := by
          rw [← hadvance]
          exact fun r hr => hranges (hsuffix.subset hr)
        split_ifs at hok with hfirst hlast
        · obtain ⟨rest, hrest, heq⟩ := bind_eq_ok hok
          obtain rfl := Except.ok.inj heq
          obtain ⟨hsub, hacks⟩ := ih hlater hrest
          refine ⟨hsub.cons_cons p, List.forall_mem_cons.mpr ⟨?_, hacks⟩⟩
          -- the packet lies in the current range
          exact (f.acksPacket_iff _).mpr ⟨by omega, by omega,
            fun _ => ⟨ackRange, hlater List.mem_cons_self, hfirst, by omega⟩⟩
        · obtain ⟨hsub, hacks⟩ := ih hlater hok
          exact ⟨hsub.cons p, hacks⟩
    · obtain ⟨rest, hrest, heq⟩ := bind_eq_ok hok
      obtain rfl := Except.ok.inj heq
      obtain ⟨hsub, hacks⟩ := ih hranges hrest
      refine ⟨hsub.cons_cons p, List.forall_mem_cons.mpr ⟨?_, hacks⟩⟩
      refine (f.acksPacket_iff _).mpr ⟨by omega, by omega, fun hne => ?_⟩
      simp [AckedPackets.hasMissingRanges, hne] at hmissing

/-- The only error is that of a packet between two ranges. -/
theorem newlyAcked_error {f : AckedPackets} {ranges : List AckRange} {l : List Packet}
    {e : SentPacketError} (herror : newlyAcked f ranges l = .error e) : e = .ackedWrongPacket := by
  induction l generalizing ranges with
  | nil => cases herror
  | cons p l ih =>
    -- a packet that is acknowledged is put in front of the result for the others
    have hbind : ∀ ranges, (do let acked ← newlyAcked f ranges l; return p :: acked) =
        Except.error e → e = .ackedWrongPacket := by
      intro ranges h
      cases hrest : newlyAcked f ranges l with
      | error e' => exact ih (by rw [hrest] at h ⊢; exact h)
      | ok acked => rw [hrest] at h; cases h
    rw [newlyAcked] at herror
    split_ifs at herror
    · exact ih herror
    · split at herror
      · cases herror
      · split_ifs at herror
        · exact (Except.error.inj herror).symm
        · exact hbind _ herror
        · exact ih herror
    · exact hbind _ herror

theorem determineNewlyAckedPackets_ok {f : AckedPackets} {acked : List Packet}
    (hok : h.determineNewlyAckedPackets f = .ok acked) :
    acked.Sublist h.packetHistory ∧ ∀ p ∈ acked, f.acksPacket p.packetNumber = true :=
  newlyAcked_ok (fun _ hr => List.mem_reverse.mp hr) hok

/-- Dropping a duplicate takes at most one packet with its number out of the history, and then out
of the retransmission queue if it was not in the history. -/
theorem removePacketByNumber_tracked (h : SentPacketHandler) (num : ℕ) :
    (∃ p ∈ h.packetHistory, p.packetNumber = num ∧
      ((h.removePacketByNumber num).2.toTrackedPackets = h.remove p ∨
        (h.removePacketByNumber num).2.toTrackedPackets = (h.remove p).unqueue num)) ∨
    ((∀ p ∈ h.packetHistory, p.packetNumber ≠ num) ∧
      ((h.removePacketByNumber num).2.toTrackedPackets = h.toTrackedPackets ∨
        (h.removePacketByNumber num).2.toTrackedPackets = h.unqueue num)) := by
  unfold removePacketByNumber
  cases hfind : h.find num with
  | some p =>
    have hmem := List.mem_of_find?_eq_some hfind
    have hnum := List.find?_some hfind
    refine .inl ⟨p, hmem, by simpa using hnum, ?_⟩
    dsimp only
    split_ifs
    · exact .inl rfl
    · exact .inr rfl
    · exact .inl rfl
  | none =>
    refine .inr ⟨fun p hp => by simpa using List.find?_eq_none.mp hfind p hp, ?_⟩
    dsimp only
    split_ifs
    · exact .inl rfl
    · exact .inr rfl
    · exact .inl rfl

theorem inFlight_removePacketByNumber (hinv : h.InFlight) (num : ℕ) :
    (h.removePacketByNumber num).2.InFlight := by
  rcases h.removePacketByNumber_tracked num with ⟨p, hp, -, heq | heq⟩ | ⟨-, heq | heq⟩
  · rw [heq]
    exact hinv.remove hp
  · rw [heq]
    exact (hinv.remove hp).of_retransmissionQueue _
  · rw [heq]
    exact hinv
  · rw [heq]
    exact hinv.of_retransmissionQueue _

end SentPacketHandler

end MPQuic
