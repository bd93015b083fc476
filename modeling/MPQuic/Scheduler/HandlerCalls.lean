import MPQuic.Scheduler.CrossAck

/-!
# What a call does to a handler

Every call that reaches the sent packet handlers, also those that the session does not make: here
no condition is put on packet lengths or on the map of duplicates. `Effect` says once what such a
call can do to the skipped packet numbers, to the history and to the alarm of one handler.

* `skippedPackets_defence`: the numbers that the handler skipped detect a peer that acknowledges
  packets it did not receive, and no other peer.
* `armed_iff_serves`: when the alarm is set as long as packets are outstanding.
-/

namespace MPQuic

open Transition

namespace SentPacketHandler

variable {h h' h'' : SentPacketHandler}

/-- The alarm is set if packets are outstanding. -/
def Armed (h : SentPacketHandler) : Prop := h.packetHistory ≠ [] → h.alarm.isSome = true

instance (h : SentPacketHandler) : Decidable h.Armed :=
  inferInstanceAs (Decidable (_ → _))

/-- `h'` is `h` after packets left the history, with the alarm as it was. -/
structure Shrinks (h h' : SentPacketHandler) : Prop extends Trims h h' where
  history : h'.packetHistory ⊆ h.packetHistory
  alarm : h'.alarm = h.alarm

theorem Shrinks.of_eq (htracked : h'.toTrackedPackets = h.toTrackedPackets)
    (hack : h'.toAckState = h.toAckState) (halarm : h'.alarm = h.alarm) : h.Shrinks h' :=
  ⟨.of_eq (by rw [htracked]) hack, by rw [htracked]; exact List.Subset.refl _, halarm⟩

theorem Shrinks.refl (h : SentPacketHandler) : h.Shrinks h := .of_eq rfl rfl rfl

theorem Shrinks.trans (hs : h.Shrinks h') (hs' : h'.Shrinks h'') : h.Shrinks h'' :=
  ⟨hs.toTrims.trans hs'.toTrims, List.Subset.trans hs'.history hs.history,
    hs'.alarm.trans hs.alarm⟩

theorem Armed.shrinks (ha : h.Armed) (hs : h.Shrinks h') : h'.Armed := by
  intro hne
  rw [hs.alarm]
  refine ha fun hnil => hne ?_
  exact List.subset_nil.mp (hnil ▸ hs.history)

theorem shrinks_removePacketByNumber (h : SentPacketHandler) (num : ℕ) :
    h.Shrinks (h.removePacketByNumber num).2 := by
  refine ⟨h.trims_removePacketByNumber num, ?_, ?_⟩
  · unfold removePacketByNumber
    cases h.find num with
    | some p =>
      have herase := (KeyedList.eraseKey_sublist Packet.packetNumber p.packetNumber
        h.packetHistory).subset
      dsimp only
      split_ifs <;> exact herase
    | none =>
      dsimp only
      split_ifs <;> exact List.Subset.refl _
  · unfold removePacketByNumber
    cases h.find num <;> dsimp only <;> split_ifs <;> rfl

theorem shrinks_onPacketAcked (h : SentPacketHandler) (p : Packet) :
    h.Shrinks (h.onPacketAcked p) :=
  ⟨.of_eq rfl rfl, (KeyedList.eraseKey_sublist _ _ _).subset, rfl⟩

theorem shrinks_setInflightAsLost (h : SentPacketHandler) : h.Shrinks h.setInflightAsLost := by
  unfold setInflightAsLost
  dsimp only
  generalize List.takeWhile _ _ = lost
  induction lost generalizing h with
  | nil => exact .refl h
  | cons p lost ih =>
    have hqueue : h.Shrinks (h.queuePacketForRetransmission p) :=
      ⟨h.trims_queuePacketForRetransmission p, (KeyedList.eraseKey_sublist _ _ _).subset, rfl⟩
    exact hqueue.trans (ih _)

theorem shrinks_garbageCollectSkippedPackets (h : SentPacketHandler) :
    h.Shrinks h.garbageCollectSkippedPackets :=
  ⟨h.trims_garbageCollectSkippedPackets, List.Subset.refl _, rfl⟩

theorem shrinks_dequeuePacketForRetransmission (h : SentPacketHandler) :
    h.Shrinks h.dequeuePacketForRetransmission.2 := by
  unfold dequeuePacketForRetransmission
  split
  · exact .refl h
  · exact ⟨.of_eq rfl rfl, List.Subset.refl _, rfl⟩

/-- Only an empty history cancels the alarm. -/
theorem armed_updateLossDetectionAlarm (h : SentPacketHandler) (env : Env) :
    (h.updateLossDetectionAlarm env).Armed := by
  intro hne
  rw [updateLossDetectionAlarm_tracked] at hne
  unfold updateLossDetectionAlarm
  rw [if_neg (mt List.isEmpty_iff.mp hne)]
  split
  · rfl
  · split_ifs <;> rfl

theorem armed_sentPacket {packet : Packet} {env : Env} (hok : h.sentPacket packet env = .ok h') :
    h'.Armed := by
  unfold sentPacket at hok
  split_ifs at hok
  rw [← Except.ok.inj hok]
  exact armed_updateLossDetectionAlarm _ env

/-- What a call can do to a handler. `expired` says that the call is one of `OnAlarm`. -/
inductive Effect (h : SentPacketHandler) (expired : Prop) : SentPacketHandler → Prop where
  | shrinks {h' : SentPacketHandler} (hshrinks : h.Shrinks h') : Effect h expired h'
  | sent {packet : Packet} {env : Env} {h' : SentPacketHandler}
      (hok : h.sentPacket packet env = .ok h') : Effect h expired h'
  | armed {h' : SentPacketHandler} (htrims : h.Trims h')
      (hhistory : h'.packetHistory ⊆ h.packetHistory) (harmed : h'.Armed) : Effect h expired h'
  /-- No packet of the history is retransmittable. -/
  | cancelled (hexpired : expired)
      (hnone : h.packetHistory.any Packet.isRetransmittable = false) :
      Effect h expired { h with alarm := none }

variable {expired : Prop}

/-- What `ReceivedAck` does after the acknowledged packets left the history. -/
theorem Shrinks.effect_detectLostPackets (hs : h.Shrinks h') (env : Env) (m : StopWaitingManager) :
    h.Effect expired
      { ((h'.detectLostPackets env).updateLossDetectionAlarm env).garbageCollectSkippedPackets
        with stopWaitingManager := m } := by
  refine .armed (hs.toTrims.trans ?_) (List.Subset.trans ?_ hs.history) ?_
  · exact (h'.trims_detectLostPackets env).trans ((trims_updateLossDetectionAlarm _ env).trans
      ((trims_garbageCollectSkippedPackets _).trans (.of_eq rfl rfl)))
  · have hlost := (h'.detectLostPackets_queues env).history_subset
    rw [← updateLossDetectionAlarm_tracked _ env] at hlost
    exact hlost
  · exact armed_updateLossDetectionAlarm (h'.detectLostPackets env) env

theorem onAlarm_of_not_any {env : Env} {potentiallyFailed : Bool}
    (hnone : h.packetHistory.any Packet.isRetransmittable = false) :
    h.onAlarm env potentiallyFailed = { h with alarm := none } := by
  unfold onAlarm
  rw [if_pos (by rw [hnone]; rfl)]

theorem armed_onAlarm {env : Env} {potentiallyFailed : Bool}
    (hany : h.packetHistory.any Packet.isRetransmittable = true) :
    (h.onAlarm env potentiallyFailed).Armed := by
  unfold onAlarm
  rw [if_neg (by rw [hany]; decide)]
  exact armed_updateLossDetectionAlarm _ env

theorem onAlarm_effect (h : SentPacketHandler) (env : Env) (potentiallyFailed : Bool)
    (hexpired : expired) : h.Effect expired (h.onAlarm env potentiallyFailed) := by
  cases hany : h.packetHistory.any Packet.isRetransmittable with
  | false =>
    rw [onAlarm_of_not_any hany]
    exact .cancelled hexpired hany
  | true =>
    exact .armed (h.trims_onAlarm env potentiallyFailed)
      (h.onAlarm_queues env potentiallyFailed).history_subset (armed_onAlarm hany)

theorem Effect.skipsInOrder (heffect : h.Effect expired h') (hs : h.SkipsInOrder) :
    h'.SkipsInOrder := by
  cases heffect with
  | shrinks hshrinks => exact hs.trims hshrinks.toTrims
  | sent hok => exact skipsInOrder_sentPacket hs hok
  | armed htrims hhistory harmed => exact hs.trims htrims
  | cancelled hexpired hnone => exact hs.trims (.of_eq rfl rfl)

/-- The alarm is lost only if it expires while packets are outstanding none of which is
retransmittable. -/
theorem Effect.armed_of (heffect : h.Effect expired h') (ha : h.Armed)
    (hserves : expired →
      h.packetHistory = [] ∨ h.packetHistory.any Packet.isRetransmittable = true) :
    h'.Armed := by
  cases heffect with
  | shrinks hshrinks => exact ha.shrinks hshrinks
  | sent hok => exact armed_sentPacket hok
  | armed htrims hhistory harmed => exact harmed
  | cancelled hexpired hnone =>
    rcases hserves hexpired with hnil | hany
    · exact fun hne => absurd hnil hne
    · rw [hnone] at hany
      cases hany

end SentPacketHandler

namespace PathHandlers

open SentPacketHandler

variable {s t : PathHandlers} {pathID q : PathID} {expired : Prop}

/-- A call of a handler, or of its STOP_WAITING manager. -/
inductive HandlerCall where
  | call (call : Call)
  | removePacketByNumber (pathID : PathID) (num : ℕ)
  | getStopWaitingFrame (pathID : PathID) (force : Bool)

/-- What a call does to the handlers. -/
def applyCall (s : PathHandlers) : HandlerCall → PathHandlers
  | .call call => s.apply call
  | .removePacketByNumber pathID num => s.modify pathID fun h => (h.removePacketByNumber num).2
  | .getStopWaitingFrame pathID force => s.modify pathID fun h =>
    { h with stopWaitingManager := (h.stopWaitingManager.getStopWaitingFrame force).2 }

/-- The call is that of the handler of a path whose alarm expired. -/
def HandlerCall.Expires (q : PathID) : HandlerCall → Prop
  | .call (.onAlarm pathID _ _) => pathID = q
  | _ => False

/-- A step is one call. -/
def HandlerStep (s : PathHandlers) (c : HandlerCall) (t : PathHandlers) : Prop := t = s.applyCall c

theorem Effect.modify {f : SentPacketHandler → SentPacketHandler}
    (hf : q = pathID → (s.handler pathID).Effect expired (f (s.handler pathID))) :
    (s.handler q).Effect expired ((s.modify pathID f).handler q) := by
  by_cases hq : q = pathID
  · subst hq
    rw [modify_handler_self]
    exact hf rfl
  · rw [modify_handler_of_ne hq]
    exact .shrinks (.refl _)

theorem shrinks_modify {f : SentPacketHandler → SentPacketHandler}
    (hf : (s.handler pathID).Shrinks (f (s.handler pathID))) (q : PathID) :
    (s.handler q).Shrinks ((s.modify pathID f).handler q) :=
  forall_modify (P := fun q h => (s.handler q).Shrinks h) hf (fun _ _ => .refl _) q

theorem crossAckHandling_shrinks (s : PathHandlers) (pathID : PathID) (n : ℕ) (q : PathID) :
    (s.handler q).Shrinks ((s.crossAckHandling pathID n).handler q) := by
  unfold crossAckHandling
  dsimp only
  split
  · dsimp only
    refine shrinks_modify ?_ q
    exact shrinks_removePacketByNumber _ _
  · exact .refl _

/-- Acknowledged packets and their copies leave the history. -/
theorem ackPackets_shrinks (s : PathHandlers) (pathID : PathID) (acked : List Packet)
    (q : PathID) : (s.handler q).Shrinks ((s.ackPackets pathID acked).handler q) := by
  induction acked generalizing s with
  | nil => exact .refl _
  | cons p acked ih =>
    refine (crossAckHandling_shrinks s pathID p.packetNumber q).trans (.trans ?_ (ih _))
    exact shrinks_modify (shrinks_onPacketAcked _ p) q

/-- A handler that only noted what a frame reports. -/
theorem shrinks_noted (s : PathHandlers) (pathID : PathID) (n largestAcked : ℕ) (q : PathID) :
    (s.handler q).Shrinks ((s.modify pathID fun _ => { s.handler pathID with
      largestReceivedPacketWithAck := n, largestAcked := largestAcked }).handler q) :=
  shrinks_modify ⟨⟨⟨rfl, rfl, fun _ => id⟩, List.suffix_rfl⟩, List.Subset.refl _, rfl⟩ q

theorem receivedAck_effect (s : PathHandlers) (pathID : PathID) (f : AckFrame) (n : ℕ) (env : Env)
    (q : PathID) : (s.handler q).Effect expired ((s.receivedAck pathID f n env).2.handler q) := by
  unfold receivedAck
  dsimp only
  split_ifs
  · exact .shrinks (.refl _)
  · exact .shrinks (.refl _)
  · exact .shrinks (shrinks_noted s pathID n _ q)
  · exact .shrinks (shrinks_noted s pathID n _ q)
  · split
    · exact .shrinks (shrinks_noted s pathID n _ q)
    · next acked _ =>
      have hshrinks := (shrinks_noted s pathID n f.largestAcked q).trans
        (ackPackets_shrinks _ pathID acked q)
      by_cases hq : q = pathID
      · subst hq
        rw [modify_handler_self]
        exact hshrinks.effect_detectLostPackets env _
      · rw [modify_handler_of_ne hq]
        exact .shrinks hshrinks

theorem receivedClosePath_effect (s : PathHandlers) (pathID : PathID) (f : ClosePathFrame) (n : ℕ)
    (q : PathID) : (s.handler q).Effect expired ((s.receivedClosePath pathID f n).2.handler q) := by
  unfold receivedClosePath
  dsimp only
  split_ifs
  · exact .shrinks (.refl _)
  · exact .shrinks (.refl _)
  · exact .shrinks (shrinks_noted s pathID n _ q)
  · split
    · exact .shrinks (shrinks_noted s pathID n _ q)
    · next acked _ =>
      refine .shrinks (((shrinks_noted s pathID n (s.handler pathID).largestAcked q).trans
        (ackPackets_shrinks _ pathID acked q)).trans ?_)
      dsimp only
      refine shrinks_modify ?_ q
      exact (shrinks_setInflightAsLost _).trans (shrinks_garbageCollectSkippedPackets _)

/-- Every call has an effect of one of the four kinds on every handler. -/
theorem applyCall_effect (s : PathHandlers) (c : HandlerCall) (q : PathID) :
    (s.handler q).Effect (c.Expires q) ((s.applyCall c).handler q) := by
  cases c with
  | call call =>
    rw [applyCall]
    cases call with
    | sentPacket pathID packet env =>
      rw [PathHandlers.apply]
      split
      · next h hok => exact Effect.modify fun _ => .sent hok
      · exact .shrinks (.refl _)
    | receivedAck pathID f n env => exact receivedAck_effect s pathID f n env q
    | receivedClosePath pathID f n => exact receivedClosePath_effect s pathID f n q
    | onAlarm pathID env potentiallyFailed =>
      rw [PathHandlers.apply]
      refine Effect.modify fun hq => ?_
      exact onAlarm_effect _ env potentiallyFailed hq.symm
    | setInflightAsLost pathID =>
      rw [PathHandlers.apply]
      refine Effect.modify fun _ => .shrinks ?_
      exact shrinks_setInflightAsLost _
    | duplicatePacket pathID packet =>
      rw [PathHandlers.apply]
      refine Effect.modify fun _ => .shrinks ?_
      exact ⟨.of_eq rfl rfl, List.Subset.refl _, rfl⟩
    | dequeuePacketForRetransmission pathID =>
      rw [PathHandlers.apply]
      refine Effect.modify fun _ => .shrinks ?_
      exact shrinks_dequeuePacketForRetransmission _
    | addDuplicate original duplicate dropable => exact .shrinks (.refl _)
  | removePacketByNumber pathID num =>
    rw [applyCall]
    refine Effect.modify fun _ => .shrinks ?_
    exact shrinks_removePacketByNumber _ num
  | getStopWaitingFrame pathID force =>
    rw [applyCall]
    refine Effect.modify fun _ => .shrinks ?_
    exact .of_eq rfl rfl rfl

/-! ## Skipped packet numbers -/

/-- In every run the skipped numbers of every handler are in order and were never sent. -/
theorem skipsInOrder_of_run {cs : List HandlerCall} (hrun : Run HandlerStep new cs s)
    (pathID : PathID) : (s.handler pathID).SkipsInOrder :=
  Run.invariant (I := fun _ s => (s.handler pathID).SkipsInOrder) skipsInOrder_new
    (fun _ s c _ hs hstep => hstep ▸ (applyCall_effect s c pathID).skipsInOrder hs) hrun

theorem skippedPacketsAcked_iff {h : SentPacketHandler} {f : AckedPackets} :
    h.skippedPacketsAcked f = true ↔ ∃ m ∈ h.skippedPackets, f.acksPacket m = true :=
  List.any_eq_true

/-- An ACK frame that acknowledges no skipped packet is not rejected as if it did. -/
theorem receivedAck_ne_of_not_skipped {f : AckFrame} {n : ℕ} {env : Env}
    (hskipped : (s.handler pathID).skippedPacketsAcked f.toAckedPackets = false) :
    (s.receivedAck pathID f n env).1 ≠ some .ackForSkippedPacket := by
  unfold receivedAck
  dsimp only
  split_ifs with hunsent hdup hrepeated hacked
  · simp
  · simp
  · simp
  · exact absurd hacked (by rw [Bool.not_eq_true]; exact hskipped)
  · split
    · next e herror =>
      rw [newlyAcked_error herror]
      simp
    · simp

theorem receivedClosePath_ne_of_not_skipped {f : ClosePathFrame} {n : ℕ}
    (hskipped : (s.handler pathID).skippedPacketsAcked f.toAckedPackets = false) :
    (s.receivedClosePath pathID f n).1 ≠ some .ackForSkippedPacket := by
  unfold receivedClosePath
  dsimp only
  split_ifs with hunsent hdup hacked
  · simp
  · simp
  · exact absurd hacked (by rw [Bool.not_eq_true]; exact hskipped)
  · split
    · next e herror =>
      rw [newlyAcked_error herror]
      simp
    · simp

/-- An ACK frame for a skipped packet is rejected before any packet is touched. -/
theorem receivedAck_of_skipped {f : AckFrame} {n : ℕ} (env : Env)
    (hsent : f.largestAcked ≤ (s.handler pathID).lastSentPacketNumber)
    (hnew : (s.handler pathID).largestReceivedPacketWithAck < n)
    (hlargest : (s.handler pathID).largestInOrderAcked < f.largestAcked)
    (hskipped : (s.handler pathID).skippedPacketsAcked f.toAckedPackets = true) :
    s.receivedAck pathID f n env = (some .ackForSkippedPacket, s.modify pathID fun _ =>
      { s.handler pathID with
        largestReceivedPacketWithAck := n, largestAcked := f.largestAcked }) := by
  unfold receivedAck
  dsimp only
  exact (if_neg hsent.not_gt).trans ((if_neg hnew.not_ge).trans
    ((if_neg (not_le.mpr hlargest)).trans (if_pos hskipped)))

theorem receivedClosePath_of_skipped {f : ClosePathFrame} {n : ℕ}
    (hsent : f.largestAcked ≤ (s.handler pathID).lastSentPacketNumber)
    (hnew : (s.handler pathID).largestReceivedPacketWithAck < n)
    (hskipped : (s.handler pathID).skippedPacketsAcked f.toAckedPackets = true) :
    s.receivedClosePath pathID f n = (some .ackForSkippedPacket, s.modify pathID fun _ =>
      { s.handler pathID with largestReceivedPacketWithAck := n }) := by
  unfold receivedClosePath
  dsimp only
  exact (if_neg hsent.not_gt).trans ((if_neg hnew.not_ge).trans (if_pos hskipped))

/-- After every sequence of calls the skipped packet numbers of a handler are strictly increasing,
at most `maxTrackedSkippedPackets`, and none of them was sent, so that a frame which covers only
packets that were sent is never rejected as one for a skipped packet. A frame that passes the other
checks and covers a skipped number is rejected, and the tracked packets stay as they are. -/
theorem skippedPackets_defence {cs : List HandlerCall} (hrun : Run HandlerStep new cs s)
    (pathID : PathID) :
    let h := s.handler pathID
    h.skippedPackets.Pairwise (· < ·) ∧
      h.skippedPackets.length ≤ maxTrackedSkippedPackets ∧
      (∀ m ∈ h.skippedPackets, m ∉ h.sent) ∧
      (∀ (f : AckFrame) (n : ℕ) (env : Env), (∀ m, f.acksPacket m = true → m ∈ h.sent) →
        (s.receivedAck pathID f n env).1 ≠ some .ackForSkippedPacket) ∧
      (∀ (f : ClosePathFrame) (n : ℕ), (∀ m, f.acksPacket m = true → m ∈ h.sent) →
        (s.receivedClosePath pathID f n).1 ≠ some .ackForSkippedPacket) ∧
      (∀ (f : AckFrame) (n : ℕ) (env : Env), f.largestAcked ≤ h.lastSentPacketNumber →
        h.largestReceivedPacketWithAck < n → h.largestInOrderAcked < f.largestAcked →
        (∃ m ∈ h.skippedPackets, f.acksPacket m = true) →
        (s.receivedAck pathID f n env).1 = some .ackForSkippedPacket ∧
          ((s.receivedAck pathID f n env).2.handler pathID).toTrackedPackets =
            h.toTrackedPackets) ∧
      (∀ (f : ClosePathFrame) (n : ℕ), f.largestAcked ≤ h.lastSentPacketNumber →
        h.largestReceivedPacketWithAck < n →
        (∃ m ∈ h.skippedPackets, f.acksPacket m = true) →
        (s.receivedClosePath pathID f n).1 = some .ackForSkippedPacket ∧
          ((s.receivedClosePath pathID f n).2.handler pathID).toTrackedPackets =
            h.toTrackedPackets) := by
  intro h
  have hs : h.SkipsInOrder := skipsInOrder_of_run hrun pathID
  refine ⟨hs.sorted, hs.length_le, hs.not_sent, ?_, ?_, ?_, ?_⟩
  · intro f n env hcovers
    exact receivedAck_ne_of_not_skipped (hs.toSkips.skippedPacketsAcked_eq_false hcovers)
  · intro f n hcovers
    exact receivedClosePath_ne_of_not_skipped (hs.toSkips.skippedPacketsAcked_eq_false hcovers)
  · intro f n env hsent hnew hlargest hskipped
    rw [receivedAck_of_skipped env hsent hnew hlargest (skippedPacketsAcked_iff.mpr hskipped)]
    exact ⟨rfl, by rw [modify_handler_self]⟩
  · intro f n hsent hnew hskipped
    rw [receivedClosePath_of_skipped hsent hnew (skippedPacketsAcked_iff.mpr hskipped)]
    exact ⟨rfl, by rw [modify_handler_self]⟩

/-- The packets 1 and 5 are sent, and an ACK frame covers all numbers up to 5. -/
theorem skippedPackets_defence_example :
    let packet (n : ℕ) : Packet :=
      { packetNumber := n, frames := [.ping], length := 40, encryptionLevel := .forwardSecure,
        sendTime := 0 }
    let env := noSamples 5
    let ack : AckFrame :=
      { largestAcked := 5, lowestAcked := 1, ackRanges := [], pathID := 0,
        packetReceivedTime := 0, delayTime := 0 }
    let cs : List HandlerCall :=
      [.call (.sentPacket 0 (packet 1) env), .call (.sentPacket 0 (packet 5) env)]
    let s := cs.foldl applyCall new
    (s.handler 0).skippedPackets = [2, 3, 4] ∧
      (s.receivedAck 0 ack 1 env).1 = some .ackForSkippedPacket := by
  intro packet env ack cs s
  have hrun : Run HandlerStep new cs s := Run.nil.foldl fun _ _ _ => rfl
  obtain ⟨-, -, -, -, -, hrejects, -⟩ := skippedPackets_defence hrun 0
  refine ⟨by decide, (hrejects ack 1 env (by decide) (by decide) (by decide) ?_).1⟩
  exact ⟨3, by decide, by decide⟩

/-! ## The alarm -/

/-- The alarms of all paths are set if packets are outstanding. -/
def AllArmed (s : PathHandlers) : Prop := ∀ q, (s.handler q).Armed

/-- An alarm that expires finds no packets, or one that is retransmittable. -/
def Serves (s : PathHandlers) (c : HandlerCall) : Prop :=
  ∀ q, c.Expires q → (s.handler q).packetHistory = [] ∨
    (s.handler q).packetHistory.any Packet.isRetransmittable = true

/-- The condition is the exact one for a call. -/
theorem allArmed_applyCall_iff (hs : s.AllArmed) (c : HandlerCall) :
    (s.applyCall c).AllArmed ↔ s.Serves c := by
  refine ⟨fun harmed q hexpires => ?_, fun hserves q => ?_⟩
  · by_contra hnone
    rw [not_or, Bool.not_eq_true] at hnone
    obtain ⟨hne, hnone⟩ := hnone
    -- the call is `OnAlarm`, which cancels the alarm and leaves the packets
    obtain ⟨env, potentiallyFailed, rfl⟩ : ∃ env potentiallyFailed,
        c = .call (.onAlarm q env potentiallyFailed) := by
      unfold HandlerCall.Expires at hexpires
      split at hexpires
      · subst hexpires
        exact ⟨_, _, rfl⟩
      · cases hexpires
    have hself := harmed q
    rw [applyCall, PathHandlers.apply, modify_handler_self, onAlarm_of_not_any hnone] at hself
    cases hself hne
  · exact (applyCall_effect s c q).armed_of (hs q) (hserves q)

/-- In the states that a sequence of calls passes through, all alarms are set while packets are
outstanding exactly if no alarm expires while packets are outstanding none of which is
retransmittable. -/
theorem armed_iff_serves (cs : List HandlerCall) :
    (∀ cs₁ cs₂, cs = cs₁ ++ cs₂ → (cs₁.foldl applyCall new).AllArmed) ↔
      ∀ cs₁ c cs₂, cs = cs₁ ++ c :: cs₂ → (cs₁.foldl applyCall new).Serves c := by
  have hnew : new.AllArmed := fun _ hne => absurd rfl hne
  exact forall_foldl_iff (P := AllArmed) (C := Serves) hnew
    (fun _ c hs => allArmed_applyCall_iff hs c) cs

/-- A packet with a CLOSE_PATH frame is tracked but not retransmittable: when its alarm expires,
the alarm is cancelled and the packet stays in flight. -/
theorem onAlarm_leaves_closePath :
    let closePath : ClosePathFrame :=
      { largestAcked := 0, lowestAcked := 0, ackRanges := [], pathID := 1 }
    let packet : Packet :=
      { packetNumber := 1, frames := [.closePath closePath], length := 40,
        encryptionLevel := .forwardSecure, sendTime := 0 }
    let env := noSamples 5
    let s := [.call (.sentPacket 0 packet env), .call (.onAlarm 0 env false)].foldl applyCall new
    (s.handler 0).packetHistory ≠ [] ∧ (s.handler 0).bytesInFlight = 40 ∧
      (s.handler 0).alarm = none := by
  decide

end PathHandlers

end MPQuic
