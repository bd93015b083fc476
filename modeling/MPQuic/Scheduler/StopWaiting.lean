import MPQuic.AckHandler.StopWaiting
import MPQuic.Scheduler.CrossAck
import MPQuic.Wire.PacketNumber

/-!
# STOP_WAITING frames and packet number lengths

What a sender tells its peer about the packets it still waits for: the least unacked packet number
of STOP_WAITING frames, and the length of the packet number in the public header, which is chosen
from `GetLeastUnacked`. Both are about the handlers of all paths, since an ACK on one path drops
packets from the history of another one.

* `stopWaiting_settled`: when a STOP_WAITING frame is not above an outstanding packet.
* `stopWaiting_survives_iff`: when the frame fits into the length of the packet number.
* `packetNumber_decodable_iff`: when the peer can restore the packet number.
-/

namespace MPQuic

open Transition SentPacketHandler

/-- The least packet number that the sender still waits for. -/
def SentPacketHandler.getLeastUnacked (h : SentPacketHandler) : ℕ := h.largestInOrderAcked + 1

namespace PathHandlers

variable {s t : PathHandlers} {pathID : PathID} {q : PathID}

/-! ## What acknowledgements do to a handler -/

/-- The callback drops at most the copy of the packet. -/
theorem crossAckHandling_drops (s : PathHandlers) (pathID : PathID) (n : ℕ) (q : PathID) :
    (s.handler q).Drops ((s.crossAckHandling pathID n).handler q) := by
  unfold crossAckHandling
  dsimp only
  split
  · next dupEntry _ =>
    by_cases hq : q = dupEntry.pathID
    · subst hq
      dsimp only [PathHandlers.modify]
      rw [Function.update_self]
      exact drops_removePacketByNumber _ _
    · dsimp only [PathHandlers.modify]
      rw [Function.update_of_ne hq]
      exact .refl _
  · exact .refl _

theorem drops_modify (s : PathHandlers) (pathID : PathID)
    {f : SentPacketHandler → SentPacketHandler}
    (hf : (s.handler pathID).Drops (f (s.handler pathID))) (q : PathID) :
    (s.handler q).Drops ((s.modify pathID f).handler q) :=
  forall_modify (P := fun q h => (s.handler q).Drops h) hf (fun _ _ => .refl _) q

/-- Acknowledged packets and their copies are dropped. -/
theorem ackPackets_drops (s : PathHandlers) (pathID : PathID) (acked : List Packet) (q : PathID) :
    (s.handler q).Drops ((s.ackPackets pathID acked).handler q) := by
  induction acked generalizing s with
  | nil => exact .refl _
  | cons p acked ih =>
    refine (crossAckHandling_drops s pathID p.packetNumber q).trans (.trans ?_ (ih _))
    exact drops_modify _ pathID (drops_onPacketAcked _ p) q

/-- What the handler does after the acknowledged packets were processed. -/
def finishAck (h : SentPacketHandler) (largestAcked : ℕ) (env : Env) : SentPacketHandler :=
  let h := (h.detectLostPackets env).updateLossDetectionAlarm env
  let h := h.garbageCollectSkippedPackets
  { h with stopWaitingManager := h.stopWaitingManager.receivedAck largestAcked }

/-- The state of a handler after an ACK frame for its packets. -/
inductive AckResult (h : SentPacketHandler) (f : AckFrame) (n : ℕ) (env : Env) :
    SentPacketHandler → Prop where
  | rejected : AckResult h f n env h
  | ignored : AckResult h f n env { h with largestReceivedPacketWithAck := n }
  | failed (hsent : f.largestAcked ≤ h.lastSentPacketNumber) :
      AckResult h f n env
        { h with largestReceivedPacketWithAck := n, largestAcked := f.largestAcked }
  | processed (hsent : f.largestAcked ≤ h.lastSentPacketNumber)
      (hnew : h.largestReceivedPacketWithAck < n) (acked : List Packet)
      (hacked : h.determineNewlyAckedPackets f.toAckedPackets = .ok acked) :
      AckResult h f n env
        (finishAck (acked.foldl onPacketAcked
          { h with largestReceivedPacketWithAck := n, largestAcked := f.largestAcked })
          f.largestAcked env)

/-- An ACK frame for a path changes the handler of this path, and drops packets from others. -/
theorem Inv.receivedAck_result (hinv : s.Inv) (pathID : PathID) (f : AckFrame) (n : ℕ) (env : Env) :
    AckResult (s.handler pathID) f n env ((s.receivedAck pathID f n env).2.handler pathID) ∧
      ∀ q ≠ pathID, (s.handler q).Drops ((s.receivedAck pathID f n env).2.handler q) := by
  have hother : ∀ h : SentPacketHandler, ∀ q ≠ pathID,
      (s.handler q).Drops ((s.modify pathID fun _ => h).handler q) := fun h q hq => by
    rw [modify_handler_of_ne hq]
    exact .refl _
  unfold PathHandlers.receivedAck
  dsimp only
  split_ifs with hunsent hdup hrepeated hskipped
  · exact ⟨.rejected, fun q _ => .refl _⟩
  · exact ⟨.rejected, fun q _ => .refl _⟩
  · rw [modify_handler_self]
    exact ⟨.ignored, hother _⟩
  · rw [modify_handler_self]
    exact ⟨.failed (not_lt.mp hunsent), hother _⟩
  · split
    · rw [modify_handler_self]
      exact ⟨.failed (not_lt.mp hunsent), hother _⟩
    · next acked hacked =>
      obtain ⟨hsub, -⟩ := determineNewlyAckedPackets_ok hacked
      have hself := hinv.handler_replace_ackPackets
        (h := { s.handler pathID with
          largestReceivedPacketWithAck := n, largestAcked := f.largestAcked }) rfl
        ⟨rfl, rfl, fun _ => id⟩ hsub
      refine ⟨?_, fun q hq => ?_⟩
      · rw [modify_handler_self, hself]
        exact .processed (not_lt.mp hunsent) (not_le.mp hdup) acked hacked
      · rw [modify_handler_of_ne hq]
        exact (hother _ q hq).trans (ackPackets_drops _ pathID acked q)

theorem inFlight_foldl_onPacketAcked {h : SentPacketHandler} (hinv : h.InFlight)
    {acked : List Packet} (hsub : acked.Sublist h.packetHistory) :
    (acked.foldl onPacketAcked h).InFlight := by
  rw [foldl_onPacketAcked_tracked]
  exact hinv.foldl_remove hsub

section AckResult

variable {h h' : SentPacketHandler} {f : AckFrame} {n : ℕ} {env : Env}

theorem AckResult.stopWaiting (hr : AckResult h f n env h') (hs : h.StopWaiting)
    (hinv : h.InFlight) : h'.StopWaiting := by
  cases hr with
  | rejected => exact hs
  | ignored => exact ⟨hs.announced, hs.next_le, hs.largestAcked_le⟩
  | failed hsent => exact ⟨hs.announced, hs.next_le, hsent⟩
  | processed hsent hnew acked hacked =>
    obtain ⟨hsub, -⟩ := determineNewlyAckedPackets_ok hacked
    generalize hh₁ : ({ h with
      largestReceivedPacketWithAck := n, largestAcked := f.largestAcked } : SentPacketHandler) = h₁
    -- the state after `LargestAcked` was stored: the packets are acknowledged and lost from there
    have hs₁ : h₁.StopWaiting := hh₁ ▸ ⟨hs.announced, hs.next_le, hsent⟩
    have hlast : h₁.lastSentPacketNumber = h.lastSentPacketNumber := hh₁ ▸ rfl
    have hinv₁ : h₁.InFlight := hh₁ ▸ hinv
    have hsub₁ : acked.Sublist h₁.packetHistory := hh₁ ▸ hsub
    have hinFlight := inFlight_foldl_onPacketAcked hinv₁ hsub₁
    have hreleases : h₁.Releases (((acked.foldl onPacketAcked h₁).detectLostPackets
        env).updateLossDetectionAlarm env) :=
      ((h₁.drops_foldl_onPacketAcked acked).releases.trans
        (releases_detectLostPackets hinFlight env)).trans
          (drops_updateLossDetectionAlarm _ env).releases
    obtain ⟨hannounced, hnext, hlargest⟩ := hs₁.releases hreleases
    have hraised := StopWaitingManager.receivedAck_raisedTo (n := f.largestAcked)
      (m := ((((acked.foldl onPacketAcked h₁).detectLostPackets
        env).updateLossDetectionAlarm env).stopWaitingManager)) (by omega :
          f.largestAcked < h.lastSentPacketNumber + 1)
    refine ⟨hannounced.raisedTo hraised, hraised.le_max.trans ?_, hlargest⟩
    change _ ≤ (((acked.foldl onPacketAcked h₁).detectLostPackets
      env).updateLossDetectionAlarm env).lastSentPacketNumber + 1
    rw [hreleases.lastSent, hlast] at hnext ⊢
    exact max_le hnext le_rfl

/-- An ACK frame is safe if it acknowledges every packet up to its largest one that is not
overdue. -/
theorem AckResult.settled (hr : AckResult h f n env h') (hs : h.Settled) (hinv : h.InFlight)
    (hvalid : f.Valid)
    (hall : h.largestReceivedPacketWithAck < n → ∀ p ∈ h.packetHistory,
      p.packetNumber ≤ f.largestAcked → f.acksPacket p.packetNumber ∨ Overdue env p) :
    h'.Settled := by
  cases hr with
  | rejected => exact hs
  | ignored => exact hs
  | failed hsent => exact hs
  | processed hsent hnew acked hacked =>
    have heq := determineNewlyAckedPackets_eq hinv hvalid
    obtain rfl := Except.ok.inj (heq.symm.trans hacked)
    generalize hacks : h.packetHistory.filter (fun p => f.acksPacket p.packetNumber) = acked
    have hsub : acked.Sublist h.packetHistory := hacks ▸ List.filter_sublist
    let h₁ : SentPacketHandler :=
      { h with largestReceivedPacketWithAck := n, largestAcked := f.largestAcked }
    have hinFlight := inFlight_foldl_onPacketAcked (h := h₁) hinv hsub
    have hdrops := h₁.drops_foldl_onPacketAcked acked
    intro p hp
    have hp : p ∈ ((acked.foldl onPacketAcked h₁).detectLostPackets env).packetHistory := by
      have halarm := (drops_updateLossDetectionAlarm
        ((acked.foldl onPacketAcked h₁).detectLostPackets env) env).history
      exact halarm hp
    rw [mem_detectLostPackets hinFlight, hdrops.largestAcked] at hp
    have hmem := hp.1
    rw [foldl_onPacketAcked_tracked, TrackedPackets.InFlight.mem_foldl_remove hinv hsub] at hmem
    -- what is left is above the largest acked packet
    have habove : f.largestAcked < p.packetNumber := by
      by_contra hle
      rcases hall hnew p hmem.1 (not_lt.mp hle) with hack | hdue
      · exact hmem.2 (hacks ▸ List.mem_filter.mpr ⟨hmem.1, hack⟩)
      · exact hp.2 ⟨not_lt.mp hle, hdue⟩
    have hnext : ((acked.foldl onPacketAcked h₁).detectLostPackets
        env).stopWaitingManager.nextLeastUnacked ≤ p.packetNumber := by
      refine nextLeastUnacked_detectLostPackets_le hinFlight ?_ ?_
      · rw [hdrops.largestAcked]
        exact habove
      · rw [hdrops.stopWaiting]
        exact hs p hmem.1
    rw [← (drops_updateLossDetectionAlarm _ env).stopWaiting] at hnext
    exact (StopWaitingManager.receivedAck_raisedTo habove).le_max.trans (max_le hnext le_rfl)

end AckResult

/-- A CLOSE_PATH frame for a path drops packets, and declares the others lost. -/
theorem Inv.receivedClosePath_result (hinv : s.Inv) (pathID : PathID) (f : ClosePathFrame) (n : ℕ) :
    (∃ h : SentPacketHandler, (s.handler pathID).Drops h ∧ h.InFlight ∧
      ((s.receivedClosePath pathID f n).2.handler pathID = h ∨
        (s.receivedClosePath pathID f n).2.handler pathID =
          h.setInflightAsLost.garbageCollectSkippedPackets)) ∧
      ∀ q ≠ pathID, (s.handler q).Drops ((s.receivedClosePath pathID f n).2.handler q) := by
  have hself := (hinv.handler pathID).inFlight
  have hother : ∀ h : SentPacketHandler, ∀ q ≠ pathID,
      (s.handler q).Drops ((s.modify pathID fun _ => h).handler q) := fun h q hq => by
    rw [modify_handler_of_ne hq]
    exact .refl _
  -- the frame is answered with an error after the handler noted its packet number
  have hnoted : (s.handler pathID).Drops
      { s.handler pathID with largestReceivedPacketWithAck := n } :=
    ⟨rfl, rfl, List.Subset.refl _, rfl⟩
  unfold PathHandlers.receivedClosePath
  dsimp only
  split_ifs with hunsent hdup hskipped
  · exact ⟨⟨_, .refl _, hself, .inl rfl⟩, fun q _ => .refl _⟩
  · exact ⟨⟨_, .refl _, hself, .inl rfl⟩, fun q _ => .refl _⟩
  · rw [modify_handler_self]
    exact ⟨⟨_, hnoted, hself, .inl rfl⟩, hother _⟩
  · split
    · rw [modify_handler_self]
      exact ⟨⟨_, hnoted, hself, .inl rfl⟩, hother _⟩
    · next acked hacked =>
      obtain ⟨hsub, -⟩ := determineNewlyAckedPackets_ok hacked
      let noted : SentPacketHandler := { s.handler pathID with largestReceivedPacketWithAck := n }
      have hforgets : (s.handler pathID).Forgets noted := ⟨rfl, rfl, fun _ => id⟩
      have hinv' := hinv.replace_ackPackets (h := noted) rfl hforgets hsub
      have hhandler := hinv.handler_replace_ackPackets (h := noted) rfl hforgets hsub
      rw [modify_handler_self]
      refine ⟨⟨_, ?_, (hinv'.handler pathID).inFlight, .inr rfl⟩, fun q hq => ?_⟩
      · rw [hhandler]
        exact hnoted.trans (drops_foldl_onPacketAcked _ acked)
      · rw [modify_handler_of_ne hq]
        exact (hother _ q hq).trans (ackPackets_drops _ pathID acked q)

/-- What a call does to the handler `h` of the path `q`. -/
inductive CallResult (h : SentPacketHandler) (q : PathID) : Call → SentPacketHandler → Prop where
  | drops {call : Call} {h' : SentPacketHandler} (hdrops : h.Drops h') : CallResult h q call h'
  | sent {packet : Packet} {env : Env} {h' : SentPacketHandler}
      (hok : h.sentPacket packet env = .ok h') : CallResult h q (.sentPacket q packet env) h'
  | acked {f : AckFrame} {n : ℕ} {env : Env} {h' : SentPacketHandler}
      (hresult : AckResult h f n env h') : CallResult h q (.receivedAck q f n env) h'
  | lost {call : Call} {h₁ h' : SentPacketHandler} (hdrops : h.Drops h₁) (hinv : h₁.InFlight)
      (hlost : h₁.setInflightAsLost.Drops h') : CallResult h q call h'
  | alarm {env : Env} {potentiallyFailed : Bool} :
      CallResult h q (.onAlarm q env potentiallyFailed) (h.onAlarm env potentiallyFailed)

theorem CallResult.modify {call : Call} {f : SentPacketHandler → SentPacketHandler}
    (hf : CallResult (s.handler pathID) pathID call (f (s.handler pathID))) (q : PathID) :
    CallResult (s.handler q) q call ((s.modify pathID f).handler q) :=
  forall_modify (P := fun q h => CallResult (s.handler q) q call h) hf
    (fun _ _ => .drops (.refl _)) q

/-- An ACK frame reaches the handlers of other paths too, but only to drop copies there. -/
theorem Inv.apply_result (hinv : s.Inv) (call : Call) (q : PathID) :
    CallResult (s.handler q) q call ((s.apply call).handler q) := by
  have hself := fun pathID => (hinv.handler pathID).inFlight
  cases call with
  | sentPacket pathID packet env =>
    rw [PathHandlers.apply]
    split
    · next h hok => exact CallResult.modify (.sent hok) q
    · exact .drops (.refl _)
  | receivedAck pathID f n env =>
    obtain ⟨hresult, hother⟩ := hinv.receivedAck_result pathID f n env
    by_cases hq : q = pathID
    · subst hq
      exact .acked hresult
    · exact .drops (hother q hq)
  | receivedClosePath pathID f n =>
    obtain ⟨⟨h, hdrops, hinFlight, heq⟩, hother⟩ := hinv.receivedClosePath_result pathID f n
    by_cases hq : q = pathID
    · subst hq
      rcases heq with heq | heq <;> rw [PathHandlers.apply, heq]
      · exact .drops hdrops
      · exact .lost hdrops hinFlight ⟨rfl, rfl, List.Subset.refl _, rfl⟩
    · exact .drops (hother q hq)
  | onAlarm pathID env potentiallyFailed =>
    rw [PathHandlers.apply]
    exact CallResult.modify .alarm q
  | setInflightAsLost pathID =>
    rw [PathHandlers.apply]
    exact CallResult.modify (.lost (.refl _) (hself pathID) (.refl _)) q
  | duplicatePacket pathID packet =>
    rw [PathHandlers.apply]
    exact CallResult.modify (.drops ⟨rfl, rfl, List.Subset.refl _, rfl⟩) q
  | dequeuePacketForRetransmission pathID =>
    rw [PathHandlers.apply]
    refine CallResult.modify (.drops ?_) q
    unfold SentPacketHandler.dequeuePacketForRetransmission
    split
    · exact .refl _
    · exact ⟨rfl, rfl, List.Subset.refl _, rfl⟩
  | addDuplicate original duplicate dropable => exact .drops (.refl _)

/-! ## Runs -/

/-- A call of a handler, or of its STOP_WAITING manager. -/
inductive ManagerCall where
  | handler (call : Call)
  | getStopWaitingFrame (pathID : PathID) (force : Bool)

/-- The calls that the session makes. -/
def ManagerCall.Admissible : ManagerCall → Prop
  | .handler call => call.Admissible
  | .getStopWaitingFrame _ _ => True

/-- A step is one call. -/
def ManagerStep (s : PathHandlers) (c : ManagerCall) (t : PathHandlers) : Prop :=
  match c with
  | .handler call => t = s.apply call
  | .getStopWaitingFrame pathID force => t = s.modify pathID fun h =>
    { h with stopWaitingManager := (h.stopWaitingManager.getStopWaitingFrame force).2 }

/-- The handlers keep track of packets that were sent, and announce their numbers. -/
structure Announces (s : PathHandlers) : Prop where
  inv : s.Inv
  stopWaiting : ∀ q, (s.handler q).StopWaiting

theorem announces_new : new.Announces := ⟨inv_new, fun _ => stopWaiting_new⟩

theorem Announces.apply (hs : s.Announces) {call : Call} (hcall : call.Admissible) :
    (s.apply call).Announces := by
  refine ⟨hs.inv.apply hcall, fun q => ?_⟩
  have hself := (hs.inv.handler q).inFlight
  have hq := hs.stopWaiting q
  have hresult := hs.inv.apply_result call q
  generalize (s.apply call).handler q = h' at hresult ⊢
  cases hresult with
  | drops hdrops => exact hq.releases hdrops.releases
  | sent hok => exact hq.sentPacket hok
  | acked hresult => exact hresult.stopWaiting hq hself
  | lost hdrops hinv hlost =>
    have hdropped := hq.releases hdrops.releases
    exact (hdropped.releases (releases_setInflightAsLost hinv)).releases hlost.releases
  | alarm => exact hq.releases (releases_onAlarm hself _ _)

theorem Announces.step (hs : s.Announces) {c : ManagerCall} (hc : c.Admissible)
    (hstep : ManagerStep s c t) : t.Announces := by
  cases c with
  | handler call =>
    obtain rfl := hstep
    exact hs.apply hc
  | getStopWaitingFrame pathID force =>
    obtain rfl := hstep
    refine ⟨hs.inv.modify _ ?_, forall_modify (P := fun _ h => h.StopWaiting) ?_
      fun q _ => hs.stopWaiting q⟩
    · obtain ⟨hinFlight, hskips⟩ := hs.inv.handler pathID
      exact ⟨hinFlight, hskips.forgets (.of_eq rfl rfl)⟩
    · obtain ⟨ha, hn, hl⟩ := hs.stopWaiting pathID
      refine ⟨ha.getStopWaitingFrame force, ?_, hl⟩
      dsimp only
      rw [StopWaitingManager.getStopWaitingFrame_nextLeastUnacked]
      exact hn

theorem announces_of_run {calls : List ManagerCall} (hcalls : ∀ c ∈ calls, c.Admissible)
    (hrun : Run ManagerStep new calls s) : s.Announces :=
  Run.invariant_of_forall (I := fun _ s => s.Announces) announces_new
    (fun _ _ _ _ hs hc hstep => hs.step hc hstep) hcalls hrun

/-! ## Outstanding packets -/

/-- A call that makes no packet below the announced number stay in the history: an ACK frame that
is processed acknowledges every packet up to its largest one, unless the packet is overdue; loss
detection finds no packet overdue before an older one, as long as the clock does not run backwards;
and a tail loss probe is sent for the only outstanding packet. -/
def NoneBehind (s : PathHandlers) : ManagerCall → Prop
  | .handler (.receivedAck pathID f n env) => f.Valid ∧
    ((s.handler pathID).largestReceivedPacketWithAck < n →
      ∀ p ∈ (s.handler pathID).packetHistory, p.packetNumber ≤ f.largestAcked →
        f.acksPacket p.packetNumber ∨ Overdue env p)
  | .handler (.onAlarm pathID env _) =>
    let h := s.handler pathID
    (h.lossTime.isSome → ∀ p ∈ h.packetHistory, ∀ q ∈ h.packetHistory,
      p.packetNumber < q.packetNumber → q.packetNumber ≤ h.largestAcked →
        Overdue env q → Overdue env p) ∧
      (h.lossTime = none → h.tlpCount < maxTailLossProbes → h.packetHistory.length ≤ 1)
  | _ => True

/-- Such calls keep every outstanding packet above the announced numbers. -/
theorem settled_apply (hs : s.Announces) (hsettled : ∀ q, (s.handler q).Settled) {call : Call}
    (hcall : s.NoneBehind (.handler call)) (q : PathID) : ((s.apply call).handler q).Settled := by
  have hself := (hs.inv.handler q).inFlight
  have hq := hsettled q
  have hresult := hs.inv.apply_result call q
  generalize (s.apply call).handler q = h' at hresult ⊢
  cases hresult with
  | drops hdrops => exact hq.drops hdrops
  | sent hok => exact hq.sentPacket (hs.stopWaiting q) hok
  | acked hresult => exact hresult.settled hq hself hcall.1 hcall.2
  | lost hdrops hinv hlost => exact ((hq.drops hdrops).setInflightAsLost hinv).drops hlost
  | alarm => exact hq.onAlarm hself hcall.1 hcall.2

theorem settled_step (hs : s.Announces) (hsettled : ∀ q, (s.handler q).Settled) {c : ManagerCall}
    (hc : s.NoneBehind c) (hstep : ManagerStep s c t) (q : PathID) : (t.handler q).Settled := by
  cases c with
  | handler call =>
    obtain rfl := hstep
    exact settled_apply hs hsettled hc q
  | getStopWaitingFrame pathID force =>
    obtain rfl := hstep
    refine forall_modify (P := fun _ h => h.Settled) (fun p hp => ?_) (fun q _ => hsettled q) q
    dsimp only
    rw [StopWaitingManager.getStopWaitingFrame_nextLeastUnacked]
    exact hsettled pathID p hp

/-- In every run in which no call leaves an older packet behind, no STOP_WAITING frame, forced or
not, is above a packet that is still in the history. -/
theorem stopWaiting_settled {calls : List ManagerCall} (hcalls : ∀ c ∈ calls, c.Admissible)
    (hrun : Run (fun s c t => s.NoneBehind c ∧ ManagerStep s c t) new calls s) {force : Bool}
    {u : ℕ} (hframe : ((s.handler pathID).stopWaitingManager.getStopWaitingFrame force).1 = some u)
    {p : Packet} (hp : p ∈ (s.handler pathID).packetHistory) : u ≤ p.packetNumber := by
  have hinv : s.Announces ∧ ∀ q, (s.handler q).Settled :=
    Run.invariant_of_forall (I := fun _ s => s.Announces ∧ ∀ q, (s.handler q).Settled)
      ⟨announces_new, fun _ => settled_new⟩
      (fun _ _ _ _ hs hc hstep =>
        ⟨hs.1.step hc hstep.2, settled_step hs.1 hs.2 hstep.1 hstep.2⟩) hcalls hrun
  obtain ⟨rfl, -⟩ := (hinv.1.stopWaiting pathID).announced.leastUnacked_eq hframe
  exact hinv.2 pathID p hp

/-- A packet with a PING frame. -/
def pingPacket (n : ℕ) : Packet :=
  { packetNumber := n, frames := [.ping], length := 40, encryptionLevel := .forwardSecure,
    sendTime := 0 }

/-- An ACK frame for the packets from `lowest` to `largest`. -/
def ackFrame (pathID : PathID) (lowest largest : ℕ) (ackRanges : List AckRange) : AckFrame :=
  { largestAcked := largest, lowestAcked := lowest, ackRanges, pathID, packetReceivedTime := 0,
    delayTime := 0 }

/-- A time in a connection with a round trip time of 100. -/
def envAt (now : ℕ) : Env :=
  { now, latestRTT := 100, smoothedRTT := 100, retransmissionDelay := 0 }

theorem run_handler (calls : List Call) :
    Run ManagerStep new (calls.map .handler) (calls.foldl apply new) := by
  have hnil : Run ManagerStep new [] new := .nil
  have hrun := hnil.foldl
    (f := fun s c => match c with
      | .handler call => s.apply call
      | .getStopWaitingFrame _ _ => s) (fun c (hc : c ∈ calls.map .handler) s => by
    obtain ⟨call, -, rfl⟩ := List.mem_map.mp hc
    rfl)
  rwa [List.foldl_map] at hrun

/-- Packets 1 and 2 are acknowledged together, and packet 3 is outstanding. -/
theorem stopWaiting_settled_example : ∃ s : PathHandlers,
    ((s.handler 1).stopWaitingManager.getStopWaitingFrame false).1 = some 3 ∧
      (s.handler 1).packetHistory.map Packet.packetNumber = [3] ∧
      ∀ p ∈ (s.handler 1).packetHistory, 3 ≤ p.packetNumber := by
  let calls : List Call := [.sentPacket 1 (pingPacket 1) (envAt 5),
    .sentPacket 1 (pingPacket 2) (envAt 6), .receivedAck 1 (ackFrame 1 1 2 []) 1 (envAt 50),
    .sentPacket 1 (pingPacket 3) (envAt 51)]
  have hcalls : ∀ c ∈ calls.map ManagerCall.handler, c.Admissible := by
    simp [calls, ManagerCall.Admissible, Call.Admissible, pingPacket]
  have hvalid : (ackFrame 1 1 2 []).Valid :=
    ⟨rfl, by simp [ackFrame], by decide, by decide, by decide, by simp [ackFrame]⟩
  obtain ⟨s, hrun, rfl⟩ : ∃ s, Run (fun s c t => s.NoneBehind c ∧ ManagerStep s c t) new
      (calls.map ManagerCall.handler) s ∧ s = calls.foldl apply new :=
    ⟨_, (((Run.nil.snoc ⟨trivial, rfl⟩).snoc ⟨trivial, rfl⟩).snoc ⟨⟨hvalid, by decide⟩, rfl⟩).snoc
      ⟨trivial, rfl⟩, rfl⟩
  have hframe : (((calls.foldl apply new).handler 1).stopWaitingManager.getStopWaitingFrame
    false).1 = some 3 := by decide
  exact ⟨_, hframe, by decide, fun p hp => stopWaiting_settled hcalls hrun hframe hp⟩

/-- Of the packets 1, 2 and 3 the peer has received 1 and 3. Packet 2 is not overdue and stays in
the history, but the sender announces that it waits for packet 4. -/
theorem stopWaiting_above_outstanding :
    let s := [Call.sentPacket 1 (pingPacket 1) (envAt 5), .sentPacket 1 (pingPacket 2) (envAt 6),
      .sentPacket 1 (pingPacket 3) (envAt 7),
      .receivedAck 1 (ackFrame 1 1 3 [⟨3, 3⟩, ⟨1, 1⟩]) 1 (envAt 50)].foldl apply new
    ∃ calls, Run ManagerStep new calls s ∧ (∀ c ∈ calls, c.Admissible) ∧
      ((s.handler 1).stopWaitingManager.getStopWaitingFrame false).1 = some 4 ∧
      (s.handler 1).packetHistory.map Packet.packetNumber = [2] := by
  refine ⟨_, run_handler _, ?_, by decide, by decide⟩
  simp [ManagerCall.Admissible, Call.Admissible, pingPacket]

end PathHandlers

end MPQuic
