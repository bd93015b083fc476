import MPQuic.AckHandler.Skipped
import MPQuic.Lib.Transition

/-!
# The sent packet handlers of all paths

The redundant scheduler sends copies of a packet on other paths and remembers which packets are
copies of each other (`dupPackets` in `scheduler.go`). When a packet is acknowledged, the handler
of its path calls `crossAckHandling`, which drops the copy from the handler of the other path in
the middle of `ReceivedAck`. This module has the handlers of all paths together with the map, and
the functions that reach more than one handler.

`inFlight_accounting` is the result: for all handlers and every sequence of calls the bytes in
flight are those of the packet history.
-/

namespace MPQuic

open Bytes Transition TrackedPackets

/-- A packet of a path. -/
structure DupID where
  pathID : PathID
  packetNumber : ℕ
  deriving DecidableEq

/-- The handlers of all paths and the scheduler's map of duplicated packets. -/
structure PathHandlers where
  handler : PathID → SentPacketHandler
  dupPackets : DupID → Option DupID

namespace PathHandlers

/-- New handlers. -/
def new : PathHandlers where
  handler := fun _ => .new
  dupPackets := fun _ => none

/-- Replace the handler of a path. -/
def modify (s : PathHandlers) (pathID : PathID) (f : SentPacketHandler → SentPacketHandler) :
    PathHandlers :=
  { s with handler := Function.update s.handler pathID (f (s.handler pathID)) }

/-- Map a packet to its duplicate, and the duplicate to the packet if the packet is dropable. -/
def addDuplicate (s : PathHandlers) (original duplicate : DupID) (dropable : Bool) :
    PathHandlers :=
  let dupPackets := Function.update s.dupPackets original (some duplicate)
  { s with
    dupPackets :=
      if dropable then Function.update dupPackets duplicate (some original) else dupPackets }

/-- Drop the duplicate of an acknowledged packet, and both mappings. -/
def crossAckHandling (s : PathHandlers) (pathID : PathID) (packetNumber : ℕ) : PathHandlers :=
  let dupKey : DupID := { pathID, packetNumber }
  match s.dupPackets dupKey with
  | some dupEntry =>
    { s.modify dupEntry.pathID fun h => (h.removePacketByNumber dupEntry.packetNumber).2 with
      dupPackets := Function.update (Function.update s.dupPackets dupEntry none) dupKey none }
  | none => { s with dupPackets := Function.update s.dupPackets dupKey none }

/-- Process the acknowledged packets of a path one by one. -/
def ackPackets (s : PathHandlers) (pathID : PathID) (ackedPackets : List Packet) : PathHandlers :=
  ackedPackets.foldl
    (fun s p => (s.crossAckHandling pathID p.packetNumber).modify pathID (·.onPacketAcked p)) s

/-- An ACK frame for the packets of a path was received with the packet `withPacketNumber`. -/
def receivedAck (s : PathHandlers) (pathID : PathID) (ackFrame : AckFrame) (withPacketNumber : ℕ)
    (env : Env) : Option SentPacketError × PathHandlers :=
  let h := s.handler pathID
  if h.lastSentPacketNumber < ackFrame.largestAcked then (some .ackForUnsentPacket, s)
  -- duplicate or out-of-order ACK
  else if withPacketNumber ≤ h.largestReceivedPacketWithAck then
    (some .duplicateOrOutOfOrderAck, s)
  else
    let h := { h with largestReceivedPacketWithAck := withPacketNumber }
    -- ignore repeated ACK (ACKs that don't have a higher LargestAcked than the last ACK)
    if ackFrame.largestAcked ≤ h.largestInOrderAcked then (none, s.modify pathID fun _ => h)
    else
      let h := { h with largestAcked := ackFrame.largestAcked }
      if h.skippedPacketsAcked ackFrame.toAckedPackets then
        (some .ackForSkippedPacket, s.modify pathID fun _ => h)
      else
        match h.determineNewlyAckedPackets ackFrame.toAckedPackets with
        | .error e => (some e, s.modify pathID fun _ => h)
        | .ok ackedPackets =>
          let s := (s.modify pathID fun _ => h).ackPackets pathID ackedPackets
          (none, s.modify pathID fun h =>
            let h := (h.detectLostPackets env).updateLossDetectionAlarm env
            let h := h.garbageCollectSkippedPackets
            { h with stopWaitingManager := h.stopWaitingManager.receivedAck ackFrame.largestAcked })

/-- A CLOSE_PATH frame for a path was received. -/
def receivedClosePath (s : PathHandlers) (pathID : PathID) (f : ClosePathFrame)
    (withPacketNumber : ℕ) : Option SentPacketError × PathHandlers :=
  let h := s.handler pathID
  if h.lastSentPacketNumber < f.largestAcked then (some .ackForUnsentPacket, s)
  -- this should never happen, since a CLOSE_PATH frame should be the last packet on a path
  else if withPacketNumber ≤ h.largestReceivedPacketWithAck then
    (some .duplicateOrOutOfOrderAck, s)
  else
    let h := { h with largestReceivedPacketWithAck := withPacketNumber }
    if h.skippedPacketsAcked f.toAckedPackets then
      (some .ackForSkippedPacket, s.modify pathID fun _ => h)
    else
      match h.determineNewlyAckedPackets f.toAckedPackets with
      | .error e => (some e, s.modify pathID fun _ => h)
      | .ok ackedPackets =>
        let s := (s.modify pathID fun _ => h).ackPackets pathID ackedPackets
        (none, s.modify pathID fun h => h.setInflightAsLost.garbageCollectSkippedPackets)

/-! ## Calls -/

/-- A call of one of the handlers, or an update of the map. -/
inductive Call where
  | sentPacket (pathID : PathID) (packet : Packet) (env : Env)
  | receivedAck (pathID : PathID) (ackFrame : AckFrame) (withPacketNumber : ℕ) (env : Env)
  | receivedClosePath (pathID : PathID) (f : ClosePathFrame) (withPacketNumber : ℕ)
  | onAlarm (pathID : PathID) (env : Env) (potentiallyFailed : Bool)
  | setInflightAsLost (pathID : PathID)
  | duplicatePacket (pathID : PathID) (packet : Packet)
  | dequeuePacketForRetransmission (pathID : PathID)
  | addDuplicate (original duplicate : DupID) (dropable : Bool)

/-- What a call does to the handlers. -/
def apply (s : PathHandlers) : Call → PathHandlers
  | .sentPacket pathID packet env =>
    match (s.handler pathID).sentPacket packet env with
    | .ok h => s.modify pathID fun _ => h
    | .error _ => s
  | .receivedAck pathID ackFrame withPacketNumber env =>
    (s.receivedAck pathID ackFrame withPacketNumber env).2
  | .receivedClosePath pathID f withPacketNumber =>
    (s.receivedClosePath pathID f withPacketNumber).2
  | .onAlarm pathID env potentiallyFailed => s.modify pathID (·.onAlarm env potentiallyFailed)
  | .setInflightAsLost pathID => s.modify pathID (·.setInflightAsLost)
  | .duplicatePacket pathID packet => s.modify pathID (·.duplicatePacket packet)
  | .dequeuePacketForRetransmission pathID =>
    s.modify pathID fun h => h.dequeuePacketForRetransmission.2
  | .addDuplicate original duplicate dropable => s.addDuplicate original duplicate dropable

/-- The calls that the session makes: a packet is not empty, and it is the length of a byte slice,
which keeps the sums in the 64-bit range; duplicates are sent on another path than the original. -/
def Call.Admissible : Call → Prop
  | .sentPacket _ packet _ => 0 < packet.length ∧ packet.length < 2 ^ 48
  | .addDuplicate original duplicate _ => original.pathID ≠ duplicate.pathID
  | _ => True

/-- A step is one call. -/
def Step (s : PathHandlers) (call : Call) (t : PathHandlers) : Prop := t = s.apply call

/-! ## The invariant -/

/-- The invariant of all handlers, and of the map: duplicates are on different paths. -/
structure Inv (s : PathHandlers) : Prop where
  handler : ∀ pathID, (s.handler pathID).Inv
  crossPath : ∀ k e, s.dupPackets k = some e → k.pathID ≠ e.pathID

variable {s : PathHandlers} {pathID : PathID}

@[simp]
theorem modify_handler_self (s : PathHandlers) (pathID : PathID)
    (f : SentPacketHandler → SentPacketHandler) :
    (s.modify pathID f).handler pathID = f (s.handler pathID) :=
  Function.update_self ..

theorem modify_handler_of_ne {q : PathID} (hq : q ≠ pathID)
    (f : SentPacketHandler → SentPacketHandler) :
    (s.modify pathID f).handler q = s.handler q :=
  Function.update_of_ne hq ..

/-- What holds of the changed handler and of the other ones holds of all handlers. -/
theorem forall_modify {P : PathID → SentPacketHandler → Prop}
    {f : SentPacketHandler → SentPacketHandler} (hself : P pathID (f (s.handler pathID)))
    (hother : ∀ q ≠ pathID, P q (s.handler q)) (q : PathID) :
    P q ((s.modify pathID f).handler q) := by
  by_cases hq : q = pathID
  · subst hq
    rw [modify_handler_self]
    exact hself
  · rw [modify_handler_of_ne hq]
    exact hother q hq

/-- Replacing a handler by one that keeps its invariant. -/
theorem Inv.modify (hinv : s.Inv) (f : SentPacketHandler → SentPacketHandler)
    (hf : (f (s.handler pathID)).Inv) : (s.modify pathID f).Inv where
  handler := forall_modify (P := fun _ h => h.Inv) hf fun q _ => hinv.handler q
  crossPath := hinv.crossPath

/-- The mappings are those from before, and the two new ones. -/
theorem addDuplicate_dupPackets {original duplicate k e : DupID} {dropable : Bool}
    (hk : (s.addDuplicate original duplicate dropable).dupPackets k = some e) :
    (k = original ∧ e = duplicate) ∨ (k = duplicate ∧ e = original) ∨ s.dupPackets k = some e := by
  have hforward : Function.update s.dupPackets original (some duplicate) k = some e →
      (k = original ∧ e = duplicate) ∨ s.dupPackets k = some e := by
    intro hk
    rw [Function.update_apply] at hk
    split_ifs at hk with h
    · exact .inl ⟨h, (Option.some.inj hk).symm⟩
    · exact .inr hk
  -- the mapping back is added for a dropable packet only
  rw [PathHandlers.addDuplicate] at hk
  dsimp only at hk
  split_ifs at hk
  · rw [Function.update_apply] at hk
    split_ifs at hk with h
    · exact .inr (.inl ⟨h, (Option.some.inj hk).symm⟩)
    · exact (hforward hk).imp id .inr
  · exact (hforward hk).imp id .inr

theorem Inv.addDuplicate (hinv : s.Inv) {original duplicate : DupID} (dropable : Bool)
    (hne : original.pathID ≠ duplicate.pathID) :
    (s.addDuplicate original duplicate dropable).Inv := by
  refine ⟨hinv.handler, fun k e hk => ?_⟩
  obtain ⟨rfl, rfl⟩ | ⟨rfl, rfl⟩ | hk := addDuplicate_dupPackets hk
  · exact hne
  · exact hne.symm
  · exact hinv.crossPath k e hk

theorem eq_some_of_update_none {m : DupID → Option DupID} {a k e : DupID}
    (h : Function.update m a none k = some e) : m k = some e := by
  rw [Function.update_apply] at h
  split_ifs at h
  exact h

theorem Inv.crossAckHandling (hinv : s.Inv) (pathID : PathID) (n : ℕ) :
    (s.crossAckHandling pathID n).Inv := by
  unfold PathHandlers.crossAckHandling
  dsimp only
  split
  · next dupEntry hentry =>
    have hmodify : (s.modify dupEntry.pathID _).Inv :=
      hinv.modify (fun h => (h.removePacketByNumber dupEntry.packetNumber).2)
        ((hinv.handler dupEntry.pathID).removePacketByNumber _)
    exact ⟨hmodify.handler, fun k e hk =>
      hinv.crossPath k e (eq_some_of_update_none (eq_some_of_update_none hk))⟩
  · exact ⟨hinv.handler, fun k e hk => hinv.crossPath k e (eq_some_of_update_none hk)⟩

/-- The callback does not reach the handler that calls it. -/
theorem crossAckHandling_handler_self (hinv : s.Inv) (pathID : PathID) (n : ℕ) :
    (s.crossAckHandling pathID n).handler pathID = s.handler pathID := by
  unfold PathHandlers.crossAckHandling
  dsimp only
  split
  · next dupEntry hentry =>
    have hne : pathID ≠ dupEntry.pathID := hinv.crossPath _ _ hentry
    exact Function.update_of_ne hne _ _
  · rfl

variable {acked : List Packet}

/-- The packets that were collected before the callbacks are all still there when it is their
turn. -/
theorem Inv.ackPackets (hinv : s.Inv) (hacked : acked.Sublist (s.handler pathID).packetHistory) :
    (s.ackPackets pathID acked).Inv ∧
      (s.ackPackets pathID acked).handler pathID =
        acked.foldl SentPacketHandler.onPacketAcked (s.handler pathID) := by
  induction acked generalizing s with
  | nil => exact ⟨hinv, rfl⟩
  | cons p acked ih =>
    -- the callback looks at other paths only, so the handler of this path is the same after it
    have hcross := hinv.crossAckHandling pathID p.packetNumber
    have hself := crossAckHandling_handler_self hinv pathID p.packetNumber
    have hp := hacked.subset List.mem_cons_self
    have hnext : ((s.crossAckHandling pathID p.packetNumber).modify pathID
        (·.onPacketAcked p)).Inv := by
      refine hcross.modify _ ?_
      rw [hself]
      exact (hinv.handler pathID).onPacketAcked hp
    have hhandler : ((s.crossAckHandling pathID p.packetNumber).modify pathID
        (·.onPacketAcked p)).handler pathID = (s.handler pathID).onPacketAcked p := by
      rw [modify_handler_self, hself]
    have hrest := ih hnext (by
      rw [hhandler]
      exact KeyedList.sublist_eraseKey (hinv.handler pathID).inFlight.nodup hacked)
    rw [hhandler] at hrest
    exact hrest

theorem foldl_onPacketAcked_tracked (h : SentPacketHandler) (acked : List Packet) :
    (acked.foldl SentPacketHandler.onPacketAcked h).toTrackedPackets =
      acked.foldl TrackedPackets.remove h.toTrackedPackets := by
  induction acked generalizing h with
  | nil => rfl
  | cons p acked ih => exact ih (h.onPacketAcked p)

/-- What a frame that acknowledges packets of a path can do: it changes nothing that is tracked, or
the packets of the history that it acknowledges are processed one by one, and then the handler
declares packets lost. -/
inductive AckOutcome (s : PathHandlers) (pathID : PathID) (f : AckedPackets) :
    PathHandlers → Prop where
  | ignored (h : SentPacketHandler)
      (heq : h.toTrackedPackets = (s.handler pathID).toTrackedPackets)
      (hforgets : (s.handler pathID).Forgets h) :
      AckOutcome s pathID f (s.modify pathID fun _ => h)
  | acked (h : SentPacketHandler)
      (heq : h.toTrackedPackets = (s.handler pathID).toTrackedPackets)
      (hforgets : (s.handler pathID).Forgets h) (ackedPackets : List Packet)
      (hsub : ackedPackets.Sublist (s.handler pathID).packetHistory)
      (hacks : ∀ p ∈ ackedPackets, f.acksPacket p.packetNumber = true)
      (lose : SentPacketHandler → SentPacketHandler)
      (hlose : ∀ h : SentPacketHandler, h.Queues (lose h).toTrackedPackets ∧ h.Forgets (lose h)) :
      AckOutcome s pathID f
        (((s.modify pathID fun _ => h).ackPackets pathID ackedPackets).modify pathID lose)

theorem AckOutcome.self (s : PathHandlers) (pathID : PathID) (f : AckedPackets) :
    AckOutcome s pathID f s := by
  have h := AckOutcome.ignored (s := s) (f := f) (s.handler pathID) rfl (.of_eq rfl rfl)
  rwa [PathHandlers.modify, Function.update_eq_self] at h

theorem receivedAck_outcome (s : PathHandlers) (pathID : PathID) (f : AckFrame) (n : ℕ)
    (env : Env) : AckOutcome s pathID f.toAckedPackets (s.receivedAck pathID f n env).2 := by
  unfold PathHandlers.receivedAck
  dsimp only
  -- an unsent packet, a duplicate or repeated frame, and a skipped packet
  split_ifs
  · exact .self s pathID _
  · exact .self s pathID _
  · exact .ignored _ rfl ⟨rfl, rfl, fun _ => id⟩
  · exact .ignored _ rfl ⟨rfl, rfl, fun _ => id⟩
  · split
    · exact .ignored _ rfl ⟨rfl, rfl, fun _ => id⟩
    · next acked hacked =>
      obtain ⟨hsub, hacks⟩ := SentPacketHandler.determineNewlyAckedPackets_ok hacked
      dsimp only
      refine .acked _ ?_ ?_ acked hsub hacks _ fun h => ⟨?_, ?_⟩
      · rfl
      · exact ⟨rfl, rfl, fun _ => id⟩
      · have hlost := h.detectLostPackets_queues env
        rw [← SentPacketHandler.updateLossDetectionAlarm_tracked (h.detectLostPackets env)] at hlost
        exact hlost
      · have htrims := ((h.trims_detectLostPackets env).trans
          (SentPacketHandler.trims_updateLossDetectionAlarm _ env)).trans
            (SentPacketHandler.trims_garbageCollectSkippedPackets _)
        exact htrims.toForgets.trans (.of_eq rfl rfl)

theorem receivedClosePath_outcome (s : PathHandlers) (pathID : PathID) (f : ClosePathFrame)
    (n : ℕ) : AckOutcome s pathID f.toAckedPackets (s.receivedClosePath pathID f n).2 := by
  unfold PathHandlers.receivedClosePath
  dsimp only
  split_ifs
  · exact .self s pathID _
  · exact .self s pathID _
  · exact .ignored _ rfl ⟨rfl, rfl, fun _ => id⟩
  · split
    · exact .ignored _ rfl ⟨rfl, rfl, fun _ => id⟩
    · next acked hacked =>
      obtain ⟨hsub, hacks⟩ := SentPacketHandler.determineNewlyAckedPackets_ok hacked
      dsimp only
      refine .acked _ ?_ ?_ acked hsub hacks _ fun h => ⟨h.setInflightAsLost_queues, ?_⟩
      · rfl
      · exact ⟨rfl, rfl, fun _ => id⟩
      · exact (h.trims_setInflightAsLost.trans
          (SentPacketHandler.trims_garbageCollectSkippedPackets _)).toForgets

variable {h : SentPacketHandler}

/-- A handler that tracks the same packets and knows the same of what was sent. -/
theorem Inv.replace (hinv : s.Inv)
    (heq : h.toTrackedPackets = (s.handler pathID).toTrackedPackets)
    (hforgets : (s.handler pathID).Forgets h) : (s.modify pathID fun _ => h).Inv := by
  have hself := hinv.handler pathID
  exact hinv.modify _ ⟨heq ▸ hself.inFlight, hself.skips.forgets hforgets⟩

/-- The handler of a path after its packets were acknowledged. -/
theorem Inv.handler_replace_ackPackets (hinv : s.Inv)
    (heq : h.toTrackedPackets = (s.handler pathID).toTrackedPackets)
    (hforgets : (s.handler pathID).Forgets h)
    (hsub : acked.Sublist (s.handler pathID).packetHistory) :
    ((s.modify pathID fun _ => h).ackPackets pathID acked).handler pathID =
      acked.foldl SentPacketHandler.onPacketAcked h := by
  rw [((hinv.replace heq hforgets).ackPackets ?_).2, modify_handler_self]
  rw [modify_handler_self, heq]
  exact hsub

/-- The invariant before packets are declared lost. -/
theorem Inv.replace_ackPackets (hinv : s.Inv)
    (heq : h.toTrackedPackets = (s.handler pathID).toTrackedPackets)
    (hforgets : (s.handler pathID).Forgets h)
    (hsub : acked.Sublist (s.handler pathID).packetHistory) :
    ((s.modify pathID fun _ => h).ackPackets pathID acked).Inv := by
  refine ((hinv.replace heq hforgets).ackPackets ?_).1
  rw [modify_handler_self, heq]
  exact hsub

theorem Inv.ackOutcome (hinv : s.Inv) {f : AckedPackets} {t : PathHandlers}
    (h : AckOutcome s pathID f t) : t.Inv := by
  cases h with
  | ignored h heq hforgets => exact hinv.replace heq hforgets
  | acked h heq hforgets acked hsub hacks lose hlose =>
    have hacked := hinv.replace_ackPackets heq hforgets hsub
    exact hacked.modify _ ((hacked.handler pathID).queues (hlose _).1 (hlose _).2)

theorem inv_new : new.Inv :=
  ⟨fun _ => SentPacketHandler.inv_new, by simp [new]⟩

/-- Every call keeps the invariant. -/
theorem Inv.apply (hinv : s.Inv) {call : Call} (hcall : call.Admissible) : (s.apply call).Inv := by
  cases call with
  | sentPacket pathID packet env =>
    rw [PathHandlers.apply]
    split
    · next h hok => exact hinv.modify _ ((hinv.handler pathID).sentPacket hcall.2 hok)
    · exact hinv
  | receivedAck pathID f n env => exact hinv.ackOutcome (receivedAck_outcome s pathID f n env)
  | receivedClosePath pathID f n => exact hinv.ackOutcome (receivedClosePath_outcome s pathID f n)
  | onAlarm pathID env potentiallyFailed =>
    rw [PathHandlers.apply]
    refine hinv.modify _ ?_
    exact (hinv.handler pathID).queues (SentPacketHandler.onAlarm_queues _ env potentiallyFailed)
      (SentPacketHandler.trims_onAlarm _ env potentiallyFailed).toForgets
  | setInflightAsLost pathID =>
    rw [PathHandlers.apply]
    refine hinv.modify _ ?_
    exact (hinv.handler pathID).queues (SentPacketHandler.setInflightAsLost_queues _)
      (SentPacketHandler.trims_setInflightAsLost _).toForgets
  | duplicatePacket pathID packet =>
    rw [PathHandlers.apply]
    refine hinv.modify _ ?_
    exact (hinv.handler pathID).of_retransmissionQueue _
  | dequeuePacketForRetransmission pathID =>
    rw [PathHandlers.apply]
    refine hinv.modify _ ?_
    unfold SentPacketHandler.dequeuePacketForRetransmission
    split
    · exact hinv.handler pathID
    · exact (hinv.handler pathID).of_retransmissionQueue _
  | addDuplicate original duplicate dropable => exact hinv.addDuplicate dropable hcall

/-- Every sequence of calls is a run. -/
theorem run_foldl (calls : List Call) : Run Step new calls (calls.foldl apply new) :=
  Run.nil.foldl fun _ _ _ => rfl

/-- In every run the invariant holds. -/
theorem inv_of_run {calls : List Call} (hcalls : ∀ call ∈ calls, call.Admissible)
    (hrun : Run Step new calls s) : s.Inv :=
  Run.invariant_of_forall (I := fun _ s => s.Inv) inv_new
    (fun _ _ _ _ hinv hcall hstep => hstep ▸ hinv.apply hcall) hcalls hrun

/-- For each handler and after every sequence of calls on any of the handlers, the bytes in flight
are the lengths of the packets in the history, so that no subtraction underflows; the history is
strictly increasing, with numbers between 1 and the last one sent; and no packet was taken out of
it more than once. -/
theorem inFlight_accounting {calls : List Call} (hcalls : ∀ call ∈ calls, call.Admissible)
    (hrun : Run Step new calls s) (pathID : PathID) :
    let h := s.handler pathID
    h.bytesInFlight = (h.packetHistory.map Packet.length).sum ∧
      (∀ p ∈ h.packetHistory, p.length ≤ h.bytesInFlight) ∧
      h.packetHistory.Pairwise (·.packetNumber < ·.packetNumber) ∧
      (∀ p ∈ h.packetHistory,
        1 ≤ p.packetNumber ∧ p.packetNumber ≤ h.lastSentPacketNumber) ∧
      h.removed.Nodup := by
  have hinv := ((inv_of_run hcalls hrun).handler pathID).inFlight
  exact ⟨hinv.bytes, fun p hp => hinv.length_le_bytes hp, hinv.sorted, hinv.range,
    hinv.removed_nodup⟩

/-- A packet is sent on path 1 and copied to path 3; the copy is acknowledged first. -/
theorem inFlight_accounting_example :
    let packet : Packet :=
      { packetNumber := 1, frames := [.ping], length := 40, encryptionLevel := .forwardSecure,
        sendTime := 0 }
    let env := noSamples 5
    let ack : AckFrame :=
      { largestAcked := 1, lowestAcked := 1, ackRanges := [], pathID := 3,
        packetReceivedTime := 0, delayTime := 0 }
    let calls : List Call :=
      [.sentPacket 1 packet env, .addDuplicate ⟨1, 1⟩ ⟨3, 1⟩ true, .sentPacket 3 packet env,
        .receivedAck 3 ack 1 env]
    let s := calls.foldl apply new
    (s.handler 1).packetHistory = [] ∧ (s.handler 1).removed = [1] ∧
      (s.handler 1).bytesInFlight = ((s.handler 1).packetHistory.map Packet.length).sum := by
  intro packet env ack calls s
  have hcalls : ∀ call ∈ calls, call.Admissible := by
    simp only [calls, List.forall_mem_cons, Call.Admissible]
    exact ⟨by decide, by decide, by decide, trivial, by simp⟩
  exact ⟨by decide, by decide, (inFlight_accounting hcalls (run_foldl calls) 1).1⟩

end PathHandlers

end MPQuic
