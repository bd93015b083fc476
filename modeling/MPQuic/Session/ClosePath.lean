import MPQuic.AckHandler.Acknowledged
import MPQuic.AckHandler.ReceivedPacketHandler
import MPQuic.Scheduler.CrossAck

/-!
# Closing a path

`handleClosePathFrame` and `closePath` of `session.go`. A path that is closed should leave no packet
behind: what the CLOSE_PATH frame does not acknowledge is to be retransmitted on other paths.

`SetInflightAsLost` queues only the packets up to the `LargestAcked` of the handler, which is set by
ACK frames and not by CLOSE_PATH frames, and `ReceivedClosePath` rejects the frame when no packet
was received on the closed path since the last ACK for it. `closePath_drains_iff` says exactly when
the history is emptied nevertheless.
-/

namespace MPQuic

open Bytes Transition TrackedPackets

/-- The errors of the functions that close a path. -/
inductive SessionError where
  | unknownPathIDToClose
  | sentPacketHandler (e : SentPacketError)
  /-- A slice index out of range in `GetClosePathFrame`. -/
  | receivedPacketHandler (e : ReceivedPacketError)
  deriving DecidableEq

/-- The paths of a session. -/
structure Session where
  handlers : PathHandlers
  /-- Whether there is a path with this identifier. -/
  paths : PathID → Bool
  closedPaths : PathID → Bool
  lastRcvdPacketNumber : PathID → ℕ
  receivedPacketHandler : PathID → ReceivedPacketHandler
  /-- The CLOSE_PATH frames that the stream framer will send. -/
  closePathFrameQueue : List ClosePathFrame

namespace Session

/-- The CLOSE_PATH frame of a path. -/
def getClosePathFrame (s : Session) (pathID : PathID) :
    Except ReceivedPacketError ClosePathFrame := do
  let closePathFrame ← (s.receivedPacketHandler pathID).getClosePathFrame
  return { closePathFrame with pathID := pathID }

/-- Close a path, and tell the peer if `sendClosePathFrame`. -/
def closePath (s : Session) (pathID : PathID) (sendClosePathFrame : Bool) :
    Except SessionError Session :=
  if !s.paths pathID then .error .unknownPathIDToClose
  else if s.closedPaths pathID then .ok s
  else
    let s := { s with closedPaths := Function.update s.closedPaths pathID true }
    if !sendClosePathFrame then .ok s
    else
      let s := { s with handlers := s.handlers.modify pathID (·.setInflightAsLost) }
      match s.getClosePathFrame pathID with
      | .error e => .error (.receivedPacketHandler e)
      | .ok closePathFrame =>
        .ok { s with closePathFrameQueue := s.closePathFrameQueue ++ [closePathFrame] }

/-- A CLOSE_PATH frame was received. -/
def handleClosePathFrame (s : Session) (frame : ClosePathFrame) : Option SessionError × Session :=
  match s.closePath frame.pathID false with
  | .error e => (some e, s)
  | .ok s =>
    -- this allows the host to retransmit packets sent on this path that were not acked by the frame
    let r := s.handlers.receivedClosePath frame.pathID frame (s.lastRcvdPacketNumber frame.pathID)
    (r.1.map .sentPacketHandler, { s with handlers := r.2 })

end Session

/-! ## Draining a handler -/

/-- Every packet of the history was acknowledged or moved to the retransmission queue. -/
structure Drained (before after : TrackedPackets) (acked : ℕ → Bool) : Prop where
  moved : ∀ p ∈ before.packetHistory,
    acked p.packetNumber = true ∨ p ∈ after.retransmissionQueue
  history : after.packetHistory = []
  bytes : after.bytesInFlight = 0

/-- Without packets there are no bytes in flight. -/
theorem TrackedPackets.InFlight.bytes_eq_zero {t : TrackedPackets} (h : t.InFlight)
    (hnil : t.packetHistory = []) : t.bytesInFlight = 0 := by
  rw [h.bytes, hnil]
  rfl

/-- A handler whose history was empty is drained as long as nothing is added. -/
theorem drained_of_nil {before after : TrackedPackets} {acked : ℕ → Bool} (hinv : after.InFlight)
    (hbefore : before.packetHistory = []) (hafter : after.packetHistory = []) :
    Drained before after acked :=
  ⟨by simp [hbefore], hafter, hinv.bytes_eq_zero hafter⟩

namespace SentPacketHandler

variable {h : SentPacketHandler}

/-- `SetInflightAsLost` drains a handler exactly if no packet is above `LargestAcked`. -/
theorem drained_setInflightAsLost_iff (hinv : h.InFlight) :
    Drained h.toTrackedPackets h.setInflightAsLost.toTrackedPackets (fun _ => false) ↔
      ∀ p ∈ h.packetHistory, p.packetNumber ≤ h.largestAcked := by
  -- the loop stops at the first packet above `LargestAcked`, and the history is sorted
  have hmem : ∀ p, p ∈ h.setInflightAsLost.packetHistory ↔
      p ∈ h.packetHistory ∧ h.largestAcked < p.packetNumber := by
    intro p
    rw [setInflightAsLost_tracked]
    exact hinv.mem_queue_takeWhile
  constructor
  · intro hdrained p hp
    by_contra hlt
    have hleft := (hmem p).mpr ⟨hp, by omega⟩
    rw [hdrained.history] at hleft
    exact List.not_mem_nil hleft
  · intro hall
    have hnil : h.setInflightAsLost.packetHistory = [] := by
      refine List.eq_nil_iff_forall_not_mem.mpr fun p hp => ?_
      obtain ⟨hp, hlt⟩ := (hmem p).mp hp
      exact absurd (hall p hp) (by omega)
    refine ⟨fun p hp => .inr ?_, hnil,
      (hinv.queues h.setInflightAsLost_queues).bytes_eq_zero hnil⟩
    rw [setInflightAsLost_tracked, foldl_queue_retransmissionQueue]
    exact List.mem_append_right _ ((mem_takeWhile_of_sorted hinv.sorted).mpr ⟨hp, hall p hp⟩)

theorem foldl_onPacketAcked_ackState (h : SentPacketHandler) (acked : List Packet) :
    (acked.foldl onPacketAcked h).toAckState = h.toAckState := by
  induction acked generalizing h with
  | nil => rfl
  | cons p acked ih => exact ih (h.onPacketAcked p)

/-- Acknowledging the packets of a frame and then declaring the others lost drains a handler exactly
if the others are not above `LargestAcked`. -/
theorem drained_acked_iff (hinv : h.InFlight) (acks : ℕ → Bool) :
    Drained h.toTrackedPackets
        ((h.packetHistory.filter fun p => acks p.packetNumber).foldl onPacketAcked
          h).setInflightAsLost.toTrackedPackets acks ↔
      ∀ p ∈ h.packetHistory, acks p.packetNumber = true ∨ p.packetNumber ≤ h.largestAcked := by
  set acked := h.packetHistory.filter fun p => acks p.packetNumber with hacked
  have hsub : acked.Sublist h.packetHistory := List.filter_sublist
  have htracked := PathHandlers.foldl_onPacketAcked_tracked h acked
  have hinv' : (acked.foldl onPacketAcked h).InFlight := htracked ▸ hinv.foldl_remove hsub
  have hlargest : (acked.foldl onPacketAcked h).largestAcked = h.largestAcked := by
    rw [foldl_onPacketAcked_ackState]
  have hmem : ∀ p, p ∈ (acked.foldl onPacketAcked h).packetHistory ↔
      p ∈ h.packetHistory ∧ ¬ acks p.packetNumber = true := by
    intro p
    rw [htracked, hinv.mem_foldl_remove hsub, hacked, List.mem_filter, not_and]
    exact and_congr_right fun hp => ⟨fun hn => hn hp, fun hn _ => hn⟩
  -- the frame leaves the packets that it does not acknowledge to `SetInflightAsLost`
  have hiff : Drained h.toTrackedPackets
        (acked.foldl onPacketAcked h).setInflightAsLost.toTrackedPackets acks ↔
      Drained (acked.foldl onPacketAcked h).toTrackedPackets
        (acked.foldl onPacketAcked h).setInflightAsLost.toTrackedPackets fun _ => false := by
    constructor
    · rintro ⟨hmoved, hhistory, hbytes⟩
      refine ⟨fun p hp => ?_, hhistory, hbytes⟩
      obtain ⟨hp, hnot⟩ := (hmem p).mp hp
      exact .inr ((hmoved p hp).resolve_left hnot)
    · rintro ⟨hmoved, hhistory, hbytes⟩
      refine ⟨fun p hp => ?_, hhistory, hbytes⟩
      by_cases hp' : acks p.packetNumber = true
      · exact .inl hp'
      · exact (hmoved p ((hmem p).mpr ⟨hp, hp'⟩)).imp_left (by simp)
  rw [hiff, drained_setInflightAsLost_iff hinv', hlargest]
  constructor
  · intro hall p hp
    by_cases hp' : acks p.packetNumber = true
    · exact .inl hp'
    · exact .inr (hall p ((hmem p).mpr ⟨hp, hp'⟩))
  · intro hall p hp
    obtain ⟨hp, hnot⟩ := (hmem p).mp hp
    exact (hall p hp).resolve_left hnot

end SentPacketHandler

namespace PathHandlers

variable {s : PathHandlers} {pathID : PathID} {f : ClosePathFrame} {n : ℕ}

/-- A valid frame acknowledges its largest packet. -/
theorem acksPacket_largestAcked {f : AckedPackets} (hvalid : f.Valid) :
    f.acksPacket f.largestAcked = true := by
  refine (f.acksPacket_iff _).mpr ⟨hvalid.lowest_le_largest, le_rfl, fun hne => ?_⟩
  obtain hnil | ⟨r, l, hr⟩ := hvalid.ranges
  · exact absurd hnil hne
  · exact ⟨r, by rw [hr.ranges_eq]; exact List.mem_cons_self, hr.last_eq ▸ hr.first_le,
      hr.last_eq.ge⟩

/-- A frame that no packet was received with since the last ACK is rejected. -/
theorem receivedClosePath_of_le (hle : n ≤ (s.handler pathID).largestReceivedPacketWithAck) :
    (s.receivedClosePath pathID f n).2 = s := by
  unfold receivedClosePath
  dsimp only
  split_ifs
  · rfl
  · rfl

/-- Otherwise a valid frame for packets that were sent is processed. -/
theorem receivedClosePath_of_lt (hinv : s.Inv) (hvalid : f.Valid)
    (hsent : ∀ m, f.acksPacket m = true → m ∈ (s.handler pathID).sent)
    (hlt : (s.handler pathID).largestReceivedPacketWithAck < n) :
    ∃ h : SentPacketHandler, h.toTrackedPackets = (s.handler pathID).toTrackedPackets ∧
      h.largestAcked = (s.handler pathID).largestAcked ∧
      ((s.receivedClosePath pathID f n).2.handler pathID).toTrackedPackets =
        ((h.packetHistory.filter fun p => f.acksPacket p.packetNumber).foldl
          SentPacketHandler.onPacketAcked h).setInflightAsLost.toTrackedPackets := by
  have hself := hinv.handler pathID
  -- a frame that acknowledges only sent packets passes both checks of its content
  have hlast : ¬ (s.handler pathID).lastSentPacketNumber < f.largestAcked :=
    not_lt.mpr (hself.skips.sent_le _ (hsent _ (acksPacket_largestAcked hvalid)))
  set h : SentPacketHandler := { s.handler pathID with largestReceivedPacketWithAck := n } with hh
  have hinv' : h.Inv := ⟨hself.inFlight, hself.skips.forgets ⟨rfl, rfl, fun _ => id⟩⟩
  have hskipped : h.skippedPacketsAcked f.toAckedPackets = false :=
    hinv'.skips.skippedPacketsAcked_eq_false hsent
  have hacked := SentPacketHandler.determineNewlyAckedPackets_eq hinv'.inFlight hvalid
  have hmodify : (s.modify pathID fun _ => h).Inv := hinv.modify _ hinv'
  have hsub : (h.packetHistory.filter fun p => f.acksPacket p.packetNumber).Sublist
      ((s.modify pathID fun _ => h).handler pathID).packetHistory := by
    rw [modify_handler_self]
    exact List.filter_sublist
  refine ⟨h, rfl, rfl, ?_⟩
  unfold receivedClosePath
  dsimp only
  rw [if_neg hlast, if_neg (not_le.mpr hlt), ← hh, hskipped, if_neg (by decide), hacked]
  dsimp only
  rw [modify_handler_self, (hmodify.ackPackets hsub).2, modify_handler_self]
  rfl

/-- A CLOSE_PATH frame drains the handler exactly if there was nothing to drain, or the frame is not
rejected and acknowledges all packets above `LargestAcked`. -/
theorem drained_receivedClosePath_iff (hinv : s.Inv) (hvalid : f.Valid)
    (hsent : ∀ m, f.acksPacket m = true → m ∈ (s.handler pathID).sent) :
    Drained (s.handler pathID).toTrackedPackets
        ((s.receivedClosePath pathID f n).2.handler pathID).toTrackedPackets f.acksPacket ↔
      (s.handler pathID).packetHistory = [] ∨
        ((s.handler pathID).largestReceivedPacketWithAck < n ∧
          ∀ p ∈ (s.handler pathID).packetHistory, f.acksPacket p.packetNumber = true ∨
            p.packetNumber ≤ (s.handler pathID).largestAcked) := by
  have hself := (hinv.handler pathID).inFlight
  -- a frame that does not come with a newer packet is taken for a duplicate and ignored
  by_cases hlt : (s.handler pathID).largestReceivedPacketWithAck < n
  · obtain ⟨h, htracked, hlargest, hresult⟩ := receivedClosePath_of_lt hinv hvalid hsent hlt
    have hiff := SentPacketHandler.drained_acked_iff (h := h) (htracked ▸ hself) f.acksPacket
    rw [← hresult, htracked, hlargest] at hiff
    rw [hiff]
    constructor
    · exact fun hall => .inr ⟨hlt, hall⟩
    · rintro (hnil | ⟨-, hall⟩)
      · simp [hnil]
      · exact hall
  · rw [receivedClosePath_of_le (not_lt.mp hlt)]
    constructor
    · exact fun hdrained => .inl hdrained.history
    · rintro (hnil | ⟨hlt', -⟩)
      · exact drained_of_nil hself hnil hnil
      · exact absurd hlt' hlt

end PathHandlers

namespace Session

open PathHandlers

variable {s : Session}

/-- Without a frame to send, closing a known path only marks it as closed. -/
theorem closePath_false {pathID : PathID} (hpath : s.paths pathID = true) :
    ∃ closedPaths, s.closePath pathID false = .ok { s with closedPaths := closedPaths } := by
  unfold closePath
  rw [hpath]
  cases s.closedPaths pathID with
  | true => exact ⟨s.closedPaths, rfl⟩
  | false => exact ⟨_, rfl⟩

/-- The CLOSE_PATH frame of a path can be built exactly if some packet that was received on it is
recorded. -/
theorem exists_getClosePathFrame_iff (s : Session) (pathID : PathID) :
    (∃ frame, s.getClosePathFrame pathID = .ok frame) ↔
      (s.receivedPacketHandler pathID).packetHistory.ranges ≠ [] := by
  have hlast : (s.receivedPacketHandler pathID).packetHistory.getAckRanges.getLast? =
      (s.receivedPacketHandler pathID).packetHistory.ranges.head?.map
        PacketInterval.toAckRange := by
    rw [ReceivedPacketHistory.getAckRanges, List.getLast?_map, List.getLast?_reverse]
  unfold getClosePathFrame ReceivedPacketHandler.getClosePathFrame
    ReceivedPacketHandler.ackedPackets
  dsimp only
  rw [hlast]
  cases (s.receivedPacketHandler pathID).packetHistory.ranges with
  | nil =>
    refine iff_of_false ?_ (not_not_intro rfl)
    rintro ⟨frame, h⟩
    cases h
  | cons r l => exact iff_of_true ⟨_, rfl⟩ (List.cons_ne_nil r l)

/-- Closing a closed path once more does nothing. -/
theorem closePath_of_closed {pathID : PathID} (hpath : s.paths pathID = true)
    (hclosed : s.closedPaths pathID = true) (sendClosePathFrame : Bool) :
    s.closePath pathID sendClosePathFrame = .ok s := by
  rw [closePath, hpath, hclosed]
  rfl

/-- Closing an open path with a frame to send returns exactly if some packet was received on it, and
declares packets lost. -/
theorem closePath_true_iff {pathID : PathID} (hpath : s.paths pathID = true)
    (hopen : s.closedPaths pathID = false) (P : PathHandlers → Prop) :
    (∃ s', s.closePath pathID true = .ok s' ∧ P s'.handlers) ↔
      (s.receivedPacketHandler pathID).packetHistory.ranges ≠ [] ∧
        P (s.handlers.modify pathID (·.setInflightAsLost)) := by
  have hframe := exists_getClosePathFrame_iff
    { s with
      closedPaths := Function.update s.closedPaths pathID true
      handlers := s.handlers.modify pathID (·.setInflightAsLost) } pathID
  rw [closePath, hpath, hopen, ← hframe]
  dsimp only
  simp only [Bool.not_true, Bool.false_eq_true, if_false]
  split
  · next e he => simp [he]
  · next frame hframe => simp [hframe]

/-- For the handlers a session has reached and a path it knows: a CLOSE_PATH frame that acknowledges
only packets that were sent leaves no packet behind exactly if the history was empty, or a packet
was received on the closed path since the last ACK for it and the frame acknowledges every packet
above `LargestAcked`. Closing the path locally returns and leaves none behind exactly if the path
was closed before and the history was empty, or the path was open, some packet that was received on
it is recorded, and no packet is above `LargestAcked`. -/
theorem closePath_drains_iff {calls : List Call} (hcalls : ∀ call ∈ calls, call.Admissible)
    (hrun : Run Step PathHandlers.new calls s.handlers) :
    (∀ frame : ClosePathFrame, s.paths frame.pathID = true → frame.Valid →
      let h := s.handlers.handler frame.pathID
      (∀ n, frame.acksPacket n = true → n ∈ h.sent) →
        (Drained h.toTrackedPackets
            ((s.handleClosePathFrame frame).2.handlers.handler frame.pathID).toTrackedPackets
            frame.acksPacket ↔
          h.packetHistory = [] ∨
            (h.largestReceivedPacketWithAck < s.lastRcvdPacketNumber frame.pathID ∧
              ∀ p ∈ h.packetHistory, frame.acksPacket p.packetNumber = true ∨
                p.packetNumber ≤ h.largestAcked))) ∧
    ∀ pathID, s.paths pathID = true →
      let h := s.handlers.handler pathID
      ((∃ s', s.closePath pathID true = .ok s' ∧ Drained h.toTrackedPackets
          (s'.handlers.handler pathID).toTrackedPackets (fun _ => false)) ↔
        (s.closedPaths pathID = true ∧ h.packetHistory = []) ∨
          (s.closedPaths pathID = false ∧
            (s.receivedPacketHandler pathID).packetHistory.ranges ≠ [] ∧
            ∀ p ∈ h.packetHistory, p.packetNumber ≤ h.largestAcked)) := by
  have hinv := inv_of_run hcalls hrun
  constructor
  · intro frame hpath hvalid h hsent
    obtain ⟨closedPaths, hclose⟩ := closePath_false hpath
    rw [handleClosePathFrame, hclose]
    exact drained_receivedClosePath_iff hinv hvalid hsent
  · intro pathID hpath h
    have hself := (hinv.handler pathID).inFlight
    cases hclosed : s.closedPaths pathID with
    | true =>
      -- `closePath` returns at once: the history is as it was
      rw [closePath_of_closed hpath hclosed]
      constructor
      · rintro ⟨s', hs', hdrained⟩
        obtain rfl := Except.ok.inj hs'
        exact .inl ⟨rfl, hdrained.history⟩
      · rintro (⟨-, hnil⟩ | ⟨hopen, -⟩)
        · exact ⟨s, rfl, drained_of_nil hself hnil hnil⟩
        · cases hopen
    | false =>
      rw [closePath_true_iff hpath hclosed fun handlers => Drained h.toTrackedPackets
          (handlers.handler pathID).toTrackedPackets fun _ => false,
        modify_handler_self, SentPacketHandler.drained_setInflightAsLost_iff hself]
      exact ⟨fun hdrains => .inr ⟨rfl, hdrains⟩, fun h => (h.resolve_left fun h => nomatch h.1).2⟩

/-- Two packets were sent on path 1 and none was acknowledged. -/
def twoSent : List Call :=
  let env := noSamples 5
  [1, 2].map fun n => .sentPacket 1
    { packetNumber := n, frames := [.ping], length := 40, encryptionLevel := .forwardSecure,
      sendTime := 0 } env

/-- A session with these packets in which the packet 1 was received on path 1. -/
def twoSentSession : Session where
  handlers := twoSent.foldl PathHandlers.apply PathHandlers.new
  paths := fun _ => true
  closedPaths := fun _ => false
  lastRcvdPacketNumber := fun _ => 1
  receivedPacketHandler := fun _ =>
    ((ReceivedPacketHandler.new versionMP).receivedPacket 0 1 true 0).1
  closePathFrameQueue := []

/-- A CLOSE_PATH frame for path 1 that acknowledges the packets up to `n`. -/
def closePathUpTo (n : ℕ) : ClosePathFrame :=
  { largestAcked := n, lowestAcked := 1, ackRanges := [], pathID := 1 }

theorem valid_closePathUpTo {n : ℕ} (hpos : 1 ≤ n) (hlt : n < 2 ^ 48) :
    (closePathUpTo n).Valid where
  validRanges := rfl
  lowest_eq := by simp [closePathUpTo]
  one_le_lowest := le_rfl
  lowest_le_largest := hpos
  largest_lt := hlt
  last_lt := by simp [closePathUpTo]

/-- The peer received only the first of two packets and closes the path, and no ACK was received
before: the second packet stays in the history. The same happens to both packets when the path is
closed locally. -/
theorem closePath_strands :
    (closePathUpTo 1).Valid ∧
      (∀ n, (closePathUpTo 1).acksPacket n = true →
        n ∈ (twoSentSession.handlers.handler 1).sent) ∧
      (let after := (twoSentSession.handleClosePathFrame (closePathUpTo 1)).2.handlers.handler 1
       after.packetHistory.map Packet.packetNumber = [2] ∧ after.retransmissionQueue = [] ∧
         after.bytesInFlight = 40) ∧
      ∃ s', twoSentSession.closePath 1 true = .ok s' ∧
        (s'.handlers.handler 1).packetHistory.map Packet.packetNumber = [1, 2] ∧
        (s'.handlers.handler 1).retransmissionQueue = [] := by
  refine ⟨valid_closePathUpTo le_rfl (by decide), fun n hn => ?_, by decide,
    ⟨_, rfl, by decide, by decide⟩⟩
  rw [AckedPackets.acksPacket_iff] at hn
  obtain rfl : n = 1 := le_antisymm hn.2.1 hn.1
  decide

/-- The peer received both packets: the handler is drained. -/
theorem closePath_drains_iff_example :
    Drained (twoSentSession.handlers.handler 1).toTrackedPackets
      (((twoSentSession.handleClosePathFrame (closePathUpTo 2)).2.handlers.handler
        1).toTrackedPackets)
      (closePathUpTo 2).acksPacket := by
  have hcalls : ∀ call ∈ twoSent, call.Admissible := by
    simp only [twoSent, List.map_cons, List.map_nil, List.forall_mem_cons, Call.Admissible]
    exact ⟨by decide, by decide, by simp⟩
  refine ((closePath_drains_iff hcalls (run_foldl twoSent)).1 (closePathUpTo 2) rfl
    (valid_closePathUpTo (by decide) (by decide)) fun n hn => ?_).mpr (.inr ⟨by decide, by decide⟩)
  rw [AckedPackets.acksPacket_iff] at hn
  obtain ⟨hlow, hhigh, -⟩ := hn
  change 1 ≤ n at hlow
  change n ≤ 2 at hhigh
  obtain rfl | rfl : n = 1 ∨ n = 2 := by omega
  · decide
  · decide

end Session

end MPQuic
