import MPQuic.Scheduler.Discards
import MPQuic.Session.ClosePath
import MPQuic.Session.PacketUnpacker
import MPQuic.Session.PathManager

/-!
# Handling the frames of a packet

`handleFrames` of `session.go`, with respect to the paths of the session. A frame can name a path
by its number, and the peer chooses this number: ACK, CLOSE_PATH and PATHS frames do.

`handleClosePathFrame` checks that the path exists. `handleAckFrame` does not, and neither does the
branch for PATHS frames when a path is reported as failed: a number without a path is a `nil`
pointer, which is dereferenced. `handleFrames_safe_iff` says exactly when this does not happen.

The callback `crossAckHandling` dereferences the path of a duplicate as well. A duplicate is sent on
a path of the session, and no path is removed, so that this path is there; the structure `Endpoint`
carries this invariant.

What happens to streams and to flow control is an input here: it changes no path.
-/

namespace MPQuic

open Bytes

/-- A session with the path manager and what is known about its paths. -/
structure Endpoint extends Session where
  pathManager : PathManager
  potentiallyFailed : PathID → Bool
  remoteRTTs : PathID → Option ℕ
  peerBlocked : Bool
  /-- The session and the path manager share the path map. -/
  known : ∀ pathID, paths pathID = (pathManager.paths pathID).isSome
  /-- A duplicate was sent on a path of the session. -/
  duplicates : ∀ k e, handlers.dupPackets k = some e → paths e.pathID = true

/-- The reasons for which handling a frame stops the program. -/
inductive Panic where
  /-- The path with this number is `nil`. -/
  | nilPath (pathID : PathID)
  | indexOutOfRange
  deriving DecidableEq

/-- The errors for a frame. -/
inductive HandleError where
  | sentPacketHandler (e : SentPacketError)
  | pathManager (e : PathManagerError)
  | unimplementedGoaway
  | rstStreamOnInvalidStream
  | windowUpdateOnClosedStream
  /-- Another error of the streams or of flow control. -/
  | stream
  deriving DecidableEq

/-- The errors after which the next frame is handled. -/
def HandleError.ignored : HandleError → Bool
  | .sentPacketHandler .duplicateOrOutOfOrderAck => true
  | .rstStreamOnInvalidStream => true
  | .windowUpdateOnClosedStream => true
  | _ => false

/-- What handling a frame depends on besides the paths. -/
structure FrameInput where
  env : Env
  /-- Whether a PING frame can be sent on a new path. -/
  sendPing : UDPAddr × UDPAddr → Bool
  /-- The error of the stream or of flow control, for the frames that are handled there. -/
  streamError : Option HandleError

/-- The round trip time by which the peer reports a path as failed (30 minutes). -/
def failedRTT : ℕ := 30 * 60 * 10 ^ 9

/-! ## Duplicates -/

/-- The callbacks for acknowledged packets map no new packets to each other. -/
theorem PathHandlers.dupPackets_of_ackPackets {s : PathHandlers} {pathID : PathID}
    {acked : List Packet} {k e : DupID} (hk : (s.ackPackets pathID acked).dupPackets k = some e) :
    s.dupPackets k = some e := by
  have hdiscards : Discards s (s.ackPackets pathID acked)
      (s.GoneWith pathID (· ∈ acked.map Packet.packetNumber)) :=
    ackPackets_discards s pathID fun _ hp => List.mem_map_of_mem hp
  exact hdiscards.duplicates k e hk

/-- Each of the callbacks for acknowledged packets dereferences a path that is there. -/
theorem Endpoint.crossAckHandling_path (s : Endpoint) {pathID : PathID} {acked : List Packet}
    {p : Packet} {e : DupID} (he : (s.handlers.ackPackets pathID acked).dupPackets
      ⟨pathID, p.packetNumber⟩ = some e) : s.paths e.pathID = true :=
  s.duplicates _ e (PathHandlers.dupPackets_of_ackPackets he)

/-- Acknowledging packets maps no new packets to each other. -/
theorem PathHandlers.AckOutcome.dupPackets_of {s t : PathHandlers} {pathID : PathID}
    {f : AckedPackets} (h : AckOutcome s pathID f t) {k e : DupID} (hk : t.dupPackets k = some e) :
    s.dupPackets k = some e := by
  cases h with
  | ignored h heq hforgets => exact hk
  | acked h heq hforgets acked hsub hacks lose hlose =>
    exact dupPackets_of_ackPackets (s := s.modify pathID _) hk

/-- A CLOSE_PATH frame for a path that does not exist is rejected. -/
theorem Session.handleClosePathFrame_unknown {s : Session} {frame : ClosePathFrame}
    (hpath : s.paths frame.pathID = false) :
    s.handleClosePathFrame frame = (some .unknownPathIDToClose, s) := by
  rw [handleClosePathFrame, closePath, if_pos (by rw [hpath]; rfl)]

theorem Session.handleClosePathFrame_known {s : Session} {frame : ClosePathFrame}
    (hpath : s.paths frame.pathID = true) :
    ∃ closedPaths, (s.handleClosePathFrame frame).2 = { s with
      closedPaths := closedPaths
      handlers := (s.handlers.receivedClosePath frame.pathID frame
        (s.lastRcvdPacketNumber frame.pathID)).2 } := by
  obtain ⟨closedPaths, hclose⟩ := closePath_false hpath
  exact ⟨closedPaths, by rw [handleClosePathFrame, hclose]⟩

theorem Session.paths_handleClosePathFrame (s : Session) (frame : ClosePathFrame) :
    (s.handleClosePathFrame frame).2.paths = s.paths := by
  cases hpath : s.paths frame.pathID with
  | true =>
    obtain ⟨closedPaths, heq⟩ := handleClosePathFrame_known hpath
    rw [heq]
  | false => rw [handleClosePathFrame_unknown hpath]

theorem Session.dupPackets_of_handleClosePathFrame {s : Session} {frame : ClosePathFrame}
    {k e : DupID} (hk : (s.handleClosePathFrame frame).2.handlers.dupPackets k = some e) :
    s.handlers.dupPackets k = some e := by
  cases hpath : s.paths frame.pathID with
  | true =>
    obtain ⟨closedPaths, heq⟩ := handleClosePathFrame_known hpath
    rw [heq] at hk
    exact (PathHandlers.receivedClosePath_outcome _ _ _ _).dupPackets_of hk
  | false =>
    rw [handleClosePathFrame_unknown hpath] at hk
    exact hk

/-! ## Frames -/

namespace Endpoint

/-- The result of handling a frame: it may stop the program, or fail, and it changes the session. -/
abbrev Result := Except Panic (Option HandleError × Endpoint)

/-- An ACK frame was received. -/
def handleAckFrame (s : Endpoint) (i : FrameInput) (frame : AckFrame) : Result :=
  if !s.paths frame.pathID then .error (.nilPath frame.pathID)
  else
    let n := s.lastRcvdPacketNumber frame.pathID
    let r := s.handlers.receivedAck frame.pathID frame n i.env
    .ok (r.1.map .sentPacketHandler, { s with
      handlers := r.2
      duplicates := fun _ _ hk =>
        s.duplicates _ _ ((PathHandlers.receivedAck_outcome _ _ _ _ _).dupPackets_of hk) })

/-- A CLOSE_PATH frame was received. Its error is ignored. -/
def handleClosePathFrame (s : Endpoint) (frame : ClosePathFrame) : Endpoint :=
  { s with
    toSession := (s.toSession.handleClosePathFrame frame).2
    known := fun pathID => by rw [Session.paths_handleClosePathFrame, s.known]
    duplicates := fun _ _ hk => by
      rw [Session.paths_handleClosePathFrame]
      exact s.duplicates _ _ (Session.dupPackets_of_handleClosePathFrame hk) }

/-- An ADD_ADDRESS frame was received. The paths that are created start with new handlers. -/
def handleAddAddressFrame (s : Endpoint) (i : FrameInput) (frame : AddAddressFrame) :
    Option HandleError × Endpoint :=
  let r := s.pathManager.handleAddAddressFrame i.sendPing frame
  let created (pathID : PathID) : Bool := r.2.paths pathID ≠ s.pathManager.paths pathID
  (r.1.map .pathManager, { s with
    pathManager := r.2
    paths := fun pathID => (r.2.paths pathID).isSome
    handlers :=
      { s.handlers with
        handler := fun pathID => if created pathID then .new else s.handlers.handler pathID }
    lastRcvdPacketNumber := fun pathID =>
      if created pathID then 0 else s.lastRcvdPacketNumber pathID
    receivedPacketHandler := fun pathID =>
      if created pathID then .new versionMP else s.receivedPacketHandler pathID
    potentiallyFailed := fun pathID =>
      if created pathID then false else s.potentiallyFailed pathID
    known := fun _ => rfl
    duplicates := fun _ e hk => by
      have hpath := s.duplicates _ e hk
      rw [s.known] at hpath
      exact PathManager.isSome_paths_handleAddAddressFrame hpath _ _ })

/-- An entry of a PATHS frame. -/
def handlePath (frame : PathsFrame) (s : Endpoint) (i : ℕ) : Except Panic Endpoint :=
  match frame.pathIDs[i]?, frame.remoteRTTs[i]? with
  | some pathID, some remoteRTT =>
    let s := { s with remoteRTTs := Function.update s.remoteRTTs pathID (some remoteRTT) }
    if failedRTT ≤ remoteRTT then
      -- path is potentially failed
      if !s.paths pathID then .error (.nilPath pathID)
      else .ok { s with potentiallyFailed := Function.update s.potentiallyFailed pathID true }
    else .ok s
  | _, _ => .error .indexOutOfRange

/-- A PATHS frame was received. -/
def handlePathsFrame (s : Endpoint) (frame : PathsFrame) : Except Panic Endpoint :=
  (List.range frame.numPaths.toNat).foldlM (handlePath frame) s

/-- A frame was received on the path `p`. -/
def handleFrame (s : Endpoint) (p : PathID) (i : FrameInput) : ReceivedFrame → Result
  | .stream _ => .ok (i.streamError, s)
  | .ack frame => s.handleAckFrame i frame
  | .connectionClose _ => .ok (none, s)
  | .goaway _ => .ok (some .unimplementedGoaway, s)
  | .stopWaiting frame =>
    .ok (none, { s with
      receivedPacketHandler := Function.update s.receivedPacketHandler p
        ((s.receivedPacketHandler p).setLowerLimit (uint64Sub frame.leastUnacked 1)) })
  | .rstStream _ => .ok (i.streamError, s)
  | .windowUpdate _ => .ok (i.streamError, s)
  | .blocked _ => .ok (none, { s with peerBlocked := true })
  | .ping => .ok (none, s)
  | .addAddress frame => .ok (s.handleAddAddressFrame i frame)
  | .closePath frame => .ok (none, s.handleClosePathFrame frame)
  | .paths frame => (s.handlePathsFrame frame).map fun s => (none, s)

/-- Handle the frames of a packet that was received on the path `p`, up to the first error. -/
def handleFrames (p : PathID) : Endpoint → List (ReceivedFrame × FrameInput) → Result
  | s, [] => .ok (none, s)
  | s, (frame, i) :: rest =>
    match s.handleFrame p i frame with
    | .error panic => .error panic
    | .ok (none, s) => handleFrames p s rest
    | .ok (some e, s) => if e.ignored then handleFrames p s rest else .ok (some e, s)

/-! ## Unknown paths -/

/-- The entry `i` of a PATHS frame reports no failure of a path that does not exist. -/
def EntrySafe (s : Endpoint) (frame : PathsFrame) (i : ℕ) : Prop :=
  ∀ pathID remoteRTT, frame.pathIDs[i]? = some pathID → frame.remoteRTTs[i]? = some remoteRTT →
    failedRTT ≤ remoteRTT → s.paths pathID = true

/-- The paths that have to exist: the one of an ACK frame, and those that a PATHS frame reports as
failed. -/
def Safe (s : Endpoint) : ReceivedFrame → Prop
  | .ack frame => s.paths frame.pathID = true
  | .paths frame => ∀ i < frame.numPaths.toNat, s.EntrySafe frame i
  | _ => True

/-- Everything that belongs to one path. -/
def pathState (s : Endpoint) (q : PathID) :
    SentPacketHandler × Bool × ℕ × ReceivedPacketHandler × Bool :=
  (s.handlers.handler q, s.closedPaths q, s.lastRcvdPacketNumber q, s.receivedPacketHandler q,
    s.potentiallyFailed q)

variable {s s' : Endpoint} {frame : PathsFrame} {i : ℕ}

/-- What an entry of a PATHS frame does, if the lists are long enough. -/
theorem handlePath_cases (hids : i < frame.pathIDs.length) (hrtts : i < frame.remoteRTTs.length) :
    (¬ s.EntrySafe frame i ∧ ∃ panic, handlePath frame s i = .error panic) ∨
      s.EntrySafe frame i ∧ ∃ s', handlePath frame s i = .ok s' ∧ s'.toSession = s.toSession ∧
        ∀ q, (frame.pathIDs[i]? = some q → ∀ remoteRTT, frame.remoteRTTs[i]? = some remoteRTT →
          remoteRTT < failedRTT) → s'.pathState q = s.pathState q := by
  unfold handlePath EntrySafe
  rw [List.getElem?_eq_getElem hids, List.getElem?_eq_getElem hrtts]
  dsimp only
  -- the path map is looked up only for an entry that reports a failure
  by_cases hfailed : failedRTT ≤ frame.remoteRTTs[i]
  · rw [if_pos hfailed]
    cases hpath : s.paths frame.pathIDs[i] with
    | true =>
      refine .inr ⟨?_, _, rfl, rfl, fun q hq => ?_⟩
      · rintro _ _ ⟨rfl⟩ ⟨rfl⟩ _
        exact hpath
      · have hne : q ≠ frame.pathIDs[i] := by
          rintro rfl
          exact absurd hfailed (not_le.mpr (hq rfl _ rfl))
        simp only [pathState, Function.update_of_ne hne]
    | false =>
      refine .inl ⟨fun hsafe => ?_, _, rfl⟩
      rw [hsafe _ _ rfl rfl hfailed] at hpath
      cases hpath
  · rw [if_neg hfailed]
    refine .inr ⟨?_, _, rfl, rfl, fun _ _ => rfl⟩
    rintro _ _ - ⟨rfl⟩ h
    exact absurd h hfailed

/-- What the loop over the entries of a PATHS frame does. -/
theorem foldlM_handlePath (l : List ℕ)
    (hl : ∀ i ∈ l, i < frame.pathIDs.length ∧ i < frame.remoteRTTs.length) :
    (¬ (∀ i ∈ l, s.EntrySafe frame i) ∧ ∃ panic, l.foldlM (handlePath frame) s = .error panic) ∨
      (∀ i ∈ l, s.EntrySafe frame i) ∧ ∃ s', l.foldlM (handlePath frame) s = .ok s' ∧
        s'.toSession = s.toSession ∧
        ∀ q, (∀ i ∈ l, frame.pathIDs[i]? = some q → ∀ remoteRTT,
          frame.remoteRTTs[i]? = some remoteRTT → remoteRTT < failedRTT) →
            s'.pathState q = s.pathState q := by
  induction l generalizing s with
  | nil => exact .inr ⟨by simp, s, rfl, rfl, fun _ _ => rfl⟩
  | cons i l ih =>
    obtain ⟨⟨hids, hrtts⟩, hl⟩ := List.forall_mem_cons.mp hl
    rw [List.foldlM_cons, List.forall_mem_cons]
    obtain ⟨hnot, panic, hpanic⟩ | ⟨hsafe, s₁, hok, hsession, hstate⟩ :=
      handlePath_cases (s := s) hids hrtts
    · refine .inl ⟨fun h => hnot h.1, panic, ?_⟩
      rw [hpanic]
      rfl
    · -- an entry leaves the path map as it is
      have hsame : ∀ i, s₁.EntrySafe frame i ↔ s.EntrySafe frame i := by
        intro i
        unfold EntrySafe
        rw [hsession]
      rw [hok, ok_bind]
      simp only [hsafe, true_and, List.forall_mem_cons]
      obtain ⟨hnot, hpanic⟩ | ⟨hsafe, s₂, hok₂, hsession₂, hstate₂⟩ := ih hl (s := s₁)
      · exact .inl ⟨fun h => hnot fun j hj => (hsame j).mpr (h j hj), hpanic⟩
      · refine .inr ⟨fun j hj => (hsame j).mp (hsafe j hj), s₂, hok₂, hsession₂.trans hsession, ?_⟩
        exact fun q hq => (hstate₂ q hq.2).trans (hstate q hq.1)

/-- What a received PATHS frame does. -/
theorem handlePathsFrame_cases (hparsed : (ReceivedFrame.paths frame).Parsed) :
    (¬ s.Safe (.paths frame) ∧ ∃ panic, s.handlePathsFrame frame = .error panic) ∨
      s.Safe (.paths frame) ∧ ∃ s', s.handlePathsFrame frame = .ok s' ∧
        s'.toSession = s.toSession ∧
        ∀ q, (∀ i : ℕ, frame.pathIDs[i]? = some q → ∀ remoteRTT,
          frame.remoteRTTs[i]? = some remoteRTT → remoteRTT < failedRTT) →
            s'.pathState q = s.pathState q := by
  -- the parser reads `NumPaths` entries, so no index of the loop is out of range
  obtain ⟨hids, hrtts⟩ := hparsed.length_paths
  have hrange : ∀ i ∈ List.range frame.numPaths.toNat,
      i < frame.pathIDs.length ∧ i < frame.remoteRTTs.length := by
    intro i hi
    rw [hids, hrtts]
    exact ⟨List.mem_range.mp hi, List.mem_range.mp hi⟩
  have hcases := foldlM_handlePath (s := s) _ hrange
  simp only [List.mem_range] at hcases
  obtain hpanic | ⟨hsafe, s', hok, hsession, hstate⟩ := hcases
  · exact .inl hpanic
  · exact .inr ⟨hsafe, s', hok, hsession, fun q hq => hstate q fun i _ => hq i⟩

/-- A received frame stops the program exactly if it is not safe. -/
theorem handleFrame_eq_error_iff {f : ReceivedFrame} (hparsed : f.Parsed) (p : PathID)
    (input : FrameInput) : (∃ panic, s.handleFrame p input f = .error panic) ↔ ¬ s.Safe f := by
  have hok : ∀ {r : Option HandleError × Endpoint},
      ¬ ∃ panic : Panic, (.ok r : Result) = .error panic := by
    rintro r ⟨panic, h⟩
    cases h
  cases f with
  | ack frame =>
    change (∃ panic, s.handleAckFrame input frame = .error panic) ↔ ¬ s.paths frame.pathID = true
    cases hpath : s.paths frame.pathID with
    | true =>
      obtain ⟨r, hr⟩ : ∃ r, s.handleAckFrame input frame = .ok r :=
        ⟨_, if_neg (by rw [hpath]; decide)⟩
      rw [hr]
      exact iff_of_false hok (by decide)
    | false => exact iff_of_true ⟨_, if_pos (by rw [hpath]; rfl)⟩ (by decide)
  | paths frame =>
    change (∃ panic, (s.handlePathsFrame frame).map (fun s => (none, s)) = .error panic) ↔ _
    obtain ⟨hnot, panic, hpanic⟩ | ⟨hsafe, s', hs', -⟩ := handlePathsFrame_cases hparsed (s := s)
    · rw [hpanic]
      exact iff_of_true ⟨panic, rfl⟩ hnot
    · rw [hs']
      exact iff_of_false hok (not_not.mpr hsafe)
  | stream _ | rstStream _ | connectionClose _ | goaway _ | windowUpdate _ | blocked _
  | stopWaiting _ | ping | addAddress _ | closePath _ =>
    -- these report an error of the session at most
    exact iff_of_false hok (not_not.mpr trivial)

/-- The frames of a packet stop the program exactly if one of them is reached that is not safe. -/
theorem handleFrames_eq_error_iff {p : PathID} {frames : List (ReceivedFrame × FrameInput)}
    (hparsed : ∀ x ∈ frames, x.1.Parsed) :
    (∃ panic, s.handleFrames p frames = .error panic) ↔
      ∃ before x after s', frames = before ++ x :: after ∧
        s.handleFrames p before = .ok (none, s') ∧ ¬ s'.Safe x.1 := by
  induction frames generalizing s with
  | nil => exact iff_of_false (by rintro ⟨panic, h⟩; cases h) (by simp)
  | cons x frames ih =>
    obtain ⟨f, input⟩ := x
    obtain ⟨hf, hparsed⟩ := List.forall_mem_cons.mp hparsed
    have hframe := handleFrame_eq_error_iff (s := s) hf p input
    -- if the first frame does not end the loop, the rest goes on from the state it leaves
    have hgoes : ∀ s₁ : Endpoint,
        (∀ rest, s.handleFrames p ((f, input) :: rest) = s₁.handleFrames p rest) → s.Safe f →
        ((∃ panic, s.handleFrames p ((f, input) :: frames) = .error panic) ↔
          ∃ before x after s', (f, input) :: frames = before ++ x :: after ∧
            s.handleFrames p before = .ok (none, s') ∧ ¬ s'.Safe x.1) := by
      intro s₁ hs₁ hsafe
      rw [hs₁, ih hparsed]
      constructor
      · rintro ⟨before, x, after, s', rfl, hbefore, hnot⟩
        exact ⟨(f, input) :: before, x, after, s', rfl, (hs₁ before).trans hbefore, hnot⟩
      · rintro ⟨before, x, after, s', heq, hbefore, hnot⟩
        cases before with
        | nil =>
          obtain ⟨rfl, rfl⟩ := List.cons.inj heq
          cases hbefore
          exact absurd hsafe hnot
        | cons y before =>
          obtain ⟨rfl, rfl⟩ := List.cons.inj heq
          exact ⟨before, x, after, s', rfl, (hs₁ before).symm.trans hbefore, hnot⟩
    cases hres : s.handleFrame p input f with
    | error panic =>
      refine iff_of_true ⟨panic, by rw [handleFrames, hres]⟩
        ⟨[], (f, input), frames, s, rfl, rfl, hframe.mp ⟨panic, hres⟩⟩
    | ok r =>
      obtain ⟨e, s₁⟩ := r
      have hsafe : s.Safe f := by
        by_contra hnot
        obtain ⟨panic, hpanic⟩ := hframe.mpr hnot
        rw [hres] at hpanic
        cases hpanic
      cases e with
      | none => exact hgoes s₁ (fun rest => by rw [handleFrames, hres]) hsafe
      | some e =>
        by_cases hignored : e.ignored = true
        · refine hgoes s₁ (fun rest => ?_) hsafe
          rw [handleFrames, hres]
          exact if_pos hignored
        · -- the error ends the loop
          have hends : ∀ rest, s.handleFrames p ((f, input) :: rest) = .ok (some e, s₁) := by
            intro rest
            rw [handleFrames, hres]
            exact if_neg hignored
          refine iff_of_false ?_ ?_
          · rintro ⟨panic, h⟩
            rw [hends] at h
            cases h
          · rintro ⟨before, x, after, s', heq, hbefore, hnot⟩
            cases before with
            | nil =>
              obtain ⟨rfl, rfl⟩ := List.cons.inj heq
              cases hbefore
              exact absurd hsafe hnot
            | cons y before =>
              obtain ⟨rfl, rfl⟩ := List.cons.inj heq
              rw [hends] at hbefore
              cases hbefore

/-- A CLOSE_PATH frame for a path that does not exist changes nothing. -/
theorem handleClosePathFrame_unknown {frame : ClosePathFrame}
    (hpath : s.paths frame.pathID = false) : s.handleClosePathFrame frame = s := by
  have hsession : (s.toSession.handleClosePathFrame frame).2 = s.toSession :=
    congrArg Prod.snd (Session.handleClosePathFrame_unknown hpath)
  simp only [handleClosePathFrame, hsession]

/-- For every set of paths and all frames that can be received: the frames of a packet do not stop
the program if and only if each ACK frame that is reached names a path that exists then, and each
PATHS frame that is reached reports only paths as failed that exist then. A CLOSE_PATH frame for a
path that does not exist changes nothing, and a PATHS frame changes only the paths it reports as
failed. -/
theorem handleFrames_safe_iff {p : PathID} {frames : List (ReceivedFrame × FrameInput)}
    (hparsed : ∀ x ∈ frames, x.1.Parsed) :
    ((∀ panic, s.handleFrames p frames ≠ .error panic) ↔
      ∀ before x after s', frames = before ++ x :: after →
        s.handleFrames p before = .ok (none, s') → s'.Safe x.1) ∧
    (∀ frame input, s.paths frame.pathID = false →
      s.handleFrame p input (.closePath frame) = .ok (none, s)) ∧
    ∀ frame input e s', (ReceivedFrame.paths frame).Parsed →
      s.handleFrame p input (.paths frame) = .ok (e, s') →
        s'.toSession = s.toSession ∧
        ∀ q, (∀ i : ℕ, frame.pathIDs[i]? = some q → ∀ remoteRTT,
          frame.remoteRTTs[i]? = some remoteRTT → remoteRTT < failedRTT) →
            s'.pathState q = s.pathState q := by
  refine ⟨?_, fun frame input hpath => ?_, fun frame input e s' hframe hok => ?_⟩
  · have hiff := not_congr (handleFrames_eq_error_iff (s := s) (p := p) hparsed)
    push Not at hiff
    exact hiff
  · rw [handleFrame, handleClosePathFrame_unknown hpath]
  · rw [handleFrame] at hok
    obtain ⟨-, panic, hpanic⟩ | ⟨-, s₁, hs₁, hsession, hstate⟩ :=
      handlePathsFrame_cases hframe (s := s)
    · rw [hpanic] at hok
      cases hok
    · rw [hs₁] at hok
      cases hok
      exact ⟨hsession, hstate⟩

/-! ## A session with one path -/

/-- A session with the initial path only. -/
def onePath : Endpoint :=
  let addr : UDPAddr := { ip := [10, 0, 0, 1], port := 6121 }
  { handlers := .new
    paths := fun pathID => pathID = initialPathID
    closedPaths := fun _ => false
    lastRcvdPacketNumber := fun _ => 0
    receivedPacketHandler := fun _ => .new versionMP
    closePathFrameQueue := []
    pathManager := .setup .server [addr] false addr addr
    potentiallyFailed := fun _ => false
    remoteRTTs := fun _ => none
    peerBlocked := false
    known := fun pathID => by
      simp only [PathManager.setup, Function.update_apply]
      split_ifs with h
      · simp [h]
      · simp [h]
    duplicates := nofun }

/-- What the frames of the examples depend on. -/
def someInput : FrameInput where
  env := noSamples 5
  sendPing := fun _ => true
  streamError := none

/-- The payload of a packet with an ACK frame for the given path. -/
def ackPayload (pathID : PathID) : List UInt8 := [0x50, pathID, 0, 0, 0, 0, 0]

/-- The payload of a packet with a PATHS frame that reports the given path as failed. -/
def pathsPayload (pathID : PathID) : List UInt8 := [0x12, 1, 1, pathID, 0xff, 0xff]

/-- Handle the frame that a payload starts with. -/
def handlePayload (s : Endpoint) (payload : List UInt8) : Except Panic Bool :=
  match parseFrame .big 1 .len1 .forwardSecure payload with
  | .error _ => .ok false
  | .ok (f, _) => (s.handleFrames initialPathID [(f, someInput)]).map fun _ => true

/-- The peer stops a session with one path by an ACK frame for path 7, or by a PATHS frame that
reports it as failed. -/
theorem handleFrames_nilPath :
    onePath.handlePayload (ackPayload 7) = .error (.nilPath 7) ∧
      onePath.handlePayload (pathsPayload 7) = .error (.nilPath 7) := by
  decide

/-- An ACK frame for the initial path is handled. -/
theorem handleFrames_safe_iff_example : ∃ f : AckFrame,
    parseFrame .big 1 .len1 .forwardSecure (ackPayload initialPathID) = .ok (.ack f, []) ∧
      ∀ panic, onePath.handleFrames initialPathID [(.ack f, someInput)] ≠ .error panic := by
  obtain ⟨f, hparse, hpath⟩ : ∃ f : AckFrame,
      parseFrame .big 1 .len1 .forwardSecure (ackPayload initialPathID) = .ok (.ack f, []) ∧
        f.pathID = initialPathID := ⟨_, rfl, rfl⟩
  have hparsed : ∀ x ∈ [(ReceivedFrame.ack f, someInput)], x.1.Parsed := by
    rw [List.forall_mem_singleton]
    exact ⟨_, _, _, _, _, _, hparse⟩
  refine ⟨f, hparse, (handleFrames_safe_iff hparsed).1.mpr ?_⟩
  intro before x after s' heq hbefore
  obtain ⟨rfl, rfl, rfl⟩ | ⟨_, -, hnil⟩ := List.cons_eq_append_iff.mp heq
  · cases hbefore
    change onePath.paths f.pathID = true
    rw [hpath]
    rfl
  · simp at hnil

end Endpoint

end MPQuic
