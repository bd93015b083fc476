import MPQuic.FlowControl.FlowController
import MPQuic.Lib.KeyedList

/-!
# The flow control manager

`internal/flowcontrol/flow_control_manager.go`: the flow controllers of all streams and the one of
the connection. Most operations on a stream are passed on to the connection if the stream
contributes to it.

The map of the controllers is a list with distinct stream ids, in the order in which the next loop
over the map will find them; `reorder` is any other order. The controllers of the streams that were
removed are a ghost variable.
-/

namespace MPQuic

open KeyedList

/-- The errors of the flow control manager. -/
inductive FlowControlError where
  /-- "Error accessing the flowController map." -/
  | mapAccess
  | streamDataAfterTermination
  /-- "Received %d bytes on stream %d, allowed %d bytes" -/
  | receivedTooMuchDataOnStream (byteOffset streamID receiveWindow : ℕ)
  /-- "Received %d bytes for the connection, allowed %d bytes" -/
  | receivedTooMuchData (highestReceived receiveWindow : ℕ)
  deriving DecidableEq

/-- The error is `FlowControlReceivedTooMuchData`. -/
def FlowControlError.isReceivedTooMuchData : FlowControlError → Bool
  | receivedTooMuchDataOnStream _ _ _ => true
  | receivedTooMuchData _ _ => true
  | _ => false

/-- A new offset to be sent in a WINDOW_UPDATE frame. -/
structure WindowUpdate where
  streamID : ℕ
  offset : ℕ

/-- The float64 that is nearest to `n`, the even one of two. -/
def float64OfNat (n : ℕ) : ℕ :=
  let dropped := Nat.log2 n + 1 - 53
  let mantissa := n / 2 ^ dropped
  let rest := n % 2 ^ dropped
  if 2 * rest < 2 ^ dropped ∨ (2 * rest = 2 ^ dropped ∧ mantissa % 2 = 0) then
    mantissa * 2 ^ dropped
  else (mantissa + 1) * 2 ^ dropped

/-- The window increment of the connection for one of a stream, larger by the factor 1.5 as a
float64. The conversion of a result above `uint64` depends on the platform. -/
def connectionIncrement (newIncrement : ℕ) : ℕ :=
  float64OfNat (3 * float64OfNat newIncrement) / 2 % uint64Size

/-- The flow control manager. -/
structure FlowControlManager where
  connectionParameters : ConnectionParameters
  streamFlowController : List FlowController
  nodup : (streamFlowController.map FlowController.streamID).Nodup
  connFlowController : FlowController
  /-- The controllers of the streams that were removed. This is a ghost variable. -/
  removed : List FlowController

namespace FlowControlManager

/-- A new flow control manager. -/
def new (connectionParameters : ConnectionParameters) : FlowControlManager where
  connectionParameters := connectionParameters
  streamFlowController := []
  nodup := List.nodup_nil
  connFlowController := .new 0 false connectionParameters
  removed := []

/-- The flow controller of a stream. -/
def getFlowController (f : FlowControlManager) (streamID : ℕ) : Option FlowController :=
  f.streamFlowController.find? (·.streamID = streamID)

/-- Put the controller in the place of the one of the same stream. -/
def setFlowController (f : FlowControlManager) (fc : FlowController) : FlowControlManager :=
  { f with
    streamFlowController := replaceKey FlowController.streamID fc f.streamFlowController
    nodup := nodup_replaceKey f.nodup }

/-- Loops over the map find the controllers in another order. -/
def reorder (f : FlowControlManager) (order : List FlowController)
    (horder : order.Perm f.streamFlowController) : FlowControlManager :=
  { f with
    streamFlowController := order
    nodup := (horder.map FlowController.streamID).nodup_iff.mpr f.nodup }

/-- Create the flow controller of a stream. Nothing is done if the stream already exists. -/
def newStream (f : FlowControlManager) (streamID : ℕ) (contributesToConnection : Bool) :
    FlowControlManager :=
  if h : streamID ∈ f.streamFlowController.map FlowController.streamID then f
  else
    { f with
      streamFlowController :=
        .new streamID contributesToConnection f.connectionParameters :: f.streamFlowController
      nodup := List.nodup_cons.mpr ⟨h, f.nodup⟩ }

/-- Remove a closed stream from flow control. -/
def removeStream (f : FlowControlManager) (streamID : ℕ) : FlowControlManager :=
  { f with
    streamFlowController := eraseKey FlowController.streamID streamID f.streamFlowController
    nodup := nodup_eraseKey f.nodup
    removed := (f.getFlowController streamID).toList ++ f.removed }

/-! ## Receiving -/

/-- Check the window of a stream after its highest offset was updated, add the increment to the
connection and check the window of the connection. -/
def addReceived (f : FlowControlManager) (fc : FlowController) (byteOffset increment : ℕ) :
    Option FlowControlError × FlowControlManager :=
  let f := f.setFlowController fc
  if fc.checkFlowControlViolation then
    (some (.receivedTooMuchDataOnStream byteOffset fc.streamID fc.receiveWindow), f)
  else if fc.contributesToConnection then
    let conn := f.connFlowController.incrementHighestReceived increment
    let f := { f with connFlowController := conn }
    if conn.checkFlowControlViolation then
      (some (.receivedTooMuchData conn.highestReceived conn.receiveWindow), f)
    else (none, f)
  else (none, f)

/-- A RST_STREAM frame was received. -/
def resetStream (f : FlowControlManager) (streamID byteOffset : ℕ) :
    Option FlowControlError × FlowControlManager :=
  match f.getFlowController streamID with
  | none => (some .mapAccess, f)
  | some fc =>
    match fc.updateHighestReceived byteOffset with
    | (none, _) => (some .streamDataAfterTermination, f)
    | (some increment, fc) => f.addReceived fc byteOffset increment

/-- A STREAM frame that ends at `byteOffset` was received. -/
def updateHighestReceived (f : FlowControlManager) (streamID byteOffset : ℕ) :
    Option FlowControlError × FlowControlManager :=
  match f.getFlowController streamID with
  | none => (some .mapAccess, f)
  | some fc =>
    -- a smaller offset means that STREAM frames got reordered, it is ignored
    let r := fc.updateHighestReceived byteOffset
    f.addReceived r.2 byteOffset (r.1.getD 0)

/-- `n` bytes of a stream were read. -/
def addBytesRead (f : FlowControlManager) (streamID n now connNow : ℕ) :
    Option FlowControlError × FlowControlManager :=
  match f.getFlowController streamID with
  | none => (some .mapAccess, f)
  | some fc =>
    let f := f.setFlowController (fc.addBytesRead n now)
    if fc.contributesToConnection then
      (none, { f with connFlowController := f.connFlowController.addBytesRead n connNow })
    else (none, f)

/-- The result of the loop over the streams in `getWindowUpdates`. -/
structure StreamUpdates where
  res : List WindowUpdate
  streamFlowController : List FlowController
  connFlowController : FlowController

/-- Update the windows of the streams. A new increment raises the one of the connection. -/
def updateStreamWindows (force : Bool) (clock : ℕ → WindowClock) :
    List FlowController → FlowController → StreamUpdates
  | [], conn => { res := [], streamFlowController := [], connFlowController := conn }
  | fc :: rest, conn =>
    let (w, fc) := fc.maybeUpdateWindow (clock fc.streamID)
    if force || w.necessary then
      let conn :=
        if fc.contributesToConnection && w.newIncrement != 0 then
          conn.ensureMinimumWindowIncrement (connectionIncrement w.newIncrement)
        else conn
      let r := updateStreamWindows force clock rest conn
      { r with
        res := { streamID := fc.streamID, offset := w.offset } :: r.res
        streamFlowController := fc :: r.streamFlowController }
    else
      let r := updateStreamWindows force clock rest conn
      { r with streamFlowController := fc :: r.streamFlowController }

theorem streamID_maybeUpdateWindow (fc : FlowController) (clock : WindowClock) :
    (fc.maybeUpdateWindow clock).2.streamID = fc.streamID := by
  unfold FlowController.maybeUpdateWindow FlowController.maybeAdjustWindowIncrement
  dsimp only
  split
  · split
    · rfl
    · split_ifs <;> rfl
  · rfl

/-- The loop updates each stream by itself. -/
theorem updateStreamWindows_streams (force : Bool) (clock : ℕ → WindowClock)
    (fcs : List FlowController) (conn : FlowController) :
    (updateStreamWindows force clock fcs conn).streamFlowController =
      fcs.map fun fc => (fc.maybeUpdateWindow (clock fc.streamID)).2 := by
  induction fcs generalizing conn with
  | nil => rfl
  | cons fc rest ih =>
    rw [updateStreamWindows]
    dsimp only
    split_ifs <;> rw [List.map_cons, ih]

theorem nodup_updateStreamWindows (f : FlowControlManager) (force : Bool)
    (clock : ℕ → WindowClock) :
    ((updateStreamWindows force clock f.streamFlowController
      f.connFlowController).streamFlowController.map FlowController.streamID).Nodup := by
  rw [updateStreamWindows_streams, List.map_map]
  have hids : FlowController.streamID ∘
      (fun fc : FlowController => (fc.maybeUpdateWindow (clock fc.streamID)).2) =
        FlowController.streamID :=
    funext fun fc => streamID_maybeUpdateWindow fc _
  rw [hids]
  exact f.nodup

/-- Update the windows of all streams, then the one of the connection. The updates that are to be
sent are those of changed windows, or all of them with `force`. -/
def getWindowUpdates (f : FlowControlManager) (force : Bool) (clock : ℕ → WindowClock)
    (connClock : WindowClock) : List WindowUpdate × FlowControlManager :=
  let r := updateStreamWindows force clock f.streamFlowController f.connFlowController
  let (w, conn) := r.connFlowController.maybeUpdateWindow connClock
  (if force || w.necessary then r.res ++ [{ streamID := 0, offset := w.offset }] else r.res,
    { f with
      streamFlowController := r.streamFlowController
      nodup := nodup_updateStreamWindows f force clock
      connFlowController := conn })

/-! ## Sending -/

/-- `n` bytes of a stream were sent. -/
def addBytesSent (f : FlowControlManager) (streamID n : ℕ) :
    Option FlowControlError × FlowControlManager :=
  match f.getFlowController streamID with
  | none => (some .mapAccess, f)
  | some fc =>
    let f := f.setFlowController (fc.addBytesSent n)
    if fc.contributesToConnection then
      (none, { f with connFlowController := f.connFlowController.addBytesSent n })
    else (none, f)

/-- The number of bytes that may be sent on a stream. -/
def sendWindowSize (f : FlowControlManager) (streamID : ℕ) : Except FlowControlError ℕ :=
  match f.getFlowController streamID with
  | none => .error .mapAccess
  | some fc =>
    let res := fc.sendWindowSize f.connectionParameters
    if fc.contributesToConnection then
      .ok (min res (f.connFlowController.sendWindowSize f.connectionParameters))
    else .ok res

/-- The number of bytes that may be sent on the connection. -/
def remainingConnectionWindowSize (f : FlowControlManager) : ℕ :=
  f.connFlowController.sendWindowSize f.connectionParameters

/-- A WINDOW_UPDATE frame for a stream, or for the connection, was received. -/
def updateWindow (f : FlowControlManager) (streamID offset : ℕ) :
    Except FlowControlError Bool × FlowControlManager :=
  if streamID = 0 then
    let (updated, conn) := f.connFlowController.updateSendWindow offset
    (.ok updated, { f with connFlowController := conn })
  else
    match f.getFlowController streamID with
    | none => (.error .mapAccess, f)
    | some fc =>
      let (updated, fc) := fc.updateSendWindow offset
      (.ok updated, f.setFlowController fc)

end FlowControlManager

end MPQuic
