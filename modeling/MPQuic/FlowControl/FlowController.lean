import MPQuic.Protocol

/-!
# Flow controllers

`internal/flowcontrol/flow_controller.go`: the bytes that were sent and received on one stream, or
on all streams of a connection, and the windows that limit them. The receive window is raised when
less than half of the window increment is left, and the increment grows when this happens too often.

A zero `time.Time` is `none`. What a controller reads from the clock and the RTT statistics is an
input (`WindowClock`).
-/

namespace MPQuic

/-- The flow control windows of `handshake/connection_parameters_manager.go`. -/
structure ConnectionParameters where
  flowControlNegotiated : Bool
  sendStreamFlowControlWindow : ℕ
  sendConnectionFlowControlWindow : ℕ
  receiveStreamFlowControlWindow : ℕ
  receiveConnectionFlowControlWindow : ℕ
  maxReceiveStreamFlowControlWindow : ℕ
  maxReceiveConnectionFlowControlWindow : ℕ

namespace ConnectionParameters

/-- The parameters before the handshake, for the maximum windows of the configuration. -/
def new (maxReceiveStreamFlowControlWindow maxReceiveConnectionFlowControlWindow : ℕ) :
    ConnectionParameters where
  flowControlNegotiated := false
  sendStreamFlowControlWindow := initialStreamFlowControlWindow
  sendConnectionFlowControlWindow := initialConnectionFlowControlWindow
  receiveStreamFlowControlWindow := MPQuic.receiveStreamFlowControlWindow
  receiveConnectionFlowControlWindow := MPQuic.receiveConnectionFlowControlWindow
  maxReceiveStreamFlowControlWindow := maxReceiveStreamFlowControlWindow
  maxReceiveConnectionFlowControlWindow := maxReceiveConnectionFlowControlWindow

/-- The flow control part of `SetFromMap`, for the values of the tags SFCW and CFCW if the peer sent
them. A second change is refused. The result says whether there was no error. -/
def setFromMap (p : ConnectionParameters) (sfcw cfcw : Option UInt32) :
    Bool × ConnectionParameters :=
  if p.flowControlNegotiated && (sfcw.isSome || cfcw.isSome) then (false, p)
  else
    (true, { p with
      sendStreamFlowControlWindow := (sfcw.map UInt32.toNat).getD p.sendStreamFlowControlWindow
      sendConnectionFlowControlWindow :=
        (cfcw.map UInt32.toNat).getD p.sendConnectionFlowControlWindow
      flowControlNegotiated := p.flowControlNegotiated || sfcw.isSome || cfcw.isSome })

end ConnectionParameters

/-- What a controller reads from the clock and the RTT statistics. -/
structure WindowClock where
  smoothedRTT : ℕ
  remoteRTTs : List ℕ
  /-- The time at which the interval since the last update is measured. -/
  measured : ℕ
  now : ℕ

/-- A flow controller. The one of the connection has the stream id 0. -/
structure FlowController where
  streamID : ℕ
  /-- Whether the stream contributes to connection level flow control. -/
  contributesToConnection : Bool
  bytesSent : ℕ
  sendWindow : ℕ
  lastWindowUpdateTime : Option ℕ
  bytesRead : ℕ
  highestReceived : ℕ
  receiveWindow : ℕ
  receiveWindowIncrement : ℕ
  maxReceiveWindowIncrement : ℕ

namespace FlowController

/-- A new flow controller. -/
def new (streamID : ℕ) (contributesToConnection : Bool) (p : ConnectionParameters) :
    FlowController :=
  let receiveWindow :=
    if streamID = 0 then p.receiveConnectionFlowControlWindow else p.receiveStreamFlowControlWindow
  { streamID
    contributesToConnection
    bytesSent := 0
    sendWindow := 0
    lastWindowUpdateTime := none
    bytesRead := 0
    highestReceived := 0
    receiveWindow
    receiveWindowIncrement := receiveWindow
    maxReceiveWindowIncrement :=
      if streamID = 0 then p.maxReceiveConnectionFlowControlWindow
      else p.maxReceiveStreamFlowControlWindow }

/-! ## Sending -/

/-- The window for sending: the negotiated one as long as no update was received. -/
def getSendWindow (c : FlowController) (p : ConnectionParameters) : ℕ :=
  if c.sendWindow = 0 then
    if c.streamID = 0 then p.sendConnectionFlowControlWindow else p.sendStreamFlowControlWindow
  else c.sendWindow

/-- `n` bytes were sent. -/
def addBytesSent (c : FlowController) (n : ℕ) : FlowController :=
  { c with bytesSent := uint64Add c.bytesSent n }

/-- A WINDOW_UPDATE frame was received. The result says whether the window was updated. -/
def updateSendWindow (c : FlowController) (newOffset : ℕ) : Bool × FlowController :=
  if c.sendWindow < newOffset then (true, { c with sendWindow := newOffset }) else (false, c)

/-- The number of bytes that may be sent. -/
def sendWindowSize (c : FlowController) (p : ConnectionParameters) : ℕ :=
  let sendWindow := c.getSendWindow p
  -- should never happen, but make sure we don't do an underflow here
  if sendWindow < c.bytesSent then 0 else sendWindow - c.bytesSent

/-! ## Receiving -/

/-- Update the highest received offset of a stream. The result is the increment, or `none` if the
offset is smaller than one that was received before. -/
def updateHighestReceived (c : FlowController) (byteOffset : ℕ) : Option ℕ × FlowController :=
  if byteOffset = c.highestReceived then (some 0, c)
  else if c.highestReceived < byteOffset then
    (some (byteOffset - c.highestReceived), { c with highestReceived := byteOffset })
  else (none, c)

/-- Add an increment to the highest received offset of the connection. -/
def incrementHighestReceived (c : FlowController) (increment : ℕ) : FlowController :=
  { c with highestReceived := uint64Add c.highestReceived increment }

/-- `n` bytes were read. -/
def addBytesRead (c : FlowController) (n now : ℕ) : FlowController :=
  { c with
    -- pretend we sent a WINDOW_UPDATE when reading the first byte
    lastWindowUpdateTime := if c.bytesRead = 0 then some now else c.lastWindowUpdateTime
    bytesRead := uint64Add c.bytesRead n }

/-- Double the window increment if updates are sent too often. -/
def maybeAdjustWindowIncrement (c : FlowController) (clock : WindowClock) : FlowController :=
  match c.lastWindowUpdateTime with
  | none => c
  | some lastWindowUpdateTime =>
    if clock.smoothedRTT = 0 then c
    else
      let maxRemoteRTT := clock.remoteRTTs.foldl max 0
      -- interval between the window updates is sufficiently large
      if 2 * max clock.smoothedRTT maxRemoteRTT ≤ clock.measured - lastWindowUpdateTime then c
      else
        { c with
          receiveWindowIncrement :=
            min (uint64Mul 2 c.receiveWindowIncrement) c.maxReceiveWindowIncrement }

/-- What `maybeUpdateWindow` returns. -/
structure WindowResult where
  necessary : Bool
  newIncrement : ℕ
  offset : ℕ

/-- Update the receive window, if necessary. If the increment is changed, the new value is returned,
otherwise 0; if there is no update, the old value. -/
def maybeUpdateWindow (c : FlowController) (clock : WindowClock) :
    WindowResult × FlowController :=
  let diff := uint64Sub c.receiveWindow c.bytesRead
  if diff < c.receiveWindowIncrement / 2 then
    let oldWindowIncrement := c.receiveWindowIncrement
    let c := c.maybeAdjustWindowIncrement clock
    let newWindowIncrement :=
      if c.receiveWindowIncrement ≠ oldWindowIncrement then c.receiveWindowIncrement else 0
    let c := { c with
      lastWindowUpdateTime := some clock.now
      receiveWindow := uint64Add c.bytesRead c.receiveWindowIncrement }
    (⟨true, newWindowIncrement, c.receiveWindow⟩, c)
  else (⟨false, c.receiveWindowIncrement, c.receiveWindow⟩, c)

/-- Set a minimum window increment, for the controller of the connection. -/
def ensureMinimumWindowIncrement (c : FlowController) (inc : ℕ) : FlowController :=
  if c.receiveWindowIncrement < inc then
    { c with
      receiveWindowIncrement := min inc c.maxReceiveWindowIncrement
      -- disables autotuning for the next window update
      lastWindowUpdateTime := none }
  else c

/-- Whether more was received than the window allows. -/
def checkFlowControlViolation (c : FlowController) : Bool := c.receiveWindow < c.highestReceived

end FlowController

end MPQuic
