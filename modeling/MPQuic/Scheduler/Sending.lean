import MPQuic.Packer.PacketPacker
import MPQuic.Scheduler.CrossAck

/-!
# Sending on several paths

The sending side of a session: `sendPacket` and `getRetransmission` of `scheduler.go`, on top of the
packet packer, the packet number generators and the sent packet handlers of all paths. One round of
the loop of `sendPacket` packs a packet for a path, hands it to the handler of the path, and then
duplicates it: the redundant scheduler writes its frames into packets of other paths, the others put
it into the retransmission queue of its own path.

Which path is selected, when packets are sent and what the network delivers is not determined here:
these are the inputs of the events in `Event`. All packets are forward-secure. A session that cannot
pack or register a packet is closed, so that a step that fails has no successor.

Two fields of `Sender` are ghost variables: the contents of the packets when they were written, and
the packets that the peer has received.
-/

namespace MPQuic

open Transition

/-- A packet as it was written: its path and number, and its STREAM frames. -/
structure WirePacket where
  id : DupID
  frames : List StreamFrame

/-- What a packet carries. -/
def WirePacket.items (p : WirePacket) : List StreamItem := p.frames.flatMap StreamFrame.items

/-- The sending side of a session. -/
structure Sender where
  packer : PacketPacker
  generator : PathID → PacketNumberGenerator
  handlers : PathHandlers
  /-- The packets that were written, the last one first. This is a ghost variable. -/
  written : List WirePacket
  /-- The packets that the peer has received. This is a ghost variable. -/
  received : List DupID

/-- The reasons for which sending a packet fails. -/
inductive SendError where
  | pack (e : PackError)
  | sentPacket (e : SentPacketError)
  deriving DecidableEq

/-- Another path that a packet is duplicated on. -/
structure RedundantPath where
  pathID : PathID
  header : HeaderBytes
  random : Option UInt16

/-- How a packet that was sent is duplicated. -/
inductive Duplication where
  | none
  /-- `DuplicatePacket`, when the performance of the path is unknown. -/
  | samePath
  /-- The redundant scheduler. -/
  | redundant (paths : List RedundantPath)

/-- A round of `sendPacket`. -/
structure SendCall where
  input : PacketPacker.PackInput
  env : Env
  windowUpdateFrames : List WindowUpdateFrame
  duplication : Duplication

namespace Sender

/-- A session in which no packet was sent. -/
def new : Sender where
  packer := .new
  generator := fun _ => .new
  handlers := .new
  written := []
  received := []

/-- Note what a packet was written with. -/
def record (s : Sender) (pathID : PathID) (packet : PackedPacket) : Sender :=
  { s with
    written :=
      { id := { pathID, packetNumber := packet.number }
        frames := (streamRefs packet.frames).map s.packer.heap.get } :: s.written }

/-- The packet that is handed to the sent packet handler. -/
def toPacket (packet : PackedPacket) : Packet where
  packetNumber := packet.number
  frames := packet.frames
  length := packet.length
  encryptionLevel := packet.encryptionLevel
  sendTime := 0

/-- Register a packet with the handler of its path. -/
def sendPackedPacket (s : Sender) (packet : PackedPacket) (pathID : PathID) (env : Env) :
    Except SentPacketError Sender :=
  match (s.handlers.handler pathID).sentPacket (toPacket packet) env with
  | .ok h => .ok { s with handlers := s.handlers.modify pathID fun _ => h }
  | .error e => .error e

/-- Send what was packed for a path. There may be no packet. -/
def sendPacked (s : Sender) (pathID : PathID) (env : Env) (r : PacketPacker.Packed) :
    Except SendError (Option PackedPacket × Sender) :=
  let s := { s with
    packer := r.packer
    generator := Function.update s.generator pathID r.generator }
  match r.packet with
  | none => .ok (none, s)
  | some packet =>
    match (s.record pathID packet).sendPackedPacket packet pathID env with
    | .ok s => .ok (some packet, s)
    | .error e => .error (.sentPacket e)

/-- Pack a packet for a path and send it. -/
def packAndSend (s : Sender) (pack : PacketNumberGenerator → PacketPacker.PackInput →
    Except PackError PacketPacker.Packed) (i : PacketPacker.PackInput) (env : Env) :
    Except SendError (Option PackedPacket × Sender) :=
  match pack (s.generator i.pathID) i with
  | .ok r => s.sendPacked i.pathID env r
  | .error e => .error (.pack e)

/-- Queue control frames for a path. -/
def queueControlFrames (s : Sender) (frames : List ControlFrame) (pathID : PathID) : Sender :=
  { s with packer := frames.foldl (·.queueControlFrame · pathID) s.packer }

/-- Send the next packet of a path. -/
def performPacketSending (s : Sender) (c : SendCall) :
    Except SendError (Option PackedPacket × Sender) := do
  let pathID := c.input.pathID
  -- add a retransmittable frame
  let s :=
    if (s.handlers.handler pathID).shouldSendRetransmittablePacket then
      s.queueControlFrames [.ping] pathID
    else s
  let r ← s.packAndSend s.packer.packPacket c.input c.env
  match r.1 with
  | none => .ok r
  -- send every window update twice
  | some packet =>
    .ok (some packet, r.2.queueControlFrames
      (c.windowUpdateFrames.map .windowUpdate) pathID)

/-- Add the mapping for a duplicate and send it. The mapping stays if the duplicate cannot be
sent. -/
def sendMapped (s : Sender) (original : DupID) (dropable : Bool) (dupPkt : PackedPacket)
    (pathID : PathID) (env : Env) : Sender :=
  let s := s.record pathID dupPkt
  let s := { s with
    handlers := s.handlers.addDuplicate original ⟨pathID, dupPkt.number⟩ dropable }
  match s.sendPackedPacket dupPkt pathID env with
  | .ok s => s
  | .error _ => s

/-- Write the frames of a packet into a packet of another path and send it. If something fails, the
loop goes on with the next path. -/
def sendDuplicate (i : PacketPacker.PackInput) (env : Env) (pkt : Packet)
    (redundantFrames : List Frame) (s : Sender) (redPth : RedundantPath) : Sender :=
  if redPth.pathID = initialPathID ∨ redPth.pathID = i.pathID then s
  else
    let r := s.packer.sealFrames (s.generator redPth.pathID)
      { i with pathID := redPth.pathID, header := redPth.header, random := redPth.random }
      redundantFrames
    let s := { s with generator := Function.update s.generator redPth.pathID r.2 }
    match r.1 with
    | .error _ => s
    | .ok dupPkt =>
      s.sendMapped ⟨i.pathID, pkt.packetNumber⟩ pkt.isDupDropable dupPkt redPth.pathID env

/-- Duplicate a packet that was sent. -/
def duplicate (s : Sender) (c : SendCall) (pkt : Packet) : Sender :=
  match c.duplication with
  | .none => s
  | .samePath =>
    { s with handlers := s.handlers.modify c.input.pathID (·.duplicatePacket pkt) }
  | .redundant paths =>
    match pkt.getCopyFrames with
    | none => s
    | some redundantFrames =>
      paths.foldl (sendDuplicate c.input c.env pkt redundantFrames) s

/-- One round of `sendPacket`. -/
def sendPacket (s : Sender) (c : SendCall) : Except SendError Sender := do
  let r ← s.performPacketSending c
  match r.1 with
  | none => .ok r.2
  | some packet => .ok (r.2.duplicate c (toPacket packet))

/-- Queue a frame of a lost packet again. A WINDOW_UPDATE frame is queued if it is still needed, and
a PATHS frame is not queued, since a new one is scheduled. -/
def requeueFrame (needed : WindowUpdateFrame → Bool) (pathID : PathID) (s : Sender)
    (frame : Frame) : Sender :=
  match h : frame.streamRef? with
  | some ref =>
    { s with
      packer :=
        { s.packer with streamFramer := s.packer.streamFramer.addFrameForRetransmission ref } }
  | none =>
    match frame with
    | .windowUpdate f =>
      if needed f then s.queueControlFrames [.windowUpdate f] pathID else s
    | .paths _ => s
    | frame => s.queueControlFrames [⟨frame, h⟩] pathID

/-- Dequeue a packet of a path and queue its frames again. This is one round of the loop of
`getRetransmission`, after the handshake is complete. -/
def getRetransmission (s : Sender) (needed : WindowUpdateFrame → Bool) (pathID : PathID) :
    Sender :=
  let r := (s.handlers.handler pathID).dequeuePacketForRetransmission
  let s := { s with handlers := s.handlers.modify pathID fun _ => r.2 }
  match r.1 with
  | none => s
  | some retransmitPacket =>
    -- don't retransmit handshake packets when the handshake is complete
    if retransmitPacket.encryptionLevel ≠ .forwardSecure then s
    else retransmitPacket.getFramesForRetransmission.foldl (requeueFrame needed pathID) s

end Sender

/-! ## Events -/

/-- What can happen. -/
inductive Event where
  | queueControlFrame (frame : ControlFrame) (pathID : PathID)
  | sendPacket (c : SendCall)
  | sendAck (i : PacketPacker.PackInput) (env : Env)
  | sendPing (i : PacketPacker.PackInput) (env : Env)
  /-- The peer receives a packet. -/
  | deliver (id : DupID)
  | receivedAck (pathID : PathID) (f : AckFrame) (withPacketNumber : ℕ) (env : Env)
  | receivedClosePath (pathID : PathID) (f : ClosePathFrame) (withPacketNumber : ℕ)
  | onAlarm (pathID : PathID) (env : Env) (potentiallyFailed : Bool)
  | setInflightAsLost (pathID : PathID)
  | getRetransmission (needed : WindowUpdateFrame → Bool) (pathID : PathID)

namespace Sender

/-- What an event does. -/
def apply (s : Sender) : Event → Except SendError Sender
  | .queueControlFrame frame pathID => .ok (s.queueControlFrames [frame] pathID)
  | .sendPacket c => s.sendPacket c
  | .sendAck i env => (s.packAndSend s.packer.packAckPacket i env).map (·.2)
  | .sendPing i env => (s.packAndSend s.packer.packPing i env).map (·.2)
  | .deliver id => .ok { s with received := id :: s.received }
  | .receivedAck pathID f n env =>
    .ok { s with handlers := (s.handlers.receivedAck pathID f n env).2 }
  | .receivedClosePath pathID f n =>
    .ok { s with handlers := (s.handlers.receivedClosePath pathID f n).2 }
  | .onAlarm pathID env potentiallyFailed =>
    .ok { s with handlers := s.handlers.modify pathID (·.onAlarm env potentiallyFailed) }
  | .setInflightAsLost pathID =>
    .ok { s with handlers := s.handlers.modify pathID (·.setInflightAsLost) }
  | .getRetransmission needed pathID => .ok (s.getRetransmission needed pathID)

/-- The packet numbers of all paths allow for `n` more packets. -/
def NumbersLeft (s : Sender) (n : ℕ) : Prop :=
  ∀ pathID, (s.generator pathID).next + 2 * n < uint64Size

/-- A packet was written and handed to the network. -/
def Sent (s : Sender) (id : DupID) : Prop :=
  (∃ p ∈ s.written, p.id = id) ∧ id.packetNumber ∈ (s.handlers.handler id.pathID).sent

/-- The packet numbers that are acknowledged are those of packets that the peer has received. -/
def Honest (s : Sender) (pathID : PathID) (f : AckedPackets) : Prop :=
  ∀ n, f.acksPacket n = true → (⟨pathID, n⟩ : DupID) ∈ s.received

/-- Packets are forward-secure, the data of streams has 64-bit offsets, and there are packet numbers
left. -/
structure CanPack (s : Sender) (i : PacketPacker.PackInput) (n : ℕ) : Prop where
  forwardSecure : i.encryptionLevel = .forwardSecure
  visits : ∀ v ∈ i.visits, v.stream.InRange
  numbersLeft : s.NumbersLeft n

/-- The number of packets that a call may send. -/
def packets : Duplication → ℕ
  | .redundant paths => paths.length + 1
  | _ => 1

/-- What events are possible in a state. -/
def Admissible (s : Sender) : Event → Prop
  | .sendPacket c => s.CanPack c.input (packets c.duplication)
  | .sendAck i _ => s.CanPack i 1
  | .sendPing i _ => s.CanPack i 1
  | .deliver id => s.Sent id
  | .receivedAck pathID f _ _ => s.Honest pathID f.toAckedPackets
  | .receivedClosePath pathID f _ => s.Honest pathID f.toAckedPackets
  | _ => True

/-- A step is an event that is possible and does not close the session. -/
def Step (s : Sender) (e : Event) (t : Sender) : Prop := s.Admissible e ∧ s.apply e = .ok t

/-- The state after an event, if it does not close the session. -/
def after (s : Sender) (e : Event) : Sender :=
  match s.apply e with
  | .ok t => t
  | .error _ => s

theorem step_after {s : Sender} {e : Event} (hadmissible : s.Admissible e)
    (hok : (s.apply e).isOk = true) : Step s e (s.after e) := by
  refine ⟨hadmissible, ?_⟩
  unfold after
  cases h : s.apply e with
  | ok t => rfl
  | error e' =>
    rw [h] at hok
    cases hok

end Sender

end MPQuic
