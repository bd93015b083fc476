import MPQuic.AckHandler.Packet
import MPQuic.Packer.FrameHeap
import MPQuic.Packer.Seal

/-!
# The packet packer

`packet_packer.go`: it composes the next packet of a path from the queued control frames and the
STREAM frames of the stream framer, writes and seals it.

The last STREAM frame of a packet omits its data length. `composeNextPacket` clears
`DataLenPresent` through the reference that the framer returned, after all frames of the packet were
popped.

The public header is an input: its length, its bytes and the length of its packet number. Packets of
the crypto stream and `PackHandshakeRetransmission` are in `Packer.CryptoPacket`,
`PackConnectionClose` is left out. After an error the session is closed, so that the state of the
packer is returned on success only.
-/

namespace MPQuic

open Bytes

/-- A frame that is not a STREAM frame. -/
abbrev ControlFrame := { f : Frame // f.streamRef? = none }

/-- A PING frame. -/
def ControlFrame.ping : ControlFrame := ⟨.ping, rfl⟩

/-- A WINDOW_UPDATE frame. -/
def ControlFrame.windowUpdate (f : WindowUpdateFrame) : ControlFrame := ⟨.windowUpdate f, rfl⟩

/-- The state of the packet packer, with the STREAM frames of the session. -/
structure PacketPacker where
  streamFramer : StreamFramer
  heap : FrameHeap
  controlFrames : List ControlFrame
  stopWaiting : PathID → Option StopWaitingFrame
  ackFrame : PathID → Option AckFrame

/-- What the packer uses of the public header of a packet. -/
structure HeaderBytes where
  packetNumberLen : PacketNumberLen
  length : ℕ
  raw : Except WriteError (List UInt8)

/-- A packet that was packed; `length` is that of its bytes. -/
structure PackedPacket where
  number : ℕ
  length : ℕ
  frames : List Frame
  encryptionLevel : EncryptionLevel

namespace PacketPacker

/-- A new packet packer. -/
def new : PacketPacker where
  streamFramer := .new
  heap := { get := fun _ => default, next := 0 }
  controlFrames := []
  stopWaiting := fun _ => none
  ackFrame := fun _ => none

/-- Queue a frame for the next packet. -/
def queueControlFrame (p : PacketPacker) (frame : ControlFrame) (pathID : PathID) :
    PacketPacker :=
  match frame.1 with
  | .stopWaiting f => { p with stopWaiting := Function.update p.stopWaiting pathID (some f) }
  | .ack f => { p with ackFrame := Function.update p.ackFrame pathID (some f) }
  | _ => { p with controlFrames := p.controlFrames ++ [frame] }

/-- Whether STREAM frames can be sent. -/
def canSendData (isClient : Bool) (encLevel : EncryptionLevel) : Bool :=
  if isClient then encLevel = .secure || encLevel = .forwardSecure else encLevel = .forwardSecure

/-! ## Composing -/

/-- The length of frames that always fit. -/
def minLengths (store : FrameStore) : List Frame → Except WriteError ℕ
  | [] => .ok 0
  | f :: fs => do
    let l ← f.minLength store
    let rest ← minLengths store fs
    return l + rest

/-- The control frames that were popped, the length of the payload with them, and the frames that
are left. -/
structure PoppedControlFrames where
  frames : List ControlFrame
  payloadLength : ℕ
  left : List ControlFrame

/-- Pop control frames as long as they fit. The list starts with the frame that is popped first,
which is the one that was queued last. -/
def popControlFrames (store : FrameStore) (maxFrameSize : ℕ) :
    List ControlFrame → ℕ → Except WriteError PoppedControlFrames
  | [], payloadLength => .ok { frames := [], payloadLength, left := [] }
  | frame :: rest, payloadLength => do
    let minLength ← frame.1.minLength store
    if maxFrameSize < payloadLength + minLength then
      .ok { frames := [], payloadLength, left := frame :: rest }
    else do
      let r ← popControlFrames store maxFrameSize rest (payloadLength + minLength)
      return { r with frames := frame :: r.frames }

/-- The frames of a packet. -/
structure Composed where
  frames : List Frame
  streams : List SendStream
  packer : PacketPacker

/-- The errors of writers are errors of the packer. -/
def liftWrite {α : Type} (x : Except WriteError α) : Except PackError α := x.mapError .write

/-- Clear `DataLenPresent` of the last frame. -/
def omitLastDataLen (frames : List FrameRef) (heap : FrameHeap) : FrameHeap :=
  match frames.getLast? with
  | some frame => heap.modify frame ({ · with dataLenPresent := false })
  | none => heap

/-- Pop STREAM frames for a packet with room for `maxLen` bytes, and append them to its frames. -/
def appendStreamFrames (p : PacketPacker) (payloadFrames : List Frame) (maxLen : ℕ)
    (visits : List StreamVisit) : Composed :=
  let fs := p.streamFramer.popStreamFrames maxLen visits p.heap
  { frames := payloadFrames ++ fs.frames.map .stream
    streams := fs.streams
    packer :=
      { p with
        streamFramer := { fs.framer with blockedFrameQueue := [] }
        heap := omitLastDataLen fs.frames fs.heap
        controlFrames := p.controlFrames ++ fs.framer.blockedFrameQueue.map (⟨.blocked ·, rfl⟩) } }

/-- Compose the frames of the next packet of a path. -/
def composeNextPacket (p : PacketPacker) (maxFrameSize : ℕ) (canSendStreamFrames : Bool)
    (pathID : PathID) (visits : List StreamVisit) : Except PackError Composed := do
  -- STOP_WAITING and ACK will always fit
  let payloadFrames :=
    (p.stopWaiting pathID).toList.map .stopWaiting ++ (p.ackFrame pathID).toList.map .ack
  let payloadLength ← liftWrite (minLengths p.heap.get payloadFrames)
  let control ←
    liftWrite (popControlFrames p.heap.get maxFrameSize p.controlFrames.reverse payloadLength)
  if maxFrameSize < control.payloadLength then .error .payloadTooLarge
  else
    let p := { p with controlFrames := control.left.reverse }
    let payloadFrames := payloadFrames ++ control.frames.map (·.1)
    if canSendStreamFrames then
      -- the last frame does not need its data length, which saves 2 bytes
      .ok (p.appendStreamFrames payloadFrames (maxFrameSize + 2 - control.payloadLength) visits)
    else .ok { frames := payloadFrames, streams := visits.map (·.stream), packer := p }

/-! ## Packing -/

/-- What a packet is packed with. -/
structure PackInput where
  pathID : PathID
  header : HeaderBytes
  encryptionLevel : EncryptionLevel
  isClient : Bool
  sealer : AEADAESGCM12
  order : Order
  now : ℕ
  random : Option UInt16
  visits : List StreamVisit

/-- A packed packet, if there was something to send, and the state after it. -/
structure Packed where
  packet : Option PackedPacket
  streams : List SendStream
  packer : PacketPacker
  generator : PacketNumberGenerator

/-- Write and seal a packet with the given frames. -/
def sealFrames (p : PacketPacker) (generator : PacketNumberGenerator) (i : PackInput)
    (frames : List Frame) : Except PackError PackedPacket × PacketNumberGenerator :=
  let number := generator.peek
  let r := writeAndSealPacket i.pathID number i.header.raw
    (writeFrames p.heap.get i.order i.now frames) i.sealer generator i.random
  (r.1.map fun length => { number, length, frames, encryptionLevel := i.encryptionLevel }, r.2.2)

/-- Set the packet number of the STOP_WAITING frame of a path. -/
def numberStopWaiting (p : PacketPacker) (pathID : PathID) (packetNumber : ℕ)
    (packetNumberLen : PacketNumberLen) : PacketPacker :=
  { p with
    stopWaiting := Function.update p.stopWaiting pathID
      ((p.stopWaiting pathID).map fun f => { f with packetNumber, packetNumberLen }) }

/-- The frames of the next packet: a PING frame at the front of the queue is sent alone. -/
def payloadOf (p : PacketPacker) (i : PackInput) : Except PackError Composed :=
  match p.controlFrames with
  | ⟨.ping, _⟩ :: rest =>
    .ok { frames := [.ping], streams := i.visits.map (·.stream)
          packer := { p with controlFrames := rest } }
  | _ =>
    p.composeNextPacket (maxPacketSize - AEADAESGCM12.overhead - i.header.length)
      (canSendData i.isClient i.encryptionLevel) i.pathID i.visits

/-- Pack a new packet. -/
def packPacket (p : PacketPacker) (generator : PacketNumberGenerator) (i : PackInput) :
    Except PackError Packed := do
  let p := p.numberStopWaiting i.pathID generator.peek i.header.packetNumberLen
  let r ← p.payloadOf i
  -- don't send out packets that only contain a STOP_WAITING frame
  if r.frames.isEmpty || (r.frames.length == 1 && (r.packer.stopWaiting i.pathID).isSome) then
    .ok { packet := none, streams := r.streams, packer := r.packer, generator }
  else do
    let p := { r.packer with
      stopWaiting := Function.update r.packer.stopWaiting i.pathID none
      ackFrame := Function.update r.packer.ackFrame i.pathID none }
    let sealed := p.sealFrames generator i r.frames
    let packet ← sealed.1
    return { packet := some packet, streams := r.streams, packer := p, generator := sealed.2 }

/-- Pack a packet that only contains a PING frame. -/
def packPing (p : PacketPacker) (generator : PacketNumberGenerator) (i : PackInput) :
    Except PackError Packed :=
  { p with controlFrames := .ping :: p.controlFrames }.packPacket generator i

/-- Pack a packet with an ACK frame, and a STOP_WAITING frame if there is one. -/
def packAckPacket (p : PacketPacker) (generator : PacketNumberGenerator) (i : PackInput) :
    Except PackError Packed :=
  match p.ackFrame i.pathID with
  | none => .error .noAckFrameQueued
  | some ack => do
    let p := p.numberStopWaiting i.pathID generator.peek i.header.packetNumberLen
    let frames := .ack ack :: (p.stopWaiting i.pathID).toList.map .stopWaiting
    let p := { p with
      stopWaiting := Function.update p.stopWaiting i.pathID none
      ackFrame := Function.update p.ackFrame i.pathID none }
    let sealed := p.sealFrames generator i frames
    let packet ← sealed.1
    return { packet := some packet, streams := i.visits.map (·.stream), packer := p
             generator := sealed.2 }

/-! ## What is packed -/

variable {p : PacketPacker} {r : Composed} {pathID : PathID}

/-- Queueing a control frame does not touch STREAM frames. -/
theorem queueControlFrame_streams (p : PacketPacker) (frame : ControlFrame) (pathID : PathID) :
    (p.queueControlFrame frame pathID).heap = p.heap ∧
      (p.queueControlFrame frame pathID).streamFramer = p.streamFramer := by
  unfold queueControlFrame
  split <;> exact ⟨rfl, rfl⟩

theorem foldl_queueControlFrame_streams (p : PacketPacker) (frames : List ControlFrame)
    (pathID : PathID) :
    (frames.foldl (·.queueControlFrame · pathID) p).heap = p.heap ∧
      (frames.foldl (·.queueControlFrame · pathID) p).streamFramer = p.streamFramer := by
  induction frames generalizing p with
  | nil => exact ⟨rfl, rfl⟩
  | cons f frames ih =>
    obtain ⟨hheap, hframer⟩ := p.queueControlFrame_streams f pathID
    rw [List.foldl_cons, (ih _).1, (ih _).2, hheap, hframer]
    exact ⟨rfl, rfl⟩

theorem streamRefs_append (fs gs : List Frame) :
    streamRefs (fs ++ gs) = streamRefs fs ++ streamRefs gs :=
  List.filterMap_append

theorem streamRefs_control (control : List ControlFrame) :
    streamRefs (control.map (·.1)) = [] := by
  rw [streamRefs, List.filterMap_eq_nil_iff]
  intro f hf
  obtain ⟨c, -, rfl⟩ := List.mem_map.mp hf
  exact c.2

theorem streamRefs_stream (refs : List FrameRef) : streamRefs (refs.map .stream) = refs := by
  rw [streamRefs, List.filterMap_map]
  exact List.filterMap_some

@[simp]
theorem next_omitLastDataLen (frames : List FrameRef) (heap : FrameHeap) :
    (omitLastDataLen frames heap).next = heap.next := by
  unfold omitLastDataLen
  split <;> rfl

/-- Omitting the data length keeps what does not depend on it. -/
theorem omitLastDataLen_of_forall {q : StreamFrame → Prop}
    (hq : ∀ f, q f → q { f with dataLenPresent := false }) {frames : List FrameRef}
    {heap : FrameHeap} {ref : FrameRef} (h : q (heap.get ref)) :
    q ((omitLastDataLen frames heap).get ref) := by
  unfold omitLastDataLen
  split
  · exact CellHeap.get_modify_of_forall (hq _) h
  · exact h

@[simp]
theorem items_omitLastDataLen (frames : List FrameRef) (heap : FrameHeap) (ref : FrameRef) :
    ((omitLastDataLen frames heap).get ref).items = (heap.get ref).items :=
  omitLastDataLen_of_forall (q := fun f => f.items = (heap.get ref).items) (fun _ => id) rfl

theorem itemsOf_omitLastDataLen (frames : List FrameRef) (heap : FrameHeap)
    (refs : List FrameRef) :
    itemsOf (omitLastDataLen frames heap).get refs = itemsOf heap.get refs := by
  unfold itemsOf
  simp only [items_omitLastDataLen]

/-- What composing a packet does: control frames are followed by the frames that were popped, and
the last of these omits its data length. -/
structure Composes (p : PacketPacker) (pathID : PathID) (r : Composed)
    (control : List ControlFrame) (popped : List FrameRef) (heap : FrameHeap) : Prop where
  frames_eq : r.frames = control.map (·.1) ++ popped.map .stream
  popsFrom : StreamFramer.PopsFrom p.streamFramer.retransmissionQueue p.heap popped
    r.packer.streamFramer.retransmissionQueue heap
  heap_eq : r.packer.heap = omitLastDataLen popped heap
  stopWaiting_eq : r.packer.stopWaiting = p.stopWaiting
  stopWaiting_first : (p.stopWaiting pathID).isSome → control ≠ [] ∨ popped = []

theorem composeNextPacket_ok {maxFrameSize : ℕ} {canSendStreamFrames : Bool}
    {visits : List StreamVisit}
    (hqueue : ∀ ref ∈ p.streamFramer.retransmissionQueue, ref < p.heap.next)
    (hvisits : ∀ v ∈ visits, v.stream.InRange)
    (h : p.composeNextPacket maxFrameSize canSendStreamFrames pathID visits = .ok r) :
    ∃ control popped heap, Composes p pathID r control popped heap := by
  obtain ⟨payloadLength, -, h₁⟩ := bind_eq_ok h
  obtain ⟨control, -, h₂⟩ := bind_eq_ok h₁
  -- the frames that always fit, as control frames
  let fixed : List ControlFrame :=
    (p.stopWaiting pathID).toList.map (⟨.stopWaiting ·, rfl⟩) ++
      (p.ackFrame pathID).toList.map (⟨.ack ·, rfl⟩)
  have hfixed : (p.stopWaiting pathID).toList.map .stopWaiting ++
      (p.ackFrame pathID).toList.map .ack ++ control.frames.map (·.1) =
        (fixed ++ control.frames).map (·.1) := by
    simp [fixed, Function.comp_def]
  have hfirst : (p.stopWaiting pathID).isSome → fixed ++ control.frames ≠ [] := by
    intro hsome
    obtain ⟨f, hf⟩ := Option.isSome_iff_exists.mp hsome
    simp [fixed, hf]
  dsimp only at h₂
  rw [hfixed] at h₂
  split_ifs at h₂
  · obtain rfl := Except.ok.inj h₂
    exact ⟨fixed ++ control.frames, _, _,
      { frames_eq := rfl
        popsFrom := StreamFramer.popStreamFrames_popsFrom _ hqueue hvisits
        heap_eq := rfl
        stopWaiting_eq := rfl
        stopWaiting_first := fun hsome => .inl (hfirst hsome) }⟩
  · obtain rfl := Except.ok.inj h₂
    exact ⟨fixed ++ control.frames, [], p.heap,
      { frames_eq := (List.append_nil _).symm
        popsFrom := .refl _ _
        heap_eq := rfl
        stopWaiting_eq := rfl
        stopWaiting_first := fun _ => .inr rfl }⟩

variable {i : PackInput}

theorem payloadOf_ok (hqueue : ∀ ref ∈ p.streamFramer.retransmissionQueue, ref < p.heap.next)
    (hvisits : ∀ v ∈ i.visits, v.stream.InRange) (h : p.payloadOf i = .ok r) :
    ∃ control popped heap, Composes p i.pathID r control popped heap := by
  unfold payloadOf at h
  split at h
  · obtain rfl := Except.ok.inj h
    exact ⟨[.ping], [], p.heap, rfl, .refl _ _, rfl, rfl, fun _ => .inr rfl⟩
  · exact composeNextPacket_ok hqueue hvisits h

variable {generator : PacketNumberGenerator}

/-- What is sealed is a packet with the given frames. -/
theorem sealFrames_eq_ok {frames : List Frame} {packet : PackedPacket}
    (h : (p.sealFrames generator i frames).1 = .ok packet) :
    (writeAndSealPacket i.pathID generator.peek i.header.raw
        (writeFrames p.heap.get i.order i.now frames) i.sealer generator i.random).1 =
      .ok packet.length ∧
    packet = { number := generator.peek, length := packet.length, frames := frames
               encryptionLevel := i.encryptionLevel } := by
  unfold sealFrames at h
  dsimp only at h
  rcases hwrite : (writeAndSealPacket i.pathID generator.peek i.header.raw
    (writeFrames p.heap.get i.order i.now frames) i.sealer generator i.random).1 with e | length
  · rw [hwrite] at h
    cases h
  · rw [hwrite] at h
    obtain rfl := Except.ok.inj h
    exact ⟨rfl, rfl⟩

/-- A packet that was sealed has the next number of the path, and the generator moves on. -/
theorem sealFrames_ok {frames : List Frame} {packet : PackedPacket}
    (h : (p.sealFrames generator i frames).1 = .ok packet) :
    packet.number = generator.peek ∧ packet.frames = frames ∧
      packet.encryptionLevel = i.encryptionLevel ∧ 0 < packet.length ∧
      packet.length ≤ maxPacketSize ∧
      (p.sealFrames generator i frames).2 = (generator.pop i.random).2 := by
  obtain ⟨hwrite, heq⟩ := sealFrames_eq_ok h
  obtain ⟨header, plaintext, -, -, hlength, hle, hgenerator⟩ := writeAndSealPacket_ok hwrite
  refine ⟨by rw [heq], by rw [heq], by rw [heq], ?_, hle, hgenerator⟩
  unfold AEADAESGCM12.overhead at hlength
  omega

/-- Whether or not a packet is sealed, the generator passes at most one number and a skipped one. -/
theorem sealFrames_next (frames : List Frame) (hleft : generator.next + 2 < uint64Size) :
    generator.next ≤ (p.sealFrames generator i frames).2.next ∧
      (p.sealFrames generator i frames).2.next ≤ generator.next + 2 := by
  rcases writeAndSealPacket_generator i.pathID generator.peek i.header.raw
    (writeFrames p.heap.get i.order i.now frames) i.sealer generator i.random with h | h
  · rw [sealFrames, h]
    exact ⟨le_rfl, Nat.le_add_right _ _⟩
  · rw [sealFrames, h]
    exact ⟨(PacketNumberGenerator.next_lt_pop hleft _).le, PacketNumberGenerator.next_pop_le _ _⟩

/-- What packing does: frames are popped from the framer, and if there is a packet, its STREAM
frames are those that were popped. -/
structure Packs (p : PacketPacker) (generator : PacketNumberGenerator) (i : PackInput) (r : Packed)
    (popped : List FrameRef) (heap : FrameHeap) : Prop where
  popsFrom : StreamFramer.PopsFrom p.streamFramer.retransmissionQueue p.heap popped
    r.packer.streamFramer.retransmissionQueue heap
  heap_eq : r.packer.heap = omitLastDataLen popped heap
  none : r.packet = none → popped = [] ∧ r.generator = generator
  some : ∀ packet, r.packet = some packet →
    packet.number = generator.peek ∧ streamRefs packet.frames = popped ∧
      packet.encryptionLevel = i.encryptionLevel ∧ 0 < packet.length ∧
      packet.length ≤ maxPacketSize ∧ r.generator = (generator.pop i.random).2

theorem packPacket_ok {r : Packed}
    (hqueue : ∀ ref ∈ p.streamFramer.retransmissionQueue, ref < p.heap.next)
    (hvisits : ∀ v ∈ i.visits, v.stream.InRange) (h : p.packPacket generator i = .ok r) :
    ∃ popped heap, Packs p generator i r popped heap := by
  obtain ⟨composed, hcomposed, h₁⟩ := bind_eq_ok h
  obtain ⟨control, popped, heap, hcomposes⟩ := payloadOf_ok
    (p := p.numberStopWaiting i.pathID generator.peek i.header.packetNumberLen) hqueue hvisits
    hcomposed
  refine ⟨popped, heap, ?_⟩
  split_ifs at h₁ with hfew
  · obtain rfl := Except.ok.inj h₁
    refine ⟨hcomposes.popsFrom, hcomposes.heap_eq, fun _ => ⟨?_, rfl⟩, nofun⟩
    -- a packet with a STOP_WAITING frame only has no STREAM frame
    rw [hcomposes.frames_eq, hcomposes.stopWaiting_eq] at hfew
    by_contra hpopped
    have hlen := List.length_pos_iff.mpr hpopped
    have hsome := hcomposes.stopWaiting_first
    simp only [Bool.or_eq_true, List.isEmpty_iff, List.append_eq_nil_iff, List.map_eq_nil_iff,
      Bool.and_eq_true, beq_iff_eq, List.length_append, List.length_map] at hfew
    rcases hfew with ⟨-, hnil⟩ | ⟨hone, hwaiting⟩
    · exact hpopped hnil
    · rcases hsome hwaiting with hcontrol | hnil
      · have := List.length_pos_iff.mpr hcontrol
        omega
      · exact hpopped hnil
  · obtain ⟨packet, hpacket, h₂⟩ := bind_eq_ok h₁
    obtain ⟨hnumber, hframes, hlevel, hpos, hle, hgenerator⟩ := sealFrames_ok hpacket
    obtain rfl := Except.ok.inj h₂
    refine ⟨hcomposes.popsFrom, hcomposes.heap_eq, nofun, fun packet' h => ?_⟩
    obtain rfl := Option.some.inj h
    refine ⟨hnumber, ?_, hlevel, hpos, hle, hgenerator⟩
    rw [hframes, hcomposes.frames_eq, streamRefs_append, streamRefs_control, streamRefs_stream,
      List.nil_append]

theorem packPing_ok {r : Packed}
    (hqueue : ∀ ref ∈ p.streamFramer.retransmissionQueue, ref < p.heap.next)
    (hvisits : ∀ v ∈ i.visits, v.stream.InRange) (h : p.packPing generator i = .ok r) :
    ∃ popped heap, Packs p generator i r popped heap := by
  obtain ⟨popped, heap, hpacks⟩ :=
    packPacket_ok (p := { p with controlFrames := .ping :: p.controlFrames }) hqueue hvisits h
  exact ⟨popped, heap, hpacks.popsFrom, hpacks.heap_eq, hpacks.none, hpacks.some⟩

theorem packAckPacket_ok {r : Packed} (h : p.packAckPacket generator i = .ok r) :
    Packs p generator i r [] p.heap := by
  unfold packAckPacket at h
  split at h
  · cases h
  · obtain ⟨packet, hpacket, h₁⟩ := bind_eq_ok h
    obtain ⟨hnumber, hframes, hlevel, hpos, hle, hgenerator⟩ := sealFrames_ok hpacket
    obtain rfl := Except.ok.inj h₁
    refine ⟨.refl _ _, rfl, nofun, fun packet' h => ?_⟩
    obtain rfl := Option.some.inj h
    refine ⟨hnumber, ?_, hlevel, hpos, hle, hgenerator⟩
    rw [hframes]
    cases hwaiting : (p.stopWaiting i.pathID) <;>
      simp [streamRefs, numberStopWaiting, hwaiting, Frame.streamRef?]

end PacketPacker

end MPQuic
