import MPQuic.Packer.PacketPacker

/-!
# Packets of the handshake

The part of `packet_packer.go` that sends the crypto stream. As long as the crypto stream has data,
`PackPacket` packs one STREAM frame with it and nothing else, and leaves
`NonForwardSecurePacketSizeReduction` bytes of the packet unused. `PackHandshakeRetransmission`
sends the frames of a packet that was lost before the handshake was complete once more, with a
STOP_WAITING frame in front of them.

`packPacketWithCrypto` is the whole of `PackPacket`; `packPacket` is what it does without data of
the crypto stream. A packet of the crypto stream has a sealer, an encryption level and a header of
its own, so that there are two inputs.
-/

namespace MPQuic

open Bytes

/-- The bytes by which packets of the crypto stream are smaller than others, such that they can be
retransmitted. -/
def nonForwardSecurePacketSizeReduction : ℕ := 50

namespace StreamFramer

/-- Whether the crypto stream has data for writing. -/
def hasCryptoStreamFrame (cs : SendStream) : Bool := 0 < cs.lenOfDataForWriting

/-- Make a frame of the data of the crypto stream. There is data, since the packer asks for it
first. -/
def popCryptoStreamFrame (cs : SendStream) (maxLen : ℕ) : StreamFrame × SendStream :=
  let frame : StreamFrame :=
    { streamID := 1, finBit := false, dataLenPresent := false, offset := cs.writeOffset
      data := [] }
  let frameHeaderBytes := frame.minLength
  let (data, cs) := cs.getDataForWriting (maxLen - frameHeaderBytes)
  ({ frame with data }, cs)

end StreamFramer

/-- The errors of `PackHandshakeRetransmission`. -/
inductive HandshakeRetransmissionError where
  /-- "forward-secure encrypted handshake packets don't need special treatment" -/
  | forwardSecure
  /-- "Handshake retransmissions must contain a StopWaitingFrame" -/
  | noStopWaitingFrame
  | pack (e : PackError)
  deriving DecidableEq

namespace PacketPacker

/-- Pack a packet of the crypto stream. -/
def packCryptoPacket (p : PacketPacker) (generator : PacketNumberGenerator) (i : PackInput)
    (cs : SendStream) : Except PackError (Packed × SendStream) := do
  let maxLen := maxPacketSize - AEADAESGCM12.overhead - nonForwardSecurePacketSizeReduction -
    i.header.length
  let (frame, cs) := StreamFramer.popCryptoStreamFrame cs maxLen
  let (ref, heap) := p.heap.alloc frame
  let p := { p with heap }
  let sealed := p.sealFrames generator i [.stream ref]
  let packet ← sealed.1
  return ({ packet := some packet, streams := i.visits.map (·.stream), packer := p
            generator := sealed.2 }, cs)

/-- Pack a new packet: data of the crypto stream goes first. -/
def packPacketWithCrypto (p : PacketPacker) (generator : PacketNumberGenerator)
    (i iCrypto : PackInput) (cs : SendStream) : Except PackError (Packed × SendStream) :=
  if StreamFramer.hasCryptoStreamFrame cs then p.packCryptoPacket generator iCrypto cs
  else (p.packPacket generator i).map (·, cs)

/-- Add a PING frame in front of the control frames. -/
def addPing (p : PacketPacker) : PacketPacker :=
  { p with controlFrames := .ping :: p.controlFrames }

/-- Pack a packet that only contains a PING frame, unless the crypto stream has data. -/
def packPingWithCrypto (p : PacketPacker) (generator : PacketNumberGenerator)
    (i iCrypto : PackInput) (cs : SendStream) : Except PackError (Packed × SendStream) :=
  p.addPing.packPacketWithCrypto generator i iCrypto cs

/-- Write and seal the frames of a packet that is retransmitted, with a STOP_WAITING frame in front
of them. The level is that of the packet. -/
def sealRetransmission (p : PacketPacker) (generator : PacketNumberGenerator) (i : PackInput)
    (packet : Packet) (f : StopWaitingFrame) : Except PackError Packed := do
  let swf := { f with
    packetNumber := generator.peek, packetNumberLen := i.header.packetNumberLen }
  let p := { p with stopWaiting := Function.update p.stopWaiting i.pathID none }
  let sealed := p.sealFrames generator { i with encryptionLevel := packet.encryptionLevel }
    (.stopWaiting swf :: packet.frames)
  let retransmission ← sealed.1
  return { packet := some retransmission, streams := i.visits.map (·.stream), packer := p
           generator := sealed.2 }

/-- Retransmit a packet that was sent with less than forward-secure encryption. There is a sealer of
its level, since the packet was sealed. -/
def packHandshakeRetransmission (p : PacketPacker) (generator : PacketNumberGenerator)
    (i : PackInput) (packet : Packet) : Except HandshakeRetransmissionError Packed :=
  if packet.encryptionLevel = .forwardSecure then .error .forwardSecure
  else
    match p.stopWaiting i.pathID with
    | none => .error .noStopWaitingFrame
    | some f => (p.sealRetransmission generator i packet f).mapError .pack

/-! ## What is retransmitted -/

variable {p : PacketPacker} {generator : PacketNumberGenerator} {i : PackInput} {r : Packed}
  {packet : Packet}

/-- A retransmission has all frames of the packet. -/
theorem packHandshakeRetransmission_ok
    (h : p.packHandshakeRetransmission generator i packet = .ok r) :
    ∃ swf retransmission, r.packet = some retransmission ∧
      retransmission.frames = .stopWaiting swf :: packet.frames ∧
      retransmission.length ≤ maxPacketSize ∧ r.packer.heap = p.heap ∧
      r.packer.streamFramer = p.streamFramer := by
  unfold packHandshakeRetransmission at h
  split_ifs at h
  split at h
  · cases h
  · next f _ =>
    rcases hseal : p.sealRetransmission generator i packet f with e | r'
    · rw [hseal] at h
      cases h
    · rw [hseal] at h
      obtain rfl := Except.ok.inj h
      obtain ⟨retransmission, hretransmission, h₁⟩ := bind_eq_ok hseal
      obtain ⟨-, hframes, -, -, hlength, -⟩ := sealFrames_ok hretransmission
      obtain rfl := Except.ok.inj h₁
      exact ⟨_, retransmission, rfl, hframes, hlength, rfl, rfl⟩

end PacketPacker

end MPQuic
