import MPQuic.Wire.AckFrame
import MPQuic.Wire.StreamFrame

/-!
# Frames

The remaining frames of `internal/wire`, and the type of all frames that a packet can carry.

A STREAM frame is shared between packets: the source passes `*wire.StreamFrame` pointers around
and changes the frame they point to after it was sent. A `Frame` therefore holds a reference to a
STREAM frame, and a `FrameStore` gives the frame that each reference points to. The other frames
are not changed after they were written, so a `Frame` holds their value.
-/

namespace MPQuic

open Bytes

/-- A STOP_WAITING frame. -/
structure StopWaitingFrame where
  leastUnacked : ℕ
  packetNumberLen : PacketNumberLen
  /-- The packet number of the packet that this frame will be sent with. -/
  packetNumber : ℕ
  deriving DecidableEq

namespace StopWaitingFrame

/-- Write a STOP_WAITING frame. -/
def write (f : StopWaitingFrame) (o : Order) : Except WriteError (List UInt8) :=
  if f.packetNumber = 0 then .error .packetNumberNotSet
  else if f.packetNumber < f.leastUnacked then .error .leastUnackedHigherThanPacketNumber
  else if f.packetNumberLen = .invalid then .error .packetNumberLenNotSet
  else .ok (0x06 :: toBytes o f.packetNumberLen.toNat (f.packetNumber - f.leastUnacked))

/-- The length of the written frame. -/
def minLength (f : StopWaitingFrame) : Except WriteError ℕ :=
  if f.packetNumberLen = .invalid then .error .packetNumberLenNotSet
  else .ok (1 + f.packetNumberLen.toNat)

/-- Read a STOP_WAITING frame of the packet with the given number. -/
def parse (o : Order) (packetNumber : ℕ) (packetNumberLen : PacketNumberLen) :
    FrameReader StopWaitingFrame := do
  let _ ← readByte
  let leastUnackedDelta ← readUintN o packetNumberLen.toNat
  Reader.failIf (packetNumber ≤ leastUnackedDelta) .invalidLeastUnackedDelta
  return { leastUnacked := packetNumber - leastUnackedDelta
           packetNumberLen := .invalid
           packetNumber := 0 }

/-- An accepted frame asks for a packet number between 1 and that of its own packet. -/
theorem leastUnacked_of_parse {o : Order} {n : ℕ} {len : PacketNumberLen} {bytes rest : List UInt8}
    {f : StopWaitingFrame} (h : parse o n len bytes = .ok (f, rest)) :
    0 < f.leastUnacked ∧ f.leastUnacked ≤ n := by
  obtain ⟨t, bs, -, h₁⟩ := Reader.bind_eq_ok h
  obtain ⟨delta, bs', -, h₂⟩ := Reader.bind_eq_ok h₁
  obtain ⟨u, bs'', hdelta, h₃⟩ := Reader.bind_eq_ok h₂
  obtain ⟨hlt, -⟩ := Reader.failIf_eq_ok hdelta
  obtain ⟨rfl, -⟩ := Reader.pure_eq_ok h₃
  dsimp only
  omega

/-- The receiver of the packet gets the frame back, whatever follows it. -/
def Survives (f : StopWaitingFrame) (o : Order) : Prop :=
  ∃ bytes, f.write o = .ok bytes ∧ ∀ rest, ∃ g,
    parse o f.packetNumber f.packetNumberLen (bytes ++ rest) = .ok (g, rest) ∧
      g.leastUnacked = f.leastUnacked

theorem write_of_le {f : StopWaitingFrame} {o : Order} (hpos : 0 < f.leastUnacked)
    (hle : f.leastUnacked ≤ f.packetNumber) (hlen : f.packetNumberLen ≠ .invalid) :
    f.write o =
      .ok (0x06 :: toBytes o f.packetNumberLen.toNat (f.packetNumber - f.leastUnacked)) := by
  rw [write, if_neg (by omega), if_neg (by omega), if_neg hlen]

/-- Only the low bytes of the distance to the packet number are written, so that the frame survives
if and only if the distance fits into the length of the packet number. -/
theorem survives_iff {f : StopWaitingFrame} {o : Order} (hpos : 0 < f.leastUnacked)
    (hle : f.leastUnacked ≤ f.packetNumber) (hlen : f.packetNumberLen ≠ .invalid) :
    f.Survives o ↔ f.packetNumber - f.leastUnacked < 256 ^ f.packetNumberLen.toNat := by
  have hwrite := write_of_le (o := o) hpos hle hlen
  have hdelta := Nat.mod_le (f.packetNumber - f.leastUnacked) (256 ^ f.packetNumberLen.toNat)
  have hparse : ∀ rest, parse o f.packetNumber f.packetNumberLen
      (0x06 :: toBytes o f.packetNumberLen.toNat (f.packetNumber - f.leastUnacked) ++ rest) =
        .ok ({ leastUnacked := f.packetNumber -
                 (f.packetNumber - f.leastUnacked) % 256 ^ f.packetNumberLen.toNat
               packetNumberLen := .invalid
               packetNumber := 0 }, rest) := by
    intro rest
    refine (Reader.bind_ok (readByte_cons _ _)).trans ?_
    refine (Reader.bind_ok (readNat_toBytes_mod _ _ _ _ _)).trans ?_
    exact Reader.bind_ok (Reader.failIf_false (by omega) _ _)
  constructor
  · rintro ⟨bytes, hbytes, hsame⟩
    obtain rfl := Except.ok.inj (hwrite.symm.trans hbytes)
    obtain ⟨g, hg, hleast⟩ := hsame []
    rw [hparse] at hg
    cases hg
    -- a distance that does not fit comes back smaller
    have hpow : 0 < 256 ^ f.packetNumberLen.toNat := by positivity
    have hlt := Nat.mod_lt (f.packetNumber - f.leastUnacked) hpow
    dsimp only at hleast
    omega
  · intro hlt
    refine ⟨_, hwrite, fun rest => ⟨_, hparse rest, ?_⟩⟩
    dsimp only
    rw [Nat.mod_eq_of_lt hlt]
    omega

end StopWaitingFrame

/-- A RST_STREAM frame. -/
structure RstStreamFrame where
  streamID : ℕ
  errorCode : ℕ
  byteOffset : ℕ
  deriving DecidableEq

/-- A CONNECTION_CLOSE frame. -/
structure ConnectionCloseFrame where
  errorCode : ℕ
  reasonPhrase : List UInt8
  deriving DecidableEq

/-- A GOAWAY frame. -/
structure GoawayFrame where
  errorCode : ℕ
  lastGoodStream : ℕ
  reasonPhrase : List UInt8
  deriving DecidableEq

/-- A WINDOW_UPDATE frame. -/
structure WindowUpdateFrame where
  streamID : ℕ
  byteOffset : ℕ
  deriving DecidableEq

/-- A BLOCKED frame. -/
structure BlockedFrame where
  streamID : ℕ
  deriving DecidableEq

/-- An IP address and a port. -/
structure UDPAddr where
  ip : List UInt8
  port : ℕ
  deriving DecidableEq

/-- An ADD_ADDRESS frame. -/
structure AddAddressFrame where
  ipVersion : UInt8
  addr : UDPAddr
  deriving DecidableEq

/-- A PATHS frame. -/
structure PathsFrame where
  maxNumPaths : UInt8
  numPaths : UInt8
  pathIDs : List PathID
  remoteRTTs : List ℕ
  deriving DecidableEq

namespace UDPAddr

/-- The prefix of an IPv4 address in IPv6 form. -/
def v4InV6Prefix : List UInt8 := List.replicate 10 0 ++ [0xff, 0xff]

/-- The address in 4 bytes, if it is an IPv4 address. -/
def to4 (a : UDPAddr) : Option (List UInt8) :=
  if a.ip.length = 4 then some a.ip
  else if a.ip.length = 16 ∧ a.ip.take 12 = v4InV6Prefix then some (a.ip.drop 12)
  else none

/-- The address in 16 bytes. -/
def to16 (a : UDPAddr) : Option (List UInt8) :=
  if a.ip.length = 4 then some (v4InV6Prefix ++ a.ip)
  else if a.ip.length = 16 then some a.ip
  else none

end UDPAddr

namespace AddAddressFrame

/-- Write an ADD_ADDRESS frame. -/
def write (f : AddAddressFrame) (o : Order) : Except WriteError (List UInt8) :=
  let writeIP (ip : Option (List UInt8)) : Except WriteError (List UInt8) :=
    match ip with
    | none => .error .inconsistentAddrIPVersion
    | some ip => .ok (0x10 :: f.ipVersion :: ip ++ toBytes o 2 f.addr.port)
  if f.ipVersion = 4 then writeIP f.addr.to4
  else if f.ipVersion = 6 then writeIP f.addr.to16
  else .error .unknownIPVersion

/-- The length of the written frame. -/
def minLength (f : AddAddressFrame) : Except WriteError ℕ :=
  if f.ipVersion = 4 then .ok (1 + 1 + 4 + 2)
  else if f.ipVersion = 6 then .ok (1 + 1 + 16 + 2)
  else .error .unknownIPVersion

end AddAddressFrame

namespace PathsFrame

/-- Write a PATHS frame. -/
def write (f : PathsFrame) (o : Order) : Except WriteError (List UInt8) :=
  if f.numPaths.toNat ≠ f.pathIDs.length then .error .pathsNumber
  else if f.pathIDs.length ≠ f.remoteRTTs.length then .error .missingRTT
  else .ok (0x12 :: f.maxNumPaths :: f.numPaths ::
    (f.pathIDs.zip f.remoteRTTs).flatMap fun p => p.1 :: writeUfloat16 o (p.2 / 1000))

/-- The length of the written frame. The source computes it in `uint8`. -/
def minLength (f : PathsFrame) : ℕ := (1 + 1 + 1 + 3 * f.numPaths).toNat

end PathsFrame

/-- A reference to a STREAM frame. -/
abbrev FrameRef := ℕ

/-- The STREAM frames that references point to. -/
abbrev FrameStore := FrameRef → StreamFrame

/-- A frame of a packet. -/
inductive Frame where
  | stream (ref : FrameRef)
  | ack (f : AckFrame)
  | stopWaiting (f : StopWaitingFrame)
  | rstStream (f : RstStreamFrame)
  | connectionClose (f : ConnectionCloseFrame)
  | goaway (f : GoawayFrame)
  | windowUpdate (f : WindowUpdateFrame)
  | blocked (f : BlockedFrame)
  | ping
  | addAddress (f : AddAddressFrame)
  | closePath (f : ClosePathFrame)
  | paths (f : PathsFrame)
  deriving DecidableEq

namespace Frame

/-- The length of the written frame; for a STREAM frame, that of its header. -/
def minLength (store : FrameStore) : Frame → Except WriteError ℕ
  | stream ref => .ok (store ref).minLength
  | ack f => .ok f.minLength
  | stopWaiting f => f.minLength
  | rstStream _ => .ok (1 + 4 + 8 + 4)
  | connectionClose f => .ok (1 + 4 + 2 + f.reasonPhrase.length)
  | goaway f => .ok (1 + 4 + 4 + 2 + f.reasonPhrase.length)
  | windowUpdate _ => .ok (1 + 4 + 8)
  | blocked _ => .ok (1 + 4)
  | ping => .ok 1
  | addAddress f => f.minLength
  | closePath f => .ok f.minLength
  | paths f => .ok f.minLength

/-- Write a frame at the time `now`. -/
def write (store : FrameStore) (o : Order) (now : ℕ) : Frame → Except WriteError (List UInt8)
  | stream ref => (store ref).write o
  | ack f => f.write o now
  | stopWaiting f => f.write o
  | rstStream f =>
    .ok (0x01 :: toBytes o 4 f.streamID ++ toBytes o 8 f.byteOffset ++ toBytes o 4 f.errorCode)
  | connectionClose f =>
    if 2 ^ 16 - 1 < f.reasonPhrase.length then .error .reasonPhraseTooLong
    else .ok (0x02 :: toBytes o 4 f.errorCode ++ toBytes o 2 f.reasonPhrase.length ++
      f.reasonPhrase)
  | goaway f =>
    .ok (0x03 :: toBytes o 4 f.errorCode ++ toBytes o 4 f.lastGoodStream ++
      toBytes o 2 f.reasonPhrase.length ++ f.reasonPhrase)
  | windowUpdate f => .ok (0x04 :: toBytes o 4 f.streamID ++ toBytes o 8 f.byteOffset)
  | blocked f => .ok (0x05 :: toBytes o 4 f.streamID)
  | ping => .ok [0x07]
  | addAddress f => f.write o
  | closePath f => f.write o
  | paths f => f.write o

end Frame

end MPQuic
