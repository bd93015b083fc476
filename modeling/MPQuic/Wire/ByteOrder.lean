import MPQuic.Lib.Bytes
import MPQuic.Protocol

/-!
# Numbers on the wire

The readers and writers of `internal/utils` that the frames of `internal/wire` are built from:
fixed-width integers in the byte order of the QUIC version, packet numbers of a chosen length,
and the 16-bit float format of delays.
-/

namespace MPQuic

open Bytes

/-- A QUIC version number. -/
abbrev VersionNumber := ℤ

/-- The first version that writes integers in big endian. -/
def version39 : VersionNumber := 39

/-- The first multipath version. -/
def versionMP : VersionNumber := 512

/-- From QUIC 39 values are encoded in big endian, before that in little endian. -/
def getByteOrder (v : VersionNumber) : Order :=
  if v < version39 then .little else .big

/-- The errors a frame parser reports. -/
inductive ParseError where
  | eof
  | unexpectedEOF
  | invalidAckRanges
  | invalidFirstAckRange
  | dataLenTooLarge
  | dataOverflowsMaximumOffset
  | emptyStreamFrameNoFin
  | invalidLeastUnackedDelta
  /-- A slice index out of range. -/
  | indexOutOfRange
  deriving DecidableEq

/-- The errors a frame writer reports, and the conditions on which it panics. -/
inductive WriteError where
  | inconsistentAckLargestAcked
  | inconsistentAckLowestAcked
  | inconsistentNumberOfAckRanges
  | tooManyAckRanges
  | emptyFrameWithoutFin
  | packetNumberNotSet
  | packetNumberLenNotSet
  | leastUnackedHigherThanPacketNumber
  | reasonPhraseTooLong
  | inconsistentAddrIPVersion
  | unknownIPVersion
  | pathsNumber
  | missingRTT
  /-- A value that does not fit into the integer it is written as. -/
  | doesNotFit
  deriving DecidableEq

/-- A reader of the bytes of a packet. -/
abbrev FrameReader := Reader ParseError

/-- Read a byte. -/
def readByte : FrameReader UInt8 := Bytes.readByte .eof

theorem readByte_cons (b : UInt8) (bs : List UInt8) : readByte (b :: bs) = .ok (b, bs) := rfl

/-- Read an integer of `length` bytes. -/
def readUintN (o : Order) (length : ℕ) : FrameReader ℕ := readNat .eof o length

theorem readUintN_toBytes {o : Order} {w n : ℕ} (h : n < 256 ^ w) (rest : List UInt8) :
    readUintN o w (toBytes o w n ++ rest) = .ok (n, rest) :=
  readNat_toBytes _ h rest

/-- The length of a packet number in bytes. -/
inductive PacketNumberLen where
  | invalid
  | len1
  | len2
  | len4
  | len6
  deriving DecidableEq

/-- The number of bytes. -/
def PacketNumberLen.toNat : PacketNumberLen → ℕ
  | invalid => 0
  | len1 => 1
  | len2 => 2
  | len4 => 4
  | len6 => 6

theorem PacketNumberLen.toNat_le (len : PacketNumberLen) : len.toNat ≤ 6 := by
  cases len <;> decide

/-- The minimum length needed to fully represent the packet number. -/
def getPacketNumberLength (packetNumber : ℕ) : PacketNumberLen :=
  if packetNumber < 2 ^ 8 then .len1
  else if packetNumber < 2 ^ 16 then .len2
  else if packetNumber < 2 ^ 32 then .len4
  else .len6

/-- A packet number below `2 ^ 48` fits into the length chosen for it. -/
theorem lt_getPacketNumberLength {n : ℕ} (h : n < 2 ^ 48) :
    n < 256 ^ (getPacketNumberLength n).toNat := by
  unfold getPacketNumberLength
  split_ifs <;> simp only [PacketNumberLen.toNat] <;> norm_num <;> omega

/-! ## The 16-bit float format -/

/-- The number of mantissa bits. -/
def uFloat16MantissaBits : ℕ := 11

/-- The number of mantissa bits with the hidden one. -/
def uFloat16MantissaEffectiveBits : ℕ := uFloat16MantissaBits + 1

/-- The largest exponent. -/
def uFloat16MaxExponent : ℕ := 30

/-- The largest representable value. -/
def uFloat16MaxValue : ℕ := (2 ^ uFloat16MantissaEffectiveBits - 1) * 2 ^ uFloat16MaxExponent

/-- Shift `value` right until its highest bit is in position 11, counting the shifts: the binary
search over the offsets 16, 8, 4, 2 and 1. -/
def normalizeUfloat16 : List ℕ → ℕ → ℕ → ℕ × ℕ
  | [], value, exponent => (value, exponent)
  | offset :: offsets, value, exponent =>
    if 2 ^ (uFloat16MantissaBits + offset) ≤ value then
      normalizeUfloat16 offsets (value / 2 ^ offset) (exponent + offset)
    else
      normalizeUfloat16 offsets value exponent

/-- The 16-bit pattern of a value. -/
def encodeUfloat16 (value : ℕ) : ℕ :=
  if value < 2 ^ uFloat16MantissaEffectiveBits then value
  else if uFloat16MaxValue ≤ value then 2 ^ 16 - 1
  else
    let (value, exponent) := normalizeUfloat16 [16, 8, 4, 2, 1] value 0
    (value % 2 ^ 16 + exponent * 2 ^ uFloat16MantissaBits) % 2 ^ 16

/-- The value of a 16-bit pattern. -/
def decodeUfloat16 (pattern : ℕ) : ℕ :=
  if pattern < 2 ^ uFloat16MantissaEffectiveBits then pattern
  else
    let exponent := pattern / 2 ^ uFloat16MantissaBits - 1
    (pattern - exponent * 2 ^ uFloat16MantissaBits) * 2 ^ exponent

/-- Write a value in the 16-bit float format. -/
def writeUfloat16 (o : Order) (value : ℕ) : List UInt8 := toBytes o 2 (encodeUfloat16 value)

/-- Read a value in the 16-bit float format. -/
def readUfloat16 (o : Order) : FrameReader ℕ := do
  let pattern ← readUintN o 2
  return decodeUfloat16 pattern

/-- The value that is read back for a value that is written. -/
def roundUfloat16 (value : ℕ) : ℕ := decodeUfloat16 (encodeUfloat16 value)

theorem encodeUfloat16_lt (value : ℕ) : encodeUfloat16 value < 256 ^ 2 := by
  unfold encodeUfloat16 uFloat16MantissaEffectiveBits uFloat16MantissaBits
  split_ifs
  · omega
  · norm_num
  · exact Nat.mod_lt _ (by norm_num)

/-- The reader takes back a written float, whatever follows. -/
theorem readUfloat16_write (o : Order) (value : ℕ) (rest : List UInt8) :
    readUfloat16 o (writeUfloat16 o value ++ rest) = .ok (roundUfloat16 value, rest) := by
  exact Reader.bind_ok (readUintN_toBytes (encodeUfloat16_lt value) rest)

end MPQuic
