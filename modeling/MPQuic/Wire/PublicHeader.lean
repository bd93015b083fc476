import MPQuic.Wire.ByteOrder

/-!
# The public header

`internal/wire/public_header.go`: the bytes before the encrypted payload of a packet. Which of the
optional fields are there is told by the flags in the first byte.

`length_write`: `GetLength` is the number of bytes that `Write` appends.
-/

namespace MPQuic

open Bytes

/-- The errors about a public header. -/
inductive HeaderError where
  /-- "Reset Flag and Version Flag should not be set at the same time" -/
  | resetAndVersionFlagSet
  /-- "GetLength cannot be called for VersionNegotiation packets" -/
  | getLengthNotForVersionNegotiation
  /-- "PacketNumberLen not set" -/
  | packetNumberLenNotSet
  /-- "invalid diversification nonce length" -/
  | invalidDiversificationNonceLength
  deriving DecidableEq

/-- The tag of a version number: 'Q' and three decimal digits. -/
def versionNumberToTag (vn : VersionNumber) : ℕ :=
  let v := (vn % (2 ^ 32 : ℕ)).toNat
  0x51 + (v / 100 % 10 + 0x30) * 2 ^ 8 + (v / 10 % 10 + 0x30) * 2 ^ 16 +
    (v % 10 + 0x30) * 2 ^ 24

namespace Wire

/-- The public header of a packet, as it is written. -/
structure PublicHeader where
  connectionID : ℕ
  pathID : PathID
  versionFlag : Bool
  resetFlag : Bool
  truncateConnectionID : Bool
  multipathFlag : Bool
  packetNumberLen : PacketNumberLen
  packetNumber : ℕ
  /-- The version number sent by the client. -/
  versionNumber : VersionNumber
  diversificationNonce : List UInt8

namespace PublicHeader

/-- Whether the header contains a packet number. -/
def hasPacketNumber (h : PublicHeader) (packetSentBy : Perspective) : Bool :=
  if h.resetFlag then false
  else if h.versionFlag && packetSentBy == .server then false
  else true

/-- The bits of the flag byte for the length of the packet number. -/
def packetNumberLenBits : PacketNumberLen → UInt8
  | .len1 => 0x00
  | .len2 => 0x10
  | .len4 => 0x20
  | .len6 => 0x30
  | .invalid => 0x00

/-- The first byte. -/
def publicFlagByte (h : PublicHeader) (pers : Perspective) : UInt8 :=
  let b : UInt8 := 0x00
  let b := if h.versionFlag then b ||| 0x01 else b
  let b := if h.resetFlag then b ||| 0x02 else b
  let b := if !h.truncateConnectionID then b ||| 0x08 else b
  let b := if 0 < h.diversificationNonce.length then b ||| 0x04 else b
  -- only set these bits if a packet number will be written
  let b := if h.hasPacketNumber pers then b ||| packetNumberLenBits h.packetNumberLen else b
  if h.multipathFlag then b ||| 0x40 else b

/-- The bytes before the packet number. -/
def fields (h : PublicHeader) (pers : Perspective) : List UInt8 :=
  h.publicFlagByte pers ::
    ((if !h.truncateConnectionID then toBytes .little 8 h.connectionID else []) ++
    ((if h.versionFlag && pers == .client then
      toBytes .little 4 (versionNumberToTag h.versionNumber) else []) ++
    (h.diversificationNonce ++ (if h.multipathFlag then [h.pathID] else []))))

/-- Write a public header. -/
def write (h : PublicHeader) (version : VersionNumber) (pers : Perspective) :
    Except HeaderError (List UInt8) :=
  if h.versionFlag && h.resetFlag then .error .resetAndVersionFlagSet
  else if 0 < h.diversificationNonce.length ∧ h.diversificationNonce.length ≠ 32 then
    .error .invalidDiversificationNonceLength
  -- a server that sets the version flag must not include anything else in the packet
  else if !h.hasPacketNumber pers then .ok (h.fields pers)
  else if h.packetNumberLen = .invalid then .error .packetNumberLenNotSet
  else .ok (h.fields pers ++
    toBytes (getByteOrder version) h.packetNumberLen.toNat h.packetNumber)

/-- The length of the header of a regular packet in bytes. -/
def getLength (h : PublicHeader) (pers : Perspective) : Except HeaderError ℕ :=
  if h.versionFlag && h.resetFlag then .error .resetAndVersionFlagSet
  else if h.versionFlag && pers == .server then .error .getLengthNotForVersionNegotiation
  else if h.hasPacketNumber pers && h.packetNumberLen == .invalid then
    .error .packetNumberLenNotSet
  else
    .ok (1 + (if h.hasPacketNumber pers then h.packetNumberLen.toNat else 0) +
      (if !h.truncateConnectionID then 8 else 0) + (if h.versionFlag then 4 else 0) +
      h.diversificationNonce.length + (if h.multipathFlag then 1 else 0))

variable {h : PublicHeader} {version : VersionNumber} {pers : Perspective}

theorem length_fields (h : PublicHeader) (pers : Perspective) :
    (h.fields pers).length = 1 + (if !h.truncateConnectionID then 8 else 0) +
      (if h.versionFlag && pers == .client then 4 else 0) + h.diversificationNonce.length +
      (if h.multipathFlag then 1 else 0) := by
  unfold fields
  rw [List.length_cons, List.length_append, List.length_append, List.length_append]
  rw [apply_ite List.length, apply_ite List.length, apply_ite List.length]
  simp only [length_toBytes, List.length_nil, List.length_singleton]
  omega

theorem write_ok {bytes : List UInt8} (hwrite : h.write version pers = .ok bytes) :
    bytes = h.fields pers ++ if h.hasPacketNumber pers then
      toBytes (getByteOrder version) h.packetNumberLen.toNat h.packetNumber else [] := by
  unfold write at hwrite
  split_ifs at hwrite with hflags hnonce hnumber hlen
  · obtain rfl := Except.ok.inj hwrite
    rw [if_neg (by simpa using hnumber), List.append_nil]
  · obtain rfl := Except.ok.inj hwrite
    rw [if_pos (by simpa using hnumber)]

theorem getLength_ok {n : ℕ} (hlength : h.getLength pers = .ok n) :
    (h.versionFlag && pers == .client) = h.versionFlag ∧
      n = 1 + (if h.hasPacketNumber pers then h.packetNumberLen.toNat else 0) +
        (if !h.truncateConnectionID then 8 else 0) + (if h.versionFlag then 4 else 0) +
        h.diversificationNonce.length + (if h.multipathFlag then 1 else 0) := by
  unfold getLength at hlength
  by_cases hflags : (h.versionFlag && h.resetFlag) = true
  · rw [if_pos hflags] at hlength
    cases hlength
  rw [if_neg hflags] at hlength
  by_cases hserver : (h.versionFlag && pers == .server) = true
  · rw [if_pos hserver] at hlength
    cases hlength
  rw [if_neg hserver] at hlength
  by_cases hlen : (h.hasPacketNumber pers && h.packetNumberLen == .invalid) = true
  · rw [if_pos hlen] at hlength
    cases hlength
  rw [if_neg hlen] at hlength
  refine ⟨?_, (Except.ok.inj hlength).symm⟩
  cases pers with
  | client => exact Bool.and_true _
  | server => simpa using hserver

/-- The length of a header is the number of bytes that are written. -/
theorem length_write {bytes : List UInt8} {n : ℕ} (hwrite : h.write version pers = .ok bytes)
    (hlength : h.getLength pers = .ok n) : bytes.length = n := by
  obtain ⟨hversion, rfl⟩ := getLength_ok hlength
  rw [write_ok hwrite, List.length_append, length_fields, hversion, apply_ite List.length,
    length_toBytes, List.length_nil]
  omega

/-- A header with neither a version nor a nonce can be written in at most 16 bytes. -/
theorem plain_ok (version : VersionNumber) (pers : Perspective) (hversion : h.versionFlag = false)
    (hreset : h.resetFlag = false) (hnonce : h.diversificationNonce = [])
    (hlen : h.packetNumberLen ≠ .invalid) :
    (∃ n ≤ 16, h.getLength pers = .ok n) ∧ ∃ bytes, h.write version pers = .ok bytes := by
  have hnumber : h.hasPacketNumber pers = true := by
    simp [hasPacketNumber, hversion, hreset]
  constructor
  · have hle := h.packetNumberLen.toNat_le
    refine ⟨1 + h.packetNumberLen.toNat + (if !h.truncateConnectionID then 8 else 0) +
      (if h.multipathFlag then 1 else 0), ?_, ?_⟩
    · split_ifs <;> omega
    · simp [getLength, hversion, hreset, hnonce, hlen, hnumber]
  · rw [write, hversion, hnonce, hnumber, if_neg (by simp), if_neg (by simp), if_neg (by simp),
      if_neg hlen]
    exact ⟨_, rfl⟩

end PublicHeader

end Wire

end MPQuic
