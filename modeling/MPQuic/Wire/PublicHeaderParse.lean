import MPQuic.Wire.PublicHeader

/-!
# Parsing the public header

`ParsePublicHeader` of `internal/wire/public_header.go`. Who has sent a packet decides what its
flags mean: only a server sends a diversification nonce, and the version flag stands for one
version number in a packet of a client, but for a list of versions up to the end of the packet in
one of a server. A reset or a version flag makes the nonce flag void.

* `versionTagToNumber_toTag_of_isWire`: a version below 1000 is read back from its tag.
* `parse_write`: a header that keeps to these rules (`Regular`) is read back as it was written.
-/

namespace MPQuic

open Bytes
open Reader (failIf optional bind_ok)

/-- The version of a session whose version is not known yet. -/
def versionUnknown : VersionNumber := -2

/-- The versions that the server supports. -/
def supportedVersions : List VersionNumber := [versionMP, version39, 38, 37]

/-- The version number of a tag. The digits are computed in `uint32`. -/
def versionTagToNumber (v : ℕ) : VersionNumber :=
  (uint32Sub (v / 2 ^ 8 % 256) 0x30 * 100 + uint32Sub (v / 2 ^ 16 % 256) 0x30 * 10 +
    uint32Sub (v / 2 ^ 24 % 256) 0x30) % uint32Size

/-- A version that fits into the three digits of a tag. -/
def IsWireVersion (v : VersionNumber) : Prop := 0 ≤ v ∧ v < 1000

instance (v : VersionNumber) : Decidable (IsWireVersion v) := inferInstanceAs (Decidable (_ ∧ _))

/-- All versions of this implementation fit. -/
theorem isWireVersion_of_supported {v : VersionNumber} (h : v ∈ supportedVersions) :
    IsWireVersion v := by
  revert v
  decide

/-- Three digits are read back from a tag. -/
theorem versionTagToNumber_digits {a b c : ℕ} (ha : a < 10) (hb : b < 10) (hc : c < 10) :
    versionTagToNumber (0x51 + (a + 0x30) * 2 ^ 8 + (b + 0x30) * 2 ^ 16 + (c + 0x30) * 2 ^ 24) =
      (100 * a + 10 * b + c : ℕ) := by
  have hdigit : ∀ d < 10, uint32Sub (d + 0x30) 0x30 = d := by decide
  have h₂ : (0x51 + (a + 0x30) * 2 ^ 8 + (b + 0x30) * 2 ^ 16 + (c + 0x30) * 2 ^ 24) / 2 ^ 8 % 256 =
      a + 0x30 := by omega
  have h₁ : (0x51 + (a + 0x30) * 2 ^ 8 + (b + 0x30) * 2 ^ 16 + (c + 0x30) * 2 ^ 24) / 2 ^ 16 % 256 =
      b + 0x30 := by omega
  have h₀ : (0x51 + (a + 0x30) * 2 ^ 8 + (b + 0x30) * 2 ^ 16 + (c + 0x30) * 2 ^ 24) / 2 ^ 24 % 256 =
      c + 0x30 := by omega
  rw [versionTagToNumber, h₂, h₁, h₀, hdigit a ha, hdigit b hb, hdigit c hc, uint32Size]
  change ((a : ℤ) * 100 + b * 10 + c) % (2 ^ 32 : ℕ) = (100 * a + 10 * b + c : ℕ)
  omega

/-- A version below 1000 is read back from its tag. -/
theorem versionTagToNumber_toTag_of_isWire {v : VersionNumber} (h : IsWireVersion v) :
    versionTagToNumber (versionNumberToTag v) = v := by
  obtain ⟨n, rfl⟩ := Int.eq_ofNat_of_zero_le h.1
  have hn : n < 1000 := by exact_mod_cast h.2
  have htoNat : ((n : ℤ) % (2 ^ 32 : ℕ)).toNat = n := by omega
  have hdigits := versionTagToNumber_digits (Nat.mod_lt (n / 100) (by decide : 0 < 10))
    (Nat.mod_lt (n / 10) (by decide)) (Nat.mod_lt n (by decide))
  rw [versionNumberToTag, htoNat]
  exact hdigits.trans (congrArg Nat.cast (by omega))

theorem versionNumberToTag_lt (v : VersionNumber) : versionNumberToTag v < 256 ^ 4 := by
  unfold versionNumberToTag
  dsimp only
  omega

/-- The errors of the parser. -/
inductive HeaderParseError where
  | eof
  | unexpectedEOF
  /-- "Received a packet without version number, that we don't know the version for" -/
  | packetWithUnknownVersion
  /-- "receiving packets with truncated ConnectionID is not supported" -/
  | receivedTruncatedConnectionID
  /-- "connection ID cannot be 0" -/
  | invalidConnectionID
  | invalidVersionNegotiationPacket
  deriving DecidableEq

/-- A reader of the bytes of a public header. -/
abbrev HeaderReader := Reader HeaderParseError

namespace Wire

/-- The public header of a received packet. -/
structure ParsedPublicHeader extends PublicHeader where
  /-- The version numbers sent by the server. -/
  supportedVersions : List VersionNumber

namespace PublicHeader

/-- The length of the packet number, from the flag byte. -/
def packetNumberLenOfFlags (publicFlagByte : UInt8) : PacketNumberLen :=
  if publicFlagByte &&& 0x30 = 0x30 then .len6
  else if publicFlagByte &&& 0x30 = 0x20 then .len4
  else if publicFlagByte &&& 0x30 = 0x10 then .len2
  else .len1

/-- A header with the flags of the first byte, and nothing else. -/
def ofFlags (publicFlagByte : UInt8) (packetSentBy : Perspective) : PublicHeader :=
  let h : PublicHeader :=
    { connectionID := 0
      pathID := 0
      versionFlag := 0 < publicFlagByte &&& 0x01
      resetFlag := 0 < publicFlagByte &&& 0x02
      truncateConnectionID := publicFlagByte &&& 0x08 == 0
      multipathFlag := 0 < publicFlagByte &&& 0x40
      packetNumberLen := .invalid
      packetNumber := 0
      versionNumber := 0
      diversificationNonce := [] }
  if h.hasPacketNumber packetSentBy then
    { h with packetNumberLen := packetNumberLenOfFlags publicFlagByte }
  else h

/-- Read a connection ID, always in little endian. -/
def readConnectionID : HeaderReader ℕ := do
  let connectionID ← readNat .eof .little 8
  failIf (connectionID = 0) .invalidConnectionID
  return connectionID

/-- Read the 32 bytes of a diversification nonce. -/
def readDiversificationNonce : HeaderReader (List UInt8) := readFull .eof .unexpectedEOF 32

/-- The version numbers up to the end of the packet. -/
def versionNumbers : List UInt8 → List VersionNumber
  | b₀ :: b₁ :: b₂ :: b₃ :: bs =>
    versionTagToNumber (ofBytes .little [b₀, b₁, b₂, b₃]) :: versionNumbers bs
  | _ => []

/-- Read the version numbers of a version negotiation packet, which has no packet number. -/
def parseSupportedVersions (h : PublicHeader) : HeaderReader ParsedPublicHeader := fun bs =>
  if bs.length % 4 ≠ 0 then .error .invalidVersionNegotiationPacket
  else .ok ({ h with supportedVersions := versionNumbers bs }, [])

/-- Read the version number of a client. -/
def readVersionNumber : HeaderReader VersionNumber := do
  let versionTag ← readNat .eof .little 4
  return versionTagToNumber versionTag

/-- Read what follows the connection ID and the nonce in a regular packet. -/
def parseNumbers (h : PublicHeader) (packetSentBy : Perspective) (version : VersionNumber) :
    HeaderReader ParsedPublicHeader := do
  let hasVersion := !h.resetFlag && h.versionFlag
  let versionNumber ← optional hasVersion readVersionNumber 0
  -- the version of the packet, if it has one, is that of its packet number
  let version := if hasVersion then versionNumber else version
  let pathID ← optional h.multipathFlag (Bytes.readByte .eof) 0
  let packetNumber ← optional (h.hasPacketNumber packetSentBy)
    (readNat .eof (getByteOrder version) h.packetNumberLen.toNat) 0
  return { h with versionNumber, pathID, packetNumber, supportedVersions := [] }

/-- Parse the public header of a packet that was sent by the given side. -/
def parse (packetSentBy : Perspective) (version : VersionNumber) :
    HeaderReader ParsedPublicHeader := do
  let publicFlagByte ← Bytes.readByte .eof
  let h := ofFlags publicFlagByte packetSentBy
  failIf (version = versionUnknown ∧ ¬ (h.versionFlag || h.resetFlag))
    .packetWithUnknownVersion
  failIf (h.truncateConnectionID ∧ packetSentBy = .client) .receivedTruncatedConnectionID
  let connectionID ← optional (!h.truncateConnectionID) readConnectionID 0
  -- the nonce flag says nothing if the version flag or the reset flag is set
  let diversificationNonce ← optional
    (packetSentBy == .server && decide (0 < publicFlagByte &&& 0x04) &&
      (!h.versionFlag && !h.resetFlag)) readDiversificationNonce []
  let h := { h with connectionID, diversificationNonce }
  if !h.resetFlag && h.versionFlag && packetSentBy == .server then parseSupportedVersions h
  else parseNumbers h packetSentBy version

/-! ## Round trip -/

/-- The first byte of a packet with a packet number, from its flags. -/
def flagByte (versionFlag resetFlag truncateConnectionID hasNonce multipathFlag : Bool)
    (packetNumberLen : PacketNumberLen) : UInt8 :=
  (if versionFlag then 0x01 else 0) ||| (if resetFlag then 0x02 else 0) |||
    (if !truncateConnectionID then 0x08 else 0) ||| (if hasNonce then 0x04 else 0) |||
    packetNumberLenBits packetNumberLen ||| (if multipathFlag then 0x40 else 0)

theorem setFlag_eq (c : Prop) [Decidable c] (b flag : UInt8) :
    (if c then b ||| flag else b) = b ||| if c then flag else 0 := by
  split_ifs
  · rfl
  · exact UInt8.or_zero.symm

theorem publicFlagByte_eq {h : PublicHeader} {pers : Perspective}
    (hnumber : h.hasPacketNumber pers = true) :
    h.publicFlagByte pers = flagByte h.versionFlag h.resetFlag h.truncateConnectionID
      (decide (0 < h.diversificationNonce.length)) h.multipathFlag h.packetNumberLen := by
  unfold publicFlagByte flagByte
  simp only [setFlag_eq, if_pos hnumber, decide_eq_true_eq, UInt8.zero_or]

/-- The flag byte tells all flags and the length of the packet number. -/
theorem flagByte_spec : ∀ versionFlag resetFlag truncateConnectionID hasNonce multipathFlag,
    ∀ len ∈ [PacketNumberLen.len1, .len2, .len4, .len6],
    let b := flagByte versionFlag resetFlag truncateConnectionID hasNonce multipathFlag len
    decide (0 < b &&& 0x01) = versionFlag ∧ decide (0 < b &&& 0x02) = resetFlag ∧
      (b &&& 0x08 == 0) = truncateConnectionID ∧ decide (0 < b &&& 0x04) = hasNonce ∧
      decide (0 < b &&& 0x40) = multipathFlag ∧ packetNumberLenOfFlags b = len := by
  decide

/-- The header of a regular packet of the given side: what the receiver relies on to tell the
optional fields apart. -/
structure Regular (h : PublicHeader) (version : VersionNumber) (pers : Perspective) : Prop where
  resetFlag_eq : h.resetFlag = false
  /-- Only clients tell their version. -/
  client_of_versionFlag : h.versionFlag = true → pers = .client
  versionNumber_eq : h.versionNumber = if h.versionFlag then version else 0
  wire : IsWireVersion version
  /-- Only servers truncate the connection ID. -/
  server_of_truncate : h.truncateConnectionID = true → pers = .server
  connectionID_pos : 0 < h.connectionID
  connectionID_lt : h.connectionID < uint64Size
  /-- Only servers send a nonce. -/
  nonce : h.diversificationNonce = [] ∨ h.diversificationNonce.length = 32 ∧ pers = .server
  packetNumberLen_ne : h.packetNumberLen ≠ .invalid
  pathID_eq : h.multipathFlag = false → h.pathID = 0

/-- What the receiver gets of a header: a truncated connection ID is missing, and only the low bytes
of the packet number are sent. -/
def received (h : PublicHeader) : PublicHeader :=
  { h with
    connectionID := if h.truncateConnectionID then 0 else h.connectionID
    packetNumber := h.packetNumber % 2 ^ (8 * h.packetNumberLen.toNat) }

namespace Regular

variable {h : PublicHeader} {version : VersionNumber} {pers : Perspective}

section

variable (hr : h.Regular version pers)
include hr

theorem hasPacketNumber_eq : h.hasPacketNumber pers = true := by
  unfold hasPacketNumber
  rw [hr.resetFlag_eq]
  cases hv : h.versionFlag with
  | false => rfl
  | true =>
    rw [hr.client_of_versionFlag hv]
    rfl

theorem versionFlag_client :
    (h.versionFlag && pers == .client) = h.versionFlag := by
  cases hv : h.versionFlag with
  | false => rfl
  | true =>
    rw [hr.client_of_versionFlag hv]
    rfl

theorem versionFlag_server :
    (h.versionFlag && pers == .server) = false := by
  cases hv : h.versionFlag with
  | false => rfl
  | true =>
    rw [hr.client_of_versionFlag hv]
    rfl

theorem write_eq :
    h.write version pers = .ok (h.fields pers ++
      toBytes (getByteOrder version) h.packetNumberLen.toNat h.packetNumber) := by
  have hnonce : ¬ (0 < h.diversificationNonce.length ∧ h.diversificationNonce.length ≠ 32) := by
    rcases hr.nonce with hnil | ⟨h32, -⟩
    · rw [hnil]
      decide
    · omega
  rw [write, hr.resetFlag_eq, Bool.and_false, if_neg (by decide), if_neg hnonce,
    hr.hasPacketNumber_eq, if_neg (by decide), if_neg hr.packetNumberLen_ne]

theorem getLength_eq : ∃ n, h.getLength pers = .ok n := by
  rw [getLength, hr.resetFlag_eq, Bool.and_false, if_neg (by decide), hr.versionFlag_server,
    if_neg (by decide), hr.hasPacketNumber_eq, if_neg (by simpa using hr.packetNumberLen_ne)]
  exact ⟨_, rfl⟩

/-- The flags are read back, the other fields are not there yet. -/
theorem ofFlags_eq :
    ofFlags (h.publicFlagByte pers) pers =
        { h with connectionID := 0, pathID := 0, packetNumber := 0, versionNumber := 0,
                 diversificationNonce := [] } ∧
      decide (0 < h.publicFlagByte pers &&& 0x04) = decide (0 < h.diversificationNonce.length) := by
  have hlen : h.packetNumberLen ∈ [PacketNumberLen.len1, .len2, .len4, .len6] := by
    have hne := hr.packetNumberLen_ne
    cases hlen : h.packetNumberLen with
    | invalid => exact absurd hlen hne
    | len1 | len2 | len4 | len6 => decide
  obtain ⟨hversion, hreset, htruncate, hnonce, hmultipath, hlenOf⟩ :=
    flagByte_spec h.versionFlag h.resetFlag h.truncateConnectionID
      (decide (0 < h.diversificationNonce.length)) h.multipathFlag h.packetNumberLen hlen
  rw [← publicFlagByte_eq hr.hasPacketNumber_eq] at *
  refine ⟨?_, hnonce⟩
  unfold ofFlags
  rw [hversion, hreset, htruncate, hmultipath, hlenOf, if_pos]
  exact hr.hasPacketNumber_eq

/-- The connection ID is read unless it was truncated. -/
theorem read_connectionID (rest : List UInt8) :
    optional (!h.truncateConnectionID) readConnectionID 0
        ((if !h.truncateConnectionID then toBytes .little 8 h.connectionID else []) ++ rest) =
      .ok (if !h.truncateConnectionID then h.connectionID else 0, rest) := by
  refine Reader.optional_append (fun _ rest => ?_) rest
  refine (bind_ok (readNat_toBytes _ ?_ rest)).trans ?_
  · exact hr.connectionID_lt
  · exact bind_ok (Reader.failIf_false hr.connectionID_pos.ne' _ _)

/-- The version, which only a client writes, stands before the nonce, which only a server does. The
parser reads them the other way round. -/
theorem read_nonce (versionBytes rest : List UInt8) :
    optional (pers == .server && decide (0 < h.diversificationNonce.length) &&
          (!h.versionFlag && !h.resetFlag)) readDiversificationNonce []
        ((if h.versionFlag then versionBytes else []) ++ (h.diversificationNonce ++ rest)) =
      .ok (h.diversificationNonce, (if h.versionFlag then versionBytes else []) ++ rest) := by
  rcases hr.nonce with hnil | ⟨h32, rfl⟩
  · rw [hnil, List.length_nil]
    simp
  · have hversion : h.versionFlag = false := by
      by_contra hv
      cases hr.client_of_versionFlag (by simpa using hv)
    rw [hversion, hr.resetFlag_eq, h32]
    exact readFull_append _ _ h32 rest

theorem read_versionNumber (rest : List UInt8) :
    optional (!h.resetFlag && h.versionFlag) readVersionNumber 0
        ((if h.versionFlag then toBytes .little 4 (versionNumberToTag h.versionNumber) else []) ++
          rest) = .ok (h.versionNumber, rest) := by
  have hnumber : h.versionNumber = if h.versionFlag then version else 0 := hr.versionNumber_eq
  rw [hr.resetFlag_eq, Bool.not_false, Bool.true_and]
  refine (Reader.optional_append (a := version) (fun hv rest => ?_) rest).trans ?_
  · rw [hnumber, if_pos hv]
    refine (bind_ok (readNat_toBytes _ (versionNumberToTag_lt _) rest)).trans ?_
    rw [versionTagToNumber_toTag_of_isWire hr.wire]
    rfl
  · rw [hnumber]

theorem parseNumbers_eq {connectionID : ℕ}
    (hconnectionID : connectionID = h.received.connectionID) (payload : List UInt8) :
    parseNumbers { h with connectionID, pathID := 0, packetNumber := 0, versionNumber := 0 } pers
        version
        ((if h.versionFlag then toBytes .little 4 (versionNumberToTag h.versionNumber) else []) ++
          ((if h.multipathFlag then [h.pathID] else []) ++
            (toBytes (getByteOrder version) h.packetNumberLen.toNat h.packetNumber ++ payload))) =
      .ok ({ h.received with supportedVersions := [] }, payload) := by
  have hversion : (if !h.resetFlag && h.versionFlag then h.versionNumber else version) =
      version := by
    rw [hr.versionNumber_eq]
    split_ifs with h₁ h₂
    · rfl
    · exact absurd (Bool.and_eq_true_iff.mp h₁).2 h₂
    · rfl
  have hpath : (if h.multipathFlag then h.pathID else 0) = h.pathID := by
    split_ifs with hm
    · rfl
    · exact (hr.pathID_eq (by simpa using hm)).symm
  refine (bind_ok (hr.read_versionNumber _)).trans ?_
  dsimp only
  refine (bind_ok (Reader.optional_append
    (fun _ rest => Bytes.readByte_cons _ h.pathID rest) _)).trans ?_
  rw [hversion, hpath]
  have hnumber : optional (h.hasPacketNumber pers)
      (readNat HeaderParseError.eof (getByteOrder version) h.packetNumberLen.toNat) 0
      (toBytes (getByteOrder version) h.packetNumberLen.toNat h.packetNumber ++ payload) =
        .ok (h.packetNumber % 2 ^ (8 * h.packetNumberLen.toNat), payload) := by
    rw [hr.hasPacketNumber_eq, Reader.optional_true, readNat_toBytes_mod, Nat.pow_mul]
  refine (bind_ok hnumber).trans ?_
  rw [hconnectionID]
  rfl

end

end Regular

/-- A regular header takes as many bytes as it says, and the other side reads it back from them,
whatever follows. -/
theorem parse_write (h : PublicHeader) (version : VersionNumber) (pers : Perspective)
    (hr : h.Regular version pers) : ∃ bytes,
      h.write version pers = .ok bytes ∧ h.getLength pers = .ok bytes.length ∧
      ∀ payload, parse pers version (bytes ++ payload) =
        .ok ({ h.received with supportedVersions := [] }, payload) := by
  obtain ⟨n, hn⟩ := hr.getLength_eq
  have hlength := length_write hr.write_eq hn
  refine ⟨_, hr.write_eq, hlength ▸ hn, fun payload => ?_⟩
  obtain ⟨hflags, hnonce⟩ := hr.ofFlags_eq
  rw [fields, hr.versionFlag_client]
  simp only [List.cons_append, List.append_assoc]
  refine (bind_ok (Bytes.readByte_cons _ _ _)).trans ?_
  rw [hflags, hnonce]
  refine (bind_ok (Reader.failIf_false ?_ _ _)).trans ?_
  · rintro ⟨rfl, -⟩
    exact absurd hr.wire (by decide)
  refine (bind_ok (Reader.failIf_false ?_ _ _)).trans ?_
  · rintro ⟨htruncate, hclient⟩
    exact absurd ((hr.server_of_truncate htruncate).symm.trans hclient) (by decide)
  refine (bind_ok (hr.read_connectionID _)).trans ?_
  refine (bind_ok (hr.read_nonce _ _)).trans ?_
  dsimp only
  rw [if_neg]
  · refine hr.parseNumbers_eq ?_ payload
    unfold received
    cases h.truncateConnectionID <;> rfl
  · rw [Bool.and_assoc, hr.versionFlag_server, Bool.and_false]
    exact Bool.false_ne_true

end PublicHeader

end Wire

end MPQuic
