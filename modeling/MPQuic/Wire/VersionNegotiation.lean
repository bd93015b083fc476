import MPQuic.Wire.PublicHeaderParse

/-!
# Version negotiation packets

`internal/wire/version_negotiation.go`, with the functions of `internal/protocol/version.go` that
choose a version and `PeekConnectionID` of `internal/wire/public_header.go`. A server answers a
packet with an unknown version by the list of its versions, each as a tag of four bytes. The tag of
a version holds its three last decimal digits.

* `parse_composeVersionNegotiation`: the client reads the list of the server back.
* `mem_of_chooseSupportedVersion_ne`: a version that is chosen is one of both sides.
* `parse_eq_of_versionFlag`: a packet that tells its version is read in the same way whatever
  version the reader expects.
-/

namespace MPQuic

open Bytes
open Reader (bind_ok failIf_false)

/-- The number for a version that is not supported. -/
def versionUnsupported : VersionNumber := -1

/-- The number of a version where it doesn't matter. -/
def versionWhatever : VersionNumber := 0

/-- Whether a version is in the list. -/
def isSupportedVersion (supported : List VersionNumber) (v : VersionNumber) : Bool :=
  supported.any fun t => t == v

/-- The best version in the overlap of ours, by our preference, and theirs. -/
def chooseSupportedVersion (ours theirs : List VersionNumber) : VersionNumber :=
  (ours.find? fun ourVer => theirs.any fun theirVer => ourVer == theirVer).getD versionUnsupported

/-- The tags of the given versions. -/
def versionTags (versions : List VersionNumber) : List UInt8 :=
  versions.flatMap fun v => toBytes .little 4 (versionNumberToTag v)

@[simp]
theorem isSupportedVersion_iff {supported : List VersionNumber} {v : VersionNumber} :
    isSupportedVersion supported v = true ↔ v ∈ supported := by
  simp [isSupportedVersion]

/-! ## The choice -/

section Choice

variable {ours theirs : List VersionNumber} {v : VersionNumber}

/-- A version that was chosen is one of both sides. -/
theorem mem_of_chooseSupportedVersion_ne
    (h : chooseSupportedVersion ours theirs ≠ versionUnsupported) :
    chooseSupportedVersion ours theirs ∈ ours ∧ chooseSupportedVersion ours theirs ∈ theirs := by
  unfold chooseSupportedVersion at h ⊢
  cases hfind : ours.find? fun ourVer => theirs.any fun theirVer => ourVer == theirVer with
  | none =>
    rw [hfind] at h
    exact absurd rfl h
  | some ourVer => exact ⟨List.mem_of_find?_eq_some hfind, by simpa using List.find?_some hfind⟩

theorem chooseSupportedVersion_nil_right (ours : List VersionNumber) :
    chooseSupportedVersion ours [] = versionUnsupported := by
  have hnone : (ours.find? fun ourVer => [].any fun theirVer => ourVer == theirVer) = none :=
    List.find?_eq_none.mpr fun _ _ => Bool.false_ne_true
  rw [chooseSupportedVersion, hnone]
  rfl

end Choice

/-! ## Tags -/

/-- The number of a tag is never one of the special numbers. -/
theorem versionTagToNumber_nonneg (tag : ℕ) : 0 ≤ versionTagToNumber tag := by
  unfold versionTagToNumber
  exact Int.emod_nonneg _ (by decide)

namespace Wire.PublicHeader

theorem versionNumbers_toBytes_append {n : ℕ} (hn : n < 256 ^ 4) (rest : List UInt8) :
    versionNumbers (toBytes .little 4 n ++ rest) =
      versionTagToNumber n :: versionNumbers rest := by
  have hbytes := ofBytes_toBytes (o := .little) hn
  have hlength := length_toBytes .little 4 n
  match hlist : toBytes .little 4 n, hlength with
  | [b₀, b₁, b₂, b₃], _ =>
    rw [hlist] at hbytes
    simp only [List.cons_append, List.nil_append, versionNumbers, hbytes]

theorem versionNumbers_versionTags (versions : List VersionNumber) :
    versionNumbers (versionTags versions) =
      versions.map fun v => versionTagToNumber (versionNumberToTag v) := by
  induction versions with
  | nil => rfl
  | cons v versions ih =>
    rw [versionTags, List.flatMap_cons, versionNumbers_toBytes_append (versionNumberToTag_lt v),
      List.map_cons, ← ih]
    rfl

/-- Versions below 1000 are read back from their tags. -/
theorem versionNumbers_versionTags_of_isWire {versions : List VersionNumber}
    (h : ∀ v ∈ versions, IsWireVersion v) : versionNumbers (versionTags versions) = versions := by
  rw [versionNumbers_versionTags]
  refine (List.map_congr_left fun v hv => ?_).trans (List.map_id versions)
  exact versionTagToNumber_toTag_of_isWire (h v hv)

theorem versionNumbers_nonneg (bs : List UInt8) : ∀ v ∈ versionNumbers bs, 0 ≤ v := by
  fun_induction versionNumbers bs with
  | case1 b₀ b₁ b₂ b₃ bs ih =>
    intro v hv
    rcases List.mem_cons.mp hv with rfl | hv
    · exact versionTagToNumber_nonneg _
    · exact ih v hv
  | case2 => simp

theorem length_versionTags (versions : List VersionNumber) :
    (versionTags versions).length = 4 * versions.length := by
  induction versions with
  | nil => rfl
  | cons v versions ih =>
    rw [versionTags] at ih
    rw [versionTags, List.flatMap_cons, List.length_append, length_toBytes, ih, List.length_cons]
    omega

/-! ## The packet -/

/-- The header of a version negotiation packet. -/
def responsePublicHeader (connectionID : ℕ) : PublicHeader where
  connectionID := connectionID
  pathID := 0
  versionFlag := true
  resetFlag := false
  truncateConnectionID := false
  multipathFlag := false
  packetNumberLen := .invalid
  packetNumber := 1
  versionNumber := 0
  diversificationNonce := []

/-- Compose a version negotiation packet. An error of the header would only be logged. -/
def composeVersionNegotiation (connectionID : ℕ) (versions : List VersionNumber) : List UInt8 :=
  let header := match (responsePublicHeader connectionID).write versionWhatever .server with
    | .ok bytes => bytes
    | .error _ => []
  header ++ versionTags versions

/-- What the flags of the first byte say. -/
theorem ofFlags_flags (b : UInt8) (pers : Perspective) :
    (ofFlags b pers).versionFlag = decide (0 < b &&& 0x01) ∧
      (ofFlags b pers).resetFlag = decide (0 < b &&& 0x02) ∧
      (ofFlags b pers).truncateConnectionID = (b &&& 0x08 == 0) := by
  unfold ofFlags
  dsimp only
  split_ifs
  · exact ⟨rfl, rfl, rfl⟩
  · exact ⟨rfl, rfl, rfl⟩

theorem composeVersionNegotiation_eq (connectionID : ℕ) (versions : List VersionNumber) :
    composeVersionNegotiation connectionID versions =
      0x09 :: (toBytes .little 8 connectionID ++ versionTags versions) := by
  have hwrite : (responsePublicHeader connectionID).write versionWhatever .server =
      .ok (0x09 :: (toBytes .little 8 connectionID ++ [])) := by
    simp +decide [write, responsePublicHeader, hasPacketNumber, fields, publicFlagByte]
  rw [composeVersionNegotiation, hwrite, List.append_nil, List.cons_append]

/-- What the client reads of a version negotiation packet: all but the packet number, which is not
written. -/
def negotiationHeader (connectionID : ℕ) (versions : List VersionNumber) : ParsedPublicHeader :=
  { responsePublicHeader connectionID with packetNumber := 0, supportedVersions := versions }

/-- The client reads the versions of the server back, whatever version it expects. -/
theorem parse_composeVersionNegotiation {connectionID : ℕ} (hpos : 0 < connectionID)
    (hlt : connectionID < uint64Size) {versions : List VersionNumber}
    (hwire : ∀ v ∈ versions, IsWireVersion v) (version : VersionNumber) :
    parse .server version (composeVersionNegotiation connectionID versions) =
      .ok (negotiationHeader connectionID versions, []) := by
  have hid : readConnectionID (toBytes .little 8 connectionID ++ versionTags versions) =
      .ok (connectionID, versionTags versions) :=
    (bind_ok (readNat_toBytes _ hlt _)).trans
      (bind_ok (failIf_false hpos.ne' _ _))
  rw [composeVersionNegotiation_eq]
  refine (bind_ok (Bytes.readByte_cons _ _ _)).trans ?_
  -- the flag byte says: a version flag, the connection ID, and nothing else
  refine (bind_ok (failIf_false ?_ _ _)).trans ?_
  · rintro ⟨-, hflags⟩
    exact hflags rfl
  refine (bind_ok (failIf_false ?_ _ _)).trans ?_
  · rintro ⟨-, hclient⟩
    cases hclient
  refine (bind_ok hid).trans ?_
  refine (bind_ok rfl).trans ?_
  have hlength : (versionTags versions).length % 4 = 0 := by
    rw [length_versionTags]
    omega
  change parseSupportedVersions _ _ = _
  rw [parseSupportedVersions, if_neg (not_not_intro hlength),
    versionNumbers_versionTags_of_isWire hwire]
  rfl

variable {pers : Perspective} {version : VersionNumber} {packet rest : List UInt8}
  {hdr : ParsedPublicHeader}

/-- What is known of a header that was read. -/
theorem of_parse (hparse : parse pers version packet = .ok (hdr, rest)) :
    ∃ b bs bs', packet = b :: bs ∧
      ¬ (version = versionUnknown ∧ ¬ (hdr.versionFlag || hdr.resetFlag) = true) ∧
      ¬ (hdr.truncateConnectionID = true ∧ pers = .client) ∧
      hdr.truncateConnectionID = (b &&& 0x08 == 0) ∧
      Reader.optional (!hdr.truncateConnectionID) readConnectionID 0 bs =
        .ok (hdr.connectionID, bs') ∧
      ∀ v ∈ hdr.supportedVersions, 0 ≤ v := by
  obtain ⟨b, bs₁, hread, hparse₁⟩ := Reader.bind_eq_ok hparse
  obtain ⟨_, bs₂, hfail₁, hparse₂⟩ := Reader.bind_eq_ok hparse₁
  obtain ⟨_, bs₃, hfail₂, hparse₃⟩ := Reader.bind_eq_ok hparse₂
  obtain ⟨connectionID, bs₄, hid, hparse₄⟩ := Reader.bind_eq_ok hparse₃
  obtain ⟨nonce, bs₅, -, hparse₅⟩ := Reader.bind_eq_ok hparse₄
  obtain ⟨hunknown, rfl⟩ := Reader.failIf_eq_ok hfail₁
  obtain ⟨htruncated, rfl⟩ := Reader.failIf_eq_ok hfail₂
  have hpacket : packet = b :: bs₃ := by
    cases packet with
    | nil => cases hread
    | cons b' bs =>
      obtain ⟨rfl, rfl⟩ := Prod.mk.inj (Except.ok.inj hread)
      rfl
  have htruncate := (ofFlags_flags b pers).2.2
  -- what follows the nonce does not change the flags and the connection ID
  rcases Reader.ite_eq_ok hparse₅ with hparse | hparse
  · dsimp only [parseSupportedVersions] at hparse
    split_ifs at hparse
    obtain ⟨rfl, -⟩ := Prod.mk.inj (Except.ok.inj hparse)
    exact ⟨b, bs₃, bs₄, hpacket, hunknown, htruncated, htruncate, hid, versionNumbers_nonneg bs₅⟩
  · obtain ⟨versionNumber, bs₆, -, hparse⟩ := Reader.bind_eq_ok hparse
    obtain ⟨pathID, bs₇, -, hparse⟩ := Reader.bind_eq_ok hparse
    obtain ⟨packetNumber, bs₈, -, hparse⟩ := Reader.bind_eq_ok hparse
    obtain ⟨rfl, -⟩ := Reader.pure_eq_ok hparse
    exact ⟨b, bs₃, bs₄, hpacket, hunknown, htruncated, htruncate, hid, by simp⟩

/-- The versions of a packet that was read are numbers of tags. -/
theorem supportedVersions_nonneg_of_parse (hparse : parse pers version packet = .ok (hdr, rest)) :
    ∀ v ∈ hdr.supportedVersions, 0 ≤ v := by
  obtain ⟨-, -, -, -, -, -, -, -, hnonneg⟩ := of_parse hparse
  exact hnonneg

/-- Without a version to expect, only packets with a version or a reset are read. -/
theorem flags_of_parse_unknown (hparse : parse pers versionUnknown packet = .ok (hdr, rest)) :
    (hdr.versionFlag || hdr.resetFlag) = true := by
  obtain ⟨-, -, -, -, hunknown, -⟩ := of_parse hparse
  by_contra hflags
  exact hunknown ⟨rfl, hflags⟩

/-! ## Packets of a client -/

/-- Read the connection ID without consuming it. -/
def peekConnectionID (packetSentBy : Perspective) : List UInt8 → Except HeaderParseError ℕ
  | [] => .error .eof
  | publicFlagByte :: bs =>
    let truncateConnectionID := publicFlagByte &&& 0x08 == 0
    if truncateConnectionID ∧ packetSentBy = .client then .error .receivedTruncatedConnectionID
    else if !truncateConnectionID then (·.1) <$> readNat .eof .little 8 bs
    else .ok 0

/-- The connection ID of a packet of a client is the one that is seen before it is parsed. -/
theorem peekConnectionID_of_parse (hparse : parse .client version packet = .ok (hdr, rest)) :
    peekConnectionID .client packet = .ok hdr.connectionID := by
  obtain ⟨b, bs, bs', rfl, -, htruncated, htruncate, hid, -⟩ := of_parse hparse
  have hfull : hdr.truncateConnectionID = false := by simpa using htruncated
  rw [hfull, Bool.not_false, Reader.optional_true] at hid
  obtain ⟨connectionID, bs₁, hread, hid⟩ := Reader.bind_eq_ok hid
  obtain ⟨-, bs₂, -, hid⟩ := Reader.bind_eq_ok hid
  obtain ⟨rfl, -⟩ := Reader.pure_eq_ok hid
  rw [hfull] at htruncate
  simp [peekConnectionID, ← htruncate, hread]

/-- A packet that tells its version is read in the same way whatever version the reader expects. -/
theorem parse_eq_of_versionFlag {b : UInt8} (hversion : 0 < b &&& 0x01) (hreset : ¬ 0 < b &&& 0x02)
    (pers : Perspective) (version version' : VersionNumber) (bs : List UInt8) :
    parse pers version (b :: bs) = parse pers version' (b :: bs) := by
  have hflag : (ofFlags b pers).versionFlag = true :=
    (ofFlags_flags b pers).1.trans (decide_eq_true hversion)
  have hnotReset : (ofFlags b pers).resetFlag = false :=
    (ofFlags_flags b pers).2.1.trans (decide_eq_false hreset)
  have hexpected : ∀ version : VersionNumber,
      ¬ (version = versionUnknown ∧ ¬ ((ofFlags b pers).versionFlag || (ofFlags b pers).resetFlag) =
        true) := by
    intro version h
    exact h.2 (by rw [hflag]; rfl)
  unfold parse
  refine (bind_ok (Bytes.readByte_cons _ _ _)).trans
    (Eq.trans ?_ (bind_ok (Bytes.readByte_cons _ _ _)).symm)
  refine (bind_ok (failIf_false (hexpected version) _ _)).trans
    (Eq.trans ?_ (bind_ok (failIf_false (hexpected version') _ _)).symm)
  simp only [parseNumbers, hflag, hnotReset, Bool.not_false, Bool.and_self, if_true]

end Wire.PublicHeader

end MPQuic
