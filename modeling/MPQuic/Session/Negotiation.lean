import MPQuic.Session.Client
import MPQuic.Session.Server

/-!
# Version negotiation between a client and a server

Neither the first packet of a client nor a version negotiation packet is protected: anybody on the
way can change the version of the one or send the other. Both sides therefore tell their versions
again in the handshake. The server compares the version in the client hello with the version of its
session (`checkVersion`, a part of `handleMessage` in `crypto_setup_server.go`), and the client
compares the list in the server hello with the list in the version negotiation packet
(`validateVersionList` in `crypto_setup_client.go`).

## Main results

* `validateVersionList_iff`: which lists the client accepts. A server with a version that the client
  does not know is never accepted after a version negotiation.
* `no_downgrade`: whatever packets the client and the server have received before, if both accept
  what the other one tells in the handshake, then both have the best version that is common to them,
  unless the server does not have the first version of the client and the client was not told so.
* `versions_may_differ`: in the second case the two sides may run different versions.
* `negotiation_completes`: without an attacker both sides get the best version after at most one
  version negotiation packet.
-/

namespace MPQuic

open Bytes Wire

/-- The QUIC version in a hello. -/
def tagVER : Tag := 0x524556

/-- The errors about the version in a client hello. -/
inductive VersionCheckError where
  /-- "client hello missing version tag" -/
  | missingVersionTag
  /-- "incorrect version tag" -/
  | incorrectVersionTag
  /-- "Downgrade attack detected" -/
  | downgradeAttackDetected
  deriving DecidableEq

/-- The check of the version in a client hello, by a session of the server. -/
def checkVersion (version : VersionNumber) (supportedVersions : List VersionNumber)
    (cryptoData : TagMap) : Except VersionCheckError Unit :=
  match cryptoData.lookup tagVER with
  | none => .error .missingVersionTag
  | some verSlice =>
    if verSlice.length ≠ 4 then .error .incorrectVersionTag
    else
      let ver := versionTagToNumber (ofBytes .little verSlice)
      if ver ≠ version ∧ isSupportedVersion supportedVersions ver then
        .error .downgradeAttackDetected
      else .ok ()

/-- Whether the versions in a server hello are those of the version negotiation. A version that is
not known is compared as `versionUnsupported`. -/
def validateVersionList (negotiatedVersions : List VersionNumber) (verTags : List UInt8) : Bool :=
  if negotiatedVersions = [] then true
  else if verTags.length % 4 ≠ 0 ∨ verTags.length / 4 ≠ negotiatedVersions.length then false
  else
    (PublicHeader.versionNumbers verTags).map
      (fun ver => if isSupportedVersion supportedVersions ver then ver else versionUnsupported) =
        negotiatedVersions

/-! ## The two checks -/

section Checks

variable {version : VersionNumber} {versions negotiatedVersions : List VersionNumber}

/-- All versions of the list are known. -/
theorem map_isSupported_eq_self (hknown : ∀ v ∈ versions, v ∈ supportedVersions) :
    versions.map (fun ver =>
      if isSupportedVersion supportedVersions ver then ver else versionUnsupported) = versions := by
  refine (List.map_congr_left fun v hv => ?_).trans (List.map_id versions)
  exact if_pos (isSupportedVersion_iff.mpr (hknown v hv))

/-- After a version negotiation the client accepts the list of a server exactly if it is the same
list and all its versions are known to the client. -/
theorem validateVersionList_iff (hnonneg : ∀ v ∈ negotiatedVersions, 0 ≤ v)
    (hwire : ∀ v ∈ versions, IsWireVersion v) :
    validateVersionList negotiatedVersions (versionTags versions) = true ↔
      negotiatedVersions = [] ∨
        (negotiatedVersions = versions ∧ ∀ v ∈ versions, v ∈ supportedVersions) := by
  unfold validateVersionList
  rw [PublicHeader.length_versionTags, PublicHeader.versionNumbers_versionTags_of_isWire hwire]
  by_cases hnil : negotiatedVersions = []
  · simp [hnil]
  rw [if_neg hnil]
  split_ifs with hlength
  · -- lists of different lengths
    refine iff_of_false (by decide) ?_
    rintro (h | ⟨rfl, -⟩)
    · exact hnil h
    · omega
  rw [decide_eq_true_eq]
  constructor
  · intro heq
    -- a version that is not known would be a negative number in the list
    have hknown : ∀ v ∈ versions, v ∈ supportedVersions := by
      intro v hv
      by_contra hunknown
      have hmem : versionUnsupported ∈ negotiatedVersions := by
        rw [← heq]
        exact List.mem_map.mpr ⟨v, hv, if_neg fun h => hunknown (isSupportedVersion_iff.mp h)⟩
      exact absurd (hnonneg _ hmem) (by decide)
    exact .inr ⟨(map_isSupported_eq_self hknown ▸ heq).symm, hknown⟩
  · rintro (h | ⟨rfl, hknown⟩)
    · exact absurd h hnil
    · exact map_isSupported_eq_self hknown

variable {chlo : TagMap} {told : VersionNumber}

/-- The server accepts its own version in a client hello, and those that it does not have. -/
theorem checkVersion_iff
    (hchlo : chlo.lookup tagVER = some (toBytes .little 4 (versionNumberToTag told))) :
    checkVersion version versions chlo = .ok () ↔
      versionTagToNumber (versionNumberToTag told) = version ∨
        versionTagToNumber (versionNumberToTag told) ∉ versions := by
  have htag : ofBytes .little (toBytes .little 4 (versionNumberToTag told)) =
      versionNumberToTag told := ofBytes_toBytes (versionNumberToTag_lt told)
  rw [checkVersion, hchlo]
  simp only [length_toBytes, ne_eq, not_true_eq_false, if_false, htag, isSupportedVersion_iff]
  split_ifs with hdowngrade
  · exact iff_of_false (by simp) fun h => h.elim hdowngrade.1 fun hnot => hnot hdowngrade.2
  · exact iff_of_true rfl (by tauto)

/-- There are client hellos that tell a given version. -/
theorem exists_lookup_tagVER (told : VersionNumber) : ∃ chlo : TagMap,
    chlo.lookup tagVER = some (toBytes .little 4 (versionNumberToTag told)) :=
  ⟨Finmap.insert tagVER _ ∅, Finmap.lookup_insert _⟩

end Checks

/-! ## First packets -/

/-- A first packet of a client with the given version: a regular header that tells the version, and
a client hello after it, which is padded. -/
def IsFirstPacket (version : VersionNumber) (connectionID : ℕ) (packet : List UInt8) : Prop :=
  ∃ (h : Wire.PublicHeader) (bytes payload : List UInt8), h.Regular version .client ∧
    h.versionFlag = true ∧ h.connectionID = connectionID ∧
    h.write version .client = .ok bytes ∧ packet = bytes ++ payload ∧
    clientHelloMinimumSize ≤ payload.length

section FirstPacket

variable {version : VersionNumber} {connectionID : ℕ} {packet : List UInt8}

/-- A server reads a first packet, whatever version it expects. -/
theorem IsFirstPacket.parse (h : IsFirstPacket version connectionID packet)
    (expected : VersionNumber) :
    ∃ hdr data, PublicHeader.parse .client expected packet = .ok (hdr, data) ∧
      hdr.connectionID = connectionID ∧ hdr.versionFlag = true ∧ hdr.resetFlag = false ∧
      hdr.versionNumber = version ∧
      ¬ packet.length < clientHelloMinimumSize + (packet.length - data.length) := by
  obtain ⟨h, bytes, payload, hr, hflag, hid, hwrite, rfl, hlength⟩ := h
  obtain ⟨bytes', hwrite', -, hparse⟩ := PublicHeader.parse_write h version .client hr
  obtain rfl : bytes = bytes' := Except.ok.inj (hwrite.symm.trans hwrite')
  have hfull : h.truncateConnectionID = false := by
    by_contra htruncate
    cases hr.server_of_truncate (Bool.eq_true_of_not_eq_false htruncate)
  -- the first byte tells that there is a version, so that no other one is expected
  obtain ⟨tail, htail⟩ : ∃ tail, bytes ++ payload = h.publicFlagByte .client :: tail :=
    ⟨_, (congrArg (· ++ payload) (Except.ok.inj (hwrite.symm.trans hr.write_eq))).trans rfl⟩
  obtain ⟨hversion, hreset, -⟩ := PublicHeader.ofFlags_flags (h.publicFlagByte .client) .client
  rw [hr.ofFlags_eq.1] at hversion hreset
  have hany : PublicHeader.parse .client expected (bytes ++ payload) =
      PublicHeader.parse .client version (bytes ++ payload) := by
    rw [htail]
    refine PublicHeader.parse_eq_of_versionFlag ?_ ?_ _ _ _ _
    · exact of_decide_eq_true (hversion.symm.trans hflag)
    · exact of_decide_eq_false (hreset.symm.trans hr.resetFlag_eq)
  refine ⟨_, payload, hany.trans (hparse payload), ?_, hflag, hr.resetFlag_eq, ?_, ?_⟩
  · simp [PublicHeader.received, hfull, hid]
  · simp [PublicHeader.received, hr.versionNumber_eq, hflag]
  · simp only [List.length_append]
    omega

variable {server : Server}

/-- Without a session for the connection, the two steps for a packet handle its header. -/
theorem Server.run_of_parse {hdr : ParsedPublicHeader} {data : List UInt8}
    (hidle : server.handling = none) (hfree : server.sessions connectionID = none)
    (hpeek : PublicHeader.peekConnectionID .client packet = .ok connectionID)
    (hparse : PublicHeader.parse .client versionUnknown packet = .ok (hdr, data)) :
    let l : PacketLookup := ⟨packet, connectionID, none⟩
    server.run [.lookup packet, .handle true] =
      { { server with handling := some l }.handleParsed l true hdr data with
        handling := none } := by
  simp [Server.run, Server.step, hidle, Server.lookup, hpeek, hfree, Server.handle,
    Server.expectedVersion, hparse]

/-- What a server without a session for the connection does with a first packet: it makes a session
with this version, or it answers with its versions. -/
theorem IsFirstPacket.run (h : IsFirstPacket version connectionID packet)
    (hidle : server.handling = none) (hfree : server.sessions connectionID = none) :
    let after := server.run [.lookup packet, .handle true]
    (version ∈ server.versions → ∃ received,
        after.sessions connectionID = some (.live ⟨connectionID, version, received⟩)) ∧
      (version ∉ server.versions →
        after.sent = server.sent ++
            [PublicHeader.composeVersionNegotiation connectionID server.versions] ∧
          after.sessions = server.sessions ∧ after.handling = none ∧
          after.versions = server.versions) := by
  obtain ⟨hdr, data, hparse, hid, hflag, hreset, hversion, hlength⟩ := h.parse versionUnknown
  have hpeek := PublicHeader.peekConnectionID_of_parse hparse
  rw [hid] at hpeek
  dsimp only
  rw [Server.run_of_parse hidle hfree hpeek hparse]
  constructor
  · intro hmem
    have hsupported : isSupportedVersion server.versions version = true :=
      isSupportedVersion_iff.mpr hmem
    refine ⟨[(hdr, data)], ?_⟩
    simp [Server.handleParsed, hreset, hflag, hversion, hsupported, hid,
      Server.deliver_addSession, Server.setEntry]
  · intro hmem
    have hunsupported : isSupportedVersion server.versions version = false :=
      Bool.eq_false_of_not_eq_true fun h => hmem (isSupportedVersion_iff.mp h)
    simp [Server.handleParsed, hreset, hflag, hversion, hunsupported, hid, hlength, Server.send]

end FirstPacket

/-- The header of a first packet with the number 1. -/
def exampleHeader (version : VersionNumber) (connectionID : ℕ) : Wire.PublicHeader where
  connectionID := connectionID
  pathID := 0
  versionFlag := true
  resetFlag := false
  truncateConnectionID := false
  multipathFlag := false
  packetNumberLen := .len1
  packetNumber := 1
  versionNumber := version
  diversificationNonce := []

/-- There are first packets for all versions that a tag can tell. -/
theorem exists_isFirstPacket {version : VersionNumber} {connectionID : ℕ}
    (hwire : IsWireVersion version) (hpos : 0 < connectionID)
    (hlt : connectionID < uint64Size) : ∃ packet, IsFirstPacket version connectionID packet := by
  have hr : (exampleHeader version connectionID).Regular version .client :=
    { resetFlag_eq := rfl
      client_of_versionFlag := fun _ => rfl
      versionNumber_eq := rfl
      wire := hwire
      server_of_truncate := fun h => nomatch h
      connectionID_pos := hpos
      connectionID_lt := hlt
      nonce := .inl rfl
      packetNumberLen_ne := fun h => nomatch h
      pathID_eq := fun _ => rfl }
  exact ⟨_, _, _, List.replicate clientHelloMinimumSize 0, hr, rfl, rfl, hr.write_eq, rfl,
    (List.length_replicate ..).ge⟩

/-! ## No downgrade -/

namespace Server

theorem Handled.versions_eq {s t : Server} {l : PacketLookup} (h : Handled s l t) :
    t.versions = s.versions := by
  cases h with
  | delivered hdr data =>
    unfold Server.deliver
    split
    · rfl
    · rfl
  | dropped | logged | sent | created => rfl

/-- The versions of a server never change. -/
theorem versions_run {s : Server} (h : s.Wf) (events : List Event) :
    (s.run events).versions = s.versions := by
  refine (h.run_induction (P := fun t => t.versions = s.versions) rfl ?_).2
  rintro u e t - - hstep hP
  refine Eq.trans ?_ hP
  cases hstep with
  | lookup packet =>
    unfold Server.lookup
    split
    · rfl
    · rfl
  | handle l newSession t hl ht => exact ht.versions_eq
  | runReturned id hid => rfl
  | timerFires id hid => rfl

end Server

/-- Whatever packets the client and the server have received before, also from an attacker: if the
server accepts the version that the client tells, and the client accepts the list of the server,
then both run the version that the client prefers among those of the server. The only exception is a
client that still has its first version, which the server does not have, and that was told nothing
about it. The session of the server has another version then. -/
theorem no_downgrade (ours theirs : List VersionNumber) (truncation : Bool) (connectionID : ℕ)
    (packets : List ReceivedRawPacket) (events : List Server.Event) {client : Client}
    (hclient : client = (Client.dial ours truncation connectionID).run packets) {server : Server}
    (hserver : server = (Server.listen theirs).run events)
    (hwire : ∀ v ∈ server.versions, IsWireVersion v) {id : ℕ} {session : ServerSession}
    (hsession : server.sessions id = some (.live session)) {chlo : TagMap}
    (hchlo : chlo.lookup tagVER =
      some (toBytes .little 4 (versionNumberToTag client.session.version)))
    (haccepts : checkVersion session.version server.versions chlo = .ok ())
    (hvalid : validateVersionList client.session.negotiatedVersions
      (versionTags server.versions) = true) :
    (session.version = client.session.version ∧
        client.session.version = chooseSupportedVersion client.versions server.versions) ∨
      (client.session.version ∉ server.versions ∧ session.version ∈ server.versions ∧
        client.session.negotiatedVersions = [] ∧
        client.session.version = client.versions.headD versionUnknown) := by
  have hclientInv : client.Negotiated (Client.populateVersions ours) :=
    hclient ▸ Client.negotiated_run ours truncation connectionID packets
  have hserverInv : server.Wf := hserver ▸ Server.wf_run theirs events
  have hsupported : session.version ∈ server.versions := (hserverInv.session id session hsession).2
  -- a version of the server is read back from its tag, so that both sides have the same one
  have hsame (hmem : client.session.version ∈ server.versions) :
      session.version = client.session.version := by
    have hcheck := (checkVersion_iff hchlo).mp haccepts
    rw [versionTagToNumber_toTag_of_isWire (hwire _ hmem)] at hcheck
    exact (hcheck.resolve_right (not_not_intro hmem)).symm
  rw [hclientInv.versions_eq]
  rcases hclientInv.session with ⟨hfirst, hnone⟩ | ⟨hhead, hchosen, hne, hnonneg⟩
  · -- the client was told of no list
    by_cases hmem : client.session.version ∈ server.versions
    · refine .inl ⟨hsame hmem, ?_⟩
      rw [hfirst] at hmem ⊢
      exact (Client.chooseSupportedVersion_headD hmem).symm
    · exact .inr ⟨hmem, hsupported, hnone, hfirst⟩
  · -- the list is that of the server
    have hnil : client.session.negotiatedVersions ≠ [] := by
      intro hnil
      rw [hchosen, hnil, chooseSupportedVersion_nil_right] at hne
      exact hne rfl
    obtain ⟨hlist, -⟩ := ((validateVersionList_iff hnonneg hwire).mp hvalid).resolve_left hnil
    rw [hlist] at hchosen
    have hmem : client.session.version ∈ server.versions := by
      rw [hchosen] at hne ⊢
      exact (mem_of_chooseSupportedVersion_ne hne).2
    exact .inl ⟨hsame hmem, hchosen⟩

/-- A client that was told of the versions of a server after its first packet. -/
theorem no_downgrade_example : ∃ packet session,
    ((Server.listen [39]).run [.lookup packet, .handle true]).sessions 2 = some (.live session) ∧
      session.version = chooseSupportedVersion [512, 39] [39] := by
  obtain ⟨packet, hpacket⟩ := @exists_isFirstPacket 39 2 (by decide) (by decide) (by decide)
  obtain ⟨received, hlive⟩ :=
    (@IsFirstPacket.run _ _ _ (Server.listen [39]) hpacket rfl rfl).1 (by decide)
  have hversions : ((Server.listen [39]).run [.lookup packet, .handle true]).versions = [39] :=
    Server.versions_run (Server.wf_listen [39]) _
  have hrun (c : Client) (p : ReceivedRawPacket) : c.run [p] = c.handlePacket p := rfl
  have hclient := Client.handlePacket_versionNegotiation (c := Client.dial [512, 39] false 1)
    (by decide) (by decide) rfl rfl (by decide : ∀ v ∈ [(39 : ℤ)], IsWireVersion v) (by decide)
    (by decide) true 2
  obtain ⟨chlo, hchlo⟩ := exists_lookup_tagVER 39
  refine ⟨packet, _, hlive, ?_⟩
  have hagree := no_downgrade [512, 39] [39] false 1 _ _ ((hrun _ _).trans hclient).symm rfl
    (by rw [hversions]; decide) hlive hchlo ((checkVersion_iff hchlo).mpr (.inl rfl))
    (by rw [hversions]; decide)
  rw [hversions] at hagree
  rcases hagree with ⟨hsame, hchosen⟩ | ⟨hnot, -⟩
  · exact hsame.trans hchosen
  · exact absurd hnot (by decide)

/-! ## Different versions -/

/-- If the server does not have the first version of the client, then somebody on the way who puts
another version into the first packet makes the two sides run different versions: the server takes
the version in the client hello for one from before a version negotiation, and the client has no
list to compare with. -/
theorem versions_may_differ (ours : List VersionNumber) (truncation : Bool) {connectionID : ℕ}
    {client : Client} (hclient : client = Client.dial ours truncation connectionID)
    {server : Server} (hidle : server.handling = none)
    (hfree : server.sessions connectionID = none) (hwire : IsWireVersion client.version)
    (hfirst : client.version ∉ server.versions) {version : VersionNumber}
    (hversion : version ∈ server.versions) {packet : List UInt8}
    (hpacket : IsFirstPacket version connectionID packet) {chlo : TagMap}
    (hchlo : chlo.lookup tagVER =
      some (toBytes .little 4 (versionNumberToTag client.session.version))) :
    ∃ session, (server.run [.lookup packet, .handle true]).sessions connectionID =
        some (.live session) ∧
      session.version ≠ client.session.version ∧
      checkVersion session.version server.versions chlo = .ok () ∧
      validateVersionList client.session.negotiatedVersions (versionTags server.versions) =
        true := by
  subst hclient
  obtain ⟨received, hlive⟩ := (hpacket.run hidle hfree).1 hversion
  have hne : version ≠ (Client.dial ours truncation connectionID).version :=
    fun heq => hfirst (heq ▸ hversion)
  refine ⟨_, hlive, hne, (checkVersion_iff hchlo).mpr (.inr ?_), rfl⟩
  exact (versionTagToNumber_toTag_of_isWire hwire).symm ▸ hfirst

/-- A client that only has the version 512, and a server that only has the version 39. -/
theorem versions_may_differ_example : ∃ packet session,
    ((Server.listen [39]).run [.lookup packet, .handle true]).sessions 1 = some (.live session) ∧
      session.version ≠ (Client.dial [512] false 1).session.version := by
  obtain ⟨packet, hpacket⟩ := @exists_isFirstPacket 39 1 (by decide) (by decide) (by decide)
  obtain ⟨chlo, hchlo⟩ := exists_lookup_tagVER 512
  obtain ⟨session, hlive, hne, -⟩ := @versions_may_differ [512] false 1 _ rfl
    (Server.listen [39]) rfl rfl (by decide) (by decide) 39 (by decide) packet hpacket _ hchlo
  exact ⟨packet, session, hlive, hne⟩

/-! ## Without an attacker -/

/-- The version of a session of each side, and that both sides accept it in the handshake. -/
structure Agreed (client : Client) (server : Server) (best : VersionNumber) : Prop where
  client_version : client.session.version = best
  server_session : ∃ received, server.sessions client.session.connectionID =
    some (.live ⟨client.session.connectionID, best, received⟩)
  checked : ∀ chlo : TagMap,
    chlo.lookup tagVER = some (toBytes .little 4 (versionNumberToTag client.session.version)) →
    checkVersion best server.versions chlo = .ok ()
  validated : validateVersionList client.session.negotiatedVersions
    (versionTags server.versions) = true

/-- If client and server have a version in common, then the first packet of the client leads to
sessions with the best one, or to a version negotiation packet after which the next first packet of
the client does, with a new connection ID. -/
theorem negotiation_completes (ours : List VersionNumber) (truncation : Bool)
    {connectionID newID : ℕ} (hpos : 0 < connectionID) (hlt : connectionID < uint64Size)
    {client : Client} (hclient : client = Client.dial ours truncation connectionID)
    {server : Server} (hwf : server.Wf) (hidle : server.handling = none)
    (hfree : server.sessions connectionID = none) (hfree' : server.sessions newID = none)
    (hknown : ∀ v ∈ server.versions, v ∈ supportedVersions) {best : VersionNumber}
    (hbest : best = chooseSupportedVersion client.versions server.versions)
    (hcommon : best ≠ versionUnsupported) {packet : List UInt8}
    (hpacket : IsFirstPacket client.version connectionID packet) :
    let server₁ := server.run [.lookup packet, .handle true]
    Agreed client server₁ best ∨
      ∃ reply, server₁.sent = server.sent ++ [reply] ∧
        let client₁ := client.handlePacket ⟨reply, true, some newID⟩
        client₁.connectionID = newID ∧ client₁.version = best ∧
          ∀ packet₁, IsFirstPacket client₁.version newID packet₁ →
            Agreed client₁ (server₁.run [.lookup packet₁, .handle true]) best := by
  have hwire : ∀ v ∈ server.versions, IsWireVersion v := fun v hv =>
    isWireVersion_of_supported (hknown v hv)
  have hmem : best ∈ server.versions := by
    rw [hbest] at hcommon ⊢
    exact (mem_of_chooseSupportedVersion_ne hcommon).2
  -- the best version passes the check of the server
  have hcheck (v : VersionNumber) (hv : v = best) (chlo : TagMap)
      (hchlo : chlo.lookup tagVER = some (toBytes .little 4 (versionNumberToTag v))) :
      checkVersion best server.versions chlo = .ok () :=
    (checkVersion_iff hchlo).mpr (.inl (by
      rw [hv, versionTagToNumber_toTag_of_isWire (hwire best hmem)]))
  have hversions := fun events => Server.versions_run hwf events
  by_cases hfirst : client.version ∈ server.versions
  · refine .inl ?_
    have hversion : client.version = best := by
      rw [hbest, hclient]
      rw [hclient] at hfirst
      exact (Client.chooseSupportedVersion_headD hfirst).symm
    obtain ⟨received, hlive⟩ := (hpacket.run hidle hfree).1 hfirst
    rw [hversion] at hlive
    subst hclient
    exact
      { client_version := hversion
        server_session := ⟨received, hlive⟩
        checked := fun chlo hchlo => by rw [hversions]; exact hcheck _ hversion chlo hchlo
        validated := rfl }
  · obtain ⟨hsent, hsessions, hidle₁, hversions₁⟩ := (hpacket.run hidle hfree).2 hfirst
    refine .inr ⟨_, hsent, ?_⟩
    have hid : client.connectionID = connectionID := by rw [hclient]; rfl
    -- the client reads the versions of the server and switches
    have hswitch := Client.handlePacket_versionNegotiation (c := client) (hid ▸ hpos) (hid ▸ hlt)
      (by rw [hclient]; rfl) (by rw [hclient]; rfl) hwire hfirst (hbest ▸ hcommon) true newID
    rw [hid, ← hbest] at hswitch
    rw [hswitch]
    refine ⟨rfl, rfl, fun packet₁ hpacket₁ => ?_⟩
    obtain ⟨received, hlive⟩ := (hpacket₁.run hidle₁ (hsessions ▸ hfree')).1 (hversions₁ ▸ hmem)
    have hversions₂ : ∀ events, ((server.run [.lookup packet, .handle true]).run events).versions =
        server.versions := fun events =>
      (Server.versions_run (hwf.run _) events).trans hversions₁
    have hvalid : validateVersionList server.versions (versionTags server.versions) = true :=
      (validateVersionList_iff (fun v hv => (hwire v hv).1) hwire).mpr (.inr ⟨rfl, hknown⟩)
    exact
      { client_version := rfl
        server_session := ⟨received, hlive⟩
        checked := fun chlo hchlo => by rw [hversions₂]; exact hcheck _ rfl chlo hchlo
        validated := by rw [hversions₂]; exact hvalid }

/-- The client offers the version 512, is told of the version 39 and gets it with its second ID. -/
theorem negotiation_completes_example : ∃ packet reply packet₁,
    ((Server.listen [39]).run [.lookup packet, .handle true]).sent = [reply] ∧
      Agreed ((Client.dial [512, 39] false 1).handlePacket ⟨reply, true, some 2⟩)
        (((Server.listen [39]).run [.lookup packet, .handle true]).run
          [.lookup packet₁, .handle true]) 39 := by
  obtain ⟨packet, hpacket⟩ := @exists_isFirstPacket 512 1 (by decide) (by decide) (by decide)
  obtain ⟨packet₁, hpacket₁⟩ := @exists_isFirstPacket 39 2 (by decide) (by decide) (by decide)
  rcases @negotiation_completes [512, 39] false 1 2 (by decide) (by decide) _ rfl _
    (Server.wf_listen [39]) rfl rfl rfl (by decide) 39 (by decide) (by decide) packet hpacket
    with hagreed | ⟨reply, hsent, -, hversion, hagreed⟩
  · exact absurd hagreed.client_version (by decide)
  · exact ⟨packet, reply, packet₁, hsent, hagreed packet₁ (by rw [hversion]; exact hpacket₁)⟩

end MPQuic
