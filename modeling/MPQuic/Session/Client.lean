import MPQuic.Wire.PublicReset

/-!
# The client

`client.go`: the client sits between the socket and its session. It drops packets that are not for
its connection, takes public resets only from the address of its session, and switches to another
version when the server does not speak the one it offered. A switch makes a new session with a new
connection ID; the crypto setup of this session is told which versions the server has listed, so
that it can compare them with the list in the server hello.

Anybody can send a version negotiation packet with the connection ID of the client. What holds of
the session after any packets is `Negotiated`:

* either it still has the first version of the client, and it was told of no list,
* or it was told of a list without the first version, and its version is the best one of this list.

## Main results

* `Negotiated.handlePacket`: every packet keeps this.
* `negotiated_run`: it holds after all packets.
* `handlePacket_versionNegotiation`: what the answer of an honest server leads to.
-/

namespace MPQuic

open Bytes Wire

/-- Why the session of a client was closed. -/
inductive ClientCloseError where
  /-- "Received a Public Reset for packet number %#x" -/
  | publicReset (rejectedPacketNumber : ℕ)
  | invalidVersion
  /-- There were no random bytes for a connection ID. -/
  | generateConnectionID
  | closeSessionForNewVersion
  deriving DecidableEq

/-- A session, as the client sees it. -/
structure ClientSession where
  version : VersionNumber
  connectionID : ℕ
  /-- The versions of the version negotiation packet, which the crypto setup is told. -/
  negotiatedVersions : List VersionNumber
  received : List (ParsedPublicHeader × List UInt8)
  closeError : Option ClientCloseError

namespace ClientSession

/-- Close the session. Only the first error counts. -/
def close (s : ClientSession) (e : ClientCloseError) : ClientSession :=
  { s with closeError := s.closeError.or (some e) }

/-- Hand a packet over to the session. -/
def handlePacket (s : ClientSession) (hdr : ParsedPublicHeader) (data : List UInt8) :
    ClientSession :=
  { s with received := s.received ++ [(hdr, data)] }

end ClientSession

/-- A packet from the socket, with what is read from the environment while it is handled. -/
structure ReceivedRawPacket where
  data : List UInt8
  /-- Whether it comes from the remote address of the session. -/
  fromSession : Bool
  /-- The next random connection ID. -/
  generateConnectionID : Option ℕ

/-- A client. -/
structure Client where
  /-- The versions of the configuration, by preference. -/
  versions : List VersionNumber
  requestConnectionIDTruncation : Bool
  connectionID : ℕ
  version : VersionNumber
  receivedVersionNegotiationPacket : Bool
  versionNegotiated : Bool
  session : ClientSession
  /-- The session before the switch to another version. -/
  oldSession : Option ClientSession

namespace Client

/-- The versions of a configuration, with the default. -/
def populateVersions (versions : List VersionNumber) : List VersionNumber :=
  if versions.length = 0 then supportedVersions else versions

/-- A client prefers the version that it offers first. -/
theorem chooseSupportedVersion_headD {versions theirs : List VersionNumber}
    (h : (populateVersions versions).headD versionUnknown ∈ theirs) :
    chooseSupportedVersion (populateVersions versions) theirs =
      (populateVersions versions).headD versionUnknown := by
  have hne : populateVersions versions ≠ [] := by
    unfold populateVersions
    split_ifs with hlength
    · decide
    · exact fun hnil => hlength (congrArg List.length hnil)
  obtain ⟨v, rest, hversions⟩ := List.exists_cons_of_ne_nil hne
  rw [hversions, List.headD_cons] at h ⊢
  simp [chooseSupportedVersion, h]

/-- A new session with the current version and connection ID. -/
def newSession (version : VersionNumber) (connectionID : ℕ)
    (negotiatedVersions : List VersionNumber) : ClientSession where
  version := version
  connectionID := connectionID
  negotiatedVersions := negotiatedVersions
  received := []
  closeError := none

/-- A client that starts to connect. It offers the first one of its versions. -/
def dial (versions : List VersionNumber) (requestConnectionIDTruncation : Bool)
    (connectionID : ℕ) : Client :=
  let versions := populateVersions versions
  let version := versions.headD versionUnknown
  { versions
    requestConnectionIDTruncation
    connectionID
    version
    receivedVersionNegotiationPacket := false
    versionNegotiated := false
    session := newSession version connectionID []
    oldSession := none }

/-- Replace the session by one with the current version and connection ID. -/
def createNewSession (c : Client) (negotiatedVersions : List VersionNumber) : Client :=
  { c with session := newSession c.version c.connectionID negotiatedVersions }

/-- Close the current session. -/
def closeSession (c : Client) (e : ClientCloseError) : Client :=
  { c with session := c.session.close e }

/-- Handle a version negotiation packet. -/
def handlePacketWithVersionFlag (c : Client) (hdr : ParsedPublicHeader)
    (generateConnectionID : Option ℕ) : Except ClientCloseError Unit × Client :=
  -- a list with the version that we offered may come from an attacker
  if hdr.supportedVersions.any fun v => v == c.version then (.ok (), c)
  else
    let c := { c with receivedVersionNegotiationPacket := true }
    let newVersion := chooseSupportedVersion c.versions hdr.supportedVersions
    if newVersion = versionUnsupported then (.error .invalidVersion, c)
    else
      let c := { c with version := newVersion }
      match generateConnectionID with
      | none => (.error .generateConnectionID, { c with connectionID := 0 })
      | some connectionID =>
        let c := { c with connectionID }
        let oldSession := c.session.close .closeSessionForNewVersion
        (.ok (), { c.createNewSession hdr.supportedVersions with oldSession := some oldSession })

/-- Handle a public reset, unless it may be one of an attacker. -/
def handlePublicReset (c : Client) (hdr : ParsedPublicHeader) (data : List UInt8)
    (fromSession : Bool) : Client :=
  if !fromSession || hdr.connectionID != c.connectionID then c
  else match PublicReset.parsePublicReset data with
    | .error _ => c
    | .ok pr => c.closeSession (.publicReset pr.rejectedPacketNumber)

/-- Handle a packet whose header was parsed, and which is for this connection. -/
def handleParsed (c : Client) (hdr : ParsedPublicHeader) (data : List UInt8)
    (packet : ReceivedRawPacket) : Client :=
  if hdr.resetFlag then c.handlePublicReset hdr data packet.fromSession
  -- delayed or duplicated version negotiation packets
  else if (c.receivedVersionNegotiationPacket || c.versionNegotiated) && hdr.versionFlag then c
  else if hdr.versionFlag then
    match c.handlePacketWithVersionFlag hdr packet.generateConnectionID with
    | (.ok _, c) => c
    | (.error e, c) => c.closeSession e
  else
    -- without a version negotiation packet the server supports the suggested version
    { c with versionNegotiated := true, session := c.session.handlePacket hdr data }

/-- Handle a packet from the socket. -/
def handlePacket (c : Client) (packet : ReceivedRawPacket) : Client :=
  match PublicHeader.parse .server c.version packet.data with
  | .error _ => c
  | .ok (hdr, data) =>
    if hdr.truncateConnectionID && !c.requestConnectionIDTruncation then c
    else if !hdr.truncateConnectionID && hdr.connectionID != c.connectionID then c
    else c.handleParsed hdr data packet

/-- The client after some packets. -/
def run (c : Client) (packets : List ReceivedRawPacket) : Client := packets.foldl handlePacket c

/-! ## What a packet does -/

variable {c : Client}

/-- What a packet can do to the client. -/
inductive Effect (c : Client) : Client → Prop where
  | none : Effect c c
  | closed (e : ClientCloseError) : Effect c (c.closeSession e)
  | delivered (hdr : ParsedPublicHeader) (data : List UInt8) :
    Effect c { c with versionNegotiated := true, session := c.session.handlePacket hdr data }
  /-- A list without a version of ours, or no connection ID for a new session. -/
  | failed (version : VersionNumber) (connectionID : ℕ) (e : ClientCloseError)
    (hfirst : c.receivedVersionNegotiationPacket = false) :
    Effect c ({ c with receivedVersionNegotiationPacket := true, version,
                       connectionID }.closeSession e)
  /-- A switch to the best version of the list. -/
  | switched (theirs : List VersionNumber) (connectionID : ℕ)
    (hfirst : c.receivedVersionNegotiationPacket = false) (hnonneg : ∀ v ∈ theirs, 0 ≤ v)
    (hnew : c.version ∉ theirs)
    (hchosen : chooseSupportedVersion c.versions theirs ≠ versionUnsupported) :
    Effect c
      { c with
        receivedVersionNegotiationPacket := true
        version := chooseSupportedVersion c.versions theirs
        connectionID
        session := newSession (chooseSupportedVersion c.versions theirs) connectionID theirs
        oldSession := some (c.session.close .closeSessionForNewVersion) }

theorem effect_handlePacketWithVersionFlag {hdr : ParsedPublicHeader} {id : Option ℕ}
    (hfirst : c.receivedVersionNegotiationPacket = false)
    (hnonneg : ∀ v ∈ hdr.supportedVersions, 0 ≤ v) :
    c.Effect (match c.handlePacketWithVersionFlag hdr id with
      | (.ok _, c) => c
      | (.error e, c) => c.closeSession e) := by
  unfold handlePacketWithVersionFlag
  dsimp only
  split_ifs with hoffered hchosen
  · exact .none
  · exact .failed c.version c.connectionID .invalidVersion hfirst
  · have hnew : c.version ∉ hdr.supportedVersions := by simpa using hoffered
    cases id with
    | none => exact .failed _ 0 .generateConnectionID hfirst
    | some id => exact .switched _ id hfirst hnonneg hnew hchosen

theorem effect_handlePublicReset (hdr : ParsedPublicHeader) (data : List UInt8)
    (fromSession : Bool) : c.Effect (c.handlePublicReset hdr data fromSession) := by
  unfold handlePublicReset
  split_ifs
  · exact .none
  · cases PublicReset.parsePublicReset data with
    | error _ => exact .none
    | ok pr => exact .closed _

/-- A packet does one of these. -/
theorem effect_handlePacket (c : Client) (packet : ReceivedRawPacket) :
    c.Effect (c.handlePacket packet) := by
  unfold handlePacket
  cases hparse : PublicHeader.parse .server c.version packet.data with
  | error _ => exact .none
  | ok p =>
    obtain ⟨hdr, data⟩ := p
    dsimp only
    have hnonneg := PublicHeader.supportedVersions_nonneg_of_parse hparse
    split_ifs with htruncate hid
    · exact .none
    · exact .none
    · unfold handleParsed
      split_ifs with hreset hlate hversion
      · exact effect_handlePublicReset hdr data packet.fromSession
      · exact .none
      · refine effect_handlePacketWithVersionFlag ?_ hnonneg
        rw [hversion, Bool.and_true, Bool.or_eq_true, not_or] at hlate
        exact Bool.eq_false_of_not_eq_true hlate.1
      · exact .delivered hdr data

/-! ## The version of the session -/

/-- What holds of the session after any packets. -/
structure Negotiated (versions : List VersionNumber) (c : Client) : Prop where
  versions_eq : c.versions = versions
  /-- Before a version negotiation packet was accepted. -/
  first : c.receivedVersionNegotiationPacket = false →
    c.version = versions.headD versionUnknown ∧ c.session.version = c.version ∧
      c.session.negotiatedVersions = []
  /-- The session has the first version, or the best one of the list it was told of. -/
  session : (c.session.version = versions.headD versionUnknown ∧
      c.session.negotiatedVersions = []) ∨
    (versions.headD versionUnknown ∉ c.session.negotiatedVersions ∧
      c.session.version = chooseSupportedVersion versions c.session.negotiatedVersions ∧
      c.session.version ≠ versionUnsupported ∧ ∀ v ∈ c.session.negotiatedVersions, 0 ≤ v)

variable {versions : List VersionNumber}

theorem negotiated_dial (versions : List VersionNumber) (truncation : Bool) (connectionID : ℕ) :
    (dial versions truncation connectionID).Negotiated (populateVersions versions) where
  versions_eq := rfl
  first := fun _ => ⟨rfl, rfl, rfl⟩
  session := .inl ⟨rfl, rfl⟩

theorem Negotiated.effect {c' : Client} (h : c.Negotiated versions) (heffect : c.Effect c') :
    c'.Negotiated versions := by
  cases heffect with
  | none => exact h
  | closed e => exact { h with }
  | delivered hdr data => exact { h with }
  | failed version connectionID e hfirst =>
    exact { h with first := fun hnot => (Bool.false_ne_true hnot.symm).elim }
  | switched theirs connectionID hfirst hnonneg hnew hchosen =>
    obtain rfl := h.versions_eq
    have hhead : c.versions.headD versionUnknown ∉ theirs := (h.first hfirst).1 ▸ hnew
    exact
      { versions_eq := rfl
        first := fun hnot => (Bool.false_ne_true hnot.symm).elim
        session := .inr ⟨hhead, rfl, hchosen, hnonneg⟩ }

/-- Every packet keeps what holds of the session. -/
theorem Negotiated.handlePacket (h : c.Negotiated versions) (packet : ReceivedRawPacket) :
    (c.handlePacket packet).Negotiated versions :=
  h.effect (effect_handlePacket c packet)

/-- It holds after any packets, whoever has sent them. -/
theorem negotiated_run (versions : List VersionNumber) (truncation : Bool) (connectionID : ℕ)
    (packets : List ReceivedRawPacket) :
    ((dial versions truncation connectionID).run packets).Negotiated (populateVersions versions) :=
  List.foldlRecOn packets handlePacket (negotiated_dial versions truncation connectionID)
    fun _ h packet _ => h.handlePacket packet

/-! ## The answer of a server -/

/-- A client that waits for the first packet of the server and gets the list of its versions
switches to the best one of them. -/
theorem handlePacket_versionNegotiation (hpos : 0 < c.connectionID)
    (hlt : c.connectionID < uint64Size) (hfirst : c.receivedVersionNegotiationPacket = false)
    (hwaits : c.versionNegotiated = false) {theirs : List VersionNumber}
    (hwire : ∀ v ∈ theirs, IsWireVersion v) (hnew : c.version ∉ theirs)
    (hchosen : chooseSupportedVersion c.versions theirs ≠ versionUnsupported)
    (fromSession : Bool) (connectionID : ℕ) :
    c.handlePacket ⟨PublicHeader.composeVersionNegotiation c.connectionID theirs, fromSession,
        some connectionID⟩ =
      { c with
        receivedVersionNegotiationPacket := true
        version := chooseSupportedVersion c.versions theirs
        connectionID
        session := newSession (chooseSupportedVersion c.versions theirs) connectionID theirs
        oldSession := some (c.session.close .closeSessionForNewVersion) } := by
  have hparse := PublicHeader.parse_composeVersionNegotiation hpos hlt hwire c.version
  simp [handlePacket, hparse, PublicHeader.negotiationHeader, PublicHeader.responsePublicHeader,
    handleParsed, hfirst, hwaits, handlePacketWithVersionFlag, hnew, hchosen, createNewSession]

end Client

end MPQuic
