import MPQuic.Handshake.ConnectionParameters
import MPQuic.Packer.PacketSize
import MPQuic.Wire.PublicHeaderParse

/-!
# The headers that the packer builds

`getPublicHeader` sets the version only for clients and the diversification nonce only for servers,
and `TruncateConnectionID` is false for clients. Its headers are therefore regular, and the other
side reads them back: `getPublicHeader_roundTrip`.
-/

namespace MPQuic

/-- What the packer of a session reads of the connection parameters of its own side. -/
structure HeaderInput.Reads (c : HeaderInput) (params : ConnectionParametersManager) : Prop where
  perspective_eq : params.perspective = c.perspective
  truncateConnectionID_eq : c.truncateConnectionID = params.getTruncateConnectionID

theorem HeaderInput.Reads.server_of_truncate {c : HeaderInput}
    {params : ConnectionParametersManager} (hreads : c.Reads params)
    (htruncate : c.truncateConnectionID = true) : c.perspective = .server := by
  rw [hreads.truncateConnectionID_eq, ConnectionParametersManager.getTruncateConnectionID,
    hreads.perspective_eq] at htruncate
  cases hpers : c.perspective with
  | server => rfl
  | client =>
    rw [hpers, if_pos rfl] at htruncate
    cases htruncate

theorem getPublicHeader_regular {c : HeaderInput} {params : ConnectionParametersManager}
    (hreads : c.Reads params) (hpos : 0 < c.connectionID) (hlt : c.connectionID < uint64Size)
    (hversion : c.version ∈ supportedVersions)
    (hnonce : c.diversificationNonce = [] ∨ c.diversificationNonce.length = 32)
    (encLevel : EncryptionLevel) :
    (getPublicHeader c encLevel).Regular c.version c.perspective where
  resetFlag_eq := rfl
  client_of_versionFlag hv := by
    simpa using (Bool.and_eq_true_iff.mp hv).1
  versionNumber_eq := rfl
  wire := isWireVersion_of_supported hversion
  server_of_truncate htruncate := by
    unfold getPublicHeader at htruncate
    dsimp only at htruncate
    split_ifs at htruncate
    exact hreads.server_of_truncate htruncate
  connectionID_pos := hpos
  connectionID_lt := hlt
  nonce := by
    unfold getPublicHeader
    dsimp only
    split_ifs with hserver
    · exact hnonce.imp_right fun h32 => ⟨h32, by simpa using (Bool.and_eq_true_iff.mp hserver).1⟩
    · exact .inl rfl
  packetNumberLen_ne := getPacketNumberLengthForPublicHeader_ne _ _
  pathID_eq hm := by
    unfold getPublicHeader at hm ⊢
    dsimp only at hm ⊢
    rw [hm]
    rfl

/-- Every header that the packer builds can be written in as many bytes as it says, and the other
side, which knows the version, reads the same header from exactly these bytes: without the
connection ID if it was truncated, and with the low bytes of the packet number. -/
theorem getPublicHeader_roundTrip (c : HeaderInput) (params : ConnectionParametersManager)
    (encLevel : EncryptionLevel) (hreads : c.Reads params) (hpos : 0 < c.connectionID)
    (hlt : c.connectionID < uint64Size) (hversion : c.version ∈ supportedVersions)
    (hnonce : c.diversificationNonce = [] ∨ c.diversificationNonce.length = 32) : ∃ bytes,
      (getPublicHeader c encLevel).write c.version c.perspective = .ok bytes ∧
      (getPublicHeader c encLevel).getLength c.perspective = .ok bytes.length ∧
      ∀ payload, Wire.PublicHeader.parse c.perspective c.version (bytes ++ payload) =
        .ok ({ (getPublicHeader c encLevel).received with supportedVersions := [] }, payload) :=
  Wire.PublicHeader.parse_write _ _ _
    (getPublicHeader_regular hreads hpos hlt hversion hnonce encLevel)

/-- A server that was asked to truncate the connection ID, before the handshake is complete. -/
def exampleServerInput : HeaderInput where
  connectionID := 0x4142434445464748
  perspective := .server
  version := version39
  truncateConnectionID := true
  diversificationNonce := List.replicate 32 7
  packetNumber := 0x123456
  leastUnacked := 0x123450
  pathID := 0
  handshakeComplete := false

def exampleServerParameters : ConnectionParametersManager :=
  { ConnectionParametersManager.new .server 0 0 0 with truncateConnectionID := true }

/-- The header has no connection ID and two bytes of the packet number. -/
theorem getPublicHeader_roundTrip_server : ∃ bytes,
    (getPublicHeader exampleServerInput .secure).write version39 .server = .ok bytes ∧
      bytes.length = 35 ∧
      Wire.PublicHeader.parse .server version39 (bytes ++ [1, 2, 3]) =
        .ok (⟨{ getPublicHeader exampleServerInput .secure with
                connectionID := 0, packetNumber := 0x3456 }, []⟩, [1, 2, 3]) := by
  obtain ⟨bytes, hwrite, hlength, hparse⟩ := getPublicHeader_roundTrip exampleServerInput
    exampleServerParameters .secure ⟨rfl, rfl⟩ (by decide) (by decide) (by decide) (by decide)
  refine ⟨bytes, hwrite, ?_, hparse [1, 2, 3]⟩
  exact Except.ok.inj (hlength.symm.trans (by decide))

end MPQuic
