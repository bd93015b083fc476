import MPQuic.Crypto.KeyDerivation
import MPQuic.Handshake.ConnectionParameters
import MPQuic.Handshake.Tags

/-!
# Server configs

`internal/handshake/server_config.go` and `server_config_client.go`. The server describes its long
term key in a handshake message of its own, which the client gets in a rejection. The client makes a
key pair for each config that it parses, and computes the shared key at once.

## Main results

* `readPubs_eq_ok_iff` and `parsePublicKey_eq_ok_iff`: which public value the client takes, in terms
  of the positions of the algorithms and of the public values in the message.
* `parseServerConfig_iff`: which configs the client accepts, and what it takes from them.
* `parseServerConfig_get`: the client accepts the config of every server.
* `serverConfig_exchange`: the two sides have the same shared key then, and open the packets of each
  other with the keys that they derive from it.
-/

namespace MPQuic

open Bytes TagMap

variable {curve : Curve25519}

/-- A server config. -/
structure ServerConfig (curve : Curve25519) where
  kex : KEX curve
  id : List UInt8
  obit : List UInt8
  id_length : id.length = 16
  obit_length : obit.length = 8

namespace ServerConfig

/-- The values of the config. The public key has its length in 3 bytes before it. -/
def values (s : ServerConfig curve) : TagMap :=
  let m : TagMap := Finmap.insert tagSCID s.id ∅
  let m : TagMap := m.insert tagKEXS (ascii "C255")
  let m : TagMap := m.insert tagAEAD (ascii "AESG")
  let m : TagMap := m.insert tagPUBS ([0x20, 0x00, 0x00] ++ s.kex.publicKey)
  let m : TagMap := m.insert tagOBIT s.obit
  m.insert tagEXPY (List.replicate 8 0xff)

/-- The binary representation of the config. -/
def get (s : ServerConfig curve) : List UInt8 := HandshakeMessage.write ⟨tagSCFG, s.values⟩

theorem lookup_values (s : ServerConfig curve) :
    s.values.lookup tagSCID = some s.id ∧ s.values.lookup tagKEXS = some (ascii "C255") ∧
      s.values.lookup tagAEAD = some (ascii "AESG") ∧
      s.values.lookup tagPUBS = some ([0x20, 0x00, 0x00] ++ s.kex.publicKey) ∧
      s.values.lookup tagOBIT = some s.obit ∧
      s.values.lookup tagEXPY = some (List.replicate 8 0xff) := by
  unfold values
  refine ⟨?_, ?_, ?_, ?_, ?_, ?_⟩ <;> simp +decide only [lookup_insert_eq, if_true, if_false]

theorem fits_values (s : ServerConfig curve) : s.values.Fits 6 := by
  refine (((((fits_empty.insert ?_).insert ?_).insert ?_).insert ?_).insert ?_).insert ?_
  · rw [s.id_length]; decide
  · decide
  · decide
  · rw [List.length_append, s.kex.length_publicKey]; decide
  · rw [s.obit_length]; decide
  · decide

theorem parse_get (s : ServerConfig curve) :
    HandshakeMessage.parse s.get = .ok (⟨tagSCFG, s.values⟩, []) :=
  s.fits_values.parse_write (by decide)

end ServerConfig

/-! ## The client -/

/-- The errors about a server config. -/
inductive ServerConfigError where
  | message (e : HandshakeError)
  /-- "ServerConfig must have TagSCFG" -/
  | messageNotServerConfig
  | parameterNotFound (tag : Tag)
  | invalidValueLength (tag : Tag)
  /-- "KEXS: Could not find C255, other key exchanges are not supported" -/
  | noSupportKEXS
  /-- "AEAD" -/
  | noSupportAEAD
  /-- "KEXS not in PUBS" -/
  | kexsNotInPubs
  /-- "Curve25519: expected public key of 32 byte" -/
  | publicKeyLength
  deriving DecidableEq

/-- A server config on the side of the client. -/
structure ServerConfigClient (curve : Curve25519) where
  raw : List UInt8
  id : List UInt8
  obit : List UInt8
  /-- In seconds. -/
  expiry : ℕ
  kex : KEX curve
  sharedSecret : List UInt8

/-- The maximum for the expiry time. -/
def maxExpiry : ℕ := (2 ^ 63 - 1) / 2

namespace ServerConfigClient

/-- The value of a tag that has to be there. -/
def required (tagMap : TagMap) (tag : Tag) : Except ServerConfigError (List UInt8) :=
  match tagMap.lookup tag with
  | none => .error (.parameterNotFound tag)
  | some v => .ok v

/-- Fail about the length of a value. -/
def checkLength (c : Prop) [Decidable c] (tag : Tag) : Except ServerConfigError Unit :=
  if c then .error (.invalidValueLength tag) else .ok ()

/-- The index of an algorithm in a list of names of 4 bytes each. -/
def findName (names : List UInt8) (name : List UInt8) : Option ℕ :=
  (List.range (names.length / 4)).find? fun i => (names.drop (4 * i)).take 4 = name

/-- The public values, each of which has its length in 3 bytes before it. Up to 3 bytes at the end
are ignored. -/
def readPubs (pubs : List UInt8) : Except ServerConfigError (List (List UInt8)) :=
  if h : 3 < pubs.length then
    let lastLen := ofBytes .little (pubs.take 3)
    if lastLen = 0 then .error (.invalidValueLength tagPUBS)
    else if pubs.length < 3 + lastLen then .error (.invalidValueLength tagPUBS)
    else do
      let rest ← readPubs (pubs.drop (3 + lastLen))
      return (pubs.drop 3).take lastLen :: rest
  else .ok []
termination_by pubs.length
decreasing_by
  rw [List.length_drop]
  omega

/-- Check the algorithms and find the public value for the key exchange. -/
def parsePublicKey (tagMap : TagMap) : Except ServerConfigError (List UInt8) := do
  let kexs ← required tagMap tagKEXS
  checkLength (kexs.length % 4 ≠ 0) tagKEXS
  match findName kexs (ascii "C255") with
  | none => .error .noSupportKEXS
  | some c255Foundat =>
    let aead ← required tagMap tagAEAD
    checkLength (aead.length % 4 ≠ 0) tagAEAD
    if findName aead (ascii "AESG") = none then .error .noSupportAEAD
    else
      let pubs ← required tagMap tagPUBS
      let pubsKexs ← readPubs pubs
      match pubsKexs[c255Foundat]? with
      | none => .error .kexsNotInPubs
      | some value =>
        checkLength (value.length ≠ 32) tagPUBS
        return value

/-- Parse the values of a config. The random bytes are for the new key pair. -/
def parseValues (curve : Curve25519) (raw random : List UInt8) (tagMap : TagMap) :
    Except ServerConfigError (ServerConfigClient curve) := do
  let id ← required tagMap tagSCID
  checkLength (id.length ≠ 16) tagSCID
  let value ← parsePublicKey tagMap
  let kex := KEX.new curve random
  match kex.calculateSharedKey value with
  | none => .error .publicKeyLength
  | some sharedSecret =>
    let obit ← required tagMap tagOBIT
    checkLength (obit.length ≠ 8) tagOBIT
    let expy ← required tagMap tagEXPY
    checkLength (expy.length ≠ 8) tagEXPY
    let expiry := min (ofBytes .little expy) maxExpiry
    return { raw, id, obit, expiry, kex, sharedSecret }

/-- Parse a server config. -/
def parseServerConfig (curve : Curve25519) (random data : List UInt8) :
    Except ServerConfigError (ServerConfigClient curve) :=
  match HandshakeMessage.parse data with
  | .error e => .error (.message e)
  | .ok (message, _) =>
    if message.tag ≠ tagSCFG then .error .messageNotServerConfig
    else parseValues curve data random message.data

/-- Whether the config is expired at a time in nanoseconds. -/
def isExpired (s : ServerConfigClient curve) (now : ℕ) : Bool := s.expiry * second < now

/-! ## The configs that are accepted -/

/-- The name is at the given index of a list of names of 4 bytes each, for the first time. -/
def FirstAt (name names : List UInt8) (i : ℕ) : Prop :=
  4 ∣ names.length ∧ 4 * i < names.length ∧ (names.drop (4 * i)).take 4 = name ∧
    ∀ j < i, (names.drop (4 * j)).take 4 ≠ name

/-- A public value with its length before it. -/
def pubsEntry (value : List UInt8) : List UInt8 := toBytes .little 3 value.length ++ value

/-- The bytes hold these public values, one after the other, and up to 3 bytes more. -/
def IsPubs (values : List (List UInt8)) (pubs : List UInt8) : Prop :=
  (∀ value ∈ values, 0 < value.length ∧ value.length < 2 ^ 24) ∧
    ∃ rest, pubs = values.flatMap pubsEntry ++ rest ∧ rest.length ≤ 3

/-- The public value for C255. It has the index in PUBS that C255 has in KEXS. -/
def Offers (tagMap : TagMap) (value : List UInt8) : Prop :=
  ∃ kexs aead pubs i j values,
    tagMap.lookup tagKEXS = some kexs ∧ FirstAt (ascii "C255") kexs i ∧
    tagMap.lookup tagAEAD = some aead ∧ FirstAt (ascii "AESG") aead j ∧
    tagMap.lookup tagPUBS = some pubs ∧ IsPubs values pubs ∧ values[i]? = some value ∧
    value.length = 32

/-- What a config is made of that the client accepts, whoever has sent it. -/
structure Accepted (data random : List UInt8) (s : ServerConfigClient curve) : Prop where
  raw_eq : s.raw = data
  kex_eq : s.kex = KEX.new curve random
  id_length : s.id.length = 16
  obit_length : s.obit.length = 8
  message : ∃ message rest value expy, HandshakeMessage.parse data = .ok (message, rest) ∧
    message.tag = tagSCFG ∧ message.data.lookup tagSCID = some s.id ∧
    message.data.lookup tagOBIT = some s.obit ∧
    message.data.lookup tagEXPY = some expy ∧ expy.length = 8 ∧
    s.expiry = min (ofBytes .little expy) maxExpiry ∧
    Offers message.data value ∧ s.sharedSecret = curve.scalarMult s.kex.secret value

theorem required_eq_ok_iff {tagMap : TagMap} {tag : Tag} {v : List UInt8} :
    required tagMap tag = .ok v ↔ tagMap.lookup tag = some v := by
  unfold required
  split <;> simp_all

theorem checkLength_eq_ok_iff {c : Prop} [Decidable c] {tag : Tag} :
    checkLength c tag = .ok () ↔ ¬ c := by
  unfold checkLength
  split_ifs with hc <;> simp [hc]

theorem findName_eq_some_iff {names name : List UInt8} {i : ℕ} :
    names.length % 4 = 0 ∧ findName names name = some i ↔ FirstAt name names i := by
  rw [findName, List.find?_range_eq_some, FirstAt, Nat.dvd_iff_mod_eq_zero]
  simp only [decide_eq_true_eq, List.mem_range, Bool.not_eq_true', decide_eq_false_iff_not]
  refine and_congr_right fun hlength => ?_
  have hindex : i < names.length / 4 ↔ 4 * i < names.length := by omega
  rw [hindex]
  tauto

/-- The first public value is read, and the rest is left for the others. -/
theorem readPubs_pubsEntry_append {value : List UInt8} (hpos : 0 < value.length)
    (hlt : value.length < 2 ^ 24) (rest : List UInt8) :
    readPubs (pubsEntry value ++ rest) = readPubs rest >>= fun values => .ok (value :: values) := by
  have hlength : (toBytes .little 3 value.length).length = 3 := length_toBytes ..
  have hlen : ofBytes .little ((pubsEntry value ++ rest).take 3) = value.length := by
    rw [pubsEntry, List.append_assoc, List.take_left' hlength]
    exact ofBytes_toBytes hlt
  have htotal : (pubsEntry value ++ rest).length = 3 + value.length + rest.length := by
    simp [pubsEntry, Nat.add_assoc]
  rw [readPubs, dif_pos (by omega)]
  dsimp only
  rw [hlen, if_neg (by omega), if_neg (by omega), ← List.drop_drop, pubsEntry, List.append_assoc,
    List.drop_left' hlength, List.drop_left' rfl, List.take_left' rfl]
  rfl

/-- PUBS are accepted exactly if they hold public values up to their last 3 bytes. -/
theorem readPubs_eq_ok_iff {pubs : List UInt8} {values : List (List UInt8)} :
    readPubs pubs = .ok values ↔ IsPubs values pubs := by
  constructor
  · intro h
    fun_induction readPubs pubs generalizing values with
    | case1 | case2 => cases h
    | case3 pubs hlong lastLen hpos hfits =>
      rename_i ih
      obtain ⟨values, hvalues, h⟩ := bind_eq_ok h
      cases h
      obtain ⟨hlengths, rest, hrest, hshort⟩ := ih hvalues
      have htake : (pubs.take 3).length = 3 := by rw [List.length_take]; omega
      have hlt := ofBytes_lt .little (pubs.take 3)
      have hbytes := toBytes_ofBytes .little (pubs.take 3)
      rw [htake] at hlt hbytes
      change lastLen < 256 ^ 3 at hlt
      change toBytes .little 3 lastLen = _ at hbytes
      have hlength : ((pubs.drop 3).take lastLen).length = lastLen := by
        rw [List.length_take, List.length_drop]
        omega
      refine ⟨?_, rest, ?_, hshort⟩
      · rintro value (_ | ⟨_, hmem⟩)
        · omega
        · exact hlengths value hmem
      · have hentry : pubsEntry ((pubs.drop 3).take lastLen) =
            pubs.take 3 ++ (pubs.drop 3).take lastLen := by
          rw [pubsEntry, hlength, hbytes]
        rw [List.flatMap_cons, hentry, List.append_assoc, ← hrest, List.append_assoc,
          ← List.drop_drop, List.take_append_drop, List.take_append_drop]
    | case4 pubs hshort =>
      cases h
      exact ⟨by simp, pubs, rfl, by omega⟩
  · rintro ⟨hlengths, rest, rfl, hshort⟩
    induction values with
    | nil => rw [List.flatMap_nil, List.nil_append, readPubs, dif_neg (by omega)]
    | cons value values ih =>
      obtain ⟨⟨hpos, hlt⟩, hlengths⟩ := List.forall_mem_cons.mp hlengths
      rw [List.flatMap_cons, List.append_assoc, readPubs_pubsEntry_append hpos hlt, ih hlengths,
        ok_bind]

/-- Which public value the client takes. -/
theorem parsePublicKey_eq_ok_iff {tagMap : TagMap} {value : List UInt8} :
    parsePublicKey tagMap = .ok value ↔ Offers tagMap value := by
  constructor
  · intro h
    obtain ⟨kexs, hkexs, h⟩ := bind_eq_ok h
    obtain ⟨_, hkexsLength, h⟩ := bind_eq_ok h
    split at h
    · cases h
    rename_i i hc255
    obtain ⟨aead, haead, h⟩ := bind_eq_ok h
    obtain ⟨_, haeadLength, h⟩ := bind_eq_ok h
    split_ifs at h with haesg
    obtain ⟨j, haesg⟩ := Option.ne_none_iff_exists'.mp haesg
    obtain ⟨pubs, hpubs, h⟩ := bind_eq_ok h
    obtain ⟨values, hvalues, h⟩ := bind_eq_ok h
    split at h
    · cases h
    rename_i hvalue
    obtain ⟨_, hlength, h⟩ := bind_eq_ok h
    cases h
    rw [required_eq_ok_iff] at hkexs haead hpubs
    rw [checkLength_eq_ok_iff, not_not] at hkexsLength haeadLength hlength
    exact ⟨kexs, aead, pubs, i, j, values, hkexs, findName_eq_some_iff.mp ⟨hkexsLength, hc255⟩,
      haead, findName_eq_some_iff.mp ⟨haeadLength, haesg⟩, hpubs, readPubs_eq_ok_iff.mp hvalues,
      hvalue, hlength⟩
  · rintro ⟨kexs, aead, pubs, i, j, values, hkexs, hc255, haead, haesg, hpubs, hvalues, hvalue,
      hlength⟩
    obtain ⟨hkexsLength, hc255⟩ := findName_eq_some_iff.mpr hc255
    obtain ⟨haeadLength, haesg⟩ := findName_eq_some_iff.mpr haesg
    rw [parsePublicKey, required_eq_ok_iff.mpr hkexs, ok_bind,
      checkLength_eq_ok_iff.mpr (not_not.mpr hkexsLength), ok_bind, hc255]
    dsimp only
    rw [required_eq_ok_iff.mpr haead, ok_bind,
      checkLength_eq_ok_iff.mpr (not_not.mpr haeadLength), ok_bind, haesg, if_neg (by simp),
      required_eq_ok_iff.mpr hpubs, ok_bind, readPubs_eq_ok_iff.mpr hvalues, ok_bind, hvalue]
    dsimp only
    rw [checkLength_eq_ok_iff.mpr (not_not.mpr hlength)]
    rfl

theorem Offers.length_eq {tagMap : TagMap} {value : List UInt8} (h : Offers tagMap value) :
    value.length = 32 := by
  obtain ⟨-, -, -, -, -, -, -, -, -, -, -, -, -, hlength⟩ := h
  exact hlength

theorem accepted_of_parseServerConfig {random data : List UInt8} {s : ServerConfigClient curve}
    (h : parseServerConfig curve random data = .ok s) : Accepted data random s := by
  unfold parseServerConfig at h
  split at h
  · cases h
  rename_i message rest hparse
  split_ifs at h with htag
  obtain ⟨id, hid, h⟩ := bind_eq_ok h
  obtain ⟨_, hidLength, h⟩ := bind_eq_ok h
  obtain ⟨value, hvalue, h⟩ := bind_eq_ok h
  dsimp only at h
  split at h
  · cases h
  rename_i sharedSecret hshared
  obtain ⟨obit, hobit, h⟩ := bind_eq_ok h
  obtain ⟨_, hobitLength, h⟩ := bind_eq_ok h
  obtain ⟨expy, hexpy, h⟩ := bind_eq_ok h
  obtain ⟨_, hexpyLength, h⟩ := bind_eq_ok h
  cases h
  rw [required_eq_ok_iff] at hid hobit hexpy
  rw [checkLength_eq_ok_iff, not_not] at hidLength hobitLength hexpyLength
  rw [KEX.calculateSharedKey] at hshared
  split_ifs at hshared
  exact
    { raw_eq := rfl
      kex_eq := rfl
      id_length := hidLength
      obit_length := hobitLength
      message := ⟨message, rest, value, expy, hparse, not_not.mp htag, hid, hobit, hexpy,
        hexpyLength, rfl, parsePublicKey_eq_ok_iff.mp hvalue, (Option.some.inj hshared).symm⟩ }

theorem Accepted.parseServerConfig_eq {random data : List UInt8} {s : ServerConfigClient curve}
    (h : Accepted data random s) : parseServerConfig curve random data = .ok s := by
  obtain ⟨raw, id, obit, expiry, kex, sharedSecret⟩ := s
  obtain ⟨rfl, rfl, hidLength, hobitLength, message, rest, value, expy, hparse, htag, hid, hobit,
    hexpy, hexpyLength, rfl, hoffers, hsecret⟩ := h
  dsimp only at hidLength hobitLength hid hobit hsecret
  subst hsecret
  rw [parseServerConfig, hparse]
  dsimp only
  rw [if_neg (not_not.mpr htag), parseValues, required_eq_ok_iff.mpr hid, ok_bind,
    checkLength_eq_ok_iff.mpr (not_not.mpr hidLength), ok_bind,
    parsePublicKey_eq_ok_iff.mpr hoffers, ok_bind]
  dsimp only
  rw [KEX.calculateSharedKey, if_neg (not_not.mpr hoffers.length_eq)]
  dsimp only
  rw [required_eq_ok_iff.mpr hobit, ok_bind,
    checkLength_eq_ok_iff.mpr (not_not.mpr hobitLength), ok_bind, required_eq_ok_iff.mpr hexpy,
    ok_bind, checkLength_eq_ok_iff.mpr (not_not.mpr hexpyLength)]
  rfl

/-- A config is accepted exactly if it is made as `Accepted` says. -/
theorem parseServerConfig_iff {random data : List UInt8} {s : ServerConfigClient curve} :
    parseServerConfig curve random data = .ok s ↔ Accepted data random s :=
  ⟨accepted_of_parseServerConfig, Accepted.parseServerConfig_eq⟩

/-! ## Configs of a server -/

/-- A server has one key exchange with one public value. -/
theorem offers_values (s : ServerConfig curve) : Offers s.values s.kex.publicKey := by
  obtain ⟨-, hkexs, haead, hpubs, -⟩ := s.lookup_values
  have hlength := s.kex.length_publicKey
  have hfirst (name : String) (h : (ascii name).length = 4) : FirstAt (ascii name) (ascii name) 0 :=
    ⟨⟨1, h⟩, by omega, List.take_of_length_le h.le, by simp⟩
  refine ⟨_, _, _, 0, 0, [s.kex.publicKey], hkexs, hfirst _ rfl, haead, hfirst _ rfl, hpubs,
    ⟨?_, [], ?_, by simp⟩, rfl, hlength⟩
  · simp [hlength]
  · rw [List.flatMap_singleton, pubsEntry, hlength, List.append_nil]
    rfl

/-- The config that the client has of a server. -/
def ofServer (s : ServerConfig curve) (random : List UInt8) : ServerConfigClient curve where
  raw := s.get
  id := s.id
  obit := s.obit
  expiry := maxExpiry
  kex := KEX.new curve random
  sharedSecret := (KEX.new curve random).shared s.kex

theorem accepted_ofServer (s : ServerConfig curve) (random : List UInt8) :
    Accepted s.get random (ofServer s random) := by
  obtain ⟨hscid, -, -, -, hobit, hexpy⟩ := s.lookup_values
  -- the largest 64-bit number is cut off at the maximum
  have hexpiry : maxExpiry = min (ofBytes .little (List.replicate 8 0xff)) maxExpiry := by decide
  exact
    { raw_eq := rfl
      kex_eq := rfl
      id_length := s.id_length
      obit_length := s.obit_length
      message := ⟨_, _, _, _, s.parse_get, rfl, hscid, hobit, hexpy, rfl, hexpiry,
        offers_values s, rfl⟩ }

/-- The client accepts the config of every server. -/
theorem parseServerConfig_get (s : ServerConfig curve) (random : List UInt8) :
    parseServerConfig curve random s.get = .ok (ofServer s random) :=
  (accepted_ofServer s random).parseServerConfig_eq

/-- The client accepts the config of every server and takes over its ID and orbit. The server gets
the shared secret of the client from the public key of the client, and with the keys that the two
sides derive from their secrets and the same transcript, each opens what the other one seals. -/
theorem serverConfig_exchange (lib : CryptoLibrary) (s : ServerConfig lib.curve)
    (random : List UInt8) (transcript : KeyInput) :
    ∃ config secret, parseServerConfig lib.curve random s.get = .ok config ∧
      config.id = s.id ∧ config.obit = s.obit ∧ config.raw = s.get ∧
      s.kex.calculateSharedKey config.kex.publicKey = some secret ∧
      secret = config.sharedSecret ∧
      let server := deriveQuicCryptoAESKeys lib.hkdf
        { transcript with sharedSecret := secret } .server
      let client := deriveQuicCryptoAESKeys lib.hkdf
        { transcript with sharedSecret := config.sharedSecret } .client
      AEADAESGCM12.new server.otherKey server.myKey server.otherIV server.myIV =
          some server.sealer ∧
        AEADAESGCM12.new client.otherKey client.myKey client.otherIV client.myIV =
          some client.sealer ∧
        ∀ src packetNumber ad,
          server.openPacket lib.gcm (client.sealPacket lib.gcm src packetNumber ad) packetNumber
              ad = some src ∧
            client.openPacket lib.gcm (server.sealPacket lib.gcm src packetNumber ad) packetNumber
              ad = some src := by
  refine ⟨ofServer s random, s.kex.shared (KEX.new lib.curve random),
    parseServerConfig_get s random, rfl, rfl, rfl, KEX.calculateSharedKey_publicKey _ _,
    KEX.shared_comm _ _, ?_⟩
  dsimp only
  -- the secret of the client is that of the server, and its keys are the mirrored ones
  have hsecret : (ofServer s random).sharedSecret = s.kex.shared (KEX.new lib.curve random) :=
    KEX.shared_comm _ _
  rw [hsecret, deriveQuicCryptoAESKeys_client]
  refine ⟨AESGCM12.new_eq_sealer _, AESGCM12.new_eq_sealer _, fun src packetNumber ad => ⟨?_, ?_⟩⟩
  · exact AESGCM12.open_mirror_seal lib.gcm _ src packetNumber ad
  · exact AESGCM12.open_seal lib.gcm _ src packetNumber ad

/-- Multiplication of numbers of 32 bytes in the place of the curve, with the base point 9. -/
def exampleCurve : Curve25519 where
  scalarMult secret point := toBytes .little 32 (ofBytes .little secret * ofBytes .little point)
  scalarBaseMult secret := toBytes .little 32 (ofBytes .little secret * 9)
  length_scalarMult _ _ := length_toBytes ..
  length_scalarBaseMult _ := length_toBytes ..
  scalarMult_comm a b := (eq_toBytes_iff_ofBytes (length_toBytes ..)).mpr (by
    rw [ofBytes_toBytes_mod, ofBytes_toBytes_mod, ofBytes_toBytes_mod, Nat.mul_mod_mod,
      Nat.mul_mod_mod, Nat.mul_left_comm])

/-- A derivation that adds up its bytes, and a cipher that opens a packet only with the key, the
nonce and the associated data that it was sealed with. -/
def exampleLibrary : CryptoLibrary where
  curve := exampleCurve
  hkdf secret salt info i := (secret ++ salt ++ info).foldl (· + ·) (UInt8.ofNat i)
  gcm :=
    { gcmSeal key nonce plaintext associatedData := key ++ nonce ++ associatedData ++ plaintext
      gcmOpen key nonce ciphertext associatedData :=
        (key ++ nonce ++ associatedData).isPrefixOf? ciphertext
      open_seal _ _ _ _ := List.isPrefixOf?_eq_some_iff_append_eq.mpr rfl }

/-- A config of a server. -/
def exampleConfig : ServerConfig exampleCurve where
  kex := KEX.new exampleCurve (List.replicate 32 5)
  id := List.replicate 16 2
  obit := List.replicate 8 3
  id_length := List.length_replicate ..
  obit_length := List.length_replicate ..

/-- The server opens a packet of a client, and the client does not open its own one. -/
theorem serverConfig_exchange_example : ∃ config,
    parseServerConfig exampleCurve (List.replicate 32 7) exampleConfig.get = .ok config ∧
      exampleConfig.kex.calculateSharedKey config.kex.publicKey = some config.sharedSecret ∧
      let keys := deriveQuicCryptoAESKeys exampleLibrary.hkdf
        ⟨false, config.sharedSecret, [1], 2, [3], [4], [5], [6]⟩
      let packet := (keys .client).sealPacket exampleLibrary.gcm [7, 8] 9 [10]
      (keys .server).openPacket exampleLibrary.gcm packet 9 [10] = some [7, 8] ∧
        (keys .client).openPacket exampleLibrary.gcm packet 9 [10] = none := by
  obtain ⟨config, secret, hparse, -, -, -, hshared, rfl, -, -, hopen⟩ :=
    serverConfig_exchange exampleLibrary exampleConfig (List.replicate 32 7)
      ⟨false, [], [1], 2, [3], [4], [5], [6]⟩
  refine ⟨config, hparse, hshared, (hopen [7, 8] 9 [10]).1, ?_⟩
  obtain rfl := Except.ok.inj ((parseServerConfig_get exampleConfig _).symm.trans hparse)
  decide +kernel

end ServerConfigClient

end MPQuic
