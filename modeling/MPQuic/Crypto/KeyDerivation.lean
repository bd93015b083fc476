import MPQuic.Packer.Seal

/-!
# Key exchange and key derivation

`internal/crypto/curve_25519.go`, `key_derivation_quic_crypto.go` and `aesgcm12_aead.go`. The curve,
HKDF and AES-GCM are libraries: `CryptoLibrary` says what the two sides rely on.

The keys of the two sides are derived from one byte string. Each side takes the half of the other
side for receiving, and the server's half is diversified with a nonce before that, on both sides.

## Main results

* `KEX.shared_comm`: both sides of an exchange get the same secret.
* `deriveQuicCryptoAESKeys_client`: from the same input the client derives the mirrored keys of the
  server.
* `AESGCM12.open_seal`: what is sealed with some keys is opened with the mirrored ones.
-/

namespace MPQuic

open Bytes

/-- The bytes of a text in ASCII. -/
def ascii (s : String) : List UInt8 := s.toList.map fun c => UInt8.ofNat c.toNat

/-! ## Curve25519 -/

/-- The curve library. -/
structure Curve25519 where
  scalarMult : (secret point : List UInt8) → List UInt8
  scalarBaseMult : (secret : List UInt8) → List UInt8
  length_scalarMult : ∀ secret point, (scalarMult secret point).length = 32
  length_scalarBaseMult : ∀ secret, (scalarBaseMult secret).length = 32
  scalarMult_comm : ∀ a b, scalarMult a (scalarBaseMult b) = scalarMult b (scalarBaseMult a)

/-- A key pair for the exchange of keys. -/
structure KEX (curve : Curve25519) where
  secret : List UInt8
  publicKey : List UInt8
  publicKey_eq : publicKey = curve.scalarBaseMult secret

namespace KEX

variable {curve : Curve25519}

/-- The bits that a secret of the curve has set or cleared. -/
def clamp (random : List UInt8) : List UInt8 :=
  (random.modify 0 (· &&& 248)).modify 31 fun b => b &&& 127 ||| 64

/-- A new key pair, from random bytes. -/
def new (curve : Curve25519) (random : List UInt8) : KEX curve where
  secret := clamp random
  publicKey := curve.scalarBaseMult (clamp random)
  publicKey_eq := rfl

/-- The shared key with the owner of a public key; `none` is the error about its length. -/
def calculateSharedKey (c : KEX curve) (otherPublic : List UInt8) : Option (List UInt8) :=
  if otherPublic.length ≠ 32 then none else some (curve.scalarMult c.secret otherPublic)

/-- A public key has the length that the peer checks. -/
theorem length_publicKey (c : KEX curve) : c.publicKey.length = 32 := by
  rw [c.publicKey_eq, curve.length_scalarBaseMult]

/-- The shared key of two key pairs. -/
def shared (c d : KEX curve) : List UInt8 := curve.scalarMult c.secret d.publicKey

/-- Both sides get the same shared key. -/
theorem shared_comm (c d : KEX curve) : c.shared d = d.shared c := by
  rw [shared, shared, c.publicKey_eq, d.publicKey_eq, curve.scalarMult_comm]

/-- The public key of a key pair is accepted. -/
theorem calculateSharedKey_publicKey (c d : KEX curve) :
    c.calculateSharedKey d.publicKey = some (c.shared d) := by
  rw [calculateSharedKey, if_neg (not_not.mpr d.length_publicKey), shared]

end KEX

/-! ## The libraries -/

/-- AES-GCM. -/
structure GCM where
  gcmSeal : (key nonce plaintext associatedData : List UInt8) → List UInt8
  gcmOpen : (key nonce ciphertext associatedData : List UInt8) → Option (List UInt8)
  open_seal : ∀ key nonce plaintext associatedData,
    gcmOpen key nonce (gcmSeal key nonce plaintext associatedData) associatedData = some plaintext

/-- The libraries that both sides use. -/
structure CryptoLibrary where
  curve : Curve25519
  /-- The bytes that HKDF with SHA-256 yields, one after the other. -/
  hkdf : (secret salt info : List UInt8) → ℕ → UInt8
  gcm : GCM

/-! ## AES-GCM with 12 bytes tag size -/

/-- The keys of one side for both directions. -/
structure AESGCM12 where
  otherKey : List UInt8
  myKey : List UInt8
  otherIV : List UInt8
  myIV : List UInt8
  otherKey_length : otherKey.length = 16
  myKey_length : myKey.length = 16
  otherIV_length : otherIV.length = 4
  myIV_length : myIV.length = 4

namespace AESGCM12

/-- The keys of the peer. -/
def mirror (k : AESGCM12) : AESGCM12 where
  otherKey := k.myKey
  myKey := k.otherKey
  otherIV := k.myIV
  myIV := k.otherIV
  otherKey_length := k.myKey_length
  myKey_length := k.otherKey_length
  otherIV_length := k.myIV_length
  myIV_length := k.otherIV_length

/-- The sending half. -/
def sealer (k : AESGCM12) : AEADAESGCM12 where
  myKey := k.myKey
  myIV := k.myIV
  key_length := k.myKey_length
  iv_length := k.myIV_length

/-- The constructor accepts keys and IVs of these lengths. -/
theorem new_eq_sealer (k : AESGCM12) :
    AEADAESGCM12.new k.otherKey k.myKey k.otherIV k.myIV = some k.sealer :=
  dif_pos ⟨k.myKey_length, k.otherKey_length, k.myIV_length, k.otherIV_length⟩

variable (gcm : GCM)

/-- Open a packet of the other side. -/
def openPacket (k : AESGCM12) (src : List UInt8) (packetNumber : ℕ)
    (associatedData : List UInt8) : Option (List UInt8) :=
  gcm.gcmOpen k.otherKey (AEADAESGCM12.makeNonce k.otherIV packetNumber) src associatedData

/-- Seal a packet for the other side. -/
def sealPacket (k : AESGCM12) (src : List UInt8) (packetNumber : ℕ)
    (associatedData : List UInt8) : List UInt8 :=
  gcm.gcmSeal k.myKey (AEADAESGCM12.makeNonce k.myIV packetNumber) src associatedData

/-- What is sealed with some keys is opened with the mirrored ones. -/
theorem open_seal (k : AESGCM12) (src : List UInt8) (packetNumber : ℕ)
    (associatedData : List UInt8) :
    k.mirror.openPacket gcm (k.sealPacket gcm src packetNumber associatedData) packetNumber
      associatedData = some src :=
  gcm.open_seal _ _ _ _

/-- The same in the other direction. -/
theorem open_mirror_seal (k : AESGCM12) (src : List UInt8) (packetNumber : ℕ)
    (associatedData : List UInt8) :
    k.openPacket gcm (k.mirror.sealPacket gcm src packetNumber associatedData) packetNumber
      associatedData = some src :=
  k.mirror.open_seal gcm src packetNumber associatedData

end AESGCM12

/-! ## Key derivation -/

/-- The first `n` bytes of a stream from position `start`. -/
def readFrom (r : ℕ → UInt8) (start n : ℕ) : List UInt8 := (List.range n).map fun i => r (start + i)

/-- As many bytes as were asked for. -/
@[simp]
theorem length_readFrom (r : ℕ → UInt8) (start n : ℕ) : (readFrom r start n).length = n := by
  simp [readFrom]

/-- What the keys are derived for. -/
structure KeyInput where
  forwardSecure : Bool
  sharedSecret : List UInt8
  nonces : List UInt8
  connID : ℕ
  chlo : List UInt8
  scfg : List UInt8
  cert : List UInt8
  divNonce : List UInt8

variable (hkdf : (secret salt info : List UInt8) → ℕ → UInt8)

/-- The label and the context of a derivation. -/
def KeyInput.info (input : KeyInput) : List UInt8 :=
  (if input.forwardSecure then ascii "QUIC forward secure key expansion" ++ [0]
    else ascii "QUIC key expansion" ++ [0]) ++
  (toBytes .little 8 input.connID ++ (input.chlo ++ (input.scfg ++ input.cert)))

/-- Replace a key and an IV by bytes that are derived from both and a nonce. -/
def diversify (key iv divNonce : List UInt8) : List UInt8 × List UInt8 :=
  let r := hkdf (key ++ iv) divNonce (ascii "QUIC key diversification")
  (readFrom r 0 key.length, readFrom r key.length iv.length)

/-- The keys and IVs of one side: those of the other side first. The client has to swap them. -/
def deriveKeys (input : KeyInput) (keyLen : ℕ) (swap : Bool) :
    (List UInt8 × List UInt8) × List UInt8 × List UInt8 :=
  let r := hkdf input.sharedSecret input.nonces input.info
  let key1 := readFrom r 0 keyLen
  let key2 := readFrom r keyLen keyLen
  let iv1 := readFrom r (2 * keyLen) 4
  let iv2 := readFrom r (2 * keyLen + 4) 4
  let (key2, iv2) :=
    if input.forwardSecure then (key2, iv2) else diversify hkdf key2 iv2 input.divNonce
  if swap then ((key2, key1), iv2, iv1) else ((key1, key2), iv1, iv2)

/-- The keys and IVs have the lengths that the cipher checks, whoever derives them. -/
theorem length_deriveKeys (input : KeyInput) (keyLen : ℕ) (swap : Bool) :
    (deriveKeys hkdf input keyLen swap).1.1.length = keyLen ∧
      (deriveKeys hkdf input keyLen swap).1.2.length = keyLen ∧
      (deriveKeys hkdf input keyLen swap).2.1.length = 4 ∧
      (deriveKeys hkdf input keyLen swap).2.2.length = 4 := by
  unfold deriveKeys diversify
  cases input.forwardSecure <;> cases swap <;> simp

/-- Derive the keys of one side. -/
def deriveQuicCryptoAESKeys (input : KeyInput) (pers : Perspective) : AESGCM12 :=
  let swap := pers == .client
  { otherKey := (deriveKeys hkdf input 16 swap).1.1
    myKey := (deriveKeys hkdf input 16 swap).1.2
    otherIV := (deriveKeys hkdf input 16 swap).2.1
    myIV := (deriveKeys hkdf input 16 swap).2.2
    otherKey_length := (length_deriveKeys hkdf input 16 swap).1
    myKey_length := (length_deriveKeys hkdf input 16 swap).2.1
    otherIV_length := (length_deriveKeys hkdf input 16 swap).2.2.1
    myIV_length := (length_deriveKeys hkdf input 16 swap).2.2.2 }

/-- From the same input the client derives the mirrored keys of the server. -/
theorem deriveQuicCryptoAESKeys_client (input : KeyInput) :
    deriveQuicCryptoAESKeys hkdf input .client =
      (deriveQuicCryptoAESKeys hkdf input .server).mirror := rfl

end MPQuic
