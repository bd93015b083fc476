import MPQuic.Crypto.KeyDerivation
import MPQuic.Handshake.ConnectionParameters

/-!
# Source address tokens

`internal/handshake/cookie_generator.go` and `internal/crypto/source_address_token.go`, with
`defaultAcceptCookie` of `server.go`. A token is the address of a client and the second in which it
was issued, sealed with a key of the server. The nonce stands before it.

`acceptSTK_newToken_iff`: a token is accepted from the IP address it was issued for, from any port,
for 24 hours after the second in which it was issued, and from no other address or time. What is
compared are the texts of the addresses, and what is assumed of the standard library is that these
tell IP addresses apart.
-/

namespace MPQuic

open Bytes

/-- A network address: that of a UDP socket, or one that only has a text. -/
inductive RemoteAddr where
  | udp (addr : UDPAddr)
  | other (text : List UInt8)
  deriving DecidableEq

/-- A cookie. -/
structure Cookie where
  remoteAddr : List UInt8
  /-- In nanoseconds, with a resolution of a second. -/
  sentTime : ℕ

/-- The errors about a token. -/
inductive CookieError where
  | tooShort
  | authentication
  | unmarshal
  | rest
  deriving DecidableEq

/-- The ASN.1 library, for tokens of an address and a timestamp. -/
structure TokenCodec where
  marshal : (data : List UInt8) → (timestamp : ℕ) → List UInt8
  unmarshal : List UInt8 → Option ((List UInt8 × ℕ) × List UInt8)
  unmarshal_marshal : ∀ data timestamp,
    unmarshal (marshal data timestamp) = some ((data, timestamp), [])

/-- The length of the nonce of a token. -/
def stkNonceSize : ℕ := 16

/-- The time for which a cookie is valid (24 hours). -/
def cookieExpiryTime : ℕ := 24 * 3600 * second

/-- The bytes that an IPv4 address has in front of it in its form with 16 bytes. -/
def v4InV6Prefix : List UInt8 := List.replicate 10 0 ++ [0xff, 0xff]

/-- An IP address, in its form with four bytes if it is an IPv4 address. -/
def to4 (ip : List UInt8) : List UInt8 :=
  if ip.length = 16 ∧ ip.take 12 = v4InV6Prefix then ip.drop 12 else ip

/-- The texts of IP addresses, which are the same only for the two forms of one address. -/
structure IPLibrary where
  ipString : List UInt8 → List UInt8
  ipString_eq_iff : ∀ ip ip', ipString ip = ipString ip' ↔ to4 ip = to4 ip'

/-- A generator of cookies with its key and the libraries that it uses. -/
structure CookieGenerator where
  gcm : GCM
  key : List UInt8
  codec : TokenCodec
  net : IPLibrary

namespace CookieGenerator

variable (g : CookieGenerator)

/-- The remote address as it is saved in a cookie. -/
def encodeRemoteAddr : RemoteAddr → List UInt8
  | .udp addr => 0 :: addr.ip
  | .other text => 1 :: text

/-- The text of a remote address that was saved in a cookie. -/
def decodeRemoteAddr : List UInt8 → List UInt8
  | [] => []
  | b :: data => if b = 0 then g.net.ipString data else data

/-- A new token for an address. -/
def newToken (nonce : List UInt8) (raddr : RemoteAddr) (now : ℕ) : List UInt8 :=
  nonce ++ g.gcm.gcmSeal g.key nonce (g.codec.marshal (encodeRemoteAddr raddr) (now / second)) []

/-- The cookie in a token, if there is a token. -/
def decodeToken (encrypted : List UInt8) : Except CookieError (Option Cookie) :=
  if encrypted = [] then .ok none
  else if encrypted.length < stkNonceSize then .error .tooShort
  else
    match g.gcm.gcmOpen g.key (encrypted.take stkNonceSize) (encrypted.drop stkNonceSize) [] with
    | none => .error .authentication
    | some data =>
      match g.codec.unmarshal data with
      | none => .error .unmarshal
      | some ((data, timestamp), rest) =>
        if rest ≠ [] then .error .rest
        else .ok (some { remoteAddr := g.decodeRemoteAddr data, sentTime := timestamp * second })

/-- The text of an address without its port. -/
def sourceAddr : RemoteAddr → List UInt8
  | .udp addr => g.net.ipString addr.ip
  | .other text => text

/-- The decision about a cookie if no other one is configured. -/
def defaultAcceptCookie (now : ℕ) (clientAddr : RemoteAddr) : Option Cookie → Bool
  | none => false
  | some cookie =>
    if cookie.sentTime + cookieExpiryTime < now then false
    else g.sourceAddr clientAddr == cookie.remoteAddr

/-- Whether the token of a client is accepted, with the given decision about its cookie. -/
def acceptSTK (acceptCookie : Option Cookie → Bool) (token : List UInt8) : Bool :=
  match g.decodeToken token with
  | .error _ => false
  | .ok cookie => acceptCookie cookie

theorem decodeRemoteAddr_encodeRemoteAddr (raddr : RemoteAddr) :
    g.decodeRemoteAddr (encodeRemoteAddr raddr) = g.sourceAddr raddr := by
  cases raddr <;> rfl

variable {nonce : List UInt8}

/-- A token is decoded to the address and the second that it was issued for. -/
theorem decodeToken_newToken (hnonce : nonce.length = stkNonceSize) (raddr : RemoteAddr)
    (now : ℕ) : g.decodeToken (g.newToken nonce raddr now) =
      .ok (some { remoteAddr := g.sourceAddr raddr, sentTime := now / second * second }) := by
  unfold decodeToken newToken
  rw [if_neg, if_neg, List.take_left' hnonce, List.drop_left' hnonce, g.gcm.open_seal]
  · dsimp only
    rw [g.codec.unmarshal_marshal]
    dsimp only
    rw [if_neg (not_not.mpr rfl), decodeRemoteAddr_encodeRemoteAddr]
  · rw [List.length_append, hnonce]
    exact Nat.not_lt.mpr (Nat.le_add_right _ _)
  · intro hnil
    rw [(List.append_eq_nil_iff.mp hnil).1] at hnonce
    cases hnonce

/-- The two addresses have the same IP address. One that is not that of a UDP socket has to have the
same text. -/
def SameHost : RemoteAddr → RemoteAddr → Prop
  | .udp addr, .udp addr' => to4 addr.ip = to4 addr'.ip
  | addr, addr' => g.sourceAddr addr = g.sourceAddr addr'

theorem sourceAddr_eq_iff (addr addr' : RemoteAddr) :
    g.sourceAddr addr = g.sourceAddr addr' ↔ g.SameHost addr addr' := by
  cases addr with
  | udp a =>
    cases addr' with
    | udp b => exact g.net.ipString_eq_iff a.ip b.ip
    | other text => exact Iff.rfl
  | other text => exact Iff.rfl

/-- A token is accepted from the IP address that it was issued for, whatever the port, and for 24
hours after the second in which it was issued. -/
theorem acceptSTK_newToken_iff (hnonce : nonce.length = stkNonceSize)
    (raddr clientAddr : RemoteAddr) (issued now : ℕ) :
    g.acceptSTK (g.defaultAcceptCookie now clientAddr) (g.newToken nonce raddr issued) = true ↔
      g.SameHost clientAddr raddr ∧ now ≤ issued / second * second + cookieExpiryTime := by
  rw [acceptSTK, decodeToken_newToken g hnonce, ← sourceAddr_eq_iff]
  simp only [defaultAcceptCookie]
  split_ifs with hlate
  · simp only [false_iff, not_and, not_le]
    exact fun _ => hlate
  · rw [beq_iff_eq]
    exact (and_iff_left (Nat.not_lt.mp hlate)).symm

/-- A codec with the timestamp in unary before the data. -/
def exampleUnmarshal (bs : List UInt8) : (List UInt8 × ℕ) × List UInt8 :=
  let timestamp := (bs.takeWhile (· = 1)).length
  ((bs.drop (timestamp + 1), timestamp), [])

theorem exampleUnmarshal_marshal (data : List UInt8) (timestamp : ℕ) :
    some (exampleUnmarshal (List.replicate timestamp 1 ++ 0 :: data)) =
      some ((data, timestamp), []) := by
  simp [exampleUnmarshal, List.drop_append]

/-- A generator with libraries that keep to their laws. -/
def exampleGenerator : CookieGenerator where
  gcm :=
    { gcmSeal := fun _ _ plaintext _ => plaintext
      gcmOpen := fun _ _ ciphertext _ => some ciphertext
      open_seal := fun _ _ _ _ => rfl }
  key := []
  codec :=
    { marshal := fun data timestamp => List.replicate timestamp 1 ++ 0 :: data
      unmarshal := fun bs => some (exampleUnmarshal bs)
      unmarshal_marshal := exampleUnmarshal_marshal }
  net := { ipString := to4, ipString_eq_iff := fun _ _ => Iff.rfl }

/-- A token of the first second is taken from another port of its host a day later, but not from
another host, and not after the day. -/
theorem acceptSTK_newToken_iff_example :
    let token := exampleGenerator.newToken (List.replicate 16 0) (.udp ⟨[10, 0, 0, 1], 1⟩) 5
    let accepts (now : ℕ) (clientAddr : RemoteAddr) :=
      exampleGenerator.acceptSTK (exampleGenerator.defaultAcceptCookie now clientAddr) token
    accepts cookieExpiryTime (.udp ⟨v4InV6Prefix ++ [10, 0, 0, 1], 2⟩) = true ∧
      accepts cookieExpiryTime (.udp ⟨[10, 0, 0, 2], 1⟩) = false ∧
      accepts (cookieExpiryTime + 1) (.udp ⟨[10, 0, 0, 1], 1⟩) = false := by
  dsimp only
  refine ⟨?_, ?_, ?_⟩
  · exact (exampleGenerator.acceptSTK_newToken_iff (by decide) _ _ 5 _).mpr
      ⟨show to4 _ = to4 _ by decide, by decide⟩
  · refine Bool.eq_false_of_not_eq_true fun haccept => ?_
    have hhost := ((exampleGenerator.acceptSTK_newToken_iff (by decide) _ _ 5 _).mp haccept).1
    exact absurd hhost (show ¬ to4 _ = to4 _ by decide)
  · refine Bool.eq_false_of_not_eq_true fun haccept => ?_
    have hlate := ((exampleGenerator.acceptSTK_newToken_iff (by decide) _ _ 5 _).mp haccept).2
    exact absurd hlate (by decide)

end CookieGenerator

end MPQuic
