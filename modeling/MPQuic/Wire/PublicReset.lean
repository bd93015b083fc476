import MPQuic.Handshake.Tags
import MPQuic.Wire.VersionNegotiation

/-!
# Public resets

`internal/wire/public_reset.go`. A public reset is written byte by byte, and read as a handshake
message. The client closes its session when it gets one.
-/

namespace MPQuic

open Bytes

namespace Wire

/-- A PUBLIC_RESET. -/
structure PublicReset where
  rejectedPacketNumber : ℕ
  nonce : ℕ

/-- The errors about a public reset. -/
inductive PublicResetError where
  | message (e : HandshakeError)
  /-- "wrong public reset tag" -/
  | wrongTag
  /-- "RSEQ missing" -/
  | rseqMissing
  /-- "invalid RSEQ tag" -/
  | invalidRSEQ
  /-- "RNON missing" -/
  | rnonMissing
  /-- "invalid RNON tag" -/
  | invalidRNON
  deriving DecidableEq

namespace PublicReset

/-- The bytes after the connection ID. -/
def messageBytes (rejectedPacketNumber nonceProof : ℕ) : List UInt8 :=
  toBytes .little 4 tagPRST ++ (toBytes .little 4 2 ++
    (toBytes .little 4 tagRNON ++ (toBytes .little 4 8 ++
    (toBytes .little 4 tagRSEQ ++ (toBytes .little 4 16 ++
    (toBytes .little 8 nonceProof ++ toBytes .little 8 rejectedPacketNumber))))))

/-- Write a public reset. -/
def writePublicReset (connectionID rejectedPacketNumber nonceProof : ℕ) : List UInt8 :=
  0x0a :: (toBytes .little 8 connectionID ++ messageBytes rejectedPacketNumber nonceProof)

/-- The number in a value of eight bytes. -/
def uint64Value (value : Option (List UInt8)) (missing invalid : PublicResetError) :
    Except PublicResetError ℕ :=
  match value with
  | none => .error missing
  | some bytes => if bytes.length ≠ 8 then .error invalid else .ok (ofBytes .little bytes)

/-- Parse a public reset. -/
def parsePublicReset (packet : List UInt8) : Except PublicResetError PublicReset :=
  match HandshakeMessage.parse packet with
  | .error e => .error (.message e)
  | .ok (msg, _) =>
    if msg.tag ≠ tagPRST then .error .wrongTag
    else do
      let rejectedPacketNumber ← uint64Value (msg.data.lookup tagRSEQ) .rseqMissing .invalidRSEQ
      let nonce ← uint64Value (msg.data.lookup tagRNON) .rnonMissing .invalidRNON
      return { rejectedPacketNumber, nonce }

end PublicReset

end Wire

end MPQuic
