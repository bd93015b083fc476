import MPQuic.Lib.Bytes
import MPQuic.Lib.ChunkedReader
import MPQuic.Protocol

/-!
# The compression of certificate chains

`internal/crypto/cert_compression.go` and `cert_sets.go`. A chain is sent as a list of entries: a
certificate that the peer has cached is sent as its hash, one of a common set as the hash of the set
and the index in it, and the others are compressed together, each after its length in four bytes.
The dictionary for the compression are the certificates of the other entries.

The zlib library is a parameter (`Zlib`): it is lossless if the dictionary is the same, and its
reader delivers the bytes in chunks. A read into a buffer that is not filled leaves zero bytes at
the end of the buffer. `decompressChain` reads each length and each certificate with one read, and
it looks at the number of bytes for the certificate only, and only if there is an error.
-/

namespace MPQuic

open Bytes

/-- A certificate, in the bytes it is sent as. -/
abbrev Cert := List UInt8

/-- The errors of the compression and the decompression. -/
inductive CertError where
  /-- "expected a multiple of 8 bytes for CCS / CCRT hashes" -/
  | hashesLength
  /-- "unexpected cached certificate" -/
  | unexpectedCached
  /-- "unknown certSet" -/
  | unknownCertSet
  /-- "certificate not found in certSet" -/
  | certNotFound
  /-- "unknown entryType" -/
  | unknownEntryType
  /-- "CertCompression BUG: no element to save uncompressed certificate" -/
  | noElement
  | eof
  /-- An error of the zlib library. -/
  | zlib
  deriving DecidableEq

/-- The zlib library. `compress dict data` is what a writer with the dictionary `dict` has written
when it is closed after `data`. -/
structure Zlib where
  /-- The states of its reader. -/
  State : Type
  reader : ChunkedReader State UInt8 CertError
  compress : (dict data : List UInt8) → List UInt8
  newReaderDict : (compressed dict : List UInt8) → Option State
  lossless : ∀ dict data,
    ∃ s, newReaderDict (compress dict data) dict = some s ∧ reader.rest s = data

/-- The common certificate sets, by their hashes, and the dictionary for all chains, which both
sides know, and the library that they use. -/
structure CertContext where
  certSets : ℕ → Option (List Cert)
  certDictZlib : List UInt8
  zlib : Zlib

/-- An entry of a compressed chain: the hash of a cached certificate, or the hash of a set and the
index of a certificate in it. -/
inductive CertEntry where
  | compressed
  | cached (h : ℕ)
  | common (h i : ℕ)
  deriving DecidableEq

/-- The position of a certificate in a set. -/
def findCertInSet (set : List Cert) (cert : Cert) : Option ℕ := set.findIdx? (· = cert)

/-- The hashes in a list of them. -/
def splitHashes (hashes : List UInt8) : Except CertError (List ℕ) :=
  if hashes.length % 8 ≠ 0 then .error .hashesLength
  else .ok ((List.range (hashes.length / 8)).map fun i =>
    ofBytes .little ((hashes.drop (i * 8)).take 8))

/-- The FNV-1a hash of a certificate. -/
def hashCert (cert : Cert) : ℕ :=
  cert.foldl (fun hash b => uint64Mul (hash ^^^ b.toNat) 1099511628211) 14695981039346656037

namespace CertContext

variable (ctx : CertContext)

/-! ## Compression -/

/-- The first set with the certificate, and its position there. -/
def findCommon (setHashes : List ℕ) (cert : Cert) : Option (ℕ × ℕ) :=
  setHashes.findSome? fun setHash =>
    (ctx.certSets setHash).bind fun set => (findCertInSet set cert).map fun pos => (setHash, pos)

/-- The entry for a certificate. -/
def buildEntry (cachedHashes setHashes : List ℕ) (cert : Cert) (chainHash : ℕ) : CertEntry :=
  if chainHash ∈ cachedHashes then .cached chainHash
  else
    match ctx.findCommon setHashes cert with
    | some (setHash, pos) => .common setHash (pos % uint32Size)
    | none => .compressed

def buildEntries (chain : List Cert) (chainHashes cachedHashes setHashes : List ℕ) :
    List CertEntry :=
  List.zipWith (ctx.buildEntry cachedHashes setHashes) chain chainHashes

/-- The cached and common certificates in reverse order, followed by the dictionary for all
chains. -/
def buildZlibDictForEntries (entries : List (CertEntry × Cert)) : List UInt8 :=
  (entries.reverse.filter (·.1 ≠ .compressed)).flatMap (·.2) ++ ctx.certDictZlib

/-- The bytes of an entry. -/
def writeEntry : CertEntry → List UInt8
  | .compressed => [1]
  | .cached h => 2 :: toBytes .little 8 h
  | .common h i => 3 :: (toBytes .little 8 h ++ toBytes .little 4 i)

/-- The certificates that are compressed. -/
def compressedCerts (entries : List (CertEntry × Cert)) : List Cert :=
  (entries.filter (·.1 = .compressed)).map (·.2)

def totalUncompressedLen (entries : List (CertEntry × Cert)) : ℕ :=
  ((compressedCerts entries).map (4 + ·.length)).sum

/-- What is written for the given certificates before it is compressed. -/
def uncompressed (certs : List Cert) : List UInt8 :=
  certs.flatMap fun cert => toBytes .little 4 cert.length ++ cert

/-- Compress a chain for a client that knows the given common sets and has cached the certificates
with the given hashes. -/
def compressChain (chain : List Cert) (pCommonSetHashes pCachedHashes : List UInt8) :
    Except CertError (List UInt8) := do
  let cachedHashes ← splitHashes pCachedHashes
  let setHashes ← splitHashes pCommonSetHashes
  let chainHashes := chain.map hashCert
  let entries := (ctx.buildEntries chain chainHashes cachedHashes setHashes).zip chain
  let list := entries.flatMap (writeEntry ·.1) ++ [0]
  if 0 < totalUncompressedLen entries then
    -- the writer is made before the length is written, but writes nothing until it gets data
    return list ++ toBytes .little 4 (totalUncompressedLen entries) ++
      ctx.zlib.compress (ctx.buildZlibDictForEntries entries)
        (uncompressed (compressedCerts entries))
  else return list

/-! ## Decompression -/

/-- The certificate of a common set. -/
def lookupCommon (h i : ℕ) : Except CertError Cert :=
  match ctx.certSets h with
  | none => .error .unknownCertSet
  | some certSet =>
    if certSet.length % uint32Size ≤ i then .error .certNotFound else .ok (certSet.getD i [])

/-- The entry of a certificate of a common set, with the certificate. -/
def readCommon : Reader CertError (CertEntry × Cert) := do
  let h ← readNat .eof .little 8
  let i ← readNat .eof .little 4
  let cert ← ctx.lookupCommon h i
  return (.common h i, cert)

/-- The entry that follows its type. -/
def readEntry (entryType : UInt8) : Reader CertError (CertEntry × Cert) :=
  match entryType with
  | 1 => pure (.compressed, [])
  | 2 => throw .unexpectedCached
  | 3 => ctx.readCommon
  | _ => throw .unknownEntryType

/-- The entries up to the end of the list or of the data. As each entry takes a byte or more, the
data cannot have more entries than bytes. -/
def readEntries : ℕ → Reader CertError (List (CertEntry × Cert))
  | 0 => pure []
  | rounds + 1 => fun data =>
    match data with
    -- `ReadByte` returns 0 at the end of the data, which is taken for the end of the list
    | [] => .ok ([], [])
    | 0 :: data => .ok ([], data)
    | entryType :: data => (do
        let entry ← ctx.readEntry entryType
        let entries ← readEntries rounds
        return entry :: entries : Reader CertError _) data

/-- Read a certificate of the given length. -/
def readBody (s : ctx.zlib.State) (certLen : ℕ) : Except CertError (Cert × ctx.zlib.State) :=
  let cert := ctx.zlib.reader.read s certLen
  match cert.err with
  -- a read that is short matters only if there is an error as well
  | some err =>
    if cert.count ≠ certLen then .error err else .ok (cert.buffer 0 certLen, cert.next)
  | none => .ok (cert.buffer 0 certLen, cert.next)

/-- Read a length and a certificate of that length. -/
def readCert (s : ctx.zlib.State) : Except CertError (Cert × ctx.zlib.State) :=
  let lenBytes := ctx.zlib.reader.read s 4
  match lenBytes.err with
  | some err => .error err
  -- the number of bytes that were read is not looked at
  | none => ctx.readBody lenBytes.next (ofBytes .little (lenBytes.buffer 0 4))

/-- Read certificates until `totalLength` is at least `uncompressedLength`, and save each one in the
next compressed entry, which is looked for after the read. -/
def readCerts (uncompressedLength : ℕ) :
    List (CertEntry × Cert) → ctx.zlib.State → ℕ → Except CertError (List Cert)
  | [], s, totalLength =>
    -- the certificate that is read here is not saved
    if totalLength < uncompressedLength then ctx.readCert s >>= fun _ => .error .noElement
    else .ok []
  | (.compressed, cert) :: entries, s, totalLength =>
    if totalLength < uncompressedLength then do
      let (cert, s) ← ctx.readCert s
      let certs ← readCerts uncompressedLength entries s
        (uint32Add totalLength (uint32Add 4 cert.length))
      return cert :: certs
    else .ok (cert :: entries.map (·.2))
  | (_, cert) :: entries, s, totalLength =>
    (readCerts uncompressedLength entries s totalLength).map (cert :: ·)

/-- The certificates for the given entries, of which the compressed ones are in the data. -/
def restore (entries : List (CertEntry × Cert)) (data : List UInt8) :
    Except CertError (List Cert) :=
  -- this includes the empty list
  if entries.all (·.1 ≠ .compressed) then return entries.map (·.2)
  else do
    let (uncompressedLength, data) ← readNat .eof .little 4 data
    match ctx.zlib.newReaderDict data (ctx.buildZlibDictForEntries entries) with
    | none => throw .zlib
    | some s => ctx.readCerts uncompressedLength entries s 0

/-- Decompress a chain. -/
def decompressChain (data : List UInt8) : Except CertError (List Cert) := do
  let (entries, data) ← ctx.readEntries (data.length + 1) data
  ctx.restore entries data

end CertContext

end MPQuic
