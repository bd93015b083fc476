import Mathlib.Algebra.Order.BigOperators.Group.List
import Mathlib.Data.List.Forall2
import Mathlib.Data.List.GetD
import MPQuic.Crypto.CertCompression

/-!
# The round trip of a certificate chain

A chain that was compressed without cached certificates is decompressed to the same chain exactly if
the index of every common certificate fits (`Indexed`), and every read of the decompression is full
unless only zero bytes are left, and reports no error with the bytes of a length (`Delivers`).

A read that delivers less than its buffer takes is not noticed. The missing bytes are zero in the
buffer, and they are still to be read: from there on, the lengths and the certificates are out of
step with the stream. If the stream ends with a length, since the last certificate is empty, a
reader that reports the end together with the last bytes makes the decompression fail.

## Main results

* `readEntries_eq_ok_iff`: the list of entries is read back, and the common certificates are found.
* `readCerts_eq_ok_iff`: the certificates that were compressed are read back exactly if the reader
  delivers them.
* `decompressChain_compressChain_iff`: the round trip.
-/

namespace MPQuic

open Bytes

namespace CertContext

variable (ctx : CertContext) (setHashes : List ℕ)

/-! ## The entries of a chain -/

/-- The entry for a certificate that is not cached. -/
def entryOf (cert : Cert) : CertEntry :=
  match ctx.findCommon setHashes cert with
  | some (setHash, pos) => .common setHash (pos % uint32Size)
  | none => .compressed

/-- The entries of a chain, with the certificates. -/
def sent (chain : List Cert) : List (CertEntry × Cert) :=
  chain.map fun cert => (ctx.entryOf setHashes cert, cert)

/-- The entries of a chain, with the certificates of the common sets. -/
def received (chain : List Cert) : List (CertEntry × Cert) :=
  chain.map fun cert =>
    (ctx.entryOf setHashes cert, if ctx.entryOf setHashes cert = .compressed then [] else cert)

/-- If the certificate is in a common set, its position and the size of the set fit `uint32`. -/
def Indexed (cert : Cert) : Prop :=
  ∀ setHash pos set, ctx.findCommon setHashes cert = some (setHash, pos) →
    ctx.certSets setHash = some set → pos < set.length % uint32Size

variable {ctx setHashes}

theorem zip_buildEntries (chain : List Cert) :
    (ctx.buildEntries chain (chain.map hashCert) [] setHashes).zip chain =
      ctx.sent setHashes chain := by
  induction chain with
  | nil => rfl
  | cons cert chain ih => exact congrArg (_ :: ·) ih

variable {cert : Cert}

theorem findCommon_eq_some {setHash pos : ℕ}
    (h : ctx.findCommon setHashes cert = some (setHash, pos)) :
    setHash ∈ setHashes ∧ ∃ set, ctx.certSets setHash = some set ∧
      findCertInSet set cert = some pos := by
  obtain ⟨setHash', hmem, hfind⟩ := List.exists_of_findSome?_eq_some h
  obtain ⟨set, hset, hpos⟩ := Option.bind_eq_some_iff.mp hfind
  obtain ⟨pos', hpos', heq⟩ := Option.map_eq_some_iff.mp hpos
  obtain ⟨rfl, rfl⟩ := Prod.mk.inj heq
  exact ⟨hmem, set, hset, hpos'⟩

/-- The first position of a certificate is found again exactly if it fits `uint32`. -/
theorem lookupCommon_eq_ok_iff {set : List Cert} {setHash pos : ℕ}
    (hset : ctx.certSets setHash = some set) (hpos : findCertInSet set cert = some pos) :
    ctx.lookupCommon setHash (pos % uint32Size) = .ok cert ↔ pos < set.length % uint32Size := by
  obtain ⟨hlt, hcert, hfirst⟩ := List.findIdx?_eq_some_iff_getElem.mp hpos
  have hmod : pos % uint32Size ≤ pos := Nat.mod_le _ _
  have hlength : set.length % uint32Size ≤ set.length := Nat.mod_le _ _
  unfold lookupCommon
  simp only [hset]
  split_ifs with hle
  · exact iff_of_false nofun (by omega)
  · have hindex : pos % uint32Size < set.length := by omega
    have hsmall : set.length % uint32Size < uint32Size := Nat.mod_lt _ (by decide)
    rw [List.getD_eq_getElem _ _ hindex, Except.ok.injEq]
    constructor
    · intro heq
      by_contra hlarge
      -- there is no certificate of this kind before its first position
      exact hfirst (pos % uint32Size) (by omega) (decide_eq_true heq)
    · intro hfits
      have hkept : pos % uint32Size = pos := Nat.mod_eq_of_lt (hfits.trans hsmall)
      simp only [hkept]
      exact of_decide_eq_true hcert

/-- What is found for an entry. -/
def resolve (ctx : CertContext) : CertEntry → Except CertError (CertEntry × Cert)
  | .compressed => .ok (.compressed, [])
  | .cached _ => .error .unexpectedCached
  | .common h i => (ctx.lookupCommon h i).map (.common h i, ·)

theorem resolve_entryOf_of_indexed (h : ctx.Indexed setHashes cert) :
    ctx.resolve (ctx.entryOf setHashes cert) = .ok (ctx.entryOf setHashes cert,
      if ctx.entryOf setHashes cert = .compressed then [] else cert) := by
  unfold entryOf
  cases hcommon : ctx.findCommon setHashes cert with
  | none => rfl
  | some found =>
    obtain ⟨setHash, pos⟩ := found
    obtain ⟨-, set, hset, hpos⟩ := findCommon_eq_some hcommon
    have hlookup := (lookupCommon_eq_ok_iff hset hpos).mpr (h setHash pos set hcommon hset)
    dsimp only [resolve]
    rw [hlookup]
    rfl

/-- If an entry that is not compressed leads to its certificate, then the index fits. -/
theorem indexed_of_resolve_entryOf {entry : CertEntry × Cert}
    (hresolve : ctx.resolve (ctx.entryOf setHashes cert) = .ok entry)
    (hcert : entry.1 ≠ .compressed → entry.2 = cert) : ctx.Indexed setHashes cert := by
  intro setHash pos set hcommon hset
  obtain ⟨-, set', hset', hpos⟩ := findCommon_eq_some hcommon
  obtain rfl := Option.some.inj (hset.symm.trans hset')
  refine (lookupCommon_eq_ok_iff hset hpos).mp ?_
  simp only [entryOf, hcommon, resolve] at hresolve
  cases hlookup : ctx.lookupCommon setHash (pos % uint32Size) with
  | error e => rw [hlookup] at hresolve; cases hresolve
  | ok found =>
    rw [hlookup] at hresolve
    obtain rfl := Except.ok.inj hresolve
    exact congrArg Except.ok (hcert nofun)

/-! ## Reading the entries -/

/-- The hashes of the sets are numbers of 64 bits. -/
theorem readEntry_writeEntry (ctx : CertContext)
    (hhash : ∀ setHash ∈ setHashes, setHash < uint64Size) (cert : Cert) :
    ∃ entryType payload, writeEntry (ctx.entryOf setHashes cert) = entryType :: payload ∧
      entryType ≠ 0 ∧ ∀ rest, ctx.readEntry entryType (payload ++ rest) =
        (ctx.resolve (ctx.entryOf setHashes cert)).map (·, rest) := by
  unfold entryOf
  cases hcommon : ctx.findCommon setHashes cert with
  | none => exact ⟨1, [], rfl, by decide, fun _ => rfl⟩
  | some found =>
    obtain ⟨setHash, pos⟩ := found
    have hsize : setHash < 256 ^ 8 := hhash setHash (findCommon_eq_some hcommon).1
    have hindex : pos % uint32Size < 256 ^ 4 := Nat.mod_lt _ (by decide)
    refine ⟨3, _, rfl, by decide, fun rest => ?_⟩
    change ctx.readCommon _ = _
    unfold readCommon
    rw [List.append_assoc, Reader.bind_ok (readNat_toBytes _ hsize _),
      Reader.bind_ok (readNat_toBytes _ hindex _)]
    dsimp only [resolve]
    cases ctx.lookupCommon setHash (pos % uint32Size) <;> rfl

theorem readEntries_cons {entryType : UInt8} (hne : entryType ≠ 0) (rounds : ℕ)
    (data : List UInt8) :
    ctx.readEntries (rounds + 1) (entryType :: data) = (do
      let entry ← ctx.readEntry entryType
      let entries ← ctx.readEntries rounds
      return entry :: entries : Reader CertError _) data := by
  rw [readEntries]
  dsimp only
  split
  case h_1 heq => cases heq
  case h_2 heq => exact absurd (List.cons.inj heq).1 hne
  case h_3 heq =>
    obtain ⟨rfl, rfl⟩ := List.cons.inj heq
    rfl

variable {entries : List (CertEntry × Cert)}

/-- The list of the entries is read back, with what is found for them. -/
theorem readEntries_eq_ok_iff (hhash : ∀ setHash ∈ setHashes, setHash < uint64Size)
    (chain : List Cert) (rest : List UInt8) {rounds : ℕ} (hrounds : chain.length < rounds)
    {rest' : List UInt8} :
    ctx.readEntries rounds
        ((ctx.sent setHashes chain).flatMap (writeEntry ·.1) ++ 0 :: rest) = .ok (entries, rest') ↔
      List.Forall₂ (fun cert entry => ctx.resolve (ctx.entryOf setHashes cert) = .ok entry)
        chain entries ∧ rest' = rest := by
  obtain ⟨rounds, rfl⟩ := Nat.exists_eq_succ_of_ne_zero (Nat.ne_of_gt (Nat.zero_lt_of_lt hrounds))
  induction chain generalizing rounds entries with
  | nil =>
    change Except.ok ([], rest) = Except.ok (entries, rest') ↔ _
    rw [Except.ok.injEq, Prod.mk.injEq, List.forall₂_nil_left_iff, eq_comm, eq_comm (a := rest)]
  | cons cert chain ih =>
    obtain ⟨entryType, payload, hwrite, hne, hread⟩ := readEntry_writeEntry ctx hhash cert
    obtain ⟨rounds, rfl⟩ := Nat.exists_eq_succ_of_ne_zero
      (Nat.ne_of_gt (Nat.zero_lt_of_lt (Nat.lt_of_succ_lt_succ hrounds)))
    have hrounds' := Nat.lt_of_succ_lt_succ hrounds
    rw [sent, List.map_cons, List.flatMap_cons, hwrite, List.cons_append, List.cons_append,
      List.append_assoc, readEntries_cons hne, ← sent, List.forall₂_cons_left_iff]
    -- either nothing is found for this certificate, or the reader goes on with the rest of the list
    have hfirst := hread ((ctx.sent setHashes chain).flatMap (writeEntry ·.1) ++ 0 :: rest)
    cases hresolve : ctx.resolve (ctx.entryOf setHashes cert) with
    | error e =>
      rw [hresolve] at hfirst
      rw [Reader.bind_error hfirst]
      refine iff_of_false nofun ?_
      rintro ⟨⟨entry, entries', hentry, -⟩, -⟩
      cases hentry
    | ok entry =>
      rw [hresolve] at hfirst
      rw [Reader.bind_ok hfirst]
      constructor
      · intro h
        obtain ⟨entries', data, hentries, h⟩ := Reader.bind_eq_ok h
        obtain ⟨rfl, rfl⟩ := Reader.pure_eq_ok h
        obtain ⟨hfound, rfl⟩ := (ih rounds hrounds').mp hentries
        exact ⟨⟨entry, entries', rfl, hfound, rfl⟩, rfl⟩
      · rintro ⟨⟨entry', entries', hentry, hfound, rfl⟩, rfl⟩
        obtain rfl := Except.ok.inj hentry
        rw [Reader.bind_ok ((ih rounds hrounds').mpr ⟨hfound, rfl⟩)]
        rfl

/-! ## Reading the certificates -/

theorem readBody_eq_ok_iff {s s' : ctx.zlib.State} {certLen : ℕ} :
    ctx.readBody s certLen = .ok (cert, s') ↔
      ((ctx.zlib.reader.read s certLen).err = none ∨
          (ctx.zlib.reader.read s certLen).count = certLen) ∧
        (ctx.zlib.reader.read s certLen).buffer 0 certLen = cert ∧
        s' = (ctx.zlib.reader.read s certLen).next := by
  unfold readBody
  dsimp only
  rw [eq_comm (a := s')]
  cases (ctx.zlib.reader.read s certLen).err with
  | none => simp
  | some err =>
    dsimp only
    split_ifs with hcount
    · simp [hcount]
    · simp [not_not.mp hcount]

/-- Four bytes are those of a length exactly if they spell it. -/
theorem eq_toBytes_iff {bs : List UInt8} {n : ℕ} (hbs : bs.length = 4) (hn : n < uint32Size) :
    bs = toBytes .little 4 n ↔ ofBytes .little bs = n := by
  constructor
  · rintro rfl
    exact ofBytes_toBytes hn
  · rintro rfl
    rw [← hbs]
    exact (toLittle_ofLittle bs).symm

/-- A certificate is read if its length and its bytes are left in the buffers, and no error is
looked at. -/
theorem readCert_eq_ok_iff {s s' : ctx.zlib.State} (hlen : cert.length < uint32Size) :
    ctx.readCert s = .ok (cert, s') ↔
      let lenBytes := ctx.zlib.reader.read s 4
      let body := ctx.zlib.reader.read lenBytes.next cert.length
      lenBytes.err = none ∧ lenBytes.buffer 0 4 = toBytes .little 4 cert.length ∧
        (body.err = none ∨ body.count = cert.length) ∧ body.buffer 0 cert.length = cert ∧
        s' = body.next := by
  dsimp only
  rw [eq_toBytes_iff (ctx.zlib.reader.length_buffer 0 s 4) hlen]
  unfold readCert
  dsimp only
  cases (ctx.zlib.reader.read s 4).err with
  | some err => exact iff_of_false nofun fun h => nomatch h.1
  | none =>
    dsimp only
    rw [readBody_eq_ok_iff]
    constructor
    · rintro ⟨herr, hbuffer, rfl⟩
      -- the buffer is as long as the length that was read says
      have hcertLen := congrArg List.length hbuffer
      rw [ChunkedReader.length_buffer] at hcertLen
      rw [hcertLen] at herr hbuffer ⊢
      exact ⟨rfl, rfl, herr, hbuffer, rfl⟩
    · rintro ⟨-, hcertLen, herr, hbuffer, rfl⟩
      rw [hcertLen]
      exact ⟨herr, hbuffer, rfl⟩

/-- The reads of the given certificates, one after the other, as long as `totalLength` has not
reached `uncompressedLength`, are full unless only zero bytes are left, and no error comes with the
bytes of a length. Certificates that are not read are empty. -/
def Delivers (ctx : CertContext) (uncompressedLength : ℕ) :
    List Cert → ctx.zlib.State → ℕ → Prop
  | [], _, _ => True
  | cert :: certs, s, totalLength =>
    if totalLength < uncompressedLength then
      let lenBytes := ctx.zlib.reader.read s 4
      let body := ctx.zlib.reader.read lenBytes.next cert.length
      lenBytes.err = none ∧ ctx.zlib.reader.FullRead 0 s 4 ∧
        ctx.zlib.reader.FullRead 0 lenBytes.next cert.length ∧
        ctx.Delivers uncompressedLength certs body.next
          (uint32Add totalLength (uint32Add 4 cert.length))
    else ∀ c ∈ cert :: certs, c = []

theorem uncompressed_cons (cert : Cert) (certs : List Cert) :
    uncompressed (cert :: certs) =
      toBytes .little 4 cert.length ++ (cert ++ uncompressed certs) := by
  rw [uncompressed, List.flatMap_cons, List.append_assoc]
  rfl

/-- The lengths of empty certificates are zero. -/
theorem uncompressed_eq_zero {certs : List Cert} (h : ∀ cert ∈ certs, cert = []) :
    ∀ b ∈ uncompressed certs, b = 0 := by
  intro b hb
  obtain ⟨cert, hcert, hb⟩ := List.mem_flatMap.mp hb
  rw [h cert hcert] at hb
  exact List.eq_of_mem_replicate (n := 4) hb

section ReadCerts

variable {uncompressedLength totalLength : ℕ} {s : ctx.zlib.State}

theorem readCerts_cons_of_ne {entry : CertEntry × Cert} (hne : entry.1 ≠ .compressed)
    (entries : List (CertEntry × Cert)) :
    ctx.readCerts uncompressedLength (entry :: entries) s totalLength =
      (ctx.readCerts uncompressedLength entries s totalLength).map (entry.2 :: ·) := by
  obtain ⟨e, cert⟩ := entry
  cases e with
  | compressed => exact absurd rfl hne
  | cached h => rfl
  | common h i => rfl

/-- The certificates of the common sets are kept. -/
theorem forall₂_of_readCerts {entries : List (CertEntry × Cert)} {certs : List Cert}
    (h : ctx.readCerts uncompressedLength entries s totalLength = .ok certs) :
    List.Forall₂ (fun entry cert => entry.1 ≠ .compressed → entry.2 = cert) entries certs := by
  induction entries generalizing s totalLength certs with
  | nil =>
    rw [readCerts] at h
    split_ifs at h with hlt
    · obtain ⟨-, -, h⟩ := bind_eq_ok h
      cases h
    · obtain rfl := Except.ok.inj h
      exact .nil
  | cons entry entries ih =>
    by_cases hentry : entry.1 = .compressed
    · obtain ⟨e, cert⟩ := entry
      obtain rfl : e = .compressed := hentry
      rw [readCerts] at h
      split_ifs at h with hlt
      · obtain ⟨⟨cert', s'⟩, -, h⟩ := bind_eq_ok h
        obtain ⟨certs', hrest, h⟩ := bind_eq_ok h
        obtain rfl := Except.ok.inj h
        exact .cons (fun hne => absurd rfl hne) (ih hrest)
      · obtain rfl := Except.ok.inj h
        refine .cons (fun hne => absurd rfl hne) ?_
        exact List.forall₂_map_right_iff.mpr (List.forall₂_same.mpr fun _ _ _ => rfl)
    · rw [readCerts_cons_of_ne hentry] at h
      cases hrest : ctx.readCerts uncompressedLength entries s totalLength with
      | error e => rw [hrest] at h; cases h
      | ok certs' =>
        rw [hrest] at h
        obtain rfl := Except.ok.inj h
        exact .cons (fun _ => rfl) (ih hrest)

theorem compressedCerts_cons_of_eq {cert : Cert} (chain : List Cert)
    (hentry : ctx.entryOf setHashes cert = .compressed) :
    compressedCerts (ctx.sent setHashes (cert :: chain)) =
      cert :: compressedCerts (ctx.sent setHashes chain) := by
  unfold compressedCerts sent
  rw [List.map_cons, List.filter_cons_of_pos (by simpa using hentry), List.map_cons]

theorem compressedCerts_cons_of_ne {cert : Cert} (chain : List Cert)
    (hentry : ctx.entryOf setHashes cert ≠ .compressed) :
    compressedCerts (ctx.sent setHashes (cert :: chain)) =
      compressedCerts (ctx.sent setHashes chain) := by
  unfold compressedCerts sent
  rw [List.map_cons, List.filter_cons_of_neg (by simpa using hentry)]

theorem received_cons (cert : Cert) (chain : List Cert) :
    ctx.received setHashes (cert :: chain) =
      (ctx.entryOf setHashes cert, if ctx.entryOf setHashes cert = .compressed then [] else cert) ::
        ctx.received setHashes chain := rfl

theorem map_received_eq_iff {chain : List Cert} :
    (ctx.received setHashes chain).map (·.2) = chain ↔
      ∀ cert ∈ compressedCerts (ctx.sent setHashes chain), cert = [] := by
  induction chain with
  | nil => exact iff_of_true rfl nofun
  | cons cert chain ih =>
    rw [received_cons, List.map_cons, List.cons.injEq, ih]
    by_cases hentry : ctx.entryOf setHashes cert = .compressed
    · rw [if_pos hentry, compressedCerts_cons_of_eq chain hentry, List.forall_mem_cons,
        eq_comm (a := [])]
    · rw [if_neg hentry, compressedCerts_cons_of_ne chain hentry]
      exact and_iff_right rfl

/-- The certificates that were compressed are read back exactly if the reader delivers them. A
reader that is `behind` zero bytes behind has to find only zero bytes. -/
theorem readCerts_eq_ok_iff {chain : List Cert} (behind : ℕ)
    (hlen : ∀ cert ∈ chain, cert.length < uint32Size) (htotal : totalLength < uint32Size)
    (hsum : (totalLength + totalUncompressedLen (ctx.sent setHashes chain)) % uint32Size =
      uncompressedLength)
    (hrest : ctx.zlib.reader.rest s =
      List.replicate behind 0 ++ uncompressed (compressedCerts (ctx.sent setHashes chain))) :
    ctx.readCerts uncompressedLength (ctx.received setHashes chain) s totalLength = .ok chain ↔
      ctx.Delivers uncompressedLength (compressedCerts (ctx.sent setHashes chain)) s totalLength ∧
        (0 < behind → ∀ b ∈ uncompressed (compressedCerts (ctx.sent setHashes chain)), b = 0) := by
  -- `hsum` is the invariant of the loop: what is still to be read leads to the length that was sent
  induction chain generalizing s totalLength behind with
  | nil =>
    have hend : totalLength = uncompressedLength := by
      rw [← hsum]
      exact (Nat.mod_eq_of_lt htotal).symm
    exact iff_of_true (if_neg (Nat.not_lt_of_ge hend.ge)) ⟨trivial, fun _ => nofun⟩
  | cons cert chain ih =>
    obtain ⟨hcertLen, hrestLen⟩ := List.forall_mem_cons.mp hlen
    by_cases hentry : ctx.entryOf setHashes cert = .compressed
    · have hsum' : (uint32Add totalLength (uint32Add 4 cert.length) +
          totalUncompressedLen (ctx.sent setHashes chain)) % uint32Size = uncompressedLength := by
        rw [totalUncompressedLen, compressedCerts_cons_of_eq chain hentry, List.map_cons,
          List.sum_cons] at hsum
        simp only [uint32Add, uint32Size, totalUncompressedLen] at hsum ⊢
        omega
      have htotal' : uint32Add totalLength (uint32Add 4 cert.length) < uint32Size :=
        Nat.mod_lt _ (by decide)
      rw [compressedCerts_cons_of_eq chain hentry, uncompressed_cons] at hrest
      rw [received_cons, hentry, if_pos rfl, compressedCerts_cons_of_eq chain hentry, readCerts,
        Delivers, uncompressed_cons]
      dsimp only
      split_ifs with hlt
      · constructor
        · intro h
          obtain ⟨⟨cert', s'⟩, hread, h⟩ := bind_eq_ok h
          dsimp only at h
          obtain ⟨certs, hreads, h⟩ := bind_eq_ok h
          obtain ⟨rfl, rfl⟩ := List.cons.inj (Except.ok.inj h)
          obtain ⟨herr, hbuffer, -, hbuffer', rfl⟩ := (readCert_eq_ok_iff hcertLen).mp hread
          have hnext := ChunkedReader.rest_next_of_buffer hrest hbuffer
          have hnext' := ChunkedReader.rest_next_of_buffer hnext hbuffer'
          obtain ⟨hdeliver, hzero⟩ := (ih _ hrestLen htotal' hsum' hnext').mp hreads
          obtain ⟨hfull', hzero⟩ := (ChunkedReader.buffer_eq_and_iff hnext).mp ⟨hbuffer', hzero⟩
          obtain ⟨hfull, hzero⟩ := (ChunkedReader.buffer_eq_and_iff hrest).mp ⟨hbuffer, hzero⟩
          exact ⟨⟨herr, hfull, hfull', hdeliver⟩, hzero⟩
        · rintro ⟨⟨herr, hfull, hfull', hdeliver⟩, hzero⟩
          obtain ⟨hbuffer, hzero⟩ := (ChunkedReader.buffer_eq_and_iff hrest).mpr ⟨hfull, hzero⟩
          have hnext := ChunkedReader.rest_next_of_buffer hrest hbuffer
          obtain ⟨hbuffer', hzero⟩ := (ChunkedReader.buffer_eq_and_iff hnext).mpr ⟨hfull', hzero⟩
          have hnext' := ChunkedReader.rest_next_of_buffer hnext hbuffer'
          have herr' := ChunkedReader.err_eq_none_or_count_eq hnext hbuffer'
          have hreads := (ih _ hrestLen htotal' hsum' hnext').mpr ⟨hdeliver, hzero⟩
          rw [length_toBytes] at hreads
          rw [(readCert_eq_ok_iff hcertLen).mpr ⟨herr, hbuffer, herr', hbuffer', rfl⟩, ok_bind]
          dsimp only
          rw [hreads, ok_bind]
          rfl
      · -- the loop has ended, and what is left of the chain stays empty
        rw [Except.ok.injEq, List.cons.injEq, map_received_eq_iff, eq_comm (a := []),
          ← uncompressed_cons, and_iff_left_of_imp fun h _ => uncompressed_eq_zero h,
          List.forall_mem_cons]
    · rw [compressedCerts_cons_of_ne chain hentry] at hrest ⊢
      rw [← ih _ hrestLen htotal _ hrest, received_cons, if_neg hentry, readCerts_cons_of_ne hentry]
      · cases ctx.readCerts uncompressedLength (ctx.received setHashes chain) s totalLength with
        | error e => exact iff_of_false nofun nofun
        | ok certs => simp [Except.map]
      · rwa [totalUncompressedLen, compressedCerts_cons_of_ne chain hentry] at hsum

end ReadCerts

/-! ## The round trip -/

/-- What follows the list of the entries. -/
def compressedPart (ctx : CertContext) (entries : List (CertEntry × Cert)) : List UInt8 :=
  if 0 < totalUncompressedLen entries then
    toBytes .little 4 (totalUncompressedLen entries) ++
      ctx.zlib.compress (ctx.buildZlibDictForEntries entries)
        (uncompressed (compressedCerts entries))
  else []

theorem compressChain_eq {pCommonSetHashes : List UInt8}
    (hsets : splitHashes pCommonSetHashes = .ok setHashes) (chain : List Cert) :
    ctx.compressChain chain pCommonSetHashes [] =
      .ok ((ctx.sent setHashes chain).flatMap (writeEntry ·.1) ++
        0 :: ctx.compressedPart (ctx.sent setHashes chain)) := by
  have hcached : splitHashes [] = .ok [] := rfl
  unfold compressChain compressedPart
  rw [hcached, ok_bind, hsets, ok_bind]
  dsimp only
  rw [zip_buildEntries]
  split_ifs
  · rw [List.append_assoc, List.append_assoc, List.singleton_append]
    rfl
  · rfl

theorem totalUncompressedLen_pos_iff :
    0 < totalUncompressedLen entries ↔ compressedCerts entries ≠ [] := by
  unfold totalUncompressedLen
  cases compressedCerts entries with
  | nil => simp
  | cons cert certs => simp

variable {chain : List Cert}

theorem all_ne_compressed_iff :
    (ctx.received setHashes chain).all (·.1 ≠ .compressed) = true ↔
      compressedCerts (ctx.sent setHashes chain) = [] := by
  simp [received, sent, compressedCerts, List.filter_eq_nil_iff]

/-- The dictionary does not depend on the certificates that are compressed. -/
theorem buildZlibDictForEntries_received (chain : List Cert) :
    ctx.buildZlibDictForEntries (ctx.received setHashes chain) =
      ctx.buildZlibDictForEntries (ctx.sent setHashes chain) := by
  unfold buildZlibDictForEntries received sent
  rw [← List.map_reverse, ← List.map_reverse, List.filter_map, List.filter_map, List.flatMap_map,
    List.flatMap_map]
  congr 1
  refine List.flatMap_congr fun cert hcert => ?_
  have hentry : ctx.entryOf setHashes cert ≠ .compressed := by
    simpa using (List.mem_filter.mp hcert).2
  exact if_neg hentry

/-- The chain can be restored: the indices of the common certificates fit, and the reader of the
compressed ones delivers them. -/
def Restorable (ctx : CertContext) (setHashes : List ℕ) (chain : List Cert) : Prop :=
  let entries := ctx.sent setHashes chain
  let dict := ctx.buildZlibDictForEntries entries
  let stream := uncompressed (compressedCerts entries)
  (∀ cert ∈ chain, ctx.Indexed setHashes cert) ∧
    ∀ s, ctx.zlib.newReaderDict (ctx.zlib.compress dict stream) dict = some s →
      ctx.Delivers (totalUncompressedLen entries % uint32Size) (compressedCerts entries) s 0

theorem restore_received_eq_ok_iff (hlen : ∀ cert ∈ chain, cert.length < uint32Size)
    (hindexed : ∀ cert ∈ chain, ctx.Indexed setHashes cert) :
    ctx.restore (ctx.received setHashes chain) (ctx.compressedPart (ctx.sent setHashes chain)) =
      .ok chain ↔ ctx.Restorable setHashes chain := by
  unfold restore Restorable
  dsimp only
  rw [and_iff_right hindexed]
  by_cases hcerts : compressedCerts (ctx.sent setHashes chain) = []
  · have hchain : (ctx.received setHashes chain).map (·.2) = chain :=
      map_received_eq_iff.mpr (by rw [hcerts]; exact nofun)
    rw [if_pos (all_ne_compressed_iff.mpr hcerts), hchain, hcerts]
    exact iff_of_true rfl fun _ _ => trivial
  · obtain ⟨s, hs, hrest⟩ := ctx.zlib.lossless
      (ctx.buildZlibDictForEntries (ctx.sent setHashes chain))
      (uncompressed (compressedCerts (ctx.sent setHashes chain)))
    rw [if_neg (mt all_ne_compressed_iff.mp hcerts), compressedPart,
      if_pos (totalUncompressedLen_pos_iff.mpr hcerts), readNat_toBytes_mod, ok_bind]
    dsimp only
    -- both sides use the same dictionary, so that the library is lossless
    rw [buildZlibDictForEntries_received, hs]
    dsimp only
    rw [readCerts_eq_ok_iff 0 hlen (by decide) (by rw [Nat.zero_add]; rfl) hrest,
      and_iff_left nofun]
    constructor
    · intro h s' hs'
      exact Option.some.inj hs' ▸ h
    · exact fun h => h s rfl

/-- The certificates of the common sets are in the result. -/
theorem forall₂_of_restore {data : List UInt8} {certs : List Cert}
    (h : ctx.restore entries data = .ok certs) :
    List.Forall₂ (fun entry cert => entry.1 ≠ .compressed → entry.2 = cert) entries certs := by
  unfold restore at h
  split_ifs at h with hall
  · obtain rfl := Except.ok.inj h
    exact List.forall₂_map_right_iff.mpr (List.forall₂_same.mpr fun _ _ _ => rfl)
  · obtain ⟨⟨uncompressedLength, data'⟩, -, h⟩ := bind_eq_ok h
    dsimp only at h
    split at h
    · cases h
    · exact forall₂_of_readCerts h

/-- What was found for the entries of a chain leads to the chain only if the indices fit. -/
theorem indexed_of_forall₂ {chain : List Cert} {entries : List (CertEntry × Cert)}
    (hfound : List.Forall₂
      (fun cert entry => ctx.resolve (ctx.entryOf setHashes cert) = .ok entry) chain entries)
    (hkept : List.Forall₂ (fun entry cert => entry.1 ≠ .compressed → entry.2 = cert) entries
      chain) : ∀ cert ∈ chain, ctx.Indexed setHashes cert := by
  induction hfound with
  | nil => exact nofun
  | cons hresolve _ ih =>
    obtain ⟨hcert, hkept⟩ := List.forall₂_cons.mp hkept
    exact List.forall_mem_cons.mpr ⟨indexed_of_resolve_entryOf hresolve hcert, ih hkept⟩

theorem forall₂_resolve_iff (hindexed : ∀ cert ∈ chain, ctx.Indexed setHashes cert) :
    List.Forall₂ (fun cert entry => ctx.resolve (ctx.entryOf setHashes cert) = .ok entry)
      chain entries ↔ entries = ctx.received setHashes chain := by
  constructor
  · intro h
    induction h with
    | nil => rfl
    | cons hresolve _ ih =>
      obtain ⟨hcert, hindexed⟩ := List.forall_mem_cons.mp hindexed
      rw [resolve_entryOf_of_indexed hcert] at hresolve
      rw [received_cons, ← Except.ok.inj hresolve, ih hindexed]
  · rintro rfl
    refine List.forall₂_map_right_iff.mpr (List.forall₂_same.mpr fun cert hcert => ?_)
    exact resolve_entryOf_of_indexed (hindexed cert hcert)

theorem length_le_length_flatMap_writeEntry (entries : List (CertEntry × Cert)) :
    entries.length ≤ (entries.flatMap (writeEntry ·.1)).length := by
  induction entries with
  | nil => exact le_refl 0
  | cons entry entries ih =>
    have hpos : 0 < (writeEntry entry.1).length := by
      cases entry.1 <;> exact Nat.succ_pos _
    rw [List.flatMap_cons, List.length_append, List.length_cons]
    omega

theorem splitHashes_lt {hashes : List UInt8} (hsets : splitHashes hashes = .ok setHashes) :
    ∀ setHash ∈ setHashes, setHash < uint64Size := by
  unfold splitHashes at hsets
  split_ifs at hsets
  obtain rfl := Except.ok.inj hsets
  intro setHash hmem
  obtain ⟨i, -, rfl⟩ := List.mem_map.mp hmem
  refine (ofBytes_lt _ _).trans_le ?_
  exact Nat.pow_le_pow_right (by decide) (List.length_take_le _ _)

/-- The positions in sets of less than `2 ^ 32` certificates fit. -/
theorem indexed_of_length_lt
    (hsmall : ∀ setHash set, ctx.certSets setHash = some set → set.length < uint32Size)
    (cert : Cert) : ctx.Indexed setHashes cert := by
  intro setHash pos set hcommon hset
  obtain ⟨-, set', hset', hpos⟩ := findCommon_eq_some hcommon
  obtain rfl := Option.some.inj (hset.symm.trans hset')
  obtain ⟨hlt, -⟩ := List.findIdx?_eq_some_iff_getElem.mp hpos
  rwa [Nat.mod_eq_of_lt (hsmall setHash set hset)]

/-- A chain of less than `2 ^ 32` bytes, for which there are no cached certificates, is restored
exactly if the reader of the library delivers it. -/
theorem decompressChain_compressChain_iff (ctx : CertContext) {chain : List Cert}
    {pCommonSetHashes : List UInt8} {setHashes : List ℕ}
    (hsets : splitHashes pCommonSetHashes = .ok setHashes)
    (htotal : (chain.map List.length).sum < uint32Size) :
    (ctx.compressChain chain pCommonSetHashes [] >>= ctx.decompressChain) = .ok chain ↔
      ctx.Restorable setHashes chain := by
  have hlen : ∀ cert ∈ chain, cert.length < uint32Size := fun cert hcert =>
    (List.le_sum_of_mem (List.mem_map_of_mem hcert)).trans_lt htotal
  have hrounds : chain.length < ((ctx.sent setHashes chain).flatMap (writeEntry ·.1) ++
      0 :: ctx.compressedPart (ctx.sent setHashes chain)).length + 1 := by
    have hle := length_le_length_flatMap_writeEntry (ctx.sent setHashes chain)
    rw [sent, List.length_map] at hle
    rw [List.length_append, sent]
    omega
  rw [compressChain_eq hsets, ok_bind]
  unfold decompressChain
  constructor
  · intro h
    obtain ⟨⟨entries, data⟩, hentries, h⟩ := bind_eq_ok h
    -- the indices have to fit before the dictionaries are known to be the same
    obtain ⟨hfound, rfl⟩ :=
      (readEntries_eq_ok_iff (splitHashes_lt hsets) chain _ hrounds).mp hentries
    have hindexed := indexed_of_forall₂ hfound (forall₂_of_restore h)
    obtain rfl := (forall₂_resolve_iff hindexed).mp hfound
    exact (restore_received_eq_ok_iff hlen hindexed).mp h
  · intro h
    have hfound := (forall₂_resolve_iff h.1).mpr rfl
    rw [(readEntries_eq_ok_iff (splitHashes_lt hsets) chain _ hrounds).mpr ⟨hfound, rfl⟩, ok_bind]
    exact (restore_received_eq_ok_iff hlen h.1).mpr h

/-- A library that does not compress, whose reader has the given limit on the chunks. -/
def storedZlib (limit : ℕ → ℕ) (eager : Bool) : Zlib where
  State := List UInt8
  reader := .chopped limit eager .eof
  compress _ data := data
  newReaderDict compressed _ := some compressed
  lossless _ data := ⟨data, rfl, rfl⟩

/-- One common set, of two certificates. -/
def exampleContext (limit : ℕ → ℕ) (eager : Bool) : CertContext where
  certSets h := if h = 0x1337 then some [[1, 2, 3, 4], [5, 6, 7, 8]] else none
  certDictZlib := []
  zlib := storedZlib limit eager

/-- With full reads, a chain with a common certificate between two others is restored. -/
theorem decompressChain_compressChain_full :
    ((exampleContext id false).compressChain [[0xde, 0xca, 0xfb, 0xad], [5, 6, 7, 8], []]
        (toBytes .little 8 0x1337) [] >>= (exampleContext id false).decompressChain) =
      .ok [[0xde, 0xca, 0xfb, 0xad], [5, 6, 7, 8], []] := by
  have hsets : splitHashes (toBytes .little 8 0x1337) = .ok [0x1337] := rfl
  -- all reads are full
  have hdelivers : (exampleContext id false).Delivers 12 [[0xde, 0xca, 0xfb, 0xad], []]
      (uncompressed [[0xde, 0xca, 0xfb, 0xad], []]) 0 :=
    ⟨rfl, .inl rfl, .inl rfl, rfl, .inl rfl, .inl rfl, trivial⟩
  refine (decompressChain_compressChain_iff (exampleContext id false) hsets (by decide)).mpr
    ⟨fun cert _ => indexed_of_length_lt ?_ cert, fun s hs => ?_⟩
  · intro setHash set hset
    dsimp only [exampleContext] at hset
    split_ifs at hset
    obtain rfl := Option.some.inj hset
    decide
  · obtain rfl := Option.some.inj hs
    exact hdelivers

/-- If the reader delivers three bytes at a time, another certificate is returned, without an error:
the length lacks its last byte, which is zero, and the certificate starts with it and lacks its last
byte. If the reader reports the end with the last bytes, a chain that ends with an empty certificate
is rejected. -/
theorem decompressChain_compressChain_chopped :
    ((exampleContext (min 3) false).compressChain [[1, 2, 3, 4]] [] [] >>=
        (exampleContext (min 3) false).decompressChain) = .ok [[0, 1, 2, 0]] ∧
      ((exampleContext id true).compressChain [[1, 2, 3, 4], []] [] [] >>=
        (exampleContext id true).decompressChain) = .error .eof :=
  ⟨rfl, rfl⟩

end CertContext

end MPQuic
