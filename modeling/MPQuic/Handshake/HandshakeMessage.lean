import Mathlib.Data.Finmap
import Mathlib.Data.Finset.Sort
import MPQuic.Lib.Bytes
import MPQuic.Protocol

/-!
# Handshake messages

`internal/handshake/handshake_message.go`. A message is written as its tag, the number of its
entries, an index and the values. The index has the tag of each entry and the offset at which its
value ends. The parser gets the length of a value as the difference of two offsets in `uint32`.

A difference that wraps around is always too long to be accepted: the offsets that were accepted
before are at most 4000 bytes apart, so that the last one is still far from `2 ^ 32`.
`readValues_eq_ok` carries this along the index.

* `parse_write`: a message is read back as it was written.
* `accepted_of_parse`: what is accepted is well formed.
-/

namespace MPQuic

open Bytes
open Reader (pure_eq_ok bind_ok)

instance : NeZero uint32Size := ⟨by decide⟩

/-- A tag of the QUIC crypto handshake. -/
abbrev Tag := Fin uint32Size

/-- The values of the tags in a message. -/
abbrev TagMap := Finmap fun _ : Tag => List UInt8

/-- The upper limit for the number of parameters in a crypto message. -/
def cryptoMaxParams : ℕ := 128

/-- The upper limit for the length of a parameter in a crypto message. -/
def cryptoParameterMaxLength : ℕ := 4000

/-- A handshake message. -/
structure HandshakeMessage where
  tag : Tag
  data : TagMap

/-- The errors of the parser. -/
inductive HandshakeError where
  | eof
  | unexpectedEOF
  | cryptoTooManyEntries
  /-- "value too long" -/
  | cryptoInvalidValueLength
  deriving DecidableEq

/-- A reader of the bytes of a handshake message. -/
abbrev HandshakeReader := Reader HandshakeError

namespace HandshakeMessage

/-! ## Writing -/

/-- The tags in ascending order. -/
def getTagsSorted (h : HandshakeMessage) : List Tag := h.data.keys.sort

/-- The index of the given entries, whose values start at `offset`. -/
def indexData : ℕ → List (Tag × List UInt8) → List UInt8
  | _, [] => []
  | offset, (t, v) :: entries =>
    let offset := uint32Add offset v.length
    toBytes .little 4 t ++ (toBytes .little 4 offset ++ indexData offset entries)

/-- The entries in the order in which they are written. -/
def entries (h : HandshakeMessage) : List (Tag × List UInt8) :=
  h.getTagsSorted.map fun t => (t, (h.data.lookup t).getD [])

/-- Write a handshake message. -/
def write (h : HandshakeMessage) : List UInt8 :=
  toBytes .little 4 h.tag ++ (toBytes .little 2 h.data.keys.card ++ (toBytes .little 2 0 ++
    (indexData 0 h.entries ++ h.entries.flatMap (·.2))))

/-! ## Parsing -/

/-- Read exactly `n` bytes. -/
def readSlice (n : ℕ) : HandshakeReader (List UInt8) := readFull .eof .unexpectedEOF n

/-- Read four bytes as a number. -/
def readUint32 : HandshakeReader ℕ := do
  let slice4 ← readSlice 4
  return ofBytes .little slice4

/-- The tags and end offsets of an index with `nPairs` entries. -/
def indexEntries : ℕ → List UInt8 → List (Tag × ℕ)
  | 0, _ => []
  | nPairs + 1, index =>
    (Fin.ofNat uint32Size (ofBytes .little (index.take 4)),
      ofBytes .little ((index.drop 4).take 4)) :: indexEntries nPairs (index.drop 8)

/-- Read the values of the entries of an index. A tag that occurs again replaces its value. -/
def readValues : List (Tag × ℕ) → ℕ → TagMap → HandshakeReader TagMap
  | [], _, resultMap => pure resultMap
  | (tag, dataEnd) :: entries, dataStart, resultMap => do
    let dataLen := uint32Sub dataEnd dataStart
    Reader.failIf (cryptoParameterMaxLength < dataLen) .cryptoInvalidValueLength
    let data ← readSlice dataLen
    readValues entries dataEnd (resultMap.insert tag data)

/-- Read a handshake message. -/
def parse : HandshakeReader HandshakeMessage := do
  let messageTag ← readUint32
  let nPairs ← readUint32
  Reader.failIf (cryptoMaxParams < nPairs) .cryptoTooManyEntries
  let index ← readSlice (nPairs * 8)
  let data ← readValues (indexEntries nPairs index) 0 ∅
  return { tag := Fin.ofNat uint32Size messageTag, data }

/-! ## What is accepted -/

/-- The part of the values that belongs to an entry of the index. -/
structure Span where
  tag : Tag
  dataStart : ℕ
  dataEnd : ℕ

/-- The entries of an index with the offsets between which their values lie. -/
def spans : ℕ → List (Tag × ℕ) → List Span
  | _, [] => []
  | dataStart, (tag, dataEnd) :: entries => ⟨tag, dataStart, dataEnd⟩ :: spans dataEnd entries

/-- The bytes between the two offsets. -/
def Span.slice (values : List UInt8) (s : Span) : List UInt8 :=
  (values.drop s.dataStart).take (s.dataEnd - s.dataStart)

/-- The last entry for a tag. -/
def lastSpan (t : Tag) (l : List Span) : Option Span := l.reverse.find? (·.tag = t)

theorem lastSpan_cons (t : Tag) (s : Span) (l : List Span) :
    lastSpan t (s :: l) = (lastSpan t l).or (if s.tag = t then some s else none) := by
  rw [lastSpan, List.reverse_cons, List.find?_append, ← lastSpan]
  congr 1
  split_ifs with h <;> simp [h]

/-- The offset at which the last value ends. -/
def lastOffset (dataStart : ℕ) (index : List (Tag × ℕ)) : ℕ := (index.map (·.2)).getLastD dataStart

theorem lastOffset_cons (dataStart : ℕ) (e : Tag × ℕ) (index : List (Tag × ℕ)) :
    lastOffset dataStart (e :: index) = lastOffset e.2 index := by
  rw [lastOffset, List.map_cons, List.getLastD_cons, lastOffset]

/-- A difference of offsets that wraps around is longer than any value: the offset before it is not
close to the end of the range. -/
theorem uint32Sub_eq_of_le {dataStart dataEnd : ℕ} (hend : dataEnd < uint32Size)
    (hroom : dataStart + cryptoParameterMaxLength < uint32Size)
    (hle : uint32Sub dataEnd dataStart ≤ cryptoParameterMaxLength) :
    dataStart ≤ dataEnd ∧ uint32Sub dataEnd dataStart = dataEnd - dataStart := by
  unfold uint32Sub uint32Size cryptoParameterMaxLength at *
  omega

/-- The parser reads the values one after the other. Each entry that it accepts ends at most 4000
bytes after the one before it, so that the room to the end of the range lasts for all entries. -/
theorem readValues_eq_ok {index : List (Tag × ℕ)} {dataStart : ℕ} {m m' : TagMap}
    {values rest : List UInt8}
    (h : readValues index dataStart m (values.drop dataStart) = .ok (m', rest))
    (hends : ∀ e ∈ index, e.2 < uint32Size) (hstart : dataStart ≤ values.length)
    (hroom : dataStart + cryptoParameterMaxLength * index.length < uint32Size) :
    (dataStart :: index.map (·.2)).IsChain (· ≤ ·) ∧
      (∀ s ∈ spans dataStart index, s.dataStart ≤ s.dataEnd ∧
        uint32Sub s.dataEnd s.dataStart = s.dataEnd - s.dataStart) ∧
      (∀ t, m'.lookup t =
        ((lastSpan t (spans dataStart index)).map (·.slice values)).or (m.lookup t)) ∧
      lastOffset dataStart index ≤ values.length ∧
      rest = values.drop (lastOffset dataStart index) := by
  induction index generalizing dataStart m with
  | nil =>
    obtain ⟨rfl, rfl⟩ := pure_eq_ok h
    exact ⟨List.isChain_singleton _, by simp [spans], fun t => rfl, hstart, rfl⟩
  | cons e index ih =>
    obtain ⟨tag, dataEnd⟩ := e
    obtain ⟨u, bs, hfail, h₁⟩ := Reader.bind_eq_ok h
    obtain ⟨hle, rfl⟩ := Reader.failIf_eq_ok hfail
    obtain ⟨data, bs', hdata, h₂⟩ := Reader.bind_eq_ok h₁
    have hend : dataEnd < uint32Size := hends _ List.mem_cons_self
    rw [List.length_cons, Nat.mul_succ] at hroom
    have hnext : dataStart + cryptoParameterMaxLength < uint32Size := by omega
    obtain ⟨hmono, hlen⟩ := uint32Sub_eq_of_le hend hnext (Nat.le_of_not_lt hle)
    obtain ⟨hfits, rfl, rfl⟩ := readFull_eq_ok hdata
    rw [List.length_drop, hlen] at hfits
    rw [List.drop_drop, hlen, Nat.add_sub_cancel' hmono] at h₂
    obtain ⟨hchain, hexact, hlookup, hlast, hrest⟩ :=
      ih h₂ (fun e he => hends e (List.mem_cons_of_mem _ he)) (by omega) (by omega)
    rw [lastOffset_cons]
    refine ⟨List.isChain_cons_cons.mpr ⟨hmono, hchain⟩, ?_, fun t => ?_, hlast, hrest⟩
    · rintro s (_ | ⟨_, hs⟩)
      · exact ⟨hmono, hlen⟩
      · exact hexact s hs
    · rw [hlookup t, spans, lastSpan_cons, Option.map_or, Option.or_assoc]
      congr 1
      split_ifs with htag
      · rw [← htag, Finmap.lookup_insert]
        rfl
      · rw [Finmap.lookup_insert_of_ne _ (Ne.symm htag)]
        rfl

theorem length_indexEntries (n : ℕ) (bs : List UInt8) : (indexEntries n bs).length = n := by
  induction n generalizing bs with
  | zero => rfl
  | succ n ih => rw [indexEntries, List.length_cons, ih]

theorem ofBytes_take_four_lt (bs : List UInt8) : ofBytes .little (bs.take 4) < uint32Size := by
  refine (ofBytes_lt .little (bs.take 4)).trans_le ?_
  calc 256 ^ (bs.take 4).length ≤ 256 ^ 4 := Nat.pow_le_pow_right (by decide) (by simp)
    _ = uint32Size := by decide

theorem end_lt_of_mem_indexEntries {n : ℕ} {bs : List UInt8} {e : Tag × ℕ}
    (h : e ∈ indexEntries n bs) : e.2 < uint32Size := by
  induction n generalizing bs with
  | zero => cases h
  | succ n ih =>
    rcases List.mem_cons.mp h with rfl | htail
    · exact ofBytes_take_four_lt _
    · exact ih htail

/-- The number of entries in the header of a message. -/
def entryCount (bytes : List UInt8) : ℕ := ofBytes .little ((bytes.drop 4).take 4)

/-- The entries in the index of a message. -/
def indexOf (bytes : List UInt8) : List (Tag × ℕ) :=
  indexEntries (entryCount bytes) ((bytes.drop 8).take (8 * entryCount bytes))

/-- What the parser relies on in the bytes that it accepts. -/
structure Accepted (bytes : List UInt8) (m : HandshakeMessage) (rest : List UInt8) : Prop where
  entryCount_le : entryCount bytes ≤ cryptoMaxParams
  /-- The end offsets of the index do not decrease. -/
  offsets_mono : (0 :: (indexOf bytes).map (·.2)).IsChain (· ≤ ·)
  /-- No difference of offsets wraps around. -/
  differences_exact : ∀ s ∈ spans 0 (indexOf bytes), s.dataStart ≤ s.dataEnd ∧
    uint32Sub s.dataEnd s.dataStart = s.dataEnd - s.dataStart
  /-- The value of a tag is the slice that belongs to its last entry. -/
  values_eq : ∀ t, m.data.lookup t =
    (lastSpan t (spans 0 (indexOf bytes))).map
      (·.slice (bytes.drop (8 + 8 * entryCount bytes)))
  tag_eq : m.tag = Fin.ofNat uint32Size (ofBytes .little (bytes.take 4))
  /-- Exactly the header, the index and the values are consumed. -/
  consumed_le : 8 + 8 * entryCount bytes + lastOffset 0 (indexOf bytes) ≤ bytes.length
  rest_eq : rest = bytes.drop (8 + 8 * entryCount bytes + lastOffset 0 (indexOf bytes))

theorem readUint32_eq_ok {bs rest : List UInt8} {n : ℕ} (h : readUint32 bs = .ok (n, rest)) :
    4 ≤ bs.length ∧ n = ofBytes .little (bs.take 4) ∧ rest = bs.drop 4 := by
  obtain ⟨slice4, bs', hread, h₁⟩ := Reader.bind_eq_ok h
  obtain ⟨rfl, rfl⟩ := pure_eq_ok h₁
  obtain ⟨hle, rfl, rfl⟩ := readFull_eq_ok hread
  exact ⟨hle, rfl, rfl⟩

theorem readUint32_toBytes {n : ℕ} (h : n < uint32Size) (rest : List UInt8) :
    readUint32 (toBytes .little 4 n ++ rest) = .ok (n, rest) := by
  refine (bind_ok (readFull_append _ _ (length_toBytes _ _ _) rest)).trans ?_
  rw [ofBytes_toBytes h]
  rfl

/-- What is accepted is well formed. -/
theorem accepted_of_parse {bytes rest : List UInt8} {m : HandshakeMessage}
    (h : parse bytes = .ok (m, rest)) : Accepted bytes m rest := by
  obtain ⟨messageTag, bs₁, hmessageTag, h₁⟩ := Reader.bind_eq_ok h
  obtain ⟨htag_le, rfl, rfl⟩ := readUint32_eq_ok hmessageTag
  obtain ⟨nPairs, bs₂, hnPairs, h₂⟩ := Reader.bind_eq_ok h₁
  obtain ⟨hn_le, hn, rfl⟩ := readUint32_eq_ok hnPairs
  obtain ⟨u, bs₃, hfail, h₃⟩ := Reader.bind_eq_ok h₂
  obtain ⟨hmax, rfl⟩ := Reader.failIf_eq_ok hfail
  obtain ⟨index, bs₄, hindex, h₄⟩ := Reader.bind_eq_ok h₃
  obtain ⟨hindex_le, rfl, rfl⟩ := readFull_eq_ok hindex
  obtain ⟨data, bs₅, hdata, h₅⟩ := Reader.bind_eq_ok h₄
  obtain ⟨rfl, rfl⟩ := pure_eq_ok h₅
  obtain rfl : nPairs = entryCount bytes := hn
  rw [List.length_drop] at hn_le
  rw [List.length_drop, List.length_drop] at hindex_le
  simp only [List.drop_drop, Nat.mul_comm _ 8] at hdata
  have hvalues : readValues (indexOf bytes) 0 ∅
      ((bytes.drop (8 + 8 * entryCount bytes)).drop 0) = .ok (data, rest) := hdata
  have hroom : 0 + cryptoParameterMaxLength * (indexOf bytes).length < uint32Size := by
    rw [indexOf, length_indexEntries]
    unfold cryptoMaxParams cryptoParameterMaxLength uint32Size at *
    omega
  obtain ⟨hchain, hexact, hlookup, hlast, hrest⟩ := readValues_eq_ok hvalues
    (fun e he => end_lt_of_mem_indexEntries he) (Nat.zero_le _) hroom
  rw [List.length_drop] at hlast
  exact
    { entryCount_le := Nat.le_of_not_lt hmax
      offsets_mono := hchain
      differences_exact := hexact
      values_eq := fun t => (hlookup t).trans Option.or_none
      tag_eq := rfl
      consumed_le := by omega
      rest_eq := by rw [hrest, List.drop_drop] }

/-! ## Round trip -/

/-- The entries of a written index. -/
def endOffsets : ℕ → List (Tag × List UInt8) → List (Tag × ℕ)
  | _, [] => []
  | offset, (t, v) :: entries => (t, offset + v.length) :: endOffsets (offset + v.length) entries

theorem indexEntries_indexData {offset : ℕ} {entries : List (Tag × List UInt8)}
    (hlen : ∀ e ∈ entries, e.2.length ≤ cryptoParameterMaxLength)
    (hroom : offset + cryptoParameterMaxLength * entries.length < uint32Size) :
    indexEntries entries.length (indexData offset entries) = endOffsets offset entries := by
  induction entries generalizing offset with
  | nil => rfl
  | cons e entries ih =>
    obtain ⟨t, v⟩ := e
    have hv : v.length ≤ cryptoParameterMaxLength := hlen _ List.mem_cons_self
    rw [List.length_cons, Nat.mul_succ] at hroom
    have hoffset : offset + v.length < uint32Size := by omega
    rw [List.length_cons, indexEntries, indexData, endOffsets, uint32Add_eq hoffset]
    rw [List.take_left' (length_toBytes _ _ _), List.drop_left' (length_toBytes _ _ _),
      List.take_left' (length_toBytes _ _ _), ofBytes_toBytes t.isLt, ofBytes_toBytes hoffset,
      ← List.append_assoc, List.drop_left' (by rw [List.length_append, length_toBytes,
        length_toBytes]), ih (fun e he => hlen e (List.mem_cons_of_mem _ he)) (by omega)]
    congr 2
    exact Fin.ofNat_val_eq_self t

theorem length_indexData (offset : ℕ) (entries : List (Tag × List UInt8)) :
    (indexData offset entries).length = entries.length * 8 := by
  induction entries generalizing offset with
  | nil => rfl
  | cons e entries ih =>
    obtain ⟨t, v⟩ := e
    rw [indexData, List.length_append, List.length_append, length_toBytes, length_toBytes, ih,
      List.length_cons, Nat.succ_mul]
    omega

/-- The values are read back from the end offsets that were written. -/
theorem readValues_endOffsets {offset : ℕ} {entries : List (Tag × List UInt8)} (m : TagMap)
    (hlen : ∀ e ∈ entries, e.2.length ≤ cryptoParameterMaxLength)
    (hroom : offset + cryptoParameterMaxLength * entries.length < uint32Size) :
    readValues (endOffsets offset entries) offset m (entries.flatMap (·.2)) =
      .ok (entries.foldl (fun m e => m.insert e.1 e.2) m, []) := by
  induction entries generalizing offset m with
  | nil => rfl
  | cons e entries ih =>
    obtain ⟨t, v⟩ := e
    have hv : v.length ≤ cryptoParameterMaxLength := hlen _ List.mem_cons_self
    rw [List.length_cons, Nat.mul_succ] at hroom
    have hsub : uint32Sub (offset + v.length) offset = v.length := by
      rw [uint32Sub_eq (by omega) (Nat.le_add_right _ _), Nat.add_sub_cancel_left]
    rw [endOffsets, readValues, hsub, List.flatMap_cons]
    refine (bind_ok (Reader.failIf_false (Nat.not_lt.mpr hv) _ _)).trans ?_
    refine (bind_ok (readFull_append _ _ rfl _)).trans ?_
    exact ih (m.insert t v) (fun e he => hlen e (List.mem_cons_of_mem _ he)) (by omega)

theorem lookup_foldl_insert (f : Tag → List UInt8) (tags : List Tag) (m : TagMap) (t : Tag) :
    ((tags.map fun t => (t, f t)).foldl (fun m e => m.insert e.1 e.2) m).lookup t =
      if t ∈ tags then some (f t) else m.lookup t := by
  induction tags generalizing m with
  | nil => rfl
  | cons t' tags ih =>
    rw [List.map_cons, List.foldl_cons, ih]
    rcases eq_or_ne t t' with rfl | hne
    · rw [Finmap.lookup_insert, if_pos List.mem_cons_self, ite_self]
    · rw [Finmap.lookup_insert_of_ne _ hne]
      simp only [List.mem_cons, hne, false_or]

/-- Inserting the entries into an empty map gives the map they were taken from. -/
theorem foldl_insert_entries (h : HandshakeMessage) :
    h.entries.foldl (fun m e => m.insert e.1 e.2) ∅ = h.data := by
  apply Finmap.ext_lookup
  intro t
  simp only [entries, lookup_foldl_insert, getTagsSorted, Finset.mem_sort, Finmap.mem_keys]
  split_ifs with hmem
  · obtain ⟨v, hv⟩ := Finmap.mem_iff.mp hmem
    rw [hv, Option.getD_some]
  · rw [Finmap.lookup_empty, Finmap.lookup_eq_none.mpr hmem]

theorem length_entries (h : HandshakeMessage) : h.entries.length = h.data.keys.card := by
  rw [entries, List.length_map, getTagsSorted, Finset.length_sort]

/-- A message within the limits of the parser is read back with all bytes consumed. -/
theorem parse_write {h : HandshakeMessage} (hcard : h.data.keys.card ≤ cryptoMaxParams)
    (hlen : ∀ t v, h.data.lookup t = some v → v.length ≤ cryptoParameterMaxLength) :
    parse h.write = .ok (h, []) := by
  have hentries : ∀ e ∈ h.entries, e.2.length ≤ cryptoParameterMaxLength := by
    intro e he
    obtain ⟨t, -, rfl⟩ := List.mem_map.mp he
    dsimp only
    cases hv : h.data.lookup t with
    | none => exact Nat.zero_le _
    | some v => exact hlen t v hv
  have hroom : 0 + cryptoParameterMaxLength * h.entries.length < uint32Size := by
    rw [length_entries]
    unfold cryptoMaxParams cryptoParameterMaxLength uint32Size at *
    omega
  have hindex := indexEntries_indexData hentries hroom
  have hvalues := readValues_endOffsets ∅ hentries hroom
  -- the 16-bit number and the zeros after it are read as one 32-bit number
  have hcount : toBytes .little 2 h.data.keys.card ++ toBytes .little 2 0 =
      toBytes .little 4 h.entries.length := by
    have hzero : h.data.keys.card / 256 ^ 2 = 0 :=
      Nat.div_eq_of_lt (hcard.trans_lt (by decide))
    rw [length_entries]
    exact (hzero ▸ toLittle_add 2 2 h.data.keys.card).symm
  have hcount_lt : h.entries.length < uint32Size := by
    unfold uint32Size cryptoParameterMaxLength at hroom
    unfold uint32Size
    omega
  rw [write, ← List.append_assoc (toBytes .little 2 _), hcount]
  refine (bind_ok (readUint32_toBytes h.tag.isLt _)).trans ?_
  refine (bind_ok (readUint32_toBytes hcount_lt _)).trans ?_
  refine (bind_ok (Reader.failIf_false ?_ _ _)).trans ?_
  · rw [length_entries]
    exact Nat.not_lt.mpr hcard
  refine (bind_ok (readFull_append _ _ (length_indexData _ _) _)).trans ?_
  rw [hindex]
  refine (bind_ok hvalues).trans ?_
  rw [foldl_insert_entries, Fin.ofNat_val_eq_self]
  rfl

/-- Every message within the limits is read back, with all bytes consumed, and every byte string
that is accepted is well formed. -/
theorem parse_write_and_accepted :
    (∀ h : HandshakeMessage, h.data.keys.card ≤ cryptoMaxParams →
      (∀ t v, h.data.lookup t = some v → v.length ≤ cryptoParameterMaxLength) →
      parse h.write = .ok (h, [])) ∧
    ∀ bytes m rest, parse bytes = .ok (m, rest) → Accepted bytes m rest :=
  ⟨fun _ hcard hlen => parse_write hcard hlen, fun _ _ _ => accepted_of_parse⟩

/-- A message with two tags. -/
def exampleMessage : HandshakeMessage where
  tag := 0x4f4c4843
  data :=
    let sig : TagMap := Finmap.insert (0x00474953 : Tag) ([1, 2, 3] : List UInt8) ∅
    sig.insert (0x00444150 : Tag) ([] : List UInt8)

/-- The message is read back. -/
theorem parse_write_exampleMessage :
    parse exampleMessage.write = .ok (exampleMessage, []) ∧
      Accepted exampleMessage.write exampleMessage [] := by
  have hlen : ∀ t v, exampleMessage.data.lookup t = some v →
      v.length ≤ cryptoParameterMaxLength := by
    intro t v hv
    rw [exampleMessage] at hv
    rcases eq_or_ne t 0x00444150 with rfl | hne
    · rw [Finmap.lookup_insert] at hv
      obtain rfl := Option.some.inj hv
      decide
    rw [Finmap.lookup_insert_of_ne _ hne] at hv
    rcases eq_or_ne t 0x00474953 with rfl | hne'
    · rw [Finmap.lookup_insert] at hv
      obtain rfl := Option.some.inj hv
      decide
    · rw [Finmap.lookup_insert_of_ne _ hne', Finmap.lookup_empty] at hv
      cases hv
  have hparse := parse_write_and_accepted.1 exampleMessage (by decide) hlen
  exact ⟨hparse, parse_write_and_accepted.2 _ _ _ hparse⟩

end HandshakeMessage

end MPQuic
