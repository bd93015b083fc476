import MPQuic.Handshake.HandshakeMessage

/-!
# Tags of the crypto handshake

The tags of `internal/handshake/tags.go` for server configs and public resets, and what the parser
makes of a map of tags that somebody builds: `Fits.parse_write`.
-/

namespace MPQuic

open Bytes

/-- A server config. -/
def tagSCFG : Tag := 0x47464353
/-- The server config ID. -/
def tagSCID : Tag := 0x44494353
/-- The list of key exchange algorithms. -/
def tagKEXS : Tag := 0x5358454b
/-- The list of AEAD algorithms. -/
def tagAEAD : Tag := 0x44414541
/-- The public value for the key exchange. -/
def tagPUBS : Tag := 0x53425550
/-- The client orbit. -/
def tagOBIT : Tag := 0x5449424f
/-- The server config expiry. -/
def tagEXPY : Tag := 0x59505845
/-- The public reset tag. -/
def tagPRST : Tag := 0x54535250
/-- The public reset rejected packet number. -/
def tagRSEQ : Tag := 0x51455352
/-- The public reset nonce. -/
def tagRNON : Tag := 0x4e4f4e52

namespace TagMap

theorem lookup_insert_eq (m : TagMap) (a t : Tag) (v : List UInt8) :
    (m.insert a v).lookup t = if t = a then some v else m.lookup t := by
  split_ifs with h
  · rw [h, Finmap.lookup_insert]
  · exact Finmap.lookup_insert_of_ne m h

theorem keys_insert (m : TagMap) (a : Tag) (v : List UInt8) :
    (m.insert a v).keys = Insert.insert a m.keys := by
  ext t
  rw [Finmap.mem_keys, Finmap.mem_insert, Finset.mem_insert, Finmap.mem_keys]

/-! ## Maps that can be sent -/

/-- The map has at most `n` entries, and the parser accepts the length of each value. -/
structure Fits (n : ℕ) (m : TagMap) : Prop where
  card_le : m.keys.card ≤ n
  length_le : ∀ t v, m.lookup t = some v → v.length ≤ cryptoParameterMaxLength

section Fits

variable {n : ℕ} {m : TagMap} {t : Tag} {v : List UInt8}

theorem fits_empty : Fits 0 ∅ where
  card_le := Nat.le_refl 0
  length_le := fun t v h => by rw [Finmap.lookup_empty] at h; cases h

theorem Fits.insert (h : m.Fits n) (hv : v.length ≤ cryptoParameterMaxLength) :
    Fits (n + 1) (m.insert t v) where
  card_le := by
    rw [keys_insert]
    exact (Finset.card_insert_le _ _).trans (Nat.succ_le_succ h.card_le)
  length_le := by
    intro t' v' hlookup
    rw [lookup_insert_eq] at hlookup
    split_ifs at hlookup
    · exact Option.some.inj hlookup ▸ hv
    · exact h.length_le t' v' hlookup

/-- A message with such a map is read back by the peer. -/
theorem Fits.parse_write (h : m.Fits n) (hn : n ≤ cryptoMaxParams) :
    HandshakeMessage.parse (HandshakeMessage.write ⟨t, m⟩) = .ok (⟨t, m⟩, []) :=
  HandshakeMessage.parse_write (h.card_le.trans hn) h.length_le

end Fits

end TagMap

end MPQuic
