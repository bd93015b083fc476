import MPQuic.Wire.ByteOrder

/-!
# STREAM frames

`internal/wire/stream_frame.go`. The last frame of a packet may omit its data length; its data
then extends to the end of the packet. `parse_write` is the round trip of a frame that carries its
length, whatever follows it, and of a frame without length at the end of a packet.
-/

namespace MPQuic

open Bytes
open Reader (failIf bind_ok failIf_false)

/-- A STREAM frame. -/
structure StreamFrame where
  streamID : ℕ
  finBit : Bool
  dataLenPresent : Bool
  offset : ℕ
  data : List UInt8
  deriving DecidableEq, Inhabited

namespace StreamFrame

/-- The length of the data in bytes. -/
def dataLen (f : StreamFrame) : ℕ := f.data.length

/-- The number of bytes of the stream id. -/
def calculateStreamIDLength (f : StreamFrame) : ℕ :=
  if f.streamID < 2 ^ 8 then 1
  else if f.streamID < 2 ^ 16 then 2
  else if f.streamID < 2 ^ 24 then 3
  else 4

/-- The number of bytes of the offset. -/
def getOffsetLength (f : StreamFrame) : ℕ :=
  if f.offset = 0 then 0
  else if f.offset < 2 ^ 16 then 2
  else if f.offset < 2 ^ 24 then 3
  else if f.offset < 2 ^ 32 then 4
  else if f.offset < 2 ^ 40 then 5
  else if f.offset < 2 ^ 48 then 6
  else if f.offset < 2 ^ 56 then 7
  else 8

/-- The length of the header; the total length of the frame is `minLength + dataLen`. -/
def minLength (f : StreamFrame) : ℕ :=
  1 + f.calculateStreamIDLength + f.getOffsetLength + if f.dataLenPresent then 2 else 0

/-- The type byte for the given flags and field lengths. -/
def typeByte (finBit dataLenPresent : Bool) (offsetLength streamIDLen : ℕ) : UInt8 :=
  let t : UInt8 := 0x80
  let t := if finBit then t ^^^ 0x40 else t
  let t := if dataLenPresent then t ^^^ 0x20 else t
  let t := if 0 < offsetLength then t ^^^ ((UInt8.ofNat offsetLength - 1) <<< 2) else t
  t ^^^ (UInt8.ofNat streamIDLen - 1)

/-- Write a STREAM frame. -/
def write (f : StreamFrame) (o : Order) : Except WriteError (List UInt8) :=
  if f.data.length = 0 ∧ f.finBit = false then .error .emptyFrameWithoutFin
  else .ok <|
    typeByte f.finBit f.dataLenPresent f.getOffsetLength f.calculateStreamIDLength ::
      (toBytes o f.calculateStreamIDLength f.streamID ++ (toBytes o f.getOffsetLength f.offset ++
        ((if f.dataLenPresent then toBytes o 2 f.data.length else []) ++ f.data)))

/-- The number of bytes of the offset, from the type byte. -/
def offsetLenOfTypeByte (typeByte : UInt8) : ℕ :=
  let offsetLen := (typeByte &&& 0x1c) >>> 2
  if offsetLen ≠ 0 then offsetLen.toNat + 1 else 0

/-- The number of bytes of the stream id, from the type byte. -/
def streamIDLenOfTypeByte (typeByte : UInt8) : ℕ := (typeByte &&& 0x3).toNat + 1

/-- Read exactly `n` bytes. -/
def readFull (n : ℕ) : FrameReader (List UInt8) := fun bs =>
  if n ≤ bs.length then .ok (bs.take n, bs.drop n)
  else .error (if bs = [] then .eof else .unexpectedEOF)

/-- The number of bytes that are left. -/
def remaining : FrameReader ℕ := fun bs => .ok (bs.length, bs)

/-- Read a STREAM frame. The type byte must not have been read yet. -/
def parse (o : Order) : FrameReader StreamFrame := do
  let typeByte ← readByte
  let finBit : Bool := 0 < typeByte &&& 0x40
  let dataLenPresent : Bool := 0 < typeByte &&& 0x20
  let streamID ← readUintN o (streamIDLenOfTypeByte typeByte)
  let offset ← readUintN o (offsetLenOfTypeByte typeByte)
  let dataLen ← Reader.optional dataLenPresent (readUintN o 2) 0
  failIf (maxPacketSize < dataLen) .dataLenTooLarge
  let left ← remaining
  -- without a length, the rest of the packet is data
  let data ← readFull (if dataLenPresent then dataLen else left % 2 ^ 16)
  failIf (uint64Add offset data.length < offset) .dataOverflowsMaximumOffset
  failIf (finBit = false ∧ data.length = 0) .emptyStreamFrameNoFin
  return { streamID, finBit, dataLenPresent, offset, data }

/-! ## Round trip -/

/-- The type byte of every frame encodes its flags and field lengths, and marks it as a STREAM
frame. -/
theorem typeByte_spec : ∀ finBit dataLenPresent, ∀ offsetLength ∈ [0, 2, 3, 4, 5, 6, 7, 8],
    ∀ streamIDLen ∈ [1, 2, 3, 4],
    let t := typeByte finBit dataLenPresent offsetLength streamIDLen
    decide (0 < t &&& 0x40) = finBit ∧ decide (0 < t &&& 0x20) = dataLenPresent ∧
      offsetLenOfTypeByte t = offsetLength ∧ streamIDLenOfTypeByte t = streamIDLen ∧
      t &&& 0x80 = 0x80 := by
  decide

theorem getOffsetLength_mem (f : StreamFrame) :
    f.getOffsetLength ∈ [0, 2, 3, 4, 5, 6, 7, 8] := by
  unfold getOffsetLength
  split_ifs <;> simp

theorem calculateStreamIDLength_mem (f : StreamFrame) :
    f.calculateStreamIDLength ∈ [1, 2, 3, 4] := by
  unfold calculateStreamIDLength
  split_ifs <;> simp

theorem streamID_lt (f : StreamFrame) (h : f.streamID < 2 ^ 32) :
    f.streamID < 256 ^ f.calculateStreamIDLength := by
  unfold calculateStreamIDLength
  split_ifs <;> omega

theorem offset_lt (f : StreamFrame) (h : f.offset < 2 ^ 64) :
    f.offset < 256 ^ f.getOffsetLength := by
  unfold getOffsetLength
  split_ifs <;> omega

theorem readFull_append (xs rest : List UInt8) :
    readFull xs.length (xs ++ rest) = .ok (xs, rest) := by
  simp [readFull]

/-- The fields of a frame are in the range of their types, and its data fits into a packet. -/
structure Fits (f : StreamFrame) : Prop where
  streamID_lt : f.streamID < 2 ^ 32
  end_lt : f.offset + f.data.length < 2 ^ 64
  data_le : f.data.length ≤ maxPacketSize

variable {f : StreamFrame} {o : Order} {bytes : List UInt8}

/-- A frame that carries its data length is read back, whatever follows, and any frame is read back
from the end of a packet. -/
theorem parse_write (hfits : f.Fits) (hwrite : f.write o = .ok bytes) (rest : List UInt8)
    (hrest : f.dataLenPresent ∨ rest = []) : parse o (bytes ++ rest) = .ok (f, rest) := by
  obtain ⟨hid, hend, hdata⟩ := hfits
  by_cases hempty : f.data.length = 0 ∧ f.finBit = false
  · simp [write, hempty] at hwrite
  rw [write, if_neg hempty, Except.ok.injEq] at hwrite
  subst hwrite
  obtain ⟨hfin, hpresent, hoff, hsid, -⟩ := typeByte_spec f.finBit f.dataLenPresent _
    f.getOffsetLength_mem _ f.calculateStreamIDLength_mem
  generalize typeByte f.finBit f.dataLenPresent f.getOffsetLength f.calculateStreamIDLength = t at *
  have hlen : f.data.length < 256 ^ 2 := by
    unfold maxPacketSize at hdata
    omega
  have hoverflow : ¬ uint64Add f.offset f.data.length < f.offset := by
    rw [uint64Add_eq hend]
    omega
  rw [parse, List.cons_append, bind_ok (readByte_cons _ _)]
  simp only [hfin, hpresent, hoff, hsid, List.append_assoc]
  rw [bind_ok (readUintN_toBytes (f.streamID_lt hid) _),
    bind_ok (readUintN_toBytes (f.offset_lt (by omega)) _)]
  -- the data is as long as the frame says, or all that is left of the packet
  cases hp : f.dataLenPresent with
  | true =>
    simp only [↓reduceIte, Reader.optional_true]
    rw [bind_ok (readUintN_toBytes hlen _),
      bind_ok (failIf_false (by omega) _ _), bind_ok (rfl : remaining _ = _),
      bind_ok (readFull_append f.data rest),
      bind_ok (failIf_false hoverflow _ _),
      bind_ok (failIf_false (fun h => hempty ⟨h.2, hfin ▸ h.1⟩) _ _)]
    change Except.ok _ = Except.ok _
    rw [← hp]
  | false =>
    obtain rfl : rest = [] := by simpa [hp] using hrest
    have hmod : f.data.length % 2 ^ 16 = f.data.length := Nat.mod_eq_of_lt (by omega)
    simp only [Bool.false_eq_true, ↓reduceIte, List.nil_append]
    rw [bind_ok (Reader.optional_false _ _ _),
      bind_ok (failIf_false (by omega) _ _), bind_ok (rfl : remaining _ = _)]
    simp only [List.append_nil, hmod]
    rw [bind_ok (by simpa using readFull_append f.data []),
      bind_ok (failIf_false hoverflow _ _),
      bind_ok (failIf_false (fun h => hempty ⟨h.2, hfin ▸ h.1⟩) _ _)]
    change Except.ok _ = Except.ok _
    rw [← hp]

end StreamFrame

end MPQuic
