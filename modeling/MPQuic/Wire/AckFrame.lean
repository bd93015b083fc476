import MPQuic.Wire.ByteOrder

/-!
# ACK and CLOSE_PATH frames

The two frames that report received packets (`internal/wire/ack_frame.go` and
`internal/wire/close_path_frame.go`). Both carry a largest and a lowest acknowledged packet
number and, if packets are missing in between, the list of acknowledged ranges with the highest
range first. The source keeps two copies of every function on these three fields;
`AckedPackets` holds them, and the functions are stated on it once.

On the wire a range is a sequence of blocks, each a one-byte gap and a length. A gap above 255
takes several blocks, all but the last of length zero, and at most 255 blocks are written.
-/

namespace MPQuic

open Bytes

/-- A range of acknowledged packet numbers, both ends included. -/
structure AckRange where
  first : ℕ
  last : ℕ
  deriving DecidableEq

/-- The packets that an ACK or a CLOSE_PATH frame acknowledges. -/
structure AckedPackets where
  largestAcked : ℕ
  lowestAcked : ℕ
  /-- The highest range goes first, the lowest range goes last. -/
  ackRanges : List AckRange
  deriving DecidableEq

/-- An ACK frame. -/
structure AckFrame extends AckedPackets where
  pathID : PathID
  /-- The time when the largest acked packet was received. It is not set for received frames. -/
  packetReceivedTime : ℕ
  delayTime : ℕ
  deriving DecidableEq

/-- A CLOSE_PATH frame. -/
structure ClosePathFrame extends AckedPackets where
  pathID : PathID
  deriving DecidableEq

namespace AckedPackets

/-- Whether the frame reports missing packets. -/
def hasMissingRanges (f : AckedPackets) : Bool := !f.ackRanges.isEmpty

/-- Each range lies below the previous one, with a missing packet in between. -/
def consistentRanges : AckRange → List AckRange → Bool
  | _, [] => true
  | lastAckRange, ackRange :: rest =>
    !(lastAckRange.first ≤ ackRange.first) && !(lastAckRange.first ≤ uint64Add ackRange.last 1) &&
      consistentRanges ackRange rest

/-- Whether the ranges are consistent with each other and with the largest acked packet. -/
def validateAckRanges (f : AckedPackets) : Bool :=
  match f.ackRanges with
  | [] => true
  -- if there are missing packets, there will always be at least 2 ACK ranges
  | [_] => false
  | range :: rest =>
    range.last == f.largestAcked && (range :: rest).all (fun r => r.first ≤ r.last) &&
      consistentRanges range rest

/-- The ranges come in descending order, with gaps between them. -/
theorem consistentRanges_cons_iff {hi a : AckRange} {rest : List AckRange} :
    consistentRanges hi (a :: rest) = true ↔
      a.first < hi.first ∧ uint64Add a.last 1 < hi.first ∧ consistentRanges a rest = true := by
  simp [consistentRanges, and_assoc]

/-- What the check of the ranges says. -/
theorem validateAckRanges_cons_iff {f : AckedPackets} {range : AckRange} {rest : List AckRange}
    (hranges : f.ackRanges = range :: rest) :
    f.validateAckRanges = true ↔ rest ≠ [] ∧ range.last = f.largestAcked ∧
      (∀ r ∈ f.ackRanges, r.first ≤ r.last) ∧ consistentRanges range rest = true := by
  rw [validateAckRanges, hranges]
  cases rest with
  | nil => simp
  | cons a rest => simp [and_assoc]

/-- Whether the frame acks the packet `p`. -/
def acksPacket (f : AckedPackets) (p : ℕ) : Bool :=
  if p < f.lowestAcked || f.largestAcked < p then false
  else if f.hasMissingRanges then f.ackRanges.any fun r => r.first ≤ p && p ≤ r.last
  else f.lowestAcked ≤ p && p ≤ f.largestAcked

/-- The packets between the bounds, and in a range if there are ranges. -/
theorem acksPacket_iff (f : AckedPackets) (p : ℕ) :
    f.acksPacket p = true ↔ f.lowestAcked ≤ p ∧ p ≤ f.largestAcked ∧
      (f.ackRanges ≠ [] → ∃ r ∈ f.ackRanges, r.first ≤ p ∧ p ≤ r.last) := by
  by_cases hin : f.lowestAcked ≤ p ∧ p ≤ f.largestAcked
  · rw [acksPacket, if_neg (by simp [hin]), hasMissingRanges]
    cases f.ackRanges with
    | nil => simp [hin]
    | cons r rest => simp [hin]
  · rw [acksPacket, if_pos (by simp; omega)]
    simp only [Bool.false_eq_true, false_iff]
    exact fun h => hin ⟨h.1, h.2.1⟩

/-- The number of packets in a range. -/
def rangeLength (r : AckRange) : ℕ := uint64Add (uint64Sub r.last r.first) 1

/-- The number of missing packets between a range and the next lower one. -/
def gapBetween (higher lower : AckRange) : ℕ := uint64Sub (uint64Sub higher.first lower.last) 1

/-- The number of blocks that a range below a gap of this size takes. -/
def blockCount (gap : ℕ) : ℕ := if gap % 0xFF = 0 then gap / 0xFF else gap / 0xFF + 1

/-- The longest range that the frame reports. -/
def maxRangeLength (f : AckedPackets) : ℕ :=
  if f.hasMissingRanges then (f.ackRanges.map rangeLength).foldl max 0
  else uint64Add (uint64Sub f.largestAcked f.lowestAcked) 1

/-- The length in which the block lengths are written. -/
def getMissingSequenceNumberDeltaLen (f : AckedPackets) : PacketNumberLen :=
  if f.maxRangeLength ≤ 0xFF then .len1
  else if f.maxRangeLength ≤ 0xFFFF then .len2
  else if f.maxRangeLength ≤ 0xFFFFFFFF then .len4
  else .len6

/-- The blocks of the ranges below `lastAckRange`, up to the first range that does not fit. -/
def writableBlocks : AckRange → List AckRange → ℕ → ℕ
  | _, [], numRanges => numRanges
  | lastAckRange, ackRange :: rest, numRanges =>
    if numRanges + blockCount (gapBetween lastAckRange ackRange) < 0xFF then
      writableBlocks ackRange rest (numRanges + blockCount (gapBetween lastAckRange ackRange))
    else numRanges

/-- The number of ACK blocks that are about to be written. -/
def numWritableNackRanges (f : AckedPackets) : ℕ :=
  match f.ackRanges with
  | [] => 0
  | range :: rest => writableBlocks range rest 0 + 1

/-! ## Writing -/

/-- The blocks of one range: its gap, then its length. -/
def blocks (gap length : ℕ) : List (ℕ × ℕ) :=
  if blockCount gap = 1 then [(gap, length)]
  else (List.range (blockCount gap)).map fun i =>
    if i = blockCount gap - 1 then (1 + (gap - 1) % 255, length) else (0xFF, 0)

/-- The bytes of a list of blocks, with `put` writing the lengths. -/
def writeBlocks (put : ℕ → Except WriteError (List UInt8)) :
    List (ℕ × ℕ) → Except WriteError (List UInt8)
  | [] => .ok []
  | (gap, length) :: rest => do
    let lengthBytes ← put length
    let restBytes ← writeBlocks put rest
    return UInt8.ofNat gap :: lengthBytes ++ restBytes

/-- Write the ranges below `lastAckRange` until `numRanges` blocks are written. The result is the
bytes and the number of blocks written. -/
def writeRanges (put : ℕ → Except WriteError (List UInt8)) (numRanges : ℕ) :
    AckRange → List AckRange → ℕ → Except WriteError (List UInt8 × ℕ)
  | _, [], numRangesWritten => .ok ([], numRangesWritten)
  | lastAckRange, ackRange :: rest, numRangesWritten => do
    let bs := blocks (gapBetween lastAckRange ackRange) (rangeLength ackRange)
    let bytes ← writeBlocks put bs
    -- this is needed if not all ranges can be written (if there are more than 0xFF blocks)
    if numRanges ≤ numRangesWritten + bs.length then .ok (bytes, numRangesWritten + bs.length)
    else do
      let r ← writeRanges put numRanges ackRange rest (numRangesWritten + bs.length)
      return (bytes ++ r.1, r.2)

/-- The field with the number of blocks after the first one, present if packets are missing. -/
def writeNumBlocks (f : AckedPackets) : Except WriteError (List UInt8) :=
  if f.hasMissingRanges then
    if 0xFF < f.numWritableNackRanges then .error .tooManyAckRanges
    else .ok [UInt8.ofNat (f.numWritableNackRanges - 1)]
  else .ok []

/-- The first block and the ranges below it. -/
def writeAckBlocks (put : ℕ → Except WriteError (List UInt8)) (f : AckedPackets) :
    Except WriteError (List UInt8) :=
  match f.ackRanges with
  | [] => put (uint64Add (uint64Sub f.largestAcked f.lowestAcked) 1)
  | range :: rest =>
    if f.largestAcked ≠ range.last then .error .inconsistentAckLargestAcked
    else if f.lowestAcked ≠ (rest.getLast?.getD range).first then
      .error .inconsistentAckLowestAcked
    else do
      let firstBlock ← put (uint64Add (uint64Sub f.largestAcked range.first) 1)
      let r ← writeRanges put f.numWritableNackRanges range rest 1
      if f.numWritableNackRanges ≠ r.2 then .error .inconsistentNumberOfAckRanges
      else .ok (firstBlock ++ r.1)

/-- The two bits of a flags byte that encode the length of an integer. -/
def lenBits (len : PacketNumberLen) : UInt8 :=
  if len = .len1 then 0 else UInt8.ofNat (len.toNat / 2)

/-- The number of bytes that two bits of a flags byte encode. -/
def lenOfBits (bits : UInt8) : ℕ := if bits = 0 then 1 else 2 * bits.toNat

/-! ## Parsing -/

/-- The state of the loop over the blocks after the first one. -/
structure BlockState where
  /-- The ranges before the current one, the most recent first. -/
  earlier : List AckRange
  /-- The last element of `AckRanges`. -/
  current : AckRange
  inLongBlock : Bool
  lastRangeComplete : Bool
  deriving DecidableEq

/-- Process one block. -/
def BlockState.step (s : BlockState) (gap length : ℕ) : BlockState :=
  if s.inLongBlock then
    { s with
      current :=
        { first := uint64Sub s.current.first (uint64Add gap length)
          last := uint64Sub s.current.last gap }
      lastRangeComplete := decide (0 < length) || s.lastRangeComplete
      inLongBlock := length == 0 }
  else
    let last := uint64Sub (uint64Sub s.current.first gap) 1
    { earlier := s.current :: s.earlier
      current := { first := uint64Add (uint64Sub last length) 1, last := last }
      lastRangeComplete := decide (0 < length)
      inLongBlock := length == 0 }

/-- Read `n` blocks. -/
def readBlocks (o : Order) (deltaLen : ℕ) : ℕ → BlockState → FrameReader BlockState
  | 0, s => pure s
  | n + 1, s => do
    let gap ← readByte
    let ackBlockLength ← readUintN o deltaLen
    readBlocks o deltaLen n (s.step gap.toNat ackBlockLength)

/-- The ranges after the loop: the last one makes no sense if it was not completed. -/
def BlockState.ranges (s : BlockState) : List AckRange :=
  if s.lastRangeComplete then (s.current :: s.earlier).reverse else s.earlier.reverse

/-- Read the `numAckBlocks` blocks below the first one, or none if no packet is missing. -/
def readLowerBlocks (o : Order) (deltaLen : ℕ) (hasMissingRanges : Bool)
    (numAckBlocks largestAcked ackBlockLength : ℕ) : FrameReader AckedPackets :=
  if hasMissingRanges then do
    let range : AckRange :=
      { first := uint64Add (uint64Sub largestAcked ackBlockLength) 1, last := largestAcked }
    let s ← readBlocks o deltaLen numAckBlocks
      { earlier := [], current := range, inLongBlock := false, lastRangeComplete := false }
    match s.ranges.getLast? with
    | none => throw .indexOutOfRange
    | some lowest => pure { largestAcked, lowestAcked := lowest.first, ackRanges := s.ranges }
  else
    pure { largestAcked, ackRanges := [],
           lowestAcked := if largestAcked = 0 then 0
             else uint64Sub (uint64Add largestAcked 1) ackBlockLength }

/-- Read the first block and the `numAckBlocks` blocks below it. -/
def readAckBlocks (o : Order) (deltaLen : ℕ) (hasMissingRanges : Bool) (numAckBlocks : ℕ)
    (largestAcked : ℕ) : FrameReader AckedPackets := do
  let ackBlockLength ← readUintN o deltaLen
  Reader.failIf (0 < largestAcked ∧ ackBlockLength < 1) .invalidFirstAckRange
  Reader.failIf (largestAcked < ackBlockLength) .invalidAckRanges
  let frame ← readLowerBlocks o deltaLen hasMissingRanges numAckBlocks largestAcked ackBlockLength
  Reader.failIf (¬ frame.validateAckRanges) .invalidAckRanges
  return frame

end AckedPackets

open AckedPackets

namespace AckFrame

/-- The type byte of an ACK frame, for the lengths of its integers and its optional fields. -/
def typeByte (largestAckedLen deltaLen : PacketNumberLen) (hasMissingRanges hasPathID : Bool) :
    UInt8 :=
  let t := (0x40 : UInt8) ^^^ (lenBits largestAckedLen <<< 2) ^^^ lenBits deltaLen
  let t := if hasMissingRanges then t ||| 0x20 else t
  if hasPathID then t ||| 0x10 else t

/-- Write an ACK frame at the time `now`. The delay is written in microseconds. -/
def write (f : AckFrame) (o : Order) (now : ℕ) : Except WriteError (List UInt8) := do
  let numBlocks ← f.writeNumBlocks
  let ackBlocks ← f.writeAckBlocks fun n =>
    .ok (toBytes o f.getMissingSequenceNumberDeltaLen.toNat n)
  return typeByte (getPacketNumberLength f.largestAcked) f.getMissingSequenceNumberDeltaLen
      f.hasMissingRanges (f.pathID ≠ initialPathID) ::
    ((if f.pathID ≠ initialPathID then [f.pathID] else []) ++
    (toBytes o (getPacketNumberLength f.largestAcked).toNat f.largestAcked ++
    (writeUfloat16 o ((now - f.packetReceivedTime) / 1000) ++ (numBlocks ++ (ackBlocks ++ [0])))))

/-- The length of the written frame. -/
def minLength (f : AckFrame) : ℕ :=
  let length := 1 + 2 + 1 + (getPacketNumberLength f.largestAcked).toNat
  let deltaLen := f.getMissingSequenceNumberDeltaLen.toNat
  let length := if f.hasMissingRanges then length + (1 + deltaLen) * f.numWritableNackRanges
    else length + deltaLen
  if f.pathID ≠ initialPathID then length + 1 else length

/-- Skip the timestamps after the first one. -/
def skipLaterTimestamps (o : Order) : ℕ → FrameReader Unit
  | 0 => pure ()
  | n + 1 => do
    let _ ← readByte
    let _ ← readUintN o 2
    skipLaterTimestamps o n

/-- Skip the timestamps. -/
def skipTimestamps (o : Order) : ℕ → FrameReader Unit
  | 0 => pure ()
  | n + 1 => do
    let _ ← readByte
    let _ ← readUintN o 4
    skipLaterTimestamps o n

/-- Read an ACK frame. -/
def parse (o : Order) : FrameReader AckFrame := do
  let typeByte ← readByte
  let hasMissingRanges := typeByte &&& 0x20 == 0x20
  let largestAckedLen := lenOfBits ((typeByte &&& 0x0C) >>> 2)
  let deltaLen := lenOfBits (typeByte &&& 0x03)
  -- U bit used to indicate that the ACK contains PathID
  let pathID ← Reader.optional (typeByte &&& 0x10 == 0x10) readByte initialPathID
  let largestAcked ← readUintN o largestAckedLen
  let delay ← readUfloat16 o
  let numAckBlocks ← Reader.optional hasMissingRanges readByte 0
  Reader.failIf (hasMissingRanges ∧ numAckBlocks = 0) .invalidAckRanges
  let acked ← readAckBlocks o deltaLen hasMissingRanges numAckBlocks.toNat largestAcked
  let numTimestamp ← readByte
  skipTimestamps o numTimestamp.toNat
  return { toAckedPackets := acked, pathID, packetReceivedTime := 0, delayTime := delay * 1000 }

end AckFrame

namespace ClosePathFrame

/-- The flags byte of a CLOSE_PATH frame. -/
def flags (largestAckedLen deltaLen : PacketNumberLen) (hasMissingRanges : Bool) : UInt8 :=
  let flags : UInt8 := if hasMissingRanges then 0x10 else 0
  flags ^^^ (lenBits largestAckedLen <<< 2) ^^^ lenBits deltaLen

/-- Write an integer of the given length. The 6-byte writer rejects larger values; the shorter
ones truncate. -/
def put (o : Order) (len : PacketNumberLen) (n : ℕ) : Except WriteError (List UInt8) :=
  if len = .len6 ∧ 2 ^ 48 ≤ n then .error .doesNotFit else .ok (toBytes o len.toNat n)

/-- Write a CLOSE_PATH frame. -/
def write (f : ClosePathFrame) (o : Order) : Except WriteError (List UInt8) := do
  let numBlocks ← f.writeNumBlocks
  let largestAcked ← put o (getPacketNumberLength f.largestAcked) f.largestAcked
  let ackBlocks ← f.writeAckBlocks (put o f.getMissingSequenceNumberDeltaLen)
  return 0x11 :: f.pathID ::
    flags (getPacketNumberLength f.largestAcked) f.getMissingSequenceNumberDeltaLen
      f.hasMissingRanges :: (numBlocks ++ (largestAcked ++ ackBlocks))

/-- The length of the written frame. -/
def minLength (f : ClosePathFrame) : ℕ :=
  let length := 1 + 1 + 1 + (getPacketNumberLength f.largestAcked).toNat
  let deltaLen := f.getMissingSequenceNumberDeltaLen.toNat
  if f.hasMissingRanges then length + (1 + deltaLen) * f.numWritableNackRanges
  else length + deltaLen

/-- Read a CLOSE_PATH frame. -/
def parse (o : Order) : FrameReader ClosePathFrame := do
  let _ ← readByte
  let pathID ← readByte
  let flags ← readByte
  let hasMissingRanges := flags &&& 0x10 == 0x10
  let largestAckedLen := lenOfBits ((flags &&& 0x0C) >>> 2)
  let deltaLen := lenOfBits (flags &&& 0x03)
  let numAckBlocks ← Reader.optional hasMissingRanges readByte 0
  Reader.failIf (hasMissingRanges ∧ numAckBlocks = 0) .invalidAckRanges
  let largestAcked ← readUintN o largestAckedLen
  let acked ← readAckBlocks o deltaLen hasMissingRanges numAckBlocks.toNat largestAcked
  return { toAckedPackets := acked, pathID }

end ClosePathFrame

end MPQuic
