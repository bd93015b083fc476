import MPQuic.Packer.FrameHeap
import MPQuic.Packer.Seal
import MPQuic.Session.PacketUnpacker
import MPQuic.Wire.AckRoundTrip
import MPQuic.Wire.FrameLength

/-!
# The payload of a packet

`Unpack` of `packet_unpacker.go` opens a packet and reads its frames one after the other. Nothing
tells where a frame ends but the frame itself, and nothing tells what it is but its first byte.

* `parse_write` for every kind of frame: a frame is read back from the bytes it was written to,
  whatever follows.
* `reads_back`: the first byte of the frame leads to the parser of its kind.
* `payload_roundTrip`: the loop returns the frames that were written.
-/

namespace MPQuic

open Bytes
open Reader (bind_ok failIf_false)

/-! ## The frame loop -/

/-- Read all frames of a packet. Every round takes at least one byte, so that the length of the
payload is enough fuel. -/
def unpackFrames (o : Order) (packetNumber : ℕ) (packetNumberLen : PacketNumberLen)
    (encryptionLevel : EncryptionLevel) : ℕ → List UInt8 → Except UnpackError (List ReceivedFrame)
  | _, [] => .ok []
  | 0, _ :: _ => .error (.frame (.parse .eof))
  | n + 1, typeByte :: bs =>
    -- PADDING frame
    if typeByte = 0x00 then unpackFrames o packetNumber packetNumberLen encryptionLevel n bs
    else do
      let r ← parseFrame o packetNumber packetNumberLen encryptionLevel (typeByte :: bs)
      let frames ← unpackFrames o packetNumber packetNumberLen encryptionLevel n r.2
      return r.1 :: frames

/-- The errors for a packet. -/
inductive PacketError where
  | decryptionFailure
  | missingPayload
  | content (e : UnpackError)
  deriving DecidableEq

/-- The content of a packet. -/
structure UnpackedPacket where
  encryptionLevel : EncryptionLevel
  frames : List ReceivedFrame

/-- What an AEAD makes of sealed data, a packet number and associated data. -/
abbrev AEADOpen := List UInt8 → ℕ → List UInt8 → Option (List UInt8 × EncryptionLevel)

/-- Open a packet and read its frames. -/
def unpack (o : Order) (aeadOpen : AEADOpen) (publicHeaderBinary : List UInt8) (packetNumber : ℕ)
    (packetNumberLen : PacketNumberLen) (data : List UInt8) : Except PacketError UnpackedPacket :=
  match aeadOpen data packetNumber publicHeaderBinary with
  | none => .error .decryptionFailure
  | some (decrypted, encryptionLevel) =>
    if decrypted.length = 0 then .error .missingPayload
    else
      match unpackFrames o packetNumber packetNumberLen encryptionLevel decrypted.length
        decrypted with
      | .error e => .error (.content e)
      | .ok frames => .ok { encryptionLevel, frames }

/-! ## Frames that are read back -/

theorem field_ok {α : Type} {r : FrameReader α} {bs : List UInt8} {x : α × List UInt8}
    (h : r bs = .ok x) : field r bs = .ok x :=
  Reader.mapError_eq_ok.mpr h

theorem field_readUintN {o : Order} {w n : ℕ} (h : n < 256 ^ w) (rest : List UInt8) :
    field (readUintN o w) (toBytes o w n ++ rest) = .ok (n, rest) :=
  field_ok (readUintN_toBytes h rest)

theorem field_readByte (b : UInt8) (rest : List UInt8) :
    field readByte (b :: rest) = .ok (b, rest) :=
  field_ok (readByte_cons b rest)

variable {o : Order}

theorem RstStreamFrame.parse_write {f : RstStreamFrame} (hstream : f.streamID < 2 ^ 32)
    (herror : f.errorCode < 2 ^ 32) (hoffset : f.byteOffset < 2 ^ 64) (rest : List UInt8) :
    RstStreamFrame.parse o (0x01 :: toBytes o 4 f.streamID ++ toBytes o 8 f.byteOffset ++
      toBytes o 4 f.errorCode ++ rest) = .ok (f, rest) := by
  simp only [List.cons_append, List.append_assoc]
  rw [RstStreamFrame.parse, bind_ok (field_readByte _ _),
    bind_ok (field_readUintN (by omega) _), bind_ok (field_readUintN (by omega) _),
    bind_ok (field_readUintN (by omega) _)]
  rfl

theorem readReasonPhrase_write {reasonPhrase : List UInt8}
    (hlen : reasonPhrase.length ≤ maxPacketSize) (rest : List UInt8) :
    readReasonPhrase o (toBytes o 2 reasonPhrase.length ++ (reasonPhrase ++ rest)) =
      .ok (reasonPhrase, rest) := by
  have hlt : reasonPhrase.length < 256 ^ 2 := by
    unfold maxPacketSize at hlen
    omega
  rw [readReasonPhrase, bind_ok (field_readUintN hlt _),
    bind_ok (failIf_false (by omega) _ _)]
  exact field_ok (StreamFrame.readFull_append reasonPhrase rest)

theorem ConnectionCloseFrame.parse_write {f : ConnectionCloseFrame} (herror : f.errorCode < 2 ^ 32)
    (hlen : f.reasonPhrase.length ≤ maxPacketSize) (rest : List UInt8) :
    ConnectionCloseFrame.parse o (0x02 :: toBytes o 4 f.errorCode ++
      toBytes o 2 f.reasonPhrase.length ++ f.reasonPhrase ++ rest) = .ok (f, rest) := by
  simp only [List.cons_append, List.append_assoc]
  rw [ConnectionCloseFrame.parse, bind_ok (field_readByte _ _),
    bind_ok (field_readUintN (by omega) _), bind_ok (readReasonPhrase_write hlen _)]
  rfl

theorem GoawayFrame.parse_write {f : GoawayFrame} (herror : f.errorCode < 2 ^ 32)
    (hstream : f.lastGoodStream < 2 ^ 32) (hlen : f.reasonPhrase.length ≤ maxPacketSize)
    (rest : List UInt8) :
    GoawayFrame.parse o (0x03 :: toBytes o 4 f.errorCode ++ toBytes o 4 f.lastGoodStream ++
      toBytes o 2 f.reasonPhrase.length ++ f.reasonPhrase ++ rest) = .ok (f, rest) := by
  simp only [List.cons_append, List.append_assoc]
  rw [GoawayFrame.parse, bind_ok (field_readByte _ _),
    bind_ok (field_readUintN (by omega) _), bind_ok (field_readUintN (by omega) _),
    bind_ok (readReasonPhrase_write hlen _)]
  rfl

theorem WindowUpdateFrame.parse_write {f : WindowUpdateFrame} (hstream : f.streamID < 2 ^ 32)
    (hoffset : f.byteOffset < 2 ^ 64) (rest : List UInt8) :
    WindowUpdateFrame.parse o (0x04 :: toBytes o 4 f.streamID ++ toBytes o 8 f.byteOffset ++
      rest) = .ok (f, rest) := by
  simp only [List.cons_append, List.append_assoc]
  rw [WindowUpdateFrame.parse, bind_ok (field_readByte _ _),
    bind_ok (field_readUintN (by omega) _), bind_ok (field_readUintN (by omega) _)]
  rfl

theorem BlockedFrame.parse_write {f : BlockedFrame} (hstream : f.streamID < 2 ^ 32)
    (rest : List UInt8) :
    BlockedFrame.parse o (0x05 :: toBytes o 4 f.streamID ++ rest) = .ok (f, rest) := by
  simp only [List.cons_append]
  rw [BlockedFrame.parse, bind_ok (field_readByte _ _),
    bind_ok (field_readUintN (by omega) _)]
  rfl

/-- What the receiver makes of a STOP_WAITING frame: the packet number and its length are those of
the packet. -/
def StopWaitingFrame.received (f : StopWaitingFrame) : StopWaitingFrame where
  leastUnacked := f.leastUnacked
  packetNumberLen := .invalid
  packetNumber := 0

theorem StopWaitingFrame.parse_write {f : StopWaitingFrame} (hpos : 0 < f.leastUnacked)
    (hle : f.leastUnacked ≤ f.packetNumber)
    (hlt : f.packetNumber - f.leastUnacked < 256 ^ f.packetNumberLen.toNat) (rest : List UInt8) :
    StopWaitingFrame.parse o f.packetNumber f.packetNumberLen
      (0x06 :: toBytes o f.packetNumberLen.toNat (f.packetNumber - f.leastUnacked) ++ rest) =
        .ok (f.received, rest) := by
  rw [StopWaitingFrame.parse, List.cons_append, bind_ok (readByte_cons _ _),
    bind_ok (readUintN_toBytes hlt _), bind_ok (failIf_false (by omega) _ _),
    Nat.sub_sub_self hle]
  rfl

/-! ## Addresses -/

namespace UDPAddr

/-- The address with its IP address in 16 bytes, to compare addresses. -/
def received (a : UDPAddr) : UDPAddr := { a with ip := a.to16.getD a.ip }

/-- An IPv4 address after the prefix is the address in 16 bytes. -/
theorem to16_of_to4 {a : UDPAddr} {ip : List UInt8} (h : a.to4 = some ip) :
    ip.length = 4 ∧ a.to16 = some (v4InV6Prefix ++ ip) := by
  unfold to4 at h
  unfold to16
  split_ifs at h with h4 h16
  · obtain rfl := Option.some.inj h
    exact ⟨h4, if_pos h4⟩
  · obtain rfl := Option.some.inj h
    rw [if_neg h4, if_pos h16.1, ← h16.2, List.take_append_drop, List.length_drop, h16.1]
    exact ⟨rfl, rfl⟩

theorem length_of_to16 {a : UDPAddr} {ip : List UInt8} (h : a.to16 = some ip) : ip.length = 16 := by
  unfold to16 at h
  split_ifs at h with h4 h16
  · obtain rfl := Option.some.inj h
    rw [List.length_append, h4]
    rfl
  · obtain rfl := Option.some.inj h
    exact h16

end UDPAddr

namespace AddAddressFrame

/-- The address matches the IP version. -/
def Matches (f : AddAddressFrame) : Prop :=
  (f.ipVersion = 4 ∧ f.addr.to4.isSome) ∨ (f.ipVersion = 6 ∧ f.addr.to16.isSome)

theorem write_of_some {f : AddAddressFrame} {ip : List UInt8}
    (h : (f.ipVersion = 4 ∧ f.addr.to4 = some ip) ∨ (f.ipVersion = 6 ∧ f.addr.to16 = some ip)) :
    f.write o = .ok (0x10 :: (f.ipVersion :: (ip ++ toBytes o 2 f.addr.port))) := by
  rcases h with ⟨hversion, hip⟩ | ⟨hversion, hip⟩
  · rw [write, if_pos hversion, hip]
    rfl
  · rw [write, if_neg (by rw [hversion]; decide), if_pos hversion, hip]
    rfl

/-- An ADD_ADDRESS frame is written and read back with its address in 16 bytes. -/
theorem parse_write {f : AddAddressFrame} (hmatches : f.Matches) (hport : f.addr.port < 2 ^ 16) :
    ∃ tail, f.write o = .ok (0x10 :: tail) ∧ ∀ rest,
      parse o (0x10 :: tail ++ rest) = .ok ({ f with addr := f.addr.received }, rest) := by
  have hread : ∀ rest, field (readUintN o 2) (toBytes o 2 f.addr.port ++ rest) =
      .ok (f.addr.port, rest) := fun rest => field_readUintN (by omega) rest
  rcases hmatches with ⟨hversion, hsome⟩ | ⟨hversion, hsome⟩
  · obtain ⟨ip, hip⟩ := Option.isSome_iff_exists.mp hsome
    obtain ⟨hlen, h16⟩ := UDPAddr.to16_of_to4 hip
    refine ⟨_, write_of_some (.inl ⟨hversion, hip⟩), fun rest => ?_⟩
    simp only [List.cons_append, List.append_assoc]
    rw [parse, bind_ok (field_readByte _ _), bind_ok (field_readByte _ _), hversion,
      if_pos rfl, bind_ok (field_ok (readBytes_append _ hlen _)), UDPAddr.received, h16]
    exact (bind_ok (r := pure _) rfl).trans (bind_ok (hread rest))
  · obtain ⟨ip, hip⟩ := Option.isSome_iff_exists.mp hsome
    refine ⟨_, write_of_some (.inr ⟨hversion, hip⟩), fun rest => ?_⟩
    simp only [List.cons_append, List.append_assoc]
    rw [parse, bind_ok (field_readByte _ _), bind_ok (field_readByte _ _), hversion,
      if_neg (by decide), if_pos rfl,
      bind_ok (field_ok (readBytes_append _ (UDPAddr.length_of_to16 hip) _)),
      UDPAddr.received, hip]
    exact bind_ok (hread rest)

end AddAddressFrame

namespace PathsFrame

/-- The frame that the receiver of a PATHS frame reads. -/
def received (f : PathsFrame) : PathsFrame :=
  { f with remoteRTTs := f.remoteRTTs.map fun rtt => roundUfloat16 (rtt / 1000) * 1000 }

theorem readPaths_write (paths : List (PathID × ℕ)) (rest : List UInt8) :
    readPaths o paths.length
      ((paths.flatMap fun p => p.1 :: writeUfloat16 o (p.2 / 1000)) ++ rest) =
        .ok (paths.map fun p => (p.1, roundUfloat16 (p.2 / 1000) * 1000), rest) := by
  induction paths with
  | nil => rfl
  | cons p paths ih =>
    rw [List.flatMap_cons, List.length_cons, readPaths, List.cons_append, List.cons_append,
      bind_ok (field_readByte _ _), List.append_assoc,
      bind_ok (field_ok (readUfloat16_write _ _ _)), bind_ok ih]
    rfl

theorem parse_write {f : PathsFrame} (hids : f.numPaths.toNat = f.pathIDs.length)
    (hrtts : f.pathIDs.length = f.remoteRTTs.length) (hle : f.numPaths ≤ f.maxNumPaths) :
    ∃ tail, f.write o = .ok (0x12 :: tail) ∧ ∀ rest,
      parse o (0x12 :: tail ++ rest) = .ok (f.received, rest) := by
  have hwrite : f.write o = .ok (0x12 :: (f.maxNumPaths :: f.numPaths ::
      (f.pathIDs.zip f.remoteRTTs).flatMap fun p => p.1 :: writeUfloat16 o (p.2 / 1000))) := by
    rw [write, if_neg (not_not.mpr hids), if_neg (not_not.mpr hrtts)]
  refine ⟨_, hwrite, fun rest => ?_⟩
  have hlen : f.numPaths.toNat = (f.pathIDs.zip f.remoteRTTs).length := by
    rw [List.length_zip, ← hrtts, min_self, hids]
  simp only [List.cons_append]
  rw [parse, bind_ok (field_readByte _ _), bind_ok (field_readByte _ _),
    bind_ok (field_readByte _ _),
    bind_ok (failIf_false (UInt8.not_lt.mpr hle) _ _), hlen,
    bind_ok (readPaths_write _ rest)]
  have hpathIDs : ((f.pathIDs.zip f.remoteRTTs).map fun p =>
      (p.1, roundUfloat16 (p.2 / 1000) * 1000)).map (·.1) = f.pathIDs := by
    rw [List.map_map]
    exact List.map_fst_zip hrtts.le
  have hremoteRTTs : ((f.pathIDs.zip f.remoteRTTs).map fun p =>
      (p.1, roundUfloat16 (p.2 / 1000) * 1000)).map (·.2) = f.received.remoteRTTs := by
    conv_rhs => rw [received, ← List.map_snd_zip hrtts.ge, List.map_map]
    rw [List.map_map]
    rfl
  rw [hpathIDs, hremoteRTTs]
  rfl

end PathsFrame

/-! ## Acknowledged packets -/

namespace AckedPackets

/-- If all ranges fit into 255 blocks, none is cut off. -/
theorem trimmed_eq {f : AckedPackets} (hvalid : f.Valid)
    (hblocks : neededBlocks f.ackRanges ≤ 255) : f.trimmed = f := by
  rcases hvalid.ranges with hnil | ⟨r, l, h⟩
  · rw [trimmed, hnil]
  · rw [h.ranges_eq, neededBlocks] at hblocks
    have hkept : kept r l 0 = l := by
      refine (kept_isPrefix r l 0).eq_of_length_le ?_
      exact length_le_length_kept List.prefix_rfl (by omega)
    have hlowest : f.lowestAcked = (l.getLast?.getD r).first :=
      hvalid.lowest_eq _ (by rw [h.ranges_eq, List.getLast?_cons])
    rw [trimmed, h.ranges_eq]
    dsimp only
    rw [hkept, ← hlowest, ← h.ranges_eq]

/-- Then the first gap fits, and the frame can be written. -/
theorem firstGapFits {f : AckedPackets} (hvalid : f.Valid)
    (hblocks : neededBlocks f.ackRanges ≤ 255) : f.FirstGapFits := by
  intro r₀ r₁ rest hranges
  rcases hvalid.ranges with hnil | ⟨r, l, h⟩
  · rw [hnil] at hranges
    cases hranges
  · have heq := h.ranges_eq.symm.trans hranges
    obtain ⟨rfl, rfl⟩ := List.cons.inj heq
    obtain ⟨-, hle, hlt, -⟩ := h.below
    rw [hranges, neededBlocks, totalBlocks] at hblocks
    rw [← (gap_length_eq h.first_lt hle hlt).1, ← blockCount_le_iff]
    omega

end AckedPackets

open AckedPackets

namespace AckFrame

/-- The type byte of an ACK frame starts with the bits 01. -/
theorem typeByte_kind {largestAckedLen deltaLen : PacketNumberLen}
    (h : largestAckedLen ≠ .invalid) (h' : deltaLen ≠ .invalid) (hasMissing hasPathID : Bool) :
    let t := typeByte largestAckedLen deltaLen hasMissing hasPathID
    t &&& 0x80 ≠ 0x80 ∧ t &&& 0xc0 = 0x40 := by
  cases largestAckedLen <;> cases deltaLen <;> cases hasMissing <;> cases hasPathID <;>
    first | contradiction | decide

theorem write_head {f : AckFrame} {now : ℕ} {bytes : List UInt8}
    (h : f.write o now = .ok bytes) :
    ∃ tail, bytes = typeByte (getPacketNumberLength f.largestAcked)
      f.getMissingSequenceNumberDeltaLen f.hasMissingRanges (f.pathID ≠ initialPathID) :: tail := by
  obtain ⟨numBlocks, -, h₁⟩ := bind_eq_ok h
  obtain ⟨ackBlocks, -, h₂⟩ := bind_eq_ok h₁
  exact ⟨_, (Except.ok.inj h₂).symm⟩

end AckFrame

theorem AckFrame.parse_write_all {f : AckFrame} (hvalid : f.Valid)
    (hblocks : neededBlocks f.ackRanges ≤ 255) (now : ℕ) :
    ∃ bytes, f.write o now = .ok bytes ∧
      ∀ rest, AckFrame.parse o (bytes ++ rest) = .ok (f.received now f.toAckedPackets, rest) := by
  rcases encodes_or_error hvalid (fun n _ => rfl) with ⟨-, nb, ab, hnum, hack, henc⟩ | ⟨hfits, -⟩
  · obtain ⟨bytes, hwrite, -, hparse⟩ := AckFrame.parse_write now hvalid.largest_lt hnum hack henc
    rw [trimmed_eq hvalid hblocks] at hparse
    exact ⟨bytes, hwrite, hparse⟩
  · exact absurd (firstGapFits hvalid hblocks) hfits

theorem ClosePathFrame.parse_write_all {f : ClosePathFrame} (hvalid : f.Valid)
    (hblocks : neededBlocks f.ackRanges ≤ 255) :
    ∃ bytes, f.write o = .ok bytes ∧
      ∀ rest, ClosePathFrame.parse o (bytes ++ rest) = .ok (f, rest) := by
  rcases encodes_or_error hvalid (putsLengths_put _ o) with ⟨-, nb, ab, hnum, hack, henc⟩ |
    ⟨hfits, -⟩
  · obtain ⟨bytes, hwrite, -, hparse⟩ :=
      ClosePathFrame.parse_write hvalid.largest_lt hnum hack henc
    rw [trimmed_eq hvalid hblocks] at hparse
    exact ⟨bytes, hwrite, hparse⟩
  · exact absurd (firstGapFits hvalid hblocks) hfits

/-! ## All kinds of frames -/

namespace Frame

variable {store : FrameStore} {now packetNumber : ℕ} {packetNumberLen : PacketNumberLen}
  {encryptionLevel : EncryptionLevel} {f : Frame}

/-- A frame that can be sent in the packet with the given number. -/
def WellFormed (store : FrameStore) (packetNumber : ℕ) (packetNumberLen : PacketNumberLen) :
    Frame → Prop
  | stream ref => (store ref).Sendable
  | ack f => f.Valid ∧ neededBlocks f.ackRanges ≤ 255
  | stopWaiting f =>
    f.packetNumber = packetNumber ∧ f.packetNumberLen = packetNumberLen ∧
      packetNumberLen ≠ .invalid ∧ 0 < f.leastUnacked ∧ f.leastUnacked ≤ packetNumber ∧
      packetNumber - f.leastUnacked < 256 ^ packetNumberLen.toNat
  | rstStream f => f.streamID < 2 ^ 32 ∧ f.errorCode < 2 ^ 32 ∧ f.byteOffset < 2 ^ 64
  | connectionClose f => f.errorCode < 2 ^ 32 ∧ f.reasonPhrase.length < 2 ^ 16
  | goaway f => f.errorCode < 2 ^ 32 ∧ f.lastGoodStream < 2 ^ 32
  | windowUpdate f => f.streamID < 2 ^ 32 ∧ f.byteOffset < 2 ^ 64
  | blocked f => f.streamID < 2 ^ 32
  | ping => True
  | addAddress f => f.Matches ∧ f.addr.port < 2 ^ 16
  | closePath f => f.Valid ∧ neededBlocks f.ackRanges ≤ 255
  | paths f =>
    f.numPaths.toNat = f.pathIDs.length ∧ f.pathIDs.length = f.remoteRTTs.length ∧
      f.numPaths ≤ f.maxNumPaths

/-- Only a STREAM frame without its data length needs the end of the packet. -/
def SelfDelimiting (store : FrameStore) : Frame → Prop
  | stream ref => (store ref).dataLenPresent = true
  | _ => True

/-- The frame as the receiver gets it. -/
def received (store : FrameStore) (now : ℕ) : Frame → ReceivedFrame
  | stream ref => .stream (store ref)
  | ack f => .ack (f.received now f.toAckedPackets)
  | stopWaiting f => .stopWaiting f.received
  | rstStream f => .rstStream f
  | connectionClose f => .connectionClose f
  | goaway f => .goaway f
  | windowUpdate f => .windowUpdate f
  | blocked f => .blocked f
  | ping => .ping
  | addAddress f => .addAddress { f with addr := f.addr.received }
  | closePath f => .closePath f
  | paths f => .paths f.received

/-- The bytes of a frame: the first one is not that of PADDING, and the frame is read back from
them. -/
def ReadsBack (store : FrameStore) (o : Order) (now packetNumber : ℕ)
    (packetNumberLen : PacketNumberLen) (encryptionLevel : EncryptionLevel) (f : Frame) : Prop :=
  ∃ t tail, f.write store o now = .ok (t :: tail) ∧ t ≠ 0x00 ∧
    ((t :: tail).length ≤ maxPacketSize → ∀ rest, f.SelfDelimiting store ∨ rest = [] →
      parseFrameOf o packetNumber packetNumberLen encryptionLevel t (t :: tail ++ rest) =
        .ok (f.received store now, rest))

theorem parseAs_ok {α : Type} {kind : α → ReceivedFrame} {code : FrameError → UnpackError}
    {r : Reader FrameError α} {bs rest : List UInt8} {a : α} (h : r bs = .ok (a, rest)) :
    parseAs kind code r bs = .ok (kind a, rest) :=
  bind_ok (Reader.mapError_eq_ok.mpr h)

/-- The type byte of a STREAM frame is that of no other frame. -/
theorem readsBack_stream {ref : FrameRef} (hf : (store ref).Sendable)
    (hlevel : encryptionLevel = .secure ∨ encryptionLevel = .forwardSecure) :
    (stream ref).ReadsBack store o now packetNumber packetNumberLen encryptionLevel := by
  obtain ⟨-, -, -, -, hkind⟩ := StreamFrame.typeByte_spec (store ref).finBit
    (store ref).dataLenPresent _ (store ref).getOffsetLength_mem _
    (store ref).calculateStreamIDLength_mem
  have hwrite : ∃ tail, (store ref).write o = .ok (StreamFrame.typeByte (store ref).finBit
      (store ref).dataLenPresent (store ref).getOffsetLength (store ref).calculateStreamIDLength ::
        tail) := by
    rw [StreamFrame.write, if_neg]
    · exact ⟨_, rfl⟩
    · rintro ⟨hnil, hfin⟩
      rcases hf.carries with hne | htrue
      · exact hne (List.length_eq_zero_iff.mp hnil)
      · rw [hfin] at htrue
        cases htrue
  obtain ⟨tail, hwrite⟩ := hwrite
  generalize StreamFrame.typeByte _ _ _ _ = t at hwrite hkind
  refine ⟨t, tail, hwrite, ?_, fun hsize rest hrest => ?_⟩
  · rintro rfl
    exact absurd hkind (by decide)
  · have hlen := StreamFrame.length_write hwrite
    have hfits : (store ref).Fits :=
      ⟨hf.streamID_lt, hf.end_lt, by rw [StreamFrame.dataLen] at hlen; omega⟩
    have hparse := StreamFrame.parse_write hfits hwrite rest hrest
    have hencrypted : ¬ ((store ref).streamID ≠ 1 ∧
        (encryptionLevel = .unspecified ∨ encryptionLevel = .unencrypted)) := by
      rcases hlevel with rfl | rfl <;> simp
    rw [parseFrameOf, if_pos hkind, parseStream,
      bind_ok (Reader.mapError_eq_ok.mpr (field_ok hparse)),
      bind_ok (failIf_false hencrypted _ _)]
    rfl

/-- The type byte of an ACK frame is that of no other frame. -/
theorem readsBack_ack {f : AckFrame} (hvalid : f.Valid)
    (hblocks : neededBlocks f.ackRanges ≤ 255) :
    (ack f).ReadsBack store o now packetNumber packetNumberLen encryptionLevel := by
  obtain ⟨bytes, hwrite, hparse⟩ := AckFrame.parse_write_all (o := o) hvalid hblocks now
  have hkind := AckFrame.typeByte_kind (getPacketNumberLength_ne f.largestAcked)
    f.getMissingSequenceNumberDeltaLen_ne f.hasMissingRanges (decide (f.pathID ≠ initialPathID))
  obtain ⟨tail, rfl⟩ := AckFrame.write_head hwrite
  generalize AckFrame.typeByte _ _ _ _ = t at hwrite hkind hparse
  refine ⟨t, tail, hwrite, ?_, fun _ rest _ => ?_⟩
  · rintro rfl
    exact absurd hkind.2 (by decide)
  · rw [parseFrameOf, if_neg hkind.1, if_pos hkind.2]
    exact parseAs_ok (field_ok (hparse rest))

theorem readsBack_closePath {f : ClosePathFrame} (hvalid : f.Valid)
    (hblocks : neededBlocks f.ackRanges ≤ 255) :
    (closePath f).ReadsBack store o now packetNumber packetNumberLen encryptionLevel := by
  obtain ⟨bytes, hwrite, hparse⟩ := ClosePathFrame.parse_write_all (o := o) hvalid hblocks
  obtain ⟨numBlocks, -, h₁⟩ := bind_eq_ok hwrite
  obtain ⟨largestAcked, -, h₂⟩ := bind_eq_ok h₁
  obtain ⟨ackBlocks, -, h₃⟩ := bind_eq_ok h₂
  obtain rfl := Except.ok.inj h₃
  exact ⟨0x11, _, hwrite, by decide, fun _ rest _ => parseAs_ok (field_ok (hparse rest))⟩

theorem readsBack_stopWaiting {f : StopWaitingFrame}
    (hf : (stopWaiting f).WellFormed store packetNumber packetNumberLen) :
    (stopWaiting f).ReadsBack store o now packetNumber packetNumberLen encryptionLevel := by
  obtain ⟨rfl, rfl, hlen, hpos, hle, hlt⟩ := hf
  exact ⟨0x06, _, StopWaitingFrame.write_of_le hpos hle hlen, by decide,
    fun _ rest _ => parseAs_ok (field_ok (StopWaitingFrame.parse_write hpos hle hlt rest))⟩

/-- Every well-formed frame is read back. -/
theorem reads_back (hf : f.WellFormed store packetNumber packetNumberLen)
    (hlevel : encryptionLevel = .secure ∨ encryptionLevel = .forwardSecure) :
    f.ReadsBack store o now packetNumber packetNumberLen encryptionLevel := by
  cases f with
  | stream ref => exact readsBack_stream hf hlevel
  | ack f => exact readsBack_ack hf.1 hf.2
  | stopWaiting f => exact readsBack_stopWaiting hf
  | rstStream f =>
    exact ⟨0x01, _, rfl, by decide, fun _ rest _ =>
      parseAs_ok (RstStreamFrame.parse_write hf.1 hf.2.1 hf.2.2 rest)⟩
  | connectionClose f =>
    have hwrite : (connectionClose f).write store o now = .ok (0x02 :: (toBytes o 4 f.errorCode ++
        toBytes o 2 f.reasonPhrase.length ++ f.reasonPhrase)) :=
      if_neg (Nat.not_lt.mpr (Nat.le_sub_one_of_lt hf.2))
    refine ⟨_, _, hwrite, by decide, fun hsize rest _ =>
      parseAs_ok (ConnectionCloseFrame.parse_write hf.1 ?_ rest)⟩
    simp only [List.length_cons, List.length_append] at hsize
    omega
  | goaway f =>
    refine ⟨0x03, toBytes o 4 f.errorCode ++ toBytes o 4 f.lastGoodStream ++
      toBytes o 2 f.reasonPhrase.length ++ f.reasonPhrase, rfl, by decide, fun hsize rest _ =>
      parseAs_ok (GoawayFrame.parse_write hf.1 hf.2 ?_ rest)⟩
    simp only [List.length_cons, List.length_append] at hsize
    omega
  | windowUpdate f =>
    exact ⟨0x04, _, rfl, by decide, fun _ rest _ =>
      parseAs_ok (WindowUpdateFrame.parse_write hf.1 hf.2 rest)⟩
  | blocked f =>
    exact ⟨0x05, _, rfl, by decide, fun _ rest _ => parseAs_ok (BlockedFrame.parse_write hf rest)⟩
  | ping => exact ⟨0x07, [], rfl, by decide, fun _ rest _ => parseAs_ok (field_readByte _ rest)⟩
  | addAddress f =>
    obtain ⟨tail, hwrite, hparse⟩ := AddAddressFrame.parse_write (o := o) hf.1 hf.2
    exact ⟨0x10, tail, hwrite, by decide, fun _ rest _ => parseAs_ok (hparse rest)⟩
  | closePath f => exact readsBack_closePath hf.1 hf.2
  | paths f =>
    obtain ⟨tail, hwrite, hparse⟩ := PathsFrame.parse_write (o := o) hf.1 hf.2.1 hf.2.2
    exact ⟨0x12, tail, hwrite, by decide, fun _ rest _ => parseAs_ok (hparse rest)⟩

end Frame

/-! ## The whole payload -/

variable {store : FrameStore} {now packetNumber : ℕ} {packetNumberLen : PacketNumberLen}
  {encryptionLevel : EncryptionLevel}

theorem unpackFrames_cons {n : ℕ} {t : UInt8} {bs rest : List UInt8} {f : ReceivedFrame}
    {fs : List ReceivedFrame} (ht : t ≠ 0x00)
    (hparse : parseFrameOf o packetNumber packetNumberLen encryptionLevel t (t :: bs) =
      .ok (f, rest))
    (hrest : unpackFrames o packetNumber packetNumberLen encryptionLevel n rest = .ok fs) :
    unpackFrames o packetNumber packetNumberLen encryptionLevel (n + 1) (t :: bs) =
      .ok (f :: fs) := by
  rw [unpackFrames, if_neg ht, parseFrame, hparse, ok_bind, hrest]
  rfl

/-- Frames of which all but the last are self-delimiting can be written, and the loop reads them
back. -/
theorem unpackFrames_writeFrames {frames : List Frame}
    (hframes : ∀ f ∈ frames, f.WellFormed store packetNumber packetNumberLen)
    (hends : ∀ f ∈ frames.dropLast, f.SelfDelimiting store)
    (hlevel : encryptionLevel = .secure ∨ encryptionLevel = .forwardSecure) :
    ∃ payload, writeFrames store o now frames = .ok payload ∧ (frames ≠ [] → payload ≠ []) ∧
      (payload.length ≤ maxPacketSize → ∀ n, payload.length ≤ n →
        unpackFrames o packetNumber packetNumberLen encryptionLevel n payload =
          .ok (frames.map (·.received store now))) := by
  induction frames with
  | nil =>
    refine ⟨[], rfl, fun h => absurd rfl h, fun _ n _ => ?_⟩
    cases n <;> rfl
  | cons f frames ih =>
    obtain ⟨hf, hframes⟩ := List.forall_mem_cons.mp hframes
    have hback : f.ReadsBack store o now packetNumber packetNumberLen encryptionLevel :=
      Frame.reads_back hf hlevel
    obtain ⟨t, tail, hwrite, ht, hparse⟩ := hback
    have hends' : ∀ f ∈ frames.dropLast, f.SelfDelimiting store := by
      intro g hg
      cases frames with
      | nil => cases hg
      | cons f' frames => exact hends g (List.mem_cons_of_mem _ hg)
    obtain ⟨payload, hpayload, -, hread⟩ := ih hframes hends'
    refine ⟨t :: tail ++ payload, ?_, fun _ => List.cons_ne_nil _ _, fun hsize n hn => ?_⟩
    · rw [writeFrames, hwrite, ok_bind, hpayload]
      rfl
    · rw [List.length_append] at hsize hn
      obtain ⟨n, rfl⟩ : ∃ m, n = m + 1 := ⟨n - 1, by rw [List.length_cons] at hn; omega⟩
      -- only the last frame may go without its length: nothing follows it
      have hfollows : f.SelfDelimiting store ∨ payload = [] := by
        cases frames with
        | nil => exact .inr (Except.ok.inj hpayload).symm
        | cons f' frames => exact .inl (hends f List.mem_cons_self)
      have hrest := hread (by omega) n (by rw [List.length_cons] at hn; omega)
      exact unpackFrames_cons ht (hparse (by omega) payload hfollows) hrest

/-- Well-formed frames, of which only the last may be a STREAM frame without its data length, can be
written. If they fit into a packet, the frame loop reads them back, and so does `Unpack` from the
sealed packet unless there is no frame at all. The AEAD is a parameter: opening inverts sealing and
reports that the packet was encrypted. -/
theorem payload_roundTrip (version : VersionNumber) (now : ℕ) {frames : List Frame}
    (hframes : ∀ f ∈ frames, f.WellFormed store packetNumber packetNumberLen)
    (hends : ∀ f ∈ frames.dropLast, f.SelfDelimiting store)
    (hlevel : encryptionLevel = .secure ∨ encryptionLevel = .forwardSecure)
    (aeadSeal : List UInt8 → ℕ → List UInt8 → List UInt8) {aeadOpen : AEADOpen}
    (hopen : ∀ plaintext n associatedData, aeadOpen (aeadSeal plaintext n associatedData) n
      associatedData = some (plaintext, encryptionLevel)) (publicHeaderBinary : List UInt8) :
    let o := getByteOrder version
    ∃ payload, writeFrames store o now frames = .ok payload ∧
      (payload.length ≤ maxPacketSize →
        unpackFrames o packetNumber packetNumberLen encryptionLevel payload.length payload =
          .ok (frames.map (·.received store now)) ∧
        (frames ≠ [] → unpack o aeadOpen publicHeaderBinary packetNumber packetNumberLen
          (aeadSeal payload packetNumber publicHeaderBinary) =
            .ok { encryptionLevel, frames := frames.map (·.received store now) })) := by
  intro o
  obtain ⟨payload, hwrite, hne, hread⟩ := unpackFrames_writeFrames (o := o) hframes hends hlevel
  refine ⟨payload, hwrite, fun hsize => ⟨hread hsize _ le_rfl, fun hframes => ?_⟩⟩
  rw [unpack, hopen]
  dsimp only
  rw [if_neg (fun hlen => hne hframes (List.length_eq_zero_iff.mp hlen)), hread hsize _ le_rfl]

/-- A packet with the number 5 that has a STOP_WAITING, an ACK, an ADD_ADDRESS and a PATHS frame,
and a STREAM frame without its data length. -/
def exampleFrames : List Frame :=
  [.stopWaiting { leastUnacked := 3, packetNumber := 5, packetNumberLen := .len2 },
    .ack { largestAcked := 9, lowestAcked := 2, ackRanges := [⟨8, 9⟩, ⟨2, 5⟩], pathID := 3
           packetReceivedTime := 0, delayTime := 0 },
    .addAddress { ipVersion := 4, addr := { ip := [10, 0, 0, 1], port := 4433 } },
    .paths { maxNumPaths := 4, numPaths := 2, pathIDs := [1, 3], remoteRTTs := [20000, 7000] },
    .stream 0]

def exampleStore : FrameStore := fun _ =>
  { streamID := 5, finBit := true, dataLenPresent := false, offset := 300, data := [7, 8, 9] }

/-- These frames are read back. -/
theorem payload_roundTrip_example :
    ∃ payload, writeFrames exampleStore .big 1000 exampleFrames = .ok payload ∧
      unpack .big (fun data _ _ => some (data, .forwardSecure)) [] 5 .len2 payload =
        .ok { encryptionLevel := .forwardSecure
              frames := exampleFrames.map (·.received exampleStore 1000) } := by
  have hframes : ∀ f ∈ exampleFrames, f.WellFormed exampleStore 5 .len2 := by
    simp only [exampleFrames, List.forall_mem_cons]
    refine ⟨⟨rfl, rfl, by decide, by decide, by decide, by decide⟩, ⟨⟨by decide, ?_, by decide,
      by decide, by decide, by decide⟩, by decide⟩, ⟨.inl ⟨rfl, rfl⟩, by decide⟩,
      ⟨rfl, rfl, by decide⟩, ⟨by decide, by decide, .inr rfl⟩, List.forall_mem_nil _⟩
    simp
  have hends : ∀ f ∈ exampleFrames.dropLast, f.SelfDelimiting exampleStore := by
    simp [exampleFrames, Frame.SelfDelimiting]
  obtain ⟨payload, hwrite, hread⟩ := payload_roundTrip versionMP 1000 hframes hends
    (.inr rfl) (fun data _ _ => data) (fun _ _ _ => rfl) []
  have hsize : (writeFrames exampleStore .big 1000 exampleFrames).map
      (fun payload => decide (payload.length ≤ maxPacketSize)) = .ok true := by
    decide +kernel
  have hwrite' : writeFrames exampleStore .big 1000 exampleFrames = .ok payload := hwrite
  rw [hwrite'] at hsize
  have hne : exampleFrames ≠ [] := by decide
  exact ⟨payload, hwrite', (hread (of_decide_eq_true (Except.ok.inj hsize))).2 hne⟩

end MPQuic
