import MPQuic.Packer.CryptoPacket
import MPQuic.Packer.PacketSize

/-!
# Retransmitting packets of the handshake

A packet that was sent with less than forward-secure encryption is retransmitted whole: its frames
are not split, and a STOP_WAITING frame is added in front of them. Until then the packet number may
have become longer, the path may have an identifier and the connection ID may not be omitted any
more.

`packCryptoPacket` leaves 50 bytes for that, which is enough for at most 7 bytes of the STOP_WAITING
frame and at most 16 bytes of the header. `PackPacket` leaves nothing. It also packs packets below
the forward-secure level, with control frames on either side and with data of a client, and these
may fill the packet. `handshakeRetransmission_succeeds_iff` says which of them can be
retransmitted.
-/

namespace MPQuic

open Bytes
open AEADAESGCM12 (overhead)

/-! ## Written frames -/

/-- The number of bytes of frames that can be written. -/
def writtenLength (store : FrameStore) (o : Order) (now : ℕ) (fs : List Frame) : ℕ :=
  ((writeFrames store o now fs).toOption.map List.length).getD 0

section

variable {store store' : FrameStore} {o : Order} {now now' : ℕ} {fs : List Frame}
  {bytes : List UInt8}

theorem writtenLength_eq (h : writeFrames store o now fs = .ok bytes) :
    writtenLength store o now fs = bytes.length := by
  rw [writtenLength, h]
  rfl

/-- The frames of two parts of a packet have as many bytes together as the packet. -/
theorem writeFrames_filter (q : Frame → Bool) (h : writeFrames store o now fs = .ok bytes) :
    ∃ kept dropped, writeFrames store o now (fs.filter q) = .ok kept ∧
      writeFrames store o now (fs.filter (!q ·)) = .ok dropped ∧
      kept.length + dropped.length = bytes.length := by
  induction fs generalizing bytes with
  | nil =>
    obtain rfl := Except.ok.inj h
    exact ⟨[], [], rfl, rfl, rfl⟩
  | cons f fs ih =>
    obtain ⟨b, bs, hb, hbs, rfl⟩ := writeFrames_cons h
    obtain ⟨kept, dropped, hkept, hdropped, hlen⟩ := ih hbs
    cases hq : q f with
    | true =>
      refine ⟨b ++ kept, dropped, ?_, ?_, ?_⟩
      · rw [List.filter_cons_of_pos hq]
        exact writeFrames_cons_ok hb hkept
      · rw [List.filter_cons_of_neg (by rw [hq]; decide), hdropped]
      · rw [List.length_append, List.length_append]
        omega
    | false =>
      refine ⟨kept, b ++ dropped, ?_, ?_, ?_⟩
      · rw [List.filter_cons_of_neg (by rw [hq]; decide), hkept]
      · rw [List.filter_cons_of_pos (by rw [hq]; decide)]
        exact writeFrames_cons_ok hb hdropped
      · rw [List.length_append, List.length_append]
        omega

/-- The time matters for ACK frames only, and the STREAM frames of a session only for those that are
referenced. -/
theorem Frame.write_eq {f : Frame} (hf : f.isFrameRetransmittable = true)
    (href : ∀ ref, f.streamRef? = some ref → store' ref = store ref) :
    f.write store' o now' = f.write store o now := by
  cases f with
  | stream ref => rw [Frame.write, href ref rfl, Frame.write]
  | ack f => cases hf
  | _ => rfl

theorem writeFrames_strip (hfs : ∀ ref ∈ streamRefs fs, store' ref = store ref) :
    writeFrames store' o now' (stripNonRetransmittableFrames fs) =
      writeFrames store o now (stripNonRetransmittableFrames fs) := by
  induction fs with
  | nil => rfl
  | cons f fs ih =>
    have htail := ih fun ref href => hfs ref ?_
    · unfold stripNonRetransmittableFrames at htail ⊢
      cases hf : f.isFrameRetransmittable with
      | true =>
        rw [List.filter_cons_of_pos hf, writeFrames, writeFrames, htail,
          Frame.write_eq hf fun ref href => hfs ref (List.mem_filterMap.mpr ⟨f, by simp, href⟩)]
      | false => rw [List.filter_cons_of_neg (by rw [hf]; decide), htail]
    · obtain ⟨g, hg, hgref⟩ := List.mem_filterMap.mp href
      exact List.mem_filterMap.mpr ⟨g, List.mem_cons_of_mem f hg, hgref⟩

end

/-- A STOP_WAITING frame with a packet number can be written. -/
theorem StopWaitingFrame.write_eq_ok {f : StopWaitingFrame} {o : Order}
    (hnumber : f.packetNumber ≠ 0) (hunacked : f.leastUnacked ≤ f.packetNumber)
    (hlen : f.packetNumberLen ≠ .invalid) :
    ∃ bytes, f.write o = .ok bytes ∧ bytes.length = 1 + f.packetNumberLen.toNat := by
  rw [StopWaitingFrame.write, if_neg hnumber, if_neg (not_lt.mpr hunacked), if_neg hlen]
  refine ⟨_, rfl, ?_⟩
  rw [List.length_cons, length_toBytes, Nat.add_comm]

/-! ## The public header -/

/-- The header of the same side of a connection at another time: the side, the version and the nonce
are the same. -/
structure HeaderInput.SameConnection (c c' : HeaderInput) : Prop where
  perspective_eq : c'.perspective = c.perspective
  version_eq : c'.version = c.version
  nonce_eq : c'.diversificationNonce = c.diversificationNonce

namespace Wire.PublicHeader

variable {c c' : HeaderInput} {level : EncryptionLevel} {header header' : HeaderBytes}

theorem Gives.length_raw (h : (getPublicHeader c level).Gives c.version c.perspective header) :
    ∃ bytes, header.raw = .ok bytes ∧ bytes.length = header.length := by
  obtain ⟨bytes, hwrite, hraw⟩ := h.raw_eq
  exact ⟨bytes, hraw, length_write hwrite h.length_eq⟩

/-- The lengths of the version and of the nonce. -/
def fixedLength (c : HeaderInput) (level : EncryptionLevel) : ℕ :=
  (if (getPublicHeader c level).versionFlag then 4 else 0) +
    (getPublicHeader c level).diversificationNonce.length

theorem fixedLength_eq (hc : c.SameConnection c') : fixedLength c' level = fixedLength c level := by
  unfold fixedLength getPublicHeader
  dsimp only
  rw [hc.perspective_eq, hc.nonce_eq]

/-- The rest is the flags, the packet number, and possibly a connection ID and a path ID. -/
theorem Gives.length_bounds (h : (getPublicHeader c level).Gives c.version c.perspective header) :
    fixedLength c level ≤ header.length ∧ header.length ≤ fixedLength c level + 16 := by
  obtain ⟨-, hlength⟩ := getLength_ok h.length_eq
  have hnumber := (getPublicHeader c level).packetNumberLen.toNat_le
  rw [hlength, fixedLength]
  split_ifs <;> omega

theorem Gives.fixedLength_le (h : (getPublicHeader c level).Gives c.version c.perspective header) :
    fixedLength c level ≤ 36 := by
  have hnonce : (getPublicHeader c level).diversificationNonce.length ≤ 32 := by
    obtain ⟨bytes, hwrite, -⟩ := h.raw_eq
    unfold write at hwrite
    split_ifs at hwrite <;> omega
  unfold fixedLength
  split_ifs <;> omega

end Wire.PublicHeader

namespace PacketPacker

/-! ## Sealing -/

variable {p p' : PacketPacker} {generator generator' : PacketNumberGenerator} {i i' : PackInput}
  {frames : List Frame} {packet : PackedPacket} {header payload : List UInt8}

/-- A packet is as long as its header, its frames and the tag. -/
theorem sealFrames_length (h : (p.sealFrames generator i frames).1 = .ok packet) :
    ∃ header payload, i.header.raw = .ok header ∧
      writeFrames p.heap.get i.order i.now frames = .ok payload ∧
      packet.length = header.length + payload.length + overhead := by
  obtain ⟨hwrite, -⟩ := sealFrames_eq_ok h
  obtain ⟨header, payload, hheader, hpayload, hlength, -⟩ := writeAndSealPacket_ok hwrite
  exact ⟨header, payload, hheader, hpayload, hlength⟩

/-- Frames that can be written are sealed if and only if they fit. -/
theorem sealFrames_ok_iff (p : PacketPacker) (generator : PacketNumberGenerator)
    (hraw : i.header.raw = .ok header)
    (hpayload : writeFrames p.heap.get i.order i.now frames = .ok payload) :
    (∃ packet, (p.sealFrames generator i frames).1 = .ok packet) ↔
      header.length + payload.length + overhead ≤ maxPacketSize := by
  have hnumber : (generator.pop i.random).1 = generator.peek := by
    unfold PacketNumberGenerator.pop
    dsimp only
    split_ifs <;> rfl
  unfold sealFrames writeAndSealPacket
  rw [hraw, hpayload]
  dsimp only
  by_cases hlong : maxPacketSize < header.length + payload.length + overhead
  · rw [if_pos hlong]
    exact iff_of_false (fun ⟨_, h⟩ => nomatch h) (not_le.mpr hlong)
  · rw [if_neg hlong, if_neg (not_not.mpr hnumber)]
    exact iff_of_true ⟨_, rfl⟩ (not_lt.mp hlong)

/-! ## Retransmissions -/

/-- What the sent packet handler keeps of a packet. -/
def handshakePacket (packet : PackedPacket) : Packet where
  packetNumber := packet.number
  frames := stripNonRetransmittableFrames packet.frames
  length := packet.length
  encryptionLevel := packet.encryptionLevel
  sendTime := 0

/-- A later call with which a packet is retransmitted: the header is that of the next packet number
of the path, a STOP_WAITING frame is queued, and the STREAM frames are still those of the packet. -/
structure LaterCall (c : HeaderInput) (i : PackInput) (heap : FrameHeap) (packet : PackedPacket)
    (c' : HeaderInput) (p' : PacketPacker) (generator' : PacketNumberGenerator) (i' : PackInput) :
    Prop where
  same : c.SameConnection c'
  order_eq : i'.order = i.order
  number_lt : packet.number < generator'.peek
  number_eq : c'.packetNumber = generator'.peek
  header : (getPublicHeader c' packet.encryptionLevel).Gives c'.version c'.perspective i'.header
  stopWaiting : ∃ f, p'.stopWaiting i'.pathID = some f ∧ f.leastUnacked ≤ generator'.peek
  frames_eq : ∀ ref ∈ streamRefs packet.frames, p'.heap.get ref = heap.get ref

/-- The packet is retransmitted whole. -/
def Succeeds (p' : PacketPacker) (generator' : PacketNumberGenerator) (i' : PackInput)
    (packet : PackedPacket) : Prop :=
  ∃ r retransmission,
    p'.packHandshakeRetransmission generator' i' (handshakePacket packet) = .ok r ∧
    r.packet = some retransmission ∧ retransmission.length ≤ maxPacketSize

/-- What the packet leaves of `maxPacketSize`, with the bytes of its ACK and STOP_WAITING frames, is
enough for a new STOP_WAITING frame and what the header is longer. -/
def LeavesRoom (i i' : PackInput) (heap : FrameHeap) (packet : PackedPacket) : Prop :=
  packet.length + i'.header.length + (1 + i'.header.packetNumberLen.toNat) ≤
    maxPacketSize + i.header.length +
      writtenLength heap.get i.order i.now (packet.frames.filter (!·.isFrameRetransmittable))

/-- Retransmitting a packet is sealing its frames after a STOP_WAITING frame. -/
theorem succeeds_iff {f : StopWaitingFrame} (hlevel : packet.encryptionLevel ≠ .forwardSecure)
    (hf : p'.stopWaiting i'.pathID = some f) :
    p'.Succeeds generator' i' packet ↔
      ∃ r, p'.sealRetransmission generator' i' (handshakePacket packet) f = .ok r := by
  have hpack : p'.packHandshakeRetransmission generator' i' (handshakePacket packet) =
      (p'.sealRetransmission generator' i' (handshakePacket packet) f).mapError .pack := by
    rw [packHandshakeRetransmission, if_neg (by exact hlevel), hf]
  constructor
  · rintro ⟨r, -, h, -⟩
    rw [hpack] at h
    cases hseal : p'.sealRetransmission generator' i' (handshakePacket packet) f with
    | error e =>
      rw [hseal] at h
      cases h
    | ok r' => exact ⟨r', rfl⟩
  · rintro ⟨r, hseal⟩
    have h : p'.packHandshakeRetransmission generator' i' (handshakePacket packet) = .ok r := by
      rw [hpack, hseal]
      rfl
    obtain ⟨-, retransmission, hretransmission, -, hle, -⟩ := packHandshakeRetransmission_ok h
    exact ⟨r, retransmission, h, hretransmission, hle⟩

/-- A retransmission that can be written is sealed if and only if it fits. -/
theorem sealRetransmission_ok_iff {pkt : Packet} {f : StopWaitingFrame}
    (hraw : i'.header.raw = .ok header)
    (hpayload : writeFrames p'.heap.get i'.order i'.now
      (.stopWaiting { f with
        packetNumber := generator'.peek, packetNumberLen := i'.header.packetNumberLen } ::
        pkt.frames) = .ok payload) :
    (∃ r, p'.sealRetransmission generator' i' pkt f = .ok r) ↔
      header.length + payload.length + overhead ≤ maxPacketSize := by
  rw [← sealFrames_ok_iff { p' with
    stopWaiting := Function.update p'.stopWaiting i'.pathID none } generator'
    (i := { i' with encryptionLevel := pkt.encryptionLevel }) hraw hpayload]
  constructor
  · rintro ⟨r, h⟩
    obtain ⟨retransmission, hretransmission, -⟩ := bind_eq_ok h
    exact ⟨retransmission, hretransmission⟩
  · rintro ⟨retransmission, h⟩
    exact ⟨_, by rw [sealRetransmission, h]; rfl⟩

/-- A sealed packet is retransmitted if and only if it leaves room. -/
theorem succeeds_iff_leavesRoom {c c' : HeaderInput}
    (hheader : (getPublicHeader c i.encryptionLevel).Gives c.version c.perspective i.header)
    (hlevel : i.encryptionLevel ≠ .forwardSecure)
    (hseal : (p.sealFrames generator i frames).1 = .ok packet)
    (hlater : LaterCall c i p.heap packet c' p' generator' i') :
    p'.Succeeds generator' i' packet ↔ LeavesRoom i i' p.heap packet := by
  obtain ⟨f, hf, hunacked⟩ := hlater.stopWaiting
  obtain ⟨-, hframes, hpacketLevel, -⟩ := sealFrames_ok hseal
  rw [succeeds_iff (by rw [hpacketLevel]; exact hlevel) hf]
  -- the first packet
  obtain ⟨header, payload, hraw, hpayload, hlength⟩ := sealFrames_length hseal
  obtain ⟨kept, dropped, hkept, hdropped, hsum⟩ :=
    writeFrames_filter Frame.isFrameRetransmittable hpayload
  -- its retransmission
  obtain ⟨header', hraw', hlength'⟩ := hlater.header.length_raw
  obtain ⟨swf, hswf, hswfLength⟩ := StopWaitingFrame.write_eq_ok (o := i'.order)
    (f := { f with
      packetNumber := generator'.peek, packetNumberLen := i'.header.packetNumberLen })
    (Nat.ne_zero_of_lt hlater.number_lt) hunacked
    (by rw [hlater.header.packetNumberLen_eq]; exact getPacketNumberLengthForPublicHeader_ne _ _)
  have hstrip : writeFrames p'.heap.get i'.order i'.now
      (stripNonRetransmittableFrames packet.frames) = .ok kept := by
    rw [hlater.order_eq, writeFrames_strip hlater.frames_eq, hframes]
    exact hkept
  rw [sealRetransmission_ok_iff hraw' (writeFrames_cons_ok hswf hstrip), LeavesRoom, hframes,
    writtenLength_eq hdropped]
  obtain ⟨header, hraw₁, hlength₁⟩ := hheader.length_raw
  obtain rfl := Except.ok.inj (hraw.symm.trans hraw₁)
  rw [List.length_append, hswfLength]
  dsimp only
  omega

/-! ## Packets of the crypto stream -/

/-- A frame of the crypto stream fits into the room it is given. -/
theorem wireLen_popCryptoStreamFrame (cs : SendStream) {maxLen : ℕ} (hmax : 13 ≤ maxLen) :
    (StreamFramer.popCryptoStreamFrame cs maxLen).1.wireLen ≤ maxLen := by
  -- the header does not depend on the data
  let frame : StreamFrame :=
    { streamID := 1, finBit := false, dataLenPresent := false, offset := cs.writeOffset
      data := [] }
  have hframe : frame.minLength ≤ 13 := by
    have hid := frame.calculateStreamIDLength_mem
    have hoffset := frame.getOffsetLength_mem
    simp only [List.mem_cons, List.not_mem_nil, or_false] at hid hoffset
    change 1 + frame.calculateStreamIDLength + frame.getOffsetLength + 0 ≤ 13
    omega
  have hdata : (cs.getDataForWriting (maxLen - frame.minLength)).1.length ≤
      maxLen - frame.minLength := by
    unfold SendStream.getDataForWriting
    split_ifs
    · exact Nat.zero_le _
    · exact List.length_take_le _ _
  change frame.minLength + (cs.getDataForWriting (maxLen - frame.minLength)).1.length ≤ maxLen
  omega

/-- A packet of the crypto stream has a single STREAM frame. -/
theorem packCryptoPacket_ok {cs cs' : SendStream} {r : Packed}
    (h : p.packCryptoPacket generator i cs = .ok (r, cs')) :
    ∃ packet ref, r.packet = some packet ∧
      (r.packer.sealFrames generator i [.stream ref]).1 = .ok packet ∧
      r.packer.heap.get ref = (StreamFramer.popCryptoStreamFrame cs (maxPacketSize -
        overhead - nonForwardSecurePacketSizeReduction - i.header.length)).1 := by
  obtain ⟨packet, hpacket, h₁⟩ := bind_eq_ok h
  obtain ⟨rfl, -⟩ := Prod.mk.inj (Except.ok.inj h₁)
  exact ⟨packet, _, rfl, hpacket, CellHeap.get_alloc_self ..⟩

/-- A packet of the crypto stream leaves room for its retransmission. -/
theorem leavesRoom_of_crypto {c c' : HeaderInput} {ref : FrameRef}
    (hheader : (getPublicHeader c i.encryptionLevel).Gives c.version c.perspective i.header)
    (hseal : (p.sealFrames generator i [.stream ref]).1 = .ok packet)
    (hlen : (p.heap.get ref).wireLen ≤ maxPacketSize - overhead -
      nonForwardSecurePacketSizeReduction - i.header.length)
    (hlater : LaterCall c i p.heap packet c' p' generator' i') :
    LeavesRoom i i' p.heap packet := by
  obtain ⟨-, hframes, hlevel, -⟩ := sealFrames_ok hseal
  obtain ⟨header, payload, hraw, hpayload, hlength⟩ := sealFrames_length hseal
  obtain ⟨header', hraw', hheaderLength⟩ := hheader.length_raw
  obtain rfl := Except.ok.inj (hraw.symm.trans hraw')
  have hpayloadLength : payload.length = wireLens ([ref].map p.heap.get) :=
    length_writeFrames_stream hpayload
  rw [List.map_singleton, wireLens_cons, wireLens_nil] at hpayloadLength
  -- the header is at most 16 bytes longer
  have hbounds := hheader.length_bounds
  have hfixed := hheader.fixedLength_le
  have hbounds' := hlater.header.length_bounds
  rw [Wire.PublicHeader.fixedLength_eq hlater.same, hlevel] at hbounds'
  have hnumber := i'.header.packetNumberLen.toNat_le
  unfold LeavesRoom
  unfold maxPacketSize overhead nonForwardSecurePacketSizeReduction at *
  omega

/-! ## All packets -/

/-- **Retransmission of packets that were sent before forward security.** A packet of the crypto
stream can always be retransmitted, and a packet of `PackPacket` if and only if it leaves room for
what is added. -/
theorem handshakeRetransmission_succeeds_iff (p : PacketPacker) (generator : PacketNumberGenerator)
    (i : PackInput) (c c' : HeaderInput) (p' : PacketPacker) (generator' : PacketNumberGenerator)
    (i' : PackInput) (packet : PackedPacket) (hlevel : i.encryptionLevel ≠ .forwardSecure)
    (hheader : (getPublicHeader c i.encryptionLevel).Gives c.version c.perspective i.header) :
    (∀ cs r cs', p.packCryptoPacket generator i cs = .ok (r, cs') → r.packet = some packet →
      LaterCall c i r.packer.heap packet c' p' generator' i' →
        p'.Succeeds generator' i' packet) ∧
    ∀ r, p.packPacket generator i = .ok r → r.packet = some packet →
      LaterCall c i r.packer.heap packet c' p' generator' i' →
        (p'.Succeeds generator' i' packet ↔ LeavesRoom i i' r.packer.heap packet) := by
  refine ⟨fun cs r cs' hpack hpacket hlater => ?_, fun r hpack hpacket hlater => ?_⟩
  · obtain ⟨packet', ref, hpacket', hseal, href⟩ := packCryptoPacket_ok hpack
    obtain rfl := Option.some.inj (hpacket'.symm.trans hpacket)
    rw [succeeds_iff_leavesRoom hheader hlevel hseal hlater]
    refine leavesRoom_of_crypto hheader hseal ?_ hlater
    rw [href]
    refine wireLen_popCryptoStreamFrame cs ?_
    have hbounds := hheader.length_bounds
    have hfixed := hheader.fixedLength_le
    unfold maxPacketSize overhead nonForwardSecurePacketSizeReduction
    omega
  · obtain ⟨frames, hseal⟩ := packPacket_sealed hpack hpacket
    exact succeeds_iff_leavesRoom hheader hlevel hseal hlater

/-- A client that has not completed its handshake, with a packet number. -/
def clientHeaderInput (packetNumber : ℕ) : HeaderInput where
  connectionID := 1
  perspective := .client
  version := versionMP
  truncateConnectionID := false
  diversificationNonce := []
  packetNumber := packetNumber
  leastUnacked := 1
  pathID := 0
  handshakeComplete := false

/-- Its header at the secure level, for a packet number below 256. -/
def clientHeader (packetNumber : UInt8) : HeaderBytes where
  packetNumberLen := .len2
  length := 15
  raw := .ok [0x19, 1, 0, 0, 0, 0, 0, 0, 0, 0x51, 0x35, 0x31, 0x32, 0, packetNumber]

/-- A packet with this header. -/
def clientInput (packetNumber : UInt8) (visits : List StreamVisit) : PackInput where
  pathID := 0
  header := clientHeader packetNumber
  encryptionLevel := .secure
  isClient := true
  sealer := SealingState.exampleSealer
  order := .big
  now := 0
  random := none
  visits := visits

/-- A stream of `n` bytes that flow control does not hinder. -/
def dataStream (streamID n : ℕ) : StreamVisit where
  stream :=
    { streamID, writeOffset := 0, dataForWriting := List.replicate n 7, finishedWriting := false
      finSent := false, failed := false }
  sendWindowSize := 10000
  remainingConnectionWindowSize := 10000

/-- A STOP_WAITING frame is queued. -/
def withStopWaiting (p : PacketPacker) : PacketPacker :=
  { p with
    stopWaiting := fun _ => some
      { leastUnacked := 1, packetNumberLen := .invalid, packetNumber := 0 } }

theorem clientHeader_gives :
    (getPublicHeader (clientHeaderInput 1) .secure).Gives versionMP .client (clientHeader 1) ∧
      (getPublicHeader (clientHeaderInput 2) .secure).Gives versionMP .client (clientHeader 2) :=
  ⟨⟨rfl, by decide +kernel, _, by decide +kernel, rfl⟩,
    ⟨rfl, by decide +kernel, _, by decide +kernel, rfl⟩⟩

/-- The call with which the client retransmits its first packet. -/
theorem clientInput_later (visits : List StreamVisit) (hnumber : packet.number = 1)
    (hlevel : packet.encryptionLevel = .secure) :
    LaterCall (clientHeaderInput 1) (clientInput 1 visits) p.heap packet (clientHeaderInput 2)
      p.withStopWaiting ⟨500, 2, 0⟩ (clientInput 2 []) where
  same := ⟨rfl, rfl, rfl⟩
  order_eq := rfl
  number_lt := by rw [hnumber]; decide
  number_eq := rfl
  header := by rw [hlevel]; exact clientHeader_gives.2
  stopWaiting := ⟨_, rfl, by decide⟩
  frames_eq := fun _ _ => rfl

theorem exists_packet_of_map {α β ε : Type} {x : Except ε α} {f : α → Option PackedPacket}
    {g : PackedPacket → β} {b : β} (h : x.map (fun a => (f a).map g) = .ok (some b)) :
    ∃ a packet, x = .ok a ∧ f a = some packet ∧ g packet = b := by
  cases x with
  | error e => cases h
  | ok a =>
    obtain ⟨packet, hpacket, hg⟩ := Option.map_eq_some_iff.mp (Except.ok.inj h)
    exact ⟨a, packet, rfl, hpacket, hg⟩

/-- A packet of the crypto stream and a packet with a WINDOW_UPDATE frame can be retransmitted. -/
theorem handshakeRetransmission_succeeds_example :
    (∃ r packet, new.packCryptoPacket .new (clientInput 1 []) (dataStream 1 2000).stream = .ok r ∧
      r.1.packet = some packet ∧ packet.length = 1300 ∧
      r.1.packer.withStopWaiting.Succeeds ⟨500, 2, 0⟩ (clientInput 2 []) packet) ∧
    ∃ r packet, (new.queueControlFrame (.windowUpdate ⟨5, 100⟩) 0).packPacket .new
        (clientInput 1 []) = .ok r ∧ r.packet = some packet ∧
      r.packer.withStopWaiting.Succeeds ⟨500, 2, 0⟩ (clientInput 2 []) packet := by
  constructor
  · obtain ⟨r, packet, hpack, hpacket, hvalues⟩ := exists_packet_of_map
      (x := new.packCryptoPacket .new (clientInput 1 []) (dataStream 1 2000).stream)
      (f := fun r => r.1.packet) (g := fun k => (k.number, k.encryptionLevel, k.length))
      (b := (1, .secure, 1300)) (by decide +kernel)
    obtain ⟨hnumber, hlevel, hlength⟩ := by simpa only [Prod.mk.injEq] using hvalues
    exact ⟨r, packet, hpack, hpacket, hlength,
      (handshakeRetransmission_succeeds_iff _ _ _ _ _ _ _ _ _ (by decide) clientHeader_gives.1).1
        _ _ _ hpack hpacket (clientInput_later [] hnumber hlevel)⟩
  · obtain ⟨r, packet, hpack, hpacket, hvalues⟩ := exists_packet_of_map
      (x := (new.queueControlFrame (.windowUpdate ⟨5, 100⟩) 0).packPacket .new (clientInput 1 []))
      (f := fun r => r.packet) (g := fun k => (k.number, k.encryptionLevel, k.length))
      (b := (1, .secure, 40)) (by decide +kernel)
    obtain ⟨hnumber, hlevel, hlength⟩ := by simpa only [Prod.mk.injEq] using hvalues
    refine ⟨r, packet, hpack, hpacket,
      ((handshakeRetransmission_succeeds_iff _ _ _ _ _ _ _ _ _ (by decide) clientHeader_gives.1).2
        _ hpack hpacket (clientInput_later [] hnumber hlevel)).2 ?_⟩
    refine le_trans ?_ (Nat.le_add_right _ _)
    rw [hlength]
    decide

/-- A client fills its first packet with data of a stream at the secure level. The retransmission is
too large. -/
theorem handshakeRetransmission_fails :
    ∃ r packet, new.packPacket .new (clientInput 1 [dataStream 5 2000]) = .ok r ∧
      r.packet = some packet ∧ packet.length = maxPacketSize ∧ packet.encryptionLevel = .secure ∧
      LaterCall (clientHeaderInput 1) (clientInput 1 [dataStream 5 2000]) r.packer.heap packet
        (clientHeaderInput 2) r.packer.withStopWaiting ⟨500, 2, 0⟩ (clientInput 2 []) ∧
      ¬ r.packer.withStopWaiting.Succeeds ⟨500, 2, 0⟩ (clientInput 2 []) packet := by
  obtain ⟨r, packet, hpack, hpacket, hvalues⟩ := exists_packet_of_map
    (x := new.packPacket .new (clientInput 1 [dataStream 5 2000])) (f := fun r => r.packet)
    (g := fun k => (k.number, k.encryptionLevel, k.length, k.frames))
    (b := (1, .secure, 1350, [.stream 0])) (by decide +kernel)
  obtain ⟨hnumber, hlevel, hlength, hframes⟩ := by simpa only [Prod.mk.injEq] using hvalues
  have hlater := clientInput_later (p := r.packer) [dataStream 5 2000] hnumber hlevel
  obtain ⟨frames, hseal⟩ := packPacket_sealed hpack hpacket
  refine ⟨r, packet, hpack, hpacket, hlength, hlevel, hlater, ?_⟩
  rw [succeeds_iff_leavesRoom clientHeader_gives.1 (by decide) hseal hlater, LeavesRoom, hlength,
    hframes]
  change ¬ 1350 + 15 + (1 + 2) ≤ 1350 + 15 + 0
  decide

end PacketPacker

end MPQuic
