import MPQuic.Packer.PacketPacker
import MPQuic.Packer.Popping
import MPQuic.Wire.FrameLength
import MPQuic.Wire.PacketNumber
import MPQuic.Wire.PublicHeader

/-!
# The size of packets

Why a packet that is packed at the forward-secure level is never too large:

* the public header has at most 16 bytes (`getPublicHeader_forwardSecure`);
* a STOP_WAITING and an ACK frame have at most 1293 bytes, so that they "will always fit";
* control frames are added as long as they fit;
* the STREAM frames are given two bytes more than there are, and the last of them omits its data
  length, which has two bytes (`wireLens_omitLastDataLen`).

The lengths of the source are unsigned. `packPacketSubtractions` lists the subtractions of lengths
that a call of `PackPacket` comes to, from what the functions it calls return
(`composeSubtractions_of_ok`).

Data of the crypto stream is packed by `packCryptoPacket`, for which neither crypto setup has a
forward-secure sealer.
-/

namespace MPQuic

open Bytes
open AEADAESGCM12 (overhead)

/-! ## The public header -/

/-- What the packer reads to make the public header of a packet. -/
structure HeaderInput where
  connectionID : ℕ
  perspective : Perspective
  version : VersionNumber
  /-- The peer asked to omit the connection ID. -/
  truncateConnectionID : Bool
  diversificationNonce : List UInt8
  /-- The next packet number of the path. -/
  packetNumber : ℕ
  leastUnacked : ℕ
  pathID : PathID
  handshakeComplete : Bool

/-- The public header of the next packet of a path. -/
def getPublicHeader (c : HeaderInput) (encLevel : EncryptionLevel) : Wire.PublicHeader :=
  let versionFlag := c.perspective == .client && encLevel != .forwardSecure
  let multipathFlag := c.handshakeComplete && decide (versionMP ≤ c.version)
  { connectionID := c.connectionID
    packetNumber := c.packetNumber
    packetNumberLen := getPacketNumberLengthForPublicHeader c.packetNumber c.leastUnacked
    -- in case of doubt, never truncate the connection ID
    truncateConnectionID := if multipathFlag then false else c.truncateConnectionID
    diversificationNonce :=
      if c.perspective == .server && encLevel == .secure then c.diversificationNonce else []
    versionFlag
    versionNumber := if versionFlag then c.version else 0
    resetFlag := false
    multipathFlag
    pathID := if multipathFlag then c.pathID else 0 }

/-- What the packer uses of a public header: its lengths and its bytes. -/
structure Wire.PublicHeader.Gives (h : Wire.PublicHeader) (version : VersionNumber)
    (pers : Perspective) (header : HeaderBytes) : Prop where
  packetNumberLen_eq : header.packetNumberLen = h.packetNumberLen
  length_eq : h.getLength pers = .ok header.length
  raw_eq : ∃ bytes, h.write version pers = .ok bytes ∧ header.raw = .ok bytes

/-- Forward-secure packets have neither a version nor a diversification nonce, so that their header
can be written in at most 16 bytes. -/
theorem getPublicHeader_forwardSecure (c : HeaderInput) (version : VersionNumber)
    (pers : Perspective) :
    (∃ n ≤ 16, (getPublicHeader c .forwardSecure).getLength pers = .ok n) ∧
      ∃ bytes, (getPublicHeader c .forwardSecure).write version pers = .ok bytes := by
  refine Wire.PublicHeader.plain_ok version pers ?_ rfl ?_ ?_
  · exact Bool.and_false _
  · exact if_neg (by simp)
  · exact getPacketNumberLengthForPublicHeader_ne _ _

theorem Wire.PublicHeader.Gives.raw_length {c : HeaderInput} {header : HeaderBytes}
    (h : (getPublicHeader c .forwardSecure).Gives c.version c.perspective header) :
    header.length ≤ 16 ∧ ∃ bytes, header.raw = .ok bytes ∧ bytes.length = header.length := by
  obtain ⟨⟨n, hle, hn⟩, -⟩ := getPublicHeader_forwardSecure c c.version c.perspective
  obtain ⟨bytes, hwrite, hraw⟩ := h.raw_eq
  obtain rfl := Except.ok.inj (hn.symm.trans h.length_eq)
  exact ⟨hle, bytes, hraw, Wire.PublicHeader.length_write hwrite h.length_eq⟩

/-! ## Frames -/

/-- The frame is written in as many bytes as `MinLength` says. What STREAM frames there are makes
no difference to a control frame. -/
def Frame.Exact (f : Frame) (o : Order) (now : ℕ) : Prop :=
  ∀ store store' bytes n, f.write store o now = .ok bytes → f.minLength store' = .ok n →
    bytes.length = n

theorem Frame.exact_ack (f : AckFrame) (o : Order) (now : ℕ) : (Frame.ack f).Exact o now := by
  intro store store' bytes n hwrite hlen
  obtain rfl := Except.ok.inj hlen
  exact AckFrame.length_write hwrite

theorem Frame.exact_stopWaiting (f : StopWaitingFrame) (o : Order) (now : ℕ) :
    (Frame.stopWaiting f).Exact o now :=
  fun _ _ _ _ hwrite hlen => StopWaitingFrame.length_write hwrite hlen

namespace PacketPacker

variable {store store' : FrameStore} {o : Order} {now : ℕ} {bytes : List UInt8} {n : ℕ}

theorem length_writeFrames {fs : List Frame} (hexact : ∀ f ∈ fs, f.Exact o now)
    (hwrite : writeFrames store o now fs = .ok bytes) (hlen : minLengths store' fs = .ok n) :
    bytes.length = n := by
  induction fs generalizing bytes n with
  | nil =>
    obtain rfl := Except.ok.inj hwrite
    obtain rfl := Except.ok.inj hlen
    rfl
  | cons f fs ih =>
    obtain ⟨hf, hfs⟩ := List.forall_mem_cons.mp hexact
    obtain ⟨b, bs, hb, hbs, rfl⟩ := writeFrames_cons hwrite
    obtain ⟨l, hl, h₁⟩ := bind_eq_ok hlen
    obtain ⟨rest, hrest, h₂⟩ := bind_eq_ok h₁
    obtain rfl := Except.ok.inj h₂
    rw [List.length_append, hf _ _ _ _ hb hl, ih hfs hbs hrest]

theorem length_writeFrames_stream {refs : List FrameRef}
    (hwrite : writeFrames store o now (refs.map .stream) = .ok bytes) :
    bytes.length = wireLens (refs.map store) := by
  induction refs generalizing bytes with
  | nil =>
    obtain rfl := Except.ok.inj hwrite
    rfl
  | cons ref refs ih =>
    obtain ⟨b, bs, hb, hbs, rfl⟩ := writeFrames_cons hwrite
    rw [List.length_append, StreamFrame.length_write hb, ih hbs, List.map_cons, wireLens_cons,
      StreamFrame.wireLen]

/-- Control frames are popped as long as they fit. -/
theorem popControlFrames_spec {maxFrameSize payloadLength : ℕ} {frames : List ControlFrame}
    {r : PoppedControlFrames}
    (h : popControlFrames store maxFrameSize frames payloadLength = .ok r) :
    (∀ f ∈ r.frames, f ∈ frames) ∧ (payloadLength ≤ maxFrameSize → r.payloadLength ≤ maxFrameSize) ∧
      ∃ n, minLengths store (r.frames.map (·.1)) = .ok n ∧ r.payloadLength = payloadLength + n := by
  induction frames generalizing payloadLength r with
  | nil =>
    obtain rfl := Except.ok.inj h
    exact ⟨fun _ hf => hf, id, 0, rfl, rfl⟩
  | cons frame rest ih =>
    obtain ⟨l, hl, h₁⟩ := bind_eq_ok h
    split_ifs at h₁ with hfull
    · obtain rfl := Except.ok.inj h₁
      exact ⟨fun _ hf => absurd hf List.not_mem_nil, id, 0, rfl, rfl⟩
    · obtain ⟨r', hr', h₂⟩ := bind_eq_ok h₁
      obtain rfl := Except.ok.inj h₂
      obtain ⟨hmem, hle, n, hn, hlen⟩ := ih hr'
      refine ⟨?_, fun _ => hle (by omega), l + n, ?_, ?_⟩
      · exact List.forall_mem_cons.mpr
          ⟨List.mem_cons_self, fun f hf => List.mem_cons_of_mem _ (hmem f hf)⟩
      · rw [List.map_cons, minLengths, hl, ok_bind, hn]
        rfl
      · dsimp only
        omega

/-! ## The last STREAM frame -/

theorem wireLens_le_of_forall {refs : List FrameRef} {get get' : FrameStore}
    (h : ∀ ref ∈ refs, (get ref).wireLen ≤ (get' ref).wireLen) :
    wireLens (refs.map get) ≤ wireLens (refs.map get') := by
  induction refs with
  | nil => exact le_rfl
  | cons ref refs ih =>
    obtain ⟨hle, h⟩ := List.forall_mem_cons.mp h
    rw [List.map_cons, List.map_cons, wireLens_cons, wireLens_cons]
    exact Nat.add_le_add hle (ih h)

/-- A frame is two bytes shorter without its data length. -/
theorem wireLen_omit (f : StreamFrame) (hpresent : f.dataLenPresent = true) :
    StreamFrame.wireLen { f with dataLenPresent := false } + 2 = f.wireLen := by
  unfold StreamFrame.wireLen StreamFrame.minLength
  rw [hpresent]
  change 1 + f.calculateStreamIDLength + f.getOffsetLength + 0 + f.dataLen + 2 =
    1 + f.calculateStreamIDLength + f.getOffsetLength + 2 + f.dataLen
  omega

/-- Omitting the data length of the last frame saves the two bytes that it has. -/
theorem wireLens_omitLastDataLen {popped : List FrameRef} {heap : FrameHeap} (hne : popped ≠ [])
    (hpresent : ∀ ref ∈ popped, (heap.get ref).dataLenPresent = true) :
    wireLens (popped.map (omitLastDataLen popped heap).get) + 2 ≤
      wireLens (popped.map heap.get) := by
  rcases List.eq_nil_or_concat popped with rfl | ⟨init, last, rfl⟩
  · exact absurd rfl hne
  rw [List.concat_eq_append] at *
  have hlast := wireLen_omit _ (hpresent last (by simp))
  rw [omitLastDataLen, List.getLast?_concat]
  dsimp only
  have hinit : wireLens (init.map (heap.modify last ({ · with dataLenPresent := false })).get) ≤
      wireLens (init.map heap.get) := by
    refine wireLens_le_of_forall fun ref href => ?_
    by_cases heq : ref = last
    · subst heq
      rw [CellHeap.get_modify_self]
      omega
    · rw [CellHeap.get_modify_of_ne heq]
  rw [List.map_append, List.map_append, wireLens_append, wireLens_append, List.map_singleton,
    List.map_singleton, CellHeap.get_modify_self, wireLens_cons, wireLens_cons, wireLens_nil]
  omega

/-! ## Composed packets -/

/-- The STOP_WAITING and the ACK frame of a path together leave room in every packet. -/
theorem minLengths_fixed_le {stopWaiting : Option StopWaitingFrame} {ack : Option AckFrame}
    (hack : ∀ f, ack = some f → ∀ r ∈ f.ackRanges, AckedPackets.rangeLength r < 2 ^ 32)
    (hlen : minLengths store (stopWaiting.toList.map .stopWaiting ++ ack.toList.map .ack) = .ok n) :
    n ≤ 1293 := by
  have hackLen : ∀ m, minLengths store (ack.toList.map .ack) = .ok m → m ≤ 1286 := by
    intro m hm
    cases ack with
    | none =>
      obtain rfl := Except.ok.inj hm
      omega
    | some f =>
      obtain rfl := Except.ok.inj hm
      exact AckFrame.minLength_le (hack f rfl)
  cases stopWaiting with
  | none =>
    have := hackLen n hlen
    omega
  | some f =>
    obtain ⟨l, hl, h₁⟩ := bind_eq_ok hlen
    obtain ⟨rest, hrest, h₂⟩ := bind_eq_ok h₁
    obtain rfl := Except.ok.inj h₂
    have hle := StopWaitingFrame.minLength_le (f := f) hl
    have hle' := hackLen rest hrest
    omega

@[simp]
theorem liftWrite_ok {α : Type} (a : α) : liftWrite (.ok a) = .ok a := rfl

variable {p : PacketPacker} {maxFrameSize : ℕ} {canSendStreamFrames : Bool} {pathID : PathID}
  {visits : List StreamVisit} {r : Composed}

/-- The frames that wait for a retransmission are there, and no frame is queued twice. -/
structure QueueWf (p : PacketPacker) : Prop where
  nodup : p.streamFramer.retransmissionQueue.Nodup
  lt_next : ∀ ref ∈ p.streamFramer.retransmissionQueue, ref < p.heap.next

/-- The STREAM frames of a packet take the room they are given, less the data length of the last
one. -/
theorem appendStreamFrames_size {payloadFrames : List Frame} {maxLen : ℕ} {b : List UInt8}
    (hqueue : p.QueueWf)
    (hb : ∀ bytes store, writeFrames store o now payloadFrames = .ok bytes → bytes.length = n)
    (hwrite : writeFrames (p.appendStreamFrames payloadFrames maxLen visits).packer.heap.get o now
      (p.appendStreamFrames payloadFrames maxLen visits).frames = .ok b) (hmax : 2 ≤ maxLen) :
    b.length + 2 ≤ n + maxLen := by
  obtain ⟨new, hpops⟩ := StreamFramer.popStreamFrames_spec maxLen visits hqueue.nodup hqueue.lt_next
  obtain ⟨b₁, b₂, hb₁, hb₂, rfl⟩ := writeFrames_append hwrite
  have hlen₁ := hb _ _ hb₁
  have hlen₂ := length_writeFrames_stream hb₂
  have hle := hpops.len_le
  have hpresent := hpops.present
  rw [List.length_append, hlen₁, hlen₂]
  change n + wireLens (List.map (omitLastDataLen _ _).get _) + 2 ≤ n + maxLen
  generalize p.streamFramer.popStreamFrames maxLen visits p.heap = fs at hle hpresent
  by_cases hnil : fs.frames = []
  · rw [hnil, List.map_nil, wireLens_nil]
    omega
  · have := wireLens_omitLastDataLen hnil hpresent
    omega

/-- The frames of a composed packet fit into `max` bytes, and an error is not about lengths. -/
def FitsInto (o : Order) (now max : ℕ) : Except PackError Composed → Prop
  | .error e => ∃ e', e = .write e'
  | .ok r => ∀ bytes, writeFrames r.packer.heap.get o now r.frames = .ok bytes → bytes.length ≤ max

theorem fitsInto_error (o : Order) (now max : ℕ) (e : WriteError) :
    FitsInto o now max (.error (.write e)) :=
  ⟨e, rfl⟩

/-- The frames of a packet that is composed fit, since STOP_WAITING and ACK always do. -/
theorem composeNextPacket_size
    (hack : ∀ f, p.ackFrame pathID = some f →
      ∀ r ∈ f.ackRanges, AckedPackets.rangeLength r < 2 ^ 32)
    (hcontrol : ∀ f ∈ p.controlFrames, f.1.Exact o now)
    (hqueue : p.QueueWf)
    (hroom : 1293 ≤ maxFrameSize) :
    FitsInto o now maxFrameSize
      (p.composeNextPacket maxFrameSize canSendStreamFrames pathID visits) := by
  unfold composeNextPacket
  dsimp only
  cases hfixed : minLengths p.heap.get ((p.stopWaiting pathID).toList.map .stopWaiting ++
    (p.ackFrame pathID).toList.map .ack) with
  | error e => exact fitsInto_error o now _ e
  | ok payloadLength =>
    rw [liftWrite_ok, ok_bind]
    cases hpop : popControlFrames p.heap.get maxFrameSize p.controlFrames.reverse payloadLength with
    | error e => exact fitsInto_error o now _ e
    | ok control =>
      rw [liftWrite_ok, ok_bind]
      obtain ⟨hmem, hle, m, hm, hlen⟩ := popControlFrames_spec hpop
      have hfit : control.payloadLength ≤ maxFrameSize :=
        hle ((minLengths_fixed_le hack hfixed).trans hroom)
      -- the frames before the STREAM frames are as long as the packer has counted
      have hexact : ∀ bytes store, writeFrames store o now
          ((p.stopWaiting pathID).toList.map .stopWaiting ++ (p.ackFrame pathID).toList.map .ack ++
            control.frames.map (·.1)) = .ok bytes → bytes.length = control.payloadLength := by
        intro bytes store hwrite
        obtain ⟨b₁, b₂, hb₁, hb₂, rfl⟩ := writeFrames_append hwrite
        rw [List.length_append, length_writeFrames ?_ hb₁ hfixed, length_writeFrames ?_ hb₂ hm,
          hlen]
        · intro f hf
          obtain ⟨c, hc, rfl⟩ := List.mem_map.mp hf
          exact hcontrol c (List.mem_reverse.mp (hmem c hc))
        · simp only [List.forall_mem_append, List.forall_mem_map]
          exact ⟨fun f _ => Frame.exact_stopWaiting f o now, fun f _ => Frame.exact_ack f o now⟩
      rw [if_neg (not_lt.mpr hfit)]
      split_ifs
      · intro bytes hwrite
        have := appendStreamFrames_size (p := { p with controlFrames := control.left.reverse })
          ⟨hqueue.nodup, hqueue.lt_next⟩ hexact hwrite (by omega)
        omega
      · intro bytes hwrite
        exact (hexact bytes _ hwrite).le.trans hfit

end PacketPacker

/-! ## Subtractions of lengths -/

/-- Subtractions, given by their operands, that do not go below zero. -/
def NoUnderflow (subtractions : List (ℕ × ℕ)) : Prop := ∀ s ∈ subtractions, s.2 ≤ s.1

theorem NoUnderflow.nil : NoUnderflow [] := fun _ hs => absurd hs List.not_mem_nil

theorem NoUnderflow.cons {a b : ℕ} {l : List (ℕ × ℕ)} (hle : b ≤ a) (hl : NoUnderflow l) :
    NoUnderflow ((a, b) :: l) :=
  List.forall_mem_cons.mpr ⟨hle, hl⟩

theorem NoUnderflow.append {l l' : List (ℕ × ℕ)} (hl : NoUnderflow l) (hl' : NoUnderflow l') :
    NoUnderflow (l ++ l') :=
  List.forall_mem_append.mpr ⟨hl, hl'⟩

namespace StreamFramer

/-- The subtractions of `maybePopFramesForRetransmission`: for each frame that it returns, the room
that is left after the header of the frame. -/
def retransmissionSubtractions (maxLen : ℕ) : List StreamFrame → ℕ → List (ℕ × ℕ)
  | [], _ => []
  | f :: fs, currentLen =>
    (maxLen, currentLen + f.minLength) ::
      retransmissionSubtractions maxLen fs (currentLen + f.wireLen)

/-- The length of the header of a new frame. -/
def frameHeaderBytes (s : SendStream) : ℕ :=
  StreamFrame.minLength
    { streamID := s.streamID, finBit := false, dataLenPresent := true, offset := s.writeOffset
      data := [] }

/-- The subtractions of `maybePopNormalFrames` at a stream, given what it has done there. -/
def visitSubtractions (maxBytes currentLen : ℕ) (v : StreamVisit) : List (ℕ × ℕ) :=
  let room := [(maxBytes, currentLen), (maxBytes - currentLen, frameHeaderBytes v.stream)]
  match visit maxBytes currentLen v with
  | .stopped => []
  | .skipped _ => if v.stream.streamID = 1 then [] else room
  | .made frame _ _ =>
    -- what is left of the window decides whether a BLOCKED frame is queued
    room ++ if v.remainingConnectionWindowSize = 0 ∨ frame.finBit then []
      else [(v.sendWindowSize, frame.dataLen)]

/-- The subtractions of `maybePopNormalFrames`. -/
def normalSubtractions (maxBytes : ℕ) : List StreamVisit → ℕ → List (ℕ × ℕ)
  | [], _ => []
  | v :: visits, currentLen =>
    visitSubtractions maxBytes currentLen v ++
      match visit maxBytes currentLen v with
      | .stopped => []
      | .skipped _ => normalSubtractions maxBytes visits currentLen
      | .made f _ _ =>
        let currentLen := currentLen + (f.minLength + f.dataLen)
        if currentLen = maxBytes then [] else normalSubtractions maxBytes visits currentLen

/-- The subtractions of `PopStreamFrames`. -/
def popSubtractions (s : StreamFramer) (maxLen : ℕ) (visits : List StreamVisit)
    (heap : FrameHeap) : List (ℕ × ℕ) :=
  let fs := maybePopFramesForRetransmission maxLen s.retransmissionQueue 0 heap
  retransmissionSubtractions maxLen (fs.frames.map fs.heap.get) 0 ++
    (maxLen, fs.currentLen) :: normalSubtractions (maxLen - fs.currentLen) visits 0

theorem noUnderflow_retransmission {maxLen currentLen : ℕ} {fs : List StreamFrame}
    (hle : currentLen + wireLens fs ≤ maxLen) :
    NoUnderflow (retransmissionSubtractions maxLen fs currentLen) := by
  induction fs generalizing currentLen with
  | nil => exact .nil
  | cons f fs ih =>
    rw [wireLens_cons, ← Nat.add_assoc] at hle
    refine .cons ?_ (ih hle)
    unfold StreamFrame.wireLen at hle
    omega

/-- A stream is visited only if there is room for the header of a frame. -/
theorem frameHeaderBytes_le (maxBytes currentLen : ℕ) (v : StreamVisit)
    (hvisit : visit maxBytes currentLen v ≠ .stopped) (hid : v.stream.streamID ≠ 1) :
    currentLen + frameHeaderBytes v.stream ≤ maxBytes := by
  by_contra! hfull
  refine hvisit ?_
  unfold visit
  dsimp only
  rw [if_neg hid]
  exact if_pos hfull

theorem noUnderflow_visit (maxBytes currentLen : ℕ) (v : StreamVisit) :
    NoUnderflow (visitSubtractions maxBytes currentLen v) := by
  have hspec := visit_spec maxBytes currentLen v
  have hroom := frameHeaderBytes_le maxBytes currentLen v
  unfold visitSubtractions
  dsimp only
  cases hvisit : visit maxBytes currentLen v with
  | stopped => exact .nil
  | skipped s =>
    dsimp only
    split_ifs with hid
    · exact .nil
    · have := hroom (by simp [hvisit]) hid
      exact .cons (by omega) (.cons (by omega) .nil)
  | made f s blocked =>
    rw [hvisit] at hspec
    have := hroom (by simp [hvisit]) hspec.1.streamID_ne
    refine .append (.cons (by omega) (.cons (by omega) .nil)) ?_
    split_ifs
    · exact .nil
    · exact .cons hspec.1.window .nil

theorem noUnderflow_normal (maxBytes : ℕ) (visits : List StreamVisit) (currentLen : ℕ) :
    NoUnderflow (normalSubtractions maxBytes visits currentLen) := by
  induction visits generalizing currentLen with
  | nil => exact .nil
  | cons v visits ih =>
    rw [normalSubtractions]
    refine (noUnderflow_visit maxBytes currentLen v).append ?_
    split
    · exact .nil
    · exact ih _
    · dsimp only
      split_ifs
      · exact .nil
      · exact ih _

theorem noUnderflow_pop {s : StreamFramer} (maxLen : ℕ) (visits : List StreamVisit)
    {heap : FrameHeap} (hnodup : s.retransmissionQueue.Nodup)
    (hqueue : ∀ ref ∈ s.retransmissionQueue, ref < heap.next) :
    NoUnderflow (s.popSubtractions maxLen visits heap) := by
  have hspec := maybePopFramesForRetransmission_spec maxLen 0 hnodup hqueue
  have hle := hspec.len_le (Nat.zero_le _)
  exact (noUnderflow_retransmission (hspec.len_eq ▸ hle)).append
    (.cons hle (noUnderflow_normal _ _ _))

end StreamFramer

namespace PacketPacker

/-- The subtractions of `composeNextPacket`. -/
def composeSubtractions (p : PacketPacker) (maxFrameSize : ℕ) (canSendStreamFrames : Bool)
    (pathID : PathID) (visits : List StreamVisit) : List (ℕ × ℕ) :=
  let payloadFrames :=
    (p.stopWaiting pathID).toList.map .stopWaiting ++ (p.ackFrame pathID).toList.map .ack
  match minLengths p.heap.get payloadFrames with
  | .error _ => []
  | .ok payloadLength =>
    match popControlFrames p.heap.get maxFrameSize p.controlFrames.reverse payloadLength with
    | .error _ => []
    | .ok control =>
      if maxFrameSize < control.payloadLength ∨ canSendStreamFrames = false then []
      else
        (maxFrameSize + 2, control.payloadLength) ::
          p.streamFramer.popSubtractions (maxFrameSize + 2 - control.payloadLength) visits p.heap

/-- The subtractions of `PackPacket`. -/
def packPacketSubtractions (p : PacketPacker) (generator : PacketNumberGenerator) (i : PackInput) :
    List (ℕ × ℕ) :=
  let p := p.numberStopWaiting i.pathID generator.peek i.header.packetNumberLen
  match p.controlFrames with
  | ⟨.ping, _⟩ :: _ => []
  | _ =>
    (maxPacketSize, overhead) ::
      (maxPacketSize - overhead, i.header.length) ::
      p.composeSubtractions (maxPacketSize - overhead - i.header.length)
        (canSendData i.isClient i.encryptionLevel) i.pathID i.visits

/-- A packet that was composed has its STREAM frames from a call of `PopStreamFrames` for the room
that the listed subtraction leaves, and nothing else was subtracted. -/
theorem composeSubtractions_of_ok {p : PacketPacker} {maxFrameSize : ℕ} {canSendStreamFrames : Bool}
    {pathID : PathID} {visits : List StreamVisit} {r : Composed}
    (h : p.composeNextPacket maxFrameSize canSendStreamFrames pathID visits = .ok r) :
    let subtractions := p.composeSubtractions maxFrameSize canSendStreamFrames pathID visits
    (canSendStreamFrames = false ∧ subtractions = []) ∨
      ∃ frames left payloadLength,
        r = { p with controlFrames := left }.appendStreamFrames frames
          (maxFrameSize + 2 - payloadLength) visits ∧
        subtractions = (maxFrameSize + 2, payloadLength) ::
          p.streamFramer.popSubtractions (maxFrameSize + 2 - payloadLength) visits p.heap := by
  unfold composeNextPacket at h
  unfold composeSubtractions
  dsimp only at h ⊢
  cases hfixed : minLengths p.heap.get _ with
  | error e =>
    rw [hfixed] at h
    cases h
  | ok payloadLength =>
    rw [hfixed, liftWrite_ok, ok_bind] at h
    dsimp only
    cases hpop : popControlFrames p.heap.get maxFrameSize p.controlFrames.reverse payloadLength with
    | error e =>
      rw [hpop] at h
      cases h
    | ok control =>
      rw [hpop, liftWrite_ok, ok_bind] at h
      split_ifs at h with hfull hcan
      · refine .inr ⟨_, _, _, (Except.ok.inj h).symm, if_neg ?_⟩
        simp [hfull, hcan]
      · exact .inl ⟨by simpa using hcan, if_pos (.inr (by simpa using hcan))⟩

theorem noUnderflow_compose {p : PacketPacker} (maxFrameSize : ℕ) (canSendStreamFrames : Bool)
    (pathID : PathID) (visits : List StreamVisit)
    (hqueue : p.QueueWf) :
    NoUnderflow (p.composeSubtractions maxFrameSize canSendStreamFrames pathID visits) := by
  unfold composeSubtractions
  dsimp only
  split
  · exact .nil
  · split
    · exact .nil
    · split_ifs with hfull
      · exact .nil
      · exact .cons (by omega) (StreamFramer.noUnderflow_pop _ _ hqueue.nodup hqueue.lt_next)

theorem noUnderflow_packPacket {p : PacketPacker} {generator : PacketNumberGenerator}
    {i : PackInput} (hqueue : p.QueueWf)
    (hheader : i.header.length ≤ 16) : NoUnderflow (p.packPacketSubtractions generator i) := by
  unfold packPacketSubtractions
  dsimp only
  split
  · exact .nil
  · refine .cons (by decide) (.cons ?_ (noUnderflow_compose _ _ _ _ ⟨hqueue.nodup, hqueue.lt_next⟩))
    exact hheader.trans (by decide)

/-! ## Packed packets -/

variable {p : PacketPacker} {generator : PacketNumberGenerator} {i : PackInput}

/-- The frames of the next packet leave room for the header and the tag. -/
theorem payloadOf_size
    (hack : ∀ f, p.ackFrame i.pathID = some f →
      ∀ r ∈ f.ackRanges, AckedPackets.rangeLength r < 2 ^ 32)
    (hcontrol : ∀ f ∈ p.controlFrames, f.1.Exact i.order i.now)
    (hqueue : p.QueueWf)
    (hheader : i.header.length ≤ 16) :
    FitsInto i.order i.now (maxPacketSize - overhead - i.header.length)
      (p.payloadOf i) := by
  have hroom : 1293 ≤ maxPacketSize - overhead - i.header.length := by
    unfold maxPacketSize overhead
    omega
  unfold payloadOf
  split
  · intro bytes hwrite
    obtain rfl := Except.ok.inj hwrite
    exact Nat.le_trans (by decide) hroom
  · exact composeNextPacket_size hack hcontrol hqueue hroom

/-- Sealing does not complain about the length of a packet that fits. -/
theorem sealFrames_error {frames : List Frame} {header : List UInt8} {e : PackError}
    (hraw : i.header.raw = .ok header)
    (hfits : ∀ bytes, writeFrames p.heap.get i.order i.now frames = .ok bytes →
      header.length + bytes.length + overhead ≤ maxPacketSize)
    (h : (p.sealFrames generator i frames).1 = .error e) :
    e ≠ .packetTooLarge ∧ e ≠ .payloadTooLarge := by
  unfold sealFrames writeAndSealPacket at h
  rw [hraw] at h
  cases hpayload : writeFrames p.heap.get i.order i.now frames with
  | error e' =>
    rw [hpayload] at h
    obtain rfl := Except.error.inj h
    exact ⟨nofun, nofun⟩
  | ok bytes =>
    rw [hpayload] at h
    dsimp only at h
    rw [if_neg (not_lt.mpr (hfits bytes hpayload))] at h
    split_ifs at h
    · obtain rfl := Except.error.inj h
      exact ⟨nofun, nofun⟩
    · cases h

/-- Packing returns no error about the size of the packet or of its payload. -/
theorem packPacket_error {header : List UInt8} {e : PackError} (hraw : i.header.raw = .ok header)
    (hlen : header.length = i.header.length) (hlength : i.header.length ≤ 16)
    (hack : ∀ f, p.ackFrame i.pathID = some f →
      ∀ r ∈ f.ackRanges, AckedPackets.rangeLength r < 2 ^ 32)
    (hcontrol : ∀ f ∈ p.controlFrames, f.1.Exact i.order i.now)
    (hqueue : p.QueueWf)
    (h : p.packPacket generator i = .error e) : e ≠ .packetTooLarge ∧ e ≠ .payloadTooLarge := by
  have hsize := payloadOf_size
    (p := p.numberStopWaiting i.pathID generator.peek i.header.packetNumberLen)
    hack hcontrol ⟨hqueue.nodup, hqueue.lt_next⟩ hlength
  rw [packPacket] at h
  generalize (p.numberStopWaiting _ _ _).payloadOf i = x at h hsize
  cases x with
  | error e' =>
    obtain ⟨e'', rfl⟩ := hsize
    obtain rfl := Except.error.inj h
    exact ⟨nofun, nofun⟩
  | ok r =>
    rw [ok_bind] at h
    split_ifs at h
    dsimp only at h
    set p' : PacketPacker := { r.packer with
      stopWaiting := Function.update r.packer.stopWaiting i.pathID none
      ackFrame := Function.update r.packer.ackFrame i.pathID none } with hp'
    have hfits : ∀ bytes, writeFrames p'.heap.get i.order i.now r.frames = .ok bytes →
        header.length + bytes.length + overhead ≤ maxPacketSize := by
      intro bytes hwrite
      have hle := hsize bytes hwrite
      unfold maxPacketSize overhead at hle ⊢
      omega
    cases hseal : (p'.sealFrames generator i r.frames).1 with
    | error e' =>
      rw [hseal] at h
      obtain rfl := Except.error.inj h
      exact sealFrames_error hraw hfits hseal
    | ok packet =>
      rw [hseal] at h
      cases h

/-- The packet of `PackPacket` is a sealed one. -/
theorem packPacket_sealed {r : Packed} {packet : PackedPacket}
    (h : p.packPacket generator i = .ok r) (hpacket : r.packet = some packet) :
    ∃ frames, (r.packer.sealFrames generator i frames).1 = .ok packet := by
  obtain ⟨composed, -, h₁⟩ := bind_eq_ok h
  split_ifs at h₁
  · obtain rfl := Except.ok.inj h₁
    cases hpacket
  · obtain ⟨sealed, hsealed, h₂⟩ := bind_eq_ok h₁
    obtain rfl := Except.ok.inj h₂
    obtain rfl := Option.some.inj hpacket
    exact ⟨composed.frames, hsealed⟩

/-- A packet that was sealed fits. -/
theorem packPacket_length {r : Packed} {packet : PackedPacket}
    (h : p.packPacket generator i = .ok r) (hpacket : r.packet = some packet) :
    packet.length ≤ maxPacketSize := by
  obtain ⟨frames, hsealed⟩ := packPacket_sealed h hpacket
  obtain ⟨-, -, -, -, hle, -⟩ := sealFrames_ok hsealed
  exact hle

/-- At the forward-secure level `PackPacket` never returns an error about the size of the packet or
of its payload, the packet has at most `maxPacketSize` bytes, and no subtraction of lengths
underflows. This holds for all frames that are queued, if an ACK frame has no range of `2 ^ 32`
packets, the control frames have the lengths they say, and no STREAM frame is queued twice for
retransmission. -/
theorem packPacket_fits {c : HeaderInput}
    (hheader : (getPublicHeader c .forwardSecure).Gives c.version c.perspective i.header)
    (hack : ∀ f, p.ackFrame i.pathID = some f →
      ∀ r ∈ f.ackRanges, AckedPackets.rangeLength r < 2 ^ 32)
    (hcontrol : ∀ f ∈ p.controlFrames, f.1.Exact i.order i.now)
    (hnodup : p.streamFramer.retransmissionQueue.Nodup)
    (hqueue : ∀ ref ∈ p.streamFramer.retransmissionQueue, ref < p.heap.next) :
    p.packPacket generator i ≠ .error .packetTooLarge ∧
      p.packPacket generator i ≠ .error .payloadTooLarge ∧
      (∀ r packet, p.packPacket generator i = .ok r → r.packet = some packet →
        packet.length ≤ maxPacketSize) ∧
      NoUnderflow (p.packPacketSubtractions generator i) := by
  obtain ⟨hlength, header, hraw, hlen⟩ := hheader.raw_length
  have herror : ∀ e, p.packPacket generator i = .error e →
      e ≠ .packetTooLarge ∧ e ≠ .payloadTooLarge :=
    fun e => packPacket_error hraw hlen hlength hack hcontrol ⟨hnodup, hqueue⟩
  exact ⟨fun h => (herror _ h).1 rfl, fun h => (herror _ h).2 rfl,
    fun r packet => packPacket_length, noUnderflow_packPacket ⟨hnodup, hqueue⟩ hlength⟩

/-- A path with a complete handshake. -/
def exampleHeaderInput : HeaderInput where
  connectionID := 1
  perspective := .client
  version := versionMP
  truncateConnectionID := false
  diversificationNonce := []
  packetNumber := 1
  leastUnacked := 1
  pathID := 3
  handshakeComplete := true

/-- Everything that a packet can hold is queued, and a frame that is too long for it. -/
def examplePacker : PacketPacker :=
  { new with
    heap :=
      { get := fun _ => { streamID := 5, finBit := true, dataLenPresent := true, offset := 0
                          data := List.replicate 2000 7 }
        next := 1 }
    streamFramer := { retransmissionQueue := [0], blockedFrameQueue := [] }
    controlFrames := [.windowUpdate { streamID := 5, byteOffset := 100 }]
    stopWaiting := fun _ => some
      { leastUnacked := 1, packetNumberLen := .invalid, packetNumber := 0 }
    ackFrame := fun _ => some
      { largestAcked := 9, lowestAcked := 2, pathID := 3, packetReceivedTime := 0, delayTime := 0
        ackRanges := [{ first := 8, last := 9 }, { first := 2, last := 5 }] } }

def examplePackInput : PackInput where
  pathID := 3
  header := { packetNumberLen := .len2, length := 12
              raw := .ok [0x58, 1, 0, 0, 0, 0, 0, 0, 0, 3, 0, 1] }
  encryptionLevel := .forwardSecure
  isClient := true
  sealer := SealingState.exampleSealer
  order := .big
  now := 0
  random := none
  visits := []

/-- The packet is exactly full. -/
theorem packPacket_fits_example :
    (examplePacker.packPacket .new examplePackInput).map (fun r => r.packet.map (·.length)) =
        .ok (some 1350) ∧
      examplePacker.packPacket .new examplePackInput ≠ .error .packetTooLarge := by
  refine ⟨by decide +kernel,
    (packPacket_fits (c := exampleHeaderInput) ⟨rfl, ?_, ?_⟩ ?_ ?_ ?_ ?_).1⟩
  · decide +kernel
  · exact ⟨[0x58, 1, 0, 0, 0, 0, 0, 0, 0, 3, 0, 1], by decide +kernel, rfl⟩
  · intro f hf
    obtain rfl := Option.some.inj hf
    decide +kernel
  · refine List.forall_mem_singleton.mpr fun store store' bytes n hwrite hlen => ?_
    obtain rfl := Except.ok.inj hwrite
    obtain rfl := Except.ok.inj hlen
    rfl
  · decide
  · exact List.forall_mem_singleton.mpr (by decide)

end PacketPacker

end MPQuic
