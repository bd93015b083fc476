import MPQuic.Packer.CryptoPacket

/-!
# Packing and the queued frames

`PackPacket` takes frames out of three queues of the packer: the control frames, and the ACK and the
STOP_WAITING frame of the path. `Conserves` says that no frame gets lost: a packet contains
everything that was taken out for it, and without a packet the queues stay as they were.

This holds when the packet is composed of the queues, and for data of the crypto stream, which does
not touch them. A PING frame at the front of the control frames is sent alone. It is removed even if
no packet is sent since a STOP_WAITING frame is queued, and an ACK frame is dropped although it is
not in the packet: `packing_conserves_iff`.

The queues hold references. The packet number of a STOP_WAITING frame is set when it is packed, so
that STOP_WAITING frames are compared without it.
-/

namespace MPQuic

open Bytes

/-- The frame without its packet number. -/
def StopWaitingFrame.unnumbered (f : StopWaitingFrame) : StopWaitingFrame :=
  { f with packetNumberLen := .invalid, packetNumber := 0 }

namespace StreamFramer

/-- BLOCKED frames come with STREAM frames. -/
theorem blocked_of_frames_nil {maxBytes currentLen : ℕ} {visits : List StreamVisit}
    {heap : FrameHeap} (h : (maybePopNormalFrames maxBytes visits currentLen heap).frames = []) :
    (maybePopNormalFrames maxBytes visits currentLen heap).blocked = [] := by
  induction visits generalizing currentLen heap with
  | nil => rfl
  | cons v visits ih =>
    unfold maybePopNormalFrames at h ⊢
    cases hvisit : visit maxBytes currentLen v with
    | stopped => rfl
    | skipped s =>
      rw [hvisit] at h
      exact ih h
    | made f s blocked =>
      rw [hvisit] at h
      dsimp only at h
      split_ifs at h

/-- If no STREAM frame is popped, no BLOCKED frame is queued. -/
theorem blockedFrameQueue_popStreamFrames {s : StreamFramer} {maxLen : ℕ}
    {visits : List StreamVisit} {heap : FrameHeap}
    (h : (s.popStreamFrames maxLen visits heap).frames = []) :
    (s.popStreamFrames maxLen visits heap).framer.blockedFrameQueue = s.blockedFrameQueue := by
  obtain ⟨-, hnormal⟩ := List.append_eq_nil_iff.mp h
  change s.blockedFrameQueue ++ (maybePopNormalFrames _ visits 0 _).blocked = s.blockedFrameQueue
  rw [blocked_of_frames_nil hnormal, List.append_nil]

end StreamFramer

namespace PacketPacker

/-! ## Conservation -/

/-- The queues are the same. -/
structure Unchanged (p p' : PacketPacker) : Prop where
  control : p'.controlFrames = p.controlFrames
  ack : p'.ackFrame = p.ackFrame
  stopWaiting : ∀ pathID, (p'.stopWaiting pathID).map StopWaitingFrame.unnumbered =
    (p.stopWaiting pathID).map StopWaitingFrame.unnumbered

/-- Every frame that was removed from a queue is one of `frames`. Only BLOCKED frames are added. -/
structure MovesTo (p p' : PacketPacker) (frames : List Frame) : Prop where
  control : ∃ kept removed added, p.controlFrames.Perm (kept ++ removed) ∧
    p'.controlFrames = kept ++ added ∧ (∀ f ∈ added, ∃ b, f.1 = .blocked b) ∧
    (removed.map (·.1)).Subperm frames
  ack : ∀ pathID f, p.ackFrame pathID = some f →
    p'.ackFrame pathID = some f ∨ Frame.ack f ∈ frames
  stopWaiting : ∀ pathID f, p.stopWaiting pathID = some f →
    ∃ f', f'.unnumbered = f.unnumbered ∧
      (p'.stopWaiting pathID = some f' ∨ Frame.stopWaiting f' ∈ frames)

/-- Packing loses no frame of a queue. -/
def Conserves (p : PacketPacker) (r : Packed) : Prop :=
  match r.packet with
  | some packet => p.MovesTo r.packer packet.frames
  | none => p.Unchanged r.packer

/-- A PING frame is at the front of the control frames. -/
def PingFirst (p : PacketPacker) : Prop := p.controlFrames.head? = some .ping

/-- Neither a STOP_WAITING nor an ACK frame is queued for the path. -/
def NothingFor (p : PacketPacker) (pathID : PathID) : Prop :=
  p.stopWaiting pathID = none ∧ p.ackFrame pathID = none

variable {p p' : PacketPacker} {frames : List Frame} {generator : PacketNumberGenerator}
  {i iCrypto : PackInput} {r : Packed} {cs cs' : SendStream}

theorem conserves_of_some {packet : PackedPacket} (h : r.packet = some packet) :
    p.Conserves r ↔ p.MovesTo r.packer packet.frames := by
  rw [Conserves, h]

theorem conserves_of_none (h : r.packet = none) : p.Conserves r ↔ p.Unchanged r.packer := by
  rw [Conserves, h]

theorem numberStopWaiting_self (p : PacketPacker) (pathID : PathID) (n : ℕ)
    (len : PacketNumberLen) : (p.numberStopWaiting pathID n len).stopWaiting pathID =
      (p.stopWaiting pathID).map fun f => { f with packetNumber := n, packetNumberLen := len } :=
  Function.update_self ..

variable {pathID : PathID}

theorem numberStopWaiting_of_ne {q : PathID} (hq : q ≠ pathID) (n : ℕ) (len : PacketNumberLen) :
    (p.numberStopWaiting pathID n len).stopWaiting q = p.stopWaiting q :=
  Function.update_of_ne hq ..

theorem numberStopWaiting_unnumbered (p : PacketPacker) (pathID : PathID) (n : ℕ)
    (len : PacketNumberLen) (q : PathID) :
    ((p.numberStopWaiting pathID n len).stopWaiting q).map StopWaitingFrame.unnumbered =
      (p.stopWaiting q).map StopWaitingFrame.unnumbered := by
  by_cases hq : q = pathID
  · subst hq
    rw [numberStopWaiting_self, Option.map_map]
    rfl
  · rw [numberStopWaiting_of_ne hq]

/-! ## Composed packets -/

theorem eq_ok_of_liftWrite {α : Type} {x : Except WriteError α} {a : α}
    (h : liftWrite x = .ok a) : x = .ok a := by
  cases x with
  | error e => cases h
  | ok b => exact congrArg Except.ok (Except.ok.inj h)

theorem eq_ok_of_map {ε α β : Type} {x : Except ε α} {a : α} {b b' : β}
    (h : x.map (·, b) = .ok (a, b')) : x = .ok a := by
  cases x with
  | error e => cases h
  | ok b => exact congrArg Except.ok (Prod.mk.inj (Except.ok.inj h)).1

theorem popControlFrames_append {store : FrameStore} {maxFrameSize payloadLength : ℕ}
    {control : List ControlFrame} {popped : PoppedControlFrames}
    (h : popControlFrames store maxFrameSize control payloadLength = .ok popped) :
    popped.frames ++ popped.left = control := by
  induction control generalizing payloadLength popped with
  | nil =>
    obtain rfl := Except.ok.inj h
    rfl
  | cons frame rest ih =>
    obtain ⟨l, -, h₁⟩ := bind_eq_ok h
    split_ifs at h₁
    · obtain rfl := Except.ok.inj h₁
      rfl
    · obtain ⟨popped', hpopped, h₂⟩ := bind_eq_ok h₁
      obtain rfl := Except.ok.inj h₂
      exact congrArg (frame :: ·) (ih hpopped)

/-- What composing does to the queues: the frames of the packet are those of the path, the control
frames that were removed from the end of their queue, and STREAM frames. -/
structure Takes (p : PacketPacker) (pathID : PathID) (c : Composed)
    (left popped added : List ControlFrame) (refs : List FrameRef) : Prop where
  control_eq : p.controlFrames = left ++ popped.reverse
  left_eq : c.packer.controlFrames = left ++ added
  added_blocked : ∀ f ∈ added, ∃ b, f.1 = .blocked b
  added_nil : p.streamFramer.blockedFrameQueue = [] → refs = [] → added = []
  blocked_nil : p.streamFramer.blockedFrameQueue = [] →
    c.packer.streamFramer.blockedFrameQueue = []
  ack_eq : c.packer.ackFrame = p.ackFrame
  stopWaiting_eq : c.packer.stopWaiting = p.stopWaiting
  frames_eq : c.frames =
    (p.stopWaiting pathID).toList.map .stopWaiting ++ (p.ackFrame pathID).toList.map .ack ++
      popped.map (·.1) ++ refs.map .stream

variable {c : Composed}

theorem composeNextPacket_takes {maxFrameSize : ℕ} {canSendStreamFrames : Bool}
    {visits : List StreamVisit}
    (h : p.composeNextPacket maxFrameSize canSendStreamFrames pathID visits = .ok c) :
    ∃ left popped added refs, p.Takes pathID c left popped added refs := by
  obtain ⟨payloadLength, -, h₁⟩ := bind_eq_ok h
  obtain ⟨control, hcontrol, h₂⟩ := bind_eq_ok h₁
  have hqueue : p.controlFrames = control.left.reverse ++ control.frames.reverse := by
    rw [← List.reverse_append, popControlFrames_append (eq_ok_of_liftWrite hcontrol),
      List.reverse_reverse]
  dsimp only at h₂
  split_ifs at h₂
  · obtain rfl := Except.ok.inj h₂
    refine ⟨control.left.reverse, control.frames, _, _,
      { control_eq := hqueue
        left_eq := rfl
        added_blocked := ?_
        added_nil := ?_
        blocked_nil := fun _ => rfl
        ack_eq := rfl
        stopWaiting_eq := rfl
        frames_eq := rfl }⟩
    · intro f hf
      obtain ⟨b, -, rfl⟩ := List.mem_map.mp hf
      exact ⟨b, rfl⟩
    · intro hblocked hrefs
      rw [StreamFramer.blockedFrameQueue_popStreamFrames hrefs, List.map_eq_nil_iff]
      exact hblocked
  · obtain rfl := Except.ok.inj h₂
    exact ⟨control.left.reverse, control.frames, [], [],
      { control_eq := hqueue
        left_eq := (List.append_nil _).symm
        added_blocked := fun _ hf => absurd hf List.not_mem_nil
        added_nil := fun _ _ => rfl
        blocked_nil := id
        ack_eq := rfl
        stopWaiting_eq := rfl
        frames_eq := (List.append_nil _).symm }⟩

/-! ## Packets -/

/-- There are too few frames for a packet. -/
def tooFew (c : Composed) (pathID : PathID) : Bool :=
  c.frames.isEmpty || (c.frames.length == 1 && (c.packer.stopWaiting pathID).isSome)

/-- What packing does: it takes frames, and if they are enough for a packet, the frames of the path
are not queued any more. -/
theorem packPacket_cases (h : p.packPacket generator i = .ok r) :
    ∃ c, (p.numberStopWaiting i.pathID generator.peek i.header.packetNumberLen).payloadOf i =
        .ok c ∧ r.packer.controlFrames = c.packer.controlFrames ∧
      r.packer.streamFramer = c.packer.streamFramer ∧
      (tooFew c i.pathID = true ∧ r.packet = none ∧ r.packer = c.packer ∨
        tooFew c i.pathID = false ∧ (∃ packet, r.packet = some packet ∧ packet.frames = c.frames) ∧
          r.packer.stopWaiting = Function.update c.packer.stopWaiting i.pathID none ∧
          r.packer.ackFrame = Function.update c.packer.ackFrame i.pathID none) := by
  obtain ⟨c, hc, h₁⟩ := bind_eq_ok h
  refine ⟨c, hc, ?_⟩
  by_cases hfew : tooFew c i.pathID = true
  · unfold tooFew at hfew
    rw [if_pos hfew] at h₁
    obtain rfl := Except.ok.inj h₁
    exact ⟨rfl, rfl, .inl ⟨hfew, rfl, rfl⟩⟩
  · unfold tooFew at hfew
    rw [if_neg hfew] at h₁
    obtain ⟨packet, hpacket, h₂⟩ := bind_eq_ok h₁
    obtain ⟨-, hframes, -⟩ := sealFrames_ok hpacket
    obtain rfl := Except.ok.inj h₂
    exact ⟨rfl, rfl, .inr ⟨Bool.eq_false_of_not_eq_true hfew, ⟨packet, rfl, hframes⟩, rfl, rfl⟩⟩

/-- A packet of the crypto stream does not touch the queues. -/
theorem packCryptoPacket_conserves (h : p.packCryptoPacket generator i cs = .ok (r, cs')) :
    p.Conserves r := by
  obtain ⟨packet, -, h₁⟩ := bind_eq_ok h
  obtain ⟨rfl, -⟩ := Prod.mk.inj (Except.ok.inj h₁)
  rw [conserves_of_some rfl]
  exact
    { control := ⟨p.controlFrames, [], [], by rw [List.append_nil], (List.append_nil _).symm,
        fun _ hf => absurd hf List.not_mem_nil, ⟨[], .rfl, List.nil_sublist _⟩⟩
      ack := fun _ _ hf => .inl hf
      stopWaiting := fun _ f hf => ⟨f, rfl, .inl hf⟩ }

/-- The frames of a path are not queued any more, and they are in the packet. -/
theorem movesTo_of_path {pathID : PathID} {n : ℕ} {len : PacketNumberLen}
    (kept removed added : List ControlFrame) (hcontrol : p.controlFrames.Perm (kept ++ removed))
    (hkept : p'.controlFrames = kept ++ added) (hadded : ∀ f ∈ added, ∃ b, f.1 = .blocked b)
    (hremoved : (removed.map (·.1)).Subperm frames)
    (hstopWaiting : p'.stopWaiting =
      Function.update (p.numberStopWaiting pathID n len).stopWaiting pathID none)
    (hack : p'.ackFrame = Function.update p.ackFrame pathID none)
    (hpath : ∀ f ∈ ((p.numberStopWaiting pathID n len).stopWaiting pathID).toList.map
      Frame.stopWaiting ++ (p.ackFrame pathID).toList.map Frame.ack, f ∈ frames) :
    p.MovesTo p' frames := by
  obtain ⟨hwaiting, hacked⟩ := List.forall_mem_append.mp hpath
  refine ⟨⟨kept, removed, added, hcontrol, hkept, hadded, hremoved⟩, ?_, ?_⟩
  · intro q f hf
    by_cases hq : q = pathID
    · subst hq
      refine .inr (hacked _ ?_)
      rw [hf]
      exact List.mem_singleton_self _
    · refine .inl ?_
      rw [hack, Function.update_of_ne hq, hf]
  · intro q f hf
    by_cases hq : q = pathID
    · subst hq
      refine ⟨{ f with packetNumber := n, packetNumberLen := len }, rfl, .inr (hwaiting _ ?_)⟩
      rw [numberStopWaiting_self, hf]
      exact List.mem_singleton_self _
    · refine ⟨f, rfl, .inl ?_⟩
      rw [hstopWaiting, Function.update_of_ne hq, numberStopWaiting_of_ne hq, hf]

theorem payloadOf_takes (hping : ¬ p.PingFirst) (h : p.payloadOf i = .ok c) :
    ∃ left popped added refs, p.Takes i.pathID c left popped added refs := by
  unfold payloadOf at h
  split at h
  · next rest _ heq =>
    refine absurd ?_ hping
    rw [PingFirst, heq]
    rfl
  · exact composeNextPacket_takes h

theorem pingFirst_iff : p.PingFirst ↔ ∃ rest, p.controlFrames = .ping :: rest := by
  unfold PingFirst
  cases p.controlFrames <;> simp

variable {rest : List ControlFrame}

/-- A PING frame at the front is taken alone. -/
theorem payloadOf_ping (hping : p.controlFrames = .ping :: rest) (h : p.payloadOf i = .ok c) :
    c.frames = [.ping] ∧ c.packer = { p with controlFrames := rest } := by
  unfold payloadOf at h
  rw [hping] at h
  obtain rfl := Except.ok.inj h
  exact ⟨rfl, rfl⟩

/-- A packet with a PING frame contains what was removed if no ACK frame was. -/
theorem movesTo_ping_iff {rest : List ControlFrame} {pathID : PathID} {n : ℕ}
    {len : PacketNumberLen} (hping : p.controlFrames = .ping :: rest)
    (hcontrol : p'.controlFrames = rest) (hnone : p.stopWaiting pathID = none)
    (hwaiting : p'.stopWaiting =
      Function.update (p.numberStopWaiting pathID n len).stopWaiting pathID none)
    (hack : p'.ackFrame = Function.update p.ackFrame pathID none) :
    p.MovesTo p' [.ping] ↔ p.ackFrame pathID = none := by
  constructor
  · intro hmoves
    refine Option.eq_none_iff_forall_ne_some.mpr fun f hf => ?_
    rcases hmoves.ack pathID f hf with hqueued | hpacked
    · rw [hack, Function.update_self] at hqueued
      cases hqueued
    · cases List.mem_singleton.mp hpacked
  · intro hnoAck
    refine movesTo_of_path rest [.ping] [] ?_ ?_ ?_ ?_ hwaiting hack ?_
    · rw [hping]
      exact (List.perm_append_singleton _ _).symm
    · rw [hcontrol, List.append_nil]
    · exact fun _ hf => absurd hf List.not_mem_nil
    · exact ⟨_, .rfl, .refl _⟩
    · rw [numberStopWaiting_self, hnone, hnoAck]
      exact fun _ hf => absurd hf List.not_mem_nil

/-- A PING frame is lost if a STOP_WAITING frame is queued, and an ACK frame is lost if there is a
PING frame. -/
theorem packPacket_conserves_of_ping (hping : p.controlFrames = .ping :: rest)
    (h : p.packPacket generator i = .ok r) :
    p.Conserves r ↔ p.NothingFor i.pathID := by
  obtain ⟨c, hc, hcontrol, -, hcases⟩ := packPacket_cases h
  obtain ⟨hframes, hpacker⟩ := payloadOf_ping
    (p := p.numberStopWaiting i.pathID generator.peek i.header.packetNumberLen) hping hc
  have hfew : tooFew c i.pathID = (p.stopWaiting i.pathID).isSome := by
    simp [tooFew, hframes, hpacker, numberStopWaiting]
  rw [hpacker] at hcontrol hcases
  rcases hcases with ⟨hsome, hnone, -⟩ | ⟨hnone, ⟨packet, hsome, hpacket⟩, hwaiting, hack⟩
  · -- no packet is sent, but the PING frame is gone
    rw [conserves_of_none hnone]
    constructor
    · intro hunchanged
      have hrest : rest = .ping :: rest := by rw [← hping, ← hunchanged.control, hcontrol]
      exact absurd hrest.symm (List.cons_ne_self _ _)
    · intro hnothing
      rw [hfew, hnothing.1] at hsome
      cases hsome
  · -- the packet has no ACK frame
    rw [hfew, Option.isSome_eq_false_iff, Option.isNone_iff_eq_none] at hnone
    rw [conserves_of_some hsome, hpacket, hframes,
      movesTo_ping_iff hping hcontrol hnone hwaiting hack]
    exact ⟨fun hnoAck => ⟨hnone, hnoAck⟩, fun hnothing => hnothing.2⟩

/-- If there are too few frames for a packet, there is at most a STOP_WAITING frame. -/
theorem Takes.nil_of_tooFew {left popped added : List ControlFrame} {refs : List FrameRef}
    (htakes : p.Takes pathID c left popped added refs) (hfew : tooFew c pathID = true) :
    popped = [] ∧ refs = [] := by
  have hle : c.frames.length ≤ (p.stopWaiting pathID).toList.length := by
    rw [tooFew, htakes.stopWaiting_eq, Bool.or_eq_true, Bool.and_eq_true, List.isEmpty_iff,
      beq_iff_eq] at hfew
    rcases hfew with hnil | ⟨hone, hsome⟩
    · rw [hnil]
      exact Nat.zero_le _
    · obtain ⟨f, hf⟩ := Option.isSome_iff_exists.mp hsome
      rw [hone, hf]
      exact le_rfl
  simp only [htakes.frames_eq, List.length_append, List.length_map] at hle
  exact ⟨List.eq_nil_of_length_eq_zero (by omega), List.eq_nil_of_length_eq_zero (by omega)⟩

/-- A packet that is composed of the queues contains everything that was removed. -/
theorem packPacket_conserves_of_composed (hping : ¬ p.PingFirst)
    (hblocked : p.streamFramer.blockedFrameQueue = []) (h : p.packPacket generator i = .ok r) :
    p.Conserves r := by
  obtain ⟨c, hc, hcontrol, -, hcases⟩ := packPacket_cases h
  obtain ⟨left, popped, added, refs, htakes⟩ := payloadOf_takes
    (p := p.numberStopWaiting i.pathID generator.peek i.header.packetNumberLen) hping hc
  rcases hcases with ⟨hfew, hnone, hpacker⟩ | ⟨hnone, ⟨packet, hsome, hpacket⟩, hwaiting, hack⟩
  · obtain ⟨rfl, rfl⟩ := htakes.nil_of_tooFew hfew
    obtain rfl := htakes.added_nil hblocked rfl
    rw [conserves_of_none hnone, hpacker]
    refine ⟨?_, htakes.ack_eq, fun q => ?_⟩
    · rw [htakes.left_eq]
      exact htakes.control_eq.symm
    · rw [htakes.stopWaiting_eq, numberStopWaiting_unnumbered]
  · rw [conserves_of_some hsome, hpacket, htakes.frames_eq]
    rw [htakes.stopWaiting_eq] at hwaiting
    rw [htakes.ack_eq] at hack
    refine movesTo_of_path left popped.reverse added (List.Perm.of_eq htakes.control_eq) ?_
      htakes.added_blocked ?_ hwaiting hack ?_
    · rw [hcontrol, htakes.left_eq]
    · exact ⟨popped.map (·.1), (List.reverse_perm popped).symm.map _,
        (List.sublist_append_right _ _).trans (List.sublist_append_left _ _)⟩
    · exact fun f hf => List.mem_append_left _ (List.mem_append_left _ hf)

theorem packPacketWithCrypto_conserves_iff (hblocked : p.streamFramer.blockedFrameQueue = [])
    (h : p.packPacketWithCrypto generator i iCrypto cs = .ok (r, cs')) :
    p.Conserves r ↔ (StreamFramer.hasCryptoStreamFrame cs = false → p.PingFirst →
      p.NothingFor i.pathID) := by
  unfold packPacketWithCrypto at h
  by_cases hcrypto : StreamFramer.hasCryptoStreamFrame cs = true
  · rw [if_pos hcrypto] at h
    refine iff_of_true (packCryptoPacket_conserves h) fun hnone => ?_
    rw [hcrypto] at hnone
    cases hnone
  · rw [if_neg hcrypto] at h
    have hpack := eq_ok_of_map h
    by_cases hping : p.PingFirst
    · obtain ⟨rest, hrest⟩ := pingFirst_iff.mp hping
      rw [packPacket_conserves_of_ping hrest hpack]
      exact ⟨fun hnothing _ _ => hnothing,
        fun hnothing => hnothing (Bool.eq_false_of_not_eq_true hcrypto) hping⟩
    · exact iff_of_true (packPacket_conserves_of_composed hping hblocked hpack)
        fun _ hfirst => absurd hfirst hping

/-- **Packing loses no queued frame**, if and only if a PING frame at the front of the control
frames meets neither a STOP_WAITING nor an ACK frame of the path, or data of the crypto stream goes
first. -/
theorem packing_conserves_iff (p : PacketPacker) (generator : PacketNumberGenerator)
    (i iCrypto : PackInput) (cs : SendStream) (hblocked : p.streamFramer.blockedFrameQueue = []) :
    (∀ r cs', p.packPacketWithCrypto generator i iCrypto cs = .ok (r, cs') →
      (p.Conserves r ↔ (StreamFramer.hasCryptoStreamFrame cs = false → p.PingFirst →
        p.NothingFor i.pathID))) ∧
    ∀ r cs', p.packPingWithCrypto generator i iCrypto cs = .ok (r, cs') →
      (p.addPing.Conserves r ↔ (StreamFramer.hasCryptoStreamFrame cs = false →
        p.NothingFor i.pathID)) := by
  refine ⟨fun r cs' h => packPacketWithCrypto_conserves_iff hblocked h, fun r cs' h => ?_⟩
  rw [packPacketWithCrypto_conserves_iff (p := p.addPing) hblocked h]
  exact forall_congr' fun _ => ⟨fun hnothing => hnothing rfl, fun hnothing _ => hnothing⟩

/-- A packet on path 3. -/
def pingInput : PackInput where
  pathID := 3
  header := { packetNumberLen := .len1, length := 3, raw := .ok [0x48, 3, 1] }
  encryptionLevel := .forwardSecure
  isClient := true
  sealer := SealingState.exampleSealer
  order := .big
  now := 0
  random := none
  visits := []

/-- A crypto stream without data. -/
def silentStream : SendStream where
  streamID := 1
  writeOffset := 0
  dataForWriting := []
  finishedWriting := false
  finSent := false
  failed := false

/-- A STOP_WAITING frame is queued for all paths. -/
def waitingPacker : PacketPacker :=
  { new with
    stopWaiting := fun _ => some
      { leastUnacked := 1, packetNumberLen := .invalid, packetNumber := 0 } }

/-- An ACK frame is queued for all paths. -/
def ackingPacker : PacketPacker :=
  { new with
    ackFrame := fun _ => some
      { largestAcked := 2, lowestAcked := 1, pathID := 3, packetReceivedTime := 0, delayTime := 0
        ackRanges := [] } }

/-- A PING frame without anything else for its path is sent. -/
theorem packing_conserves_ping : ∃ r cs',
    new.packPingWithCrypto .new pingInput pingInput silentStream = .ok (r, cs') ∧
      r.packet.map (·.frames) = some [.ping] ∧ new.addPing.Conserves r :=
  ⟨_, _, rfl, rfl, ((packing_conserves_iff new .new pingInput pingInput silentStream rfl).2 _ _
    rfl).2 fun _ => ⟨rfl, rfl⟩⟩

/-- With a STOP_WAITING frame for the path, `PackPing` sends nothing, and the PING frame is gone.
With an ACK frame for the path, `PackPacket` sends a PING frame that was queued, and the ACK frame
is gone. -/
theorem packing_loses_frames :
    (∃ r cs', waitingPacker.packPingWithCrypto .new pingInput pingInput silentStream =
        .ok (r, cs') ∧ r.packet = none ∧ r.packer.controlFrames = [] ∧
      ¬ waitingPacker.addPing.Conserves r) ∧
    ∃ r cs', (ackingPacker.queueControlFrame .ping 3).packPacketWithCrypto .new pingInput pingInput
        silentStream = .ok (r, cs') ∧ r.packet.map (·.frames) = some [.ping] ∧
      r.packer.ackFrame 3 = none ∧ ¬ (ackingPacker.queueControlFrame .ping 3).Conserves r := by
  refine ⟨⟨_, _, rfl, rfl, rfl, ?_⟩, ⟨_, _, rfl, rfl, rfl, ?_⟩⟩
  · intro hunchanged
    cases hunchanged.control
  · intro hmoves
    rcases hmoves.ack 3 _ rfl with hqueued | hpacked
    · cases hqueued
    · cases List.mem_singleton.mp hpacked

end PacketPacker

end MPQuic
