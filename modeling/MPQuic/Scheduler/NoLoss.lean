import MPQuic.Scheduler.Holdings

/-!
# The redundant scheduler loses no data

Every byte and every FIN that was written into a packet is in a packet that the peer has received,
or the sender still holds it: in a packet of a history or a retransmission queue, or in the
retransmission queue of the stream framer. Every event is a move of the sender's ledger, and
`no_data_lost` follows.

Of `dupPackets` the argument needs to know only that a packet carries everything that the packet it
is mapped to was written with. Entries that were overwritten or deleted do not matter.
-/

namespace MPQuic

open Transition Custody

namespace Sender

variable {s t : Sender}

/-! ## Sending a packet -/

theorem Inv.queueControlFrames (hinv : s.Inv) (frames : List ControlFrame) (q : PathID) :
    (s.queueControlFrames frames q).Inv :=
  hinv.repack (s.packer.foldl_queueControlFrame_streams frames q).1
    (s.packer.foldl_queueControlFrame_streams frames q).2

theorem ledger_queueControlFrames (frames : List ControlFrame) (q : PathID) :
    (s.queueControlFrames frames q).ledger = s.ledger :=
  ledger_repack (s.packer.foldl_queueControlFrame_streams frames q).1
    (s.packer.foldl_queueControlFrame_streams frames q).2

variable {i : PacketPacker.PackInput} {env : Env} {packet : Option PackedPacket}

theorem Inv.packAndSend (hinv : s.Inv) {i : PacketPacker.PackInput} {env : Env}
    {pack : PacketNumberGenerator → PacketPacker.PackInput → Except PackError PacketPacker.Packed}
    (hpack : ∀ r, pack (s.generator i.pathID) i = .ok r →
      ∃ popped heap, PacketPacker.Packs s.packer (s.generator i.pathID) i r popped heap)
    {n : ℕ} (hcan : s.CanPack i (n + 1)) {packet : Option PackedPacket}
    (hok : s.packAndSend pack i env = .ok (packet, t)) : SendsPacked s t i.pathID packet := by
  unfold Sender.packAndSend at hok
  split at hok
  · next r hr =>
    obtain ⟨popped, heap, hpacks⟩ := hpack r hr
    have hleft := hcan.numbersLeft i.pathID
    exact hinv.sendPacked hpacks hcan.forwardSecure (by omega) hok
  · cases hok

variable {q : PathID}

/-- Control frames that are queued before or after a packet is sent make no difference. -/
theorem SendsPacked.queueControlFrames (h : SendsPacked s t q packet) (frames : List ControlFrame)
    (q' : PathID) :
    SendsPacked s (t.queueControlFrames frames q') q packet where
  inv := h.inv.queueControlFrames frames q'
  moves := by
    rw [ledger_queueControlFrames]
    exact h.moves
  writes := fun p hp =>
    (h.writes p hp).mono (t.packer.foldl_queueControlFrame_streams frames q').1
      (List.Subset.refl _)
  numbersLeft := h.numbersLeft

theorem SendsPacked.of_queueControlFrames {frames : List ControlFrame} {q' : PathID}
    (h : SendsPacked (s.queueControlFrames frames q') t q packet) : SendsPacked s t q packet where
  inv := h.inv
  moves := by
    have hmoves := h.moves
    rwa [ledger_queueControlFrames] at hmoves
  writes := h.writes
  numbersLeft := h.numbersLeft

theorem Inv.performPacketSending (hinv : s.Inv) {c : SendCall} {n : ℕ}
    (hcan : s.CanPack c.input (n + 1)) (hok : s.performPacketSending c = .ok (packet, t)) :
    SendsPacked s t c.input.pathID packet := by
  obtain ⟨⟨packet', t'⟩, hsend, hok⟩ := Bytes.bind_eq_ok hok
  have hsends : SendsPacked s t' c.input.pathID packet' := by
    split_ifs at hsend with hping
    · -- a PING frame is queued first, so that the peer acknowledges the packet
      have hinv' := hinv.queueControlFrames [.ping] c.input.pathID
      refine SendsPacked.of_queueControlFrames (hinv'.packAndSend (fun r => ?_) (n := n) ?_ hsend)
      · exact PacketPacker.packPacket_ok hinv'.queue_lt hcan.visits
      · exact ⟨hcan.forwardSecure, hcan.visits, hcan.numbersLeft⟩
    · exact hinv.packAndSend (fun r => PacketPacker.packPacket_ok hinv.queue_lt hcan.visits) hcan
        hsend
  cases packet' with
  | none =>
    obtain ⟨rfl, rfl⟩ := Prod.mk.inj (Except.ok.inj hok)
    exact hsends
  | some p =>
    obtain ⟨rfl, rfl⟩ := Prod.mk.inj (Except.ok.inj hok)
    exact hsends.queueControlFrames _ _

/-! ## Duplicates -/

/-- A packet that was written with the same items on another path. -/
theorem Inv.addDuplicate (hinv : s.Inv) {w w' : WirePacket} (hw : w ∈ s.written)
    (hw' : w' ∈ s.written) (hitems : w'.items = w.items) (hne : w.id.pathID ≠ w'.id.pathID)
    (dropable : Bool) :
    { s with handlers := s.handlers.addDuplicate w.id w'.id dropable }.Inv := by
  refine ⟨hinv.handlers.addDuplicate dropable hne, hinv.queue_lt, hinv.sendable, fun q p hp => ?_,
    hinv.numbers, hinv.unique, fun k e hk => ?_⟩
  · obtain ⟨hsecure, hlt, hwritten⟩ := hinv.keeps q p hp
    exact ⟨hsecure, hlt, hwritten⟩
  · obtain ⟨rfl, rfl⟩ | ⟨rfl, rfl⟩ | hk := PathHandlers.addDuplicate_dupPackets hk
    · exact ⟨w, hw, w', hw', rfl, rfl, hitems ▸ List.Subset.refl _⟩
    · exact ⟨w', hw', w, hw, rfl, rfl, hitems ▸ List.Subset.refl _⟩
    · exact hinv.duplicates k e hk

/-- A duplicate that was written is mapped and sent, or only mapped. -/
theorem Inv.sendMapped (hinv : s.Inv) {q' : PathID} {packet dupPkt : PackedPacket}
    (hwrites : s.Writes q packet) (hne : q ≠ q') (hlt : dupPkt.number < (s.generator q').next)
    (hfresh : ∀ w ∈ s.written, w.id ≠ ⟨q', dupPkt.number⟩)
    (hdup : (s.record q' dupPkt).Writes q' dupPkt)
    (hframes : streamRefs dupPkt.frames = streamRefs packet.frames) (dropable : Bool) (env : Env) :
    let t := s.sendMapped ⟨q, packet.number⟩ dropable dupPkt q' env
    t.Inv ∧ Ledger.Moves s.ledger t.ledger ∧ t.packer = s.packer ∧ t.generator = s.generator ∧
      s.written ⊆ t.written := by
  obtain ⟨w, hw, hid, hitems⟩ := hwrites.written
  set w' : WirePacket :=
    { id := ⟨q', dupPkt.number⟩
      frames := (streamRefs dupPkt.frames).map s.packer.heap.get } with hw'
  have hitems' : w'.items = w.items := by
    rw [hitems, ← hframes, WirePacket.items, List.flatMap_map]
    rfl
  have hinv' : ({ s.record q' dupPkt with
      handlers := s.handlers.addDuplicate w.id w'.id dropable } : Sender).Inv :=
    (hinv.record hlt hfresh).addDuplicate (List.mem_cons_of_mem _ hw) List.mem_cons_self hitems'
      (by rwa [hid]) dropable
  rw [hid] at hinv'
  -- what the duplicate carries was written before
  have hnew : ∀ {t : Sender}, t.written = w' :: s.written → ∀ v ∈ t.written, v ∈ s.written ∨
      ∀ x ∈ v.items, (∃ w ∈ s.written, x ∈ w.items) ∨ t.Holds x := by
    intro t ht
    rw [ht, List.forall_mem_cons]
    exact ⟨.inr fun x hx => .inl ⟨w, hw, hitems' ▸ hx⟩, fun _ => .inl⟩
  unfold Sender.sendMapped
  dsimp only
  split
  · next t hsent =>
    have hinvt := hinv'.sendPackedPacket (hdup.mono rfl (List.Subset.refl _)) hsent
    have hholds := fun x (hx : s.Holds x) => Holds.sendPackedPacket hsent (.inl hx)
    obtain ⟨h, -, rfl⟩ := sendPackedPacket_ok hsent
    exact ⟨hinvt, moves_of (List.subset_cons_self _ _) (List.Subset.refl _)
      (fun x hx => .inr (hholds x hx)) (hnew rfl), rfl, rfl, List.subset_cons_self _ _⟩
  · exact ⟨hinv', moves_of (List.subset_cons_self _ _) (List.Subset.refl _) (fun x => .inr)
      (hnew rfl), rfl, rfl, List.subset_cons_self _ _⟩

/-- A duplicate carries what the packet carries, whether or not it can be sent. -/
theorem Inv.sendDuplicate (hinv : s.Inv) {packet : PackedPacket} {frames : List Frame}
    {redPth : RedundantPath} (hsecure : i.encryptionLevel = .forwardSecure)
    (hwrites : s.Writes i.pathID packet) (hframes : streamRefs frames = streamRefs packet.frames)
    (hleft : (s.generator redPth.pathID).next + 2 < uint64Size) :
    SendsPacked s (sendDuplicate i env (toPacket packet) frames s redPth) i.pathID
      (some packet) := by
  have hpacket : ∀ {t : Sender}, t.packer = s.packer → s.written ⊆ t.written →
      ∀ p, some packet = some p → t.Writes i.pathID p := by
    intro t hpacker hwritten p hp
    obtain rfl := Option.some.inj hp
    exact hwrites.mono (by rw [hpacker]) hwritten
  unfold Sender.sendDuplicate
  split_ifs with hskip
  · refine ⟨hinv, .refl _, hpacket rfl (List.Subset.refl _), fun n hn q => ?_⟩
    have := hn q
    omega
  · -- the duplicate takes a number of its own path, even if sealing it fails
    set i' : PacketPacker.PackInput :=
      { i with pathID := redPth.pathID, header := redPth.header, random := redPth.random }
    obtain ⟨hle, hle'⟩ := PacketPacker.sealFrames_next (p := s.packer) (i := i') frames hleft
    have hinv₁ := hinv.advance (q := redPth.pathID) hle
    have hnumbers := fun n (hn : s.NumbersLeft (n + 1)) => NumbersLeft.update hn hle'
    dsimp only
    cases hseal : (s.packer.sealFrames (s.generator redPth.pathID) i' frames).1 with
    | error e => exact ⟨hinv₁, .refl _, hpacket rfl (List.Subset.refl _), hnumbers⟩
    | ok dupPkt =>
      obtain ⟨hnumber, hdupFrames, hlevel, -, hlength, hgenerator⟩ :=
        PacketPacker.sealFrames_ok hseal
      have hrefs : streamRefs dupPkt.frames = streamRefs packet.frames := by
        rw [hdupFrames, hframes]
      have hlt : dupPkt.number < (Function.update s.generator redPth.pathID
          (s.packer.sealFrames (s.generator redPth.pathID) i' frames).2 redPth.pathID).next := by
        rw [Function.update_self, hnumber, hgenerator]
        exact PacketNumberGenerator.next_lt_pop hleft _
      obtain ⟨hinvt, hmoves, hpacker, hgen, hwritten⟩ := hinv₁.sendMapped
        (hwrites.mono rfl (List.Subset.refl _)) (fun h => hskip (.inr h.symm))
        hlt (hnumber ▸ hinv.id_ne_next redPth.pathID)
        (writes_record (hlevel.trans hsecure) (by unfold maxPacketSize at hlength; omega)
          (by rw [hrefs]; exact hwrites.refs_lt)) hrefs (toPacket packet).isDupDropable env
      exact ⟨hinvt, hmoves, hpacket hpacker hwritten, fun n hn => .congr hgen (hnumbers n hn)⟩

theorem Inv.foldl_sendDuplicate (hinv : s.Inv) {packet : PackedPacket} {frames : List Frame}
    (hsecure : i.encryptionLevel = .forwardSecure) (hwrites : s.Writes i.pathID packet)
    (hframes : streamRefs frames = streamRefs packet.frames) {paths : List RedundantPath}
    (hleft : s.NumbersLeft paths.length) :
    let t := paths.foldl (Sender.sendDuplicate i env (toPacket packet) frames) s
    t.Inv ∧ Ledger.Moves s.ledger t.ledger := by
  induction paths generalizing s with
  | nil => exact ⟨hinv, .refl _⟩
  | cons redPth paths ih =>
    have hone : (s.generator redPth.pathID).next + 2 < uint64Size := by
      have := hleft redPth.pathID
      rw [List.length_cons] at this
      omega
    have hsends :
        SendsPacked s (Sender.sendDuplicate i env (toPacket packet) frames s redPth) _ _ :=
      hinv.sendDuplicate hsecure hwrites hframes hone
    obtain ⟨hinv', hmoves⟩ := ih hsends.inv (hsends.writes packet rfl) (hsends.numbersLeft _ hleft)
    exact ⟨hinv', hsends.moves.trans hmoves⟩

/-- A packet is kept for a retransmission on its own path. -/
theorem Inv.duplicatePacket (hinv : s.Inv) {packet : PackedPacket} (hwrites : s.Writes q packet) :
    let t := { s with handlers := s.handlers.modify q (·.duplicatePacket (toPacket packet)) }
    t.Inv ∧ Ledger.Moves s.ledger t.ledger := by
  have hpackets : ∀ q' p, p ∈ ((s.handlers.modify q
      (·.duplicatePacket (toPacket packet))).handler q').packets ↔
        p ∈ (s.handlers.handler q').packets ∨ (q' = q ∧ p = toPacket packet) := by
    intro q' p
    by_cases hq : q' = q
    · subst hq
      rw [PathHandlers.modify_handler_self]
      simp [SentPacketHandler.duplicatePacket, TrackedPackets.packets, or_assoc]
    · rw [PathHandlers.modify_handler_of_ne hq]
      simp [hq]
  have hhandlers : (s.handlers.modify q (·.duplicatePacket (toPacket packet))).Inv :=
    hinv.handlers.modify _ ((hinv.handlers.handler q).of_retransmissionQueue _)
  refine ⟨⟨hhandlers, hinv.queue_lt, hinv.sendable, fun q' p hp => ?_, hinv.numbers, hinv.unique,
    hinv.duplicates⟩, moves_of (List.Subset.refl _) (List.Subset.refl _) (fun x hx => .inr ?_)
    fun _ => .inl⟩
  · rcases (hpackets q' p).mp hp with hp | ⟨rfl, rfl⟩
    · obtain ⟨hsecure, hlt, hwritten⟩ := hinv.keeps q' p hp
      exact ⟨hsecure, hlt, hwritten⟩
    · obtain ⟨hsecure, -, hlt, w, hw, hid, hitems⟩ := hwrites
      exact ⟨hsecure, hlt, w, hw, hid, hitems ▸ List.Subset.refl _⟩
  · rcases hx with ⟨q', p, hp, hx⟩ | hx
    · exact .inl ⟨q', p, (hpackets q' p).mpr (.inl hp), hx⟩
    · exact .inr hx

theorem Inv.sendPacket (hinv : s.Inv) {c : SendCall}
    (hcan : s.CanPack c.input (packets c.duplication)) (hok : s.sendPacket c = .ok t) :
    t.Inv ∧ Ledger.Moves s.ledger t.ledger := by
  obtain ⟨n, hn⟩ : ∃ n, packets c.duplication = n + 1 := by
    cases c.duplication <;> exact ⟨_, rfl⟩
  obtain ⟨⟨packet, t'⟩, hperform, hok⟩ := Bytes.bind_eq_ok hok
  have hsends := hinv.performPacketSending (hn ▸ hcan) hperform
  cases packet with
  | none =>
    obtain rfl := Except.ok.inj hok
    exact ⟨hsends.inv, hsends.moves⟩
  | some packet =>
    obtain rfl := Except.ok.inj hok
    have hwrites := hsends.writes packet rfl
    suffices h : (t'.duplicate c (toPacket packet)).Inv ∧
        Ledger.Moves t'.ledger (t'.duplicate c (toPacket packet)).ledger from
      ⟨h.1, hsends.moves.trans h.2⟩
    unfold Sender.duplicate
    cases hduplication : c.duplication with
    | none => exact ⟨hsends.inv, .refl _⟩
    | samePath => exact hsends.inv.duplicatePacket hwrites
    | redundant paths =>
      dsimp only
      split
      · exact ⟨hsends.inv, .refl _⟩
      · next frames hframes =>
        rw [hduplication] at hcan
        exact hsends.inv.foldl_sendDuplicate hcan.forwardSecure hwrites
          (streamRefs_of_getCopyFrames hframes) (hsends.numbersLeft _ hcan.numbersLeft)

/-! ## Acknowledgements and losses -/

variable {handlers : PathHandlers}

/-- The handlers discard packets. -/
theorem Inv.discards (hinv : s.Inv) (hhandlers : handlers.Inv) {gone : PathID → ℕ → Prop}
    (h : PathHandlers.Discards s.handlers handlers gone) :
    { s with handlers }.Inv := by
  refine ⟨hhandlers, hinv.queue_lt, hinv.sendable, fun q p hp => ?_, hinv.numbers, hinv.unique,
    fun k e hk => hinv.duplicates k e (h.duplicates k e hk)⟩
  obtain ⟨hsecure, hlt, hwritten⟩ := hinv.keeps q p (h.subset q hp)
  exact ⟨hsecure, hlt, hwritten⟩

/-- It is a move of the ledger if what they discard was delivered. -/
theorem moves_of_discards {handlers : PathHandlers} {gone : PathID → ℕ → Prop}
    (h : PathHandlers.Discards s.handlers handlers gone)
    (hgone : ∀ q, ∀ p ∈ (s.handlers.handler q).packets, gone q p.packetNumber →
      ∀ x ∈ itemsOf s.packer.heap.get (streamRefs p.frames), s.Delivered x) :
    Ledger.Moves s.ledger { s with handlers }.ledger := by
  refine moves_of (List.Subset.refl _) (List.Subset.refl _) ?_ fun _ => .inl
  rintro x (⟨q, p, hp, hx⟩ | hx)
  · rcases h.kept q p hp with hp' | hgone'
    · exact .inr (.inl ⟨q, p, hp', hx⟩)
    · exact .inl (hgone q p hp hgone' x hx)
  · exact .inr (.inr hx)

/-- The duplicate of a packet was written with nothing else than the packet. -/
theorem Inv.duplicate_written (hinv : s.Inv) {k e : DupID}
    (hdup : s.handlers.dupPackets k = some e) {w : WirePacket} (hw : w ∈ s.written)
    (hid : w.id = e) : ∃ wk ∈ s.written, wk.id = k ∧ w.items ⊆ wk.items := by
  obtain ⟨wk, hwk, we, hwe, hk, he, hitems⟩ := hinv.duplicates k e hdup
  obtain rfl := hinv.eq_of_id hw hwe (hid.trans he.symm)
  exact ⟨wk, hwk, hk, hitems⟩

theorem Inv.ackOutcome (hinv : s.Inv) {pathID : PathID} {f : AckedPackets}
    (hhonest : s.Honest pathID f) (h : PathHandlers.AckOutcome s.handlers pathID f handlers) :
    { s with handlers }.Inv ∧ Ledger.Moves s.ledger { s with handlers }.ledger := by
  have hdiscards := hinv.handlers.ackOutcome_discards h
  refine ⟨hinv.discards (hinv.handlers.ackOutcome h) hdiscards, moves_of_discards hdiscards ?_⟩
  intro q p hp hgone x hx
  obtain ⟨w, hw, hid, hitems⟩ := (hinv.keeps q p hp).written
  rcases hgone with ⟨rfl, hacked⟩ | ⟨m, hacked, hdup⟩
  · exact ⟨w, hw, hid ▸ hhonest _ hacked, hitems hx⟩
  · obtain ⟨wk, hwk, hk, hsub⟩ := hinv.duplicate_written hdup hw hid
    exact ⟨wk, hwk, hk ▸ hhonest m hacked, hsub (hitems hx)⟩

/-- Packets that are lost move to the retransmission queue of their path. -/
theorem Inv.loses (hinv : s.Inv) (f : SentPacketHandler → SentPacketHandler)
    (hqueues : (s.handlers.handler q).Queues (f (s.handlers.handler q)).toTrackedPackets)
    (hforgets : (s.handlers.handler q).Forgets (f (s.handlers.handler q))) :
    let t := { s with handlers := s.handlers.modify q f }
    t.Inv ∧ Ledger.Moves s.ledger t.ledger := by
  have hself := hinv.handlers.handler q
  have hmem := fun p => hself.inFlight.mem_packets_queues (p := p) hqueues
  have hdiscards : PathHandlers.Discards s.handlers (s.handlers.modify q f) fun _ _ => False :=
    .modify _ q f (fun p => (hmem p).mp) fun p hp => .inl ((hmem p).mpr hp)
  have hhandlers : (s.handlers.modify q f).Inv :=
    hinv.handlers.modify f (hself.queues hqueues hforgets)
  exact ⟨hinv.discards hhandlers hdiscards, moves_of_discards hdiscards fun _ _ _ => False.elim⟩

/-! ## Retransmissions -/

/-- A frame is queued again: a STREAM frame in the stream framer, the others in the packer. -/
theorem requeueFrame_eq (needed : WindowUpdateFrame → Bool) (q : PathID) (s : Sender)
    (frame : Frame) :
    ∃ p : PacketPacker, requeueFrame needed q s frame = { s with packer := p } ∧
      p.heap = s.packer.heap ∧ p.streamFramer.retransmissionQueue =
        s.packer.streamFramer.retransmissionQueue ++ frame.streamRef?.toList := by
  have hqueue : ∀ c : ControlFrame, ∃ p : PacketPacker,
      s.queueControlFrames [c] q = { s with packer := p } ∧ p.heap = s.packer.heap ∧
        p.streamFramer.retransmissionQueue = s.packer.streamFramer.retransmissionQueue ++ [] := by
    intro c
    obtain ⟨hheap, hframer⟩ := s.packer.queueControlFrame_streams c q
    exact ⟨_, rfl, hheap, by rw [List.append_nil]; exact congrArg _ hframer⟩
  have hsame : ∃ p : PacketPacker, s = { s with packer := p } ∧ p.heap = s.packer.heap ∧
      p.streamFramer.retransmissionQueue = s.packer.streamFramer.retransmissionQueue ++ [] :=
    ⟨s.packer, rfl, rfl, (List.append_nil _).symm⟩
  cases frame with
  | stream ref => exact ⟨_, rfl, rfl, rfl⟩
  | windowUpdate f =>
    change ∃ p : PacketPacker, (if needed f then _ else s) = _ ∧ _
    split_ifs
    · exact hqueue _
    · exact hsame
  | paths f => exact hsame
  | _ => exact hqueue _

/-- The STREAM frames of a packet go to the queue of the stream framer. -/
theorem foldl_requeueFrame (needed : WindowUpdateFrame → Bool) (q : PathID) (s : Sender)
    (frames : List Frame) :
    ∃ p : PacketPacker, frames.foldl (requeueFrame needed q) s = { s with packer := p } ∧
      p.heap = s.packer.heap ∧ p.streamFramer.retransmissionQueue =
        s.packer.streamFramer.retransmissionQueue ++ streamRefs frames := by
  induction frames generalizing s with
  | nil => exact ⟨s.packer, rfl, rfl, (List.append_nil _).symm⟩
  | cons frame frames ih =>
    obtain ⟨p, heq, hheap, hqueue⟩ := requeueFrame_eq needed q s frame
    obtain ⟨p', heq', hheap', hqueue'⟩ := ih { s with packer := p }
    refine ⟨p', ?_, hheap'.trans hheap, ?_⟩
    · rw [List.foldl_cons, heq, heq']
    · rw [hqueue', hqueue, List.append_assoc]
      cases hf : frame.streamRef? <;> simp [streamRefs, hf]

/-- The STREAM frames of a dequeued packet move to the stream framer. -/
theorem Inv.requeue (hinv : s.Inv) {q : PathID} {h : SentPacketHandler} {packet : Packet}
    (hdequeue : (s.handlers.handler q).dequeuePacketForRetransmission = (some packet, h))
    (hhandlers : (s.handlers.modify q fun _ => h).Inv) {p : PacketPacker}
    (hheap : p.heap = s.packer.heap)
    (hqueue : p.streamFramer.retransmissionQueue =
      s.packer.streamFramer.retransmissionQueue ++ streamRefs packet.frames) :
    let t := { s with packer := p, handlers := s.handlers.modify q fun _ => h }
    t.Inv ∧ Ledger.Moves s.ledger t.ledger := by
  obtain ⟨hpacket, hsub, hrest⟩ := SentPacketHandler.packets_dequeue hdequeue
  refine ⟨⟨hhandlers, ?_, ?_, fun q' p' hp' => ?_, hinv.numbers, hinv.unique, hinv.duplicates⟩,
    moves_of (List.Subset.refl _) (List.Subset.refl _) (fun x hx => .inr ?_) fun _ => .inl⟩
  · dsimp only
    rw [hheap, hqueue, List.forall_mem_append]
    exact ⟨hinv.queue_lt, (hinv.keeps q packet hpacket).refs_lt⟩
  · dsimp only
    rw [hheap]
    exact hinv.sendable
  · have hp : p' ∈ (s.handlers.handler q').packets := by
      dsimp only at hp'
      by_cases hq : q' = q
      · subst hq
        rw [PathHandlers.modify_handler_self] at hp'
        exact hsub hp'
      · rwa [PathHandlers.modify_handler_of_ne hq] at hp'
    obtain ⟨hsecure, hlt, hwritten⟩ := hinv.keeps q' p' hp
    refine ⟨hsecure, ?_, ?_⟩ <;> dsimp only <;> rwa [hheap]
  · unfold Holds
    dsimp only
    rw [hheap, hqueue, itemsOf, List.flatMap_append, List.mem_append]
    rcases hx with ⟨q', p', hp', hx⟩ | hx
    · by_cases hq : q' = q
      · subst hq
        rcases hrest p' hp' with hp' | rfl
        · exact .inl ⟨q', p', by rwa [PathHandlers.modify_handler_self], hx⟩
        · -- the dequeued packet itself: its items are at the end of the framer's queue
          exact .inr (.inr hx)
      · exact .inl ⟨q', p', by rwa [PathHandlers.modify_handler_of_ne hq], hx⟩
    · exact .inr (.inl hx)

theorem Inv.getRetransmission (hinv : s.Inv) (needed : WindowUpdateFrame → Bool) (q : PathID) :
    (s.getRetransmission needed q).Inv ∧
      Ledger.Moves s.ledger (s.getRetransmission needed q).ledger := by
  have hhandlers : (s.handlers.modify q fun _ =>
      (s.handlers.handler q).dequeuePacketForRetransmission.2).Inv :=
    hinv.handlers.apply (show (PathHandlers.Call.dequeuePacketForRetransmission q).Admissible from
      trivial)
  unfold Sender.getRetransmission
  dsimp only
  rcases hdequeue : (s.handlers.handler q).dequeuePacketForRetransmission with ⟨_ | packet, h⟩
  · -- an empty queue
    obtain rfl : h = s.handlers.handler q := by
      unfold SentPacketHandler.dequeuePacketForRetransmission at hdequeue
      split at hdequeue
      · exact (Prod.mk.inj hdequeue).2.symm
      · cases hdequeue
    dsimp only
    rw [PathHandlers.modify, Function.update_eq_self]
    exact ⟨hinv, .refl _⟩
  · -- every kept packet is forward-secure, so it takes the branch that requeues its frames
    rw [hdequeue] at hhandlers
    have hkeeps := hinv.keeps q packet (SentPacketHandler.packets_dequeue hdequeue).1
    dsimp only
    rw [if_neg (not_not.mpr hkeeps.forwardSecure)]
    obtain ⟨p, heq, hheap, hqueue⟩ := foldl_requeueFrame needed q
      { s with handlers := s.handlers.modify q fun _ => h } packet.getFramesForRetransmission
    rw [heq]
    rw [Packet.getFramesForRetransmission, streamRefs_filter (fun _ => rfl)] at hqueue
    exact hinv.requeue hdequeue hhandlers hheap hqueue

/-! ## Runs -/

theorem Inv.sendsPacked_of_map (hinv : s.Inv) {i : PacketPacker.PackInput} {env : Env}
    {pack : PacketNumberGenerator → PacketPacker.PackInput → Except PackError PacketPacker.Packed}
    (hpack : ∀ r, pack (s.generator i.pathID) i = .ok r →
      ∃ popped heap, PacketPacker.Packs s.packer (s.generator i.pathID) i r popped heap)
    (hcan : s.CanPack i 1) (hok : (s.packAndSend pack i env).map (·.2) = .ok t) :
    t.Inv ∧ Ledger.Moves s.ledger t.ledger := by
  cases hsend : s.packAndSend pack i env with
  | error e =>
    rw [hsend] at hok
    cases hok
  | ok r =>
    rw [hsend] at hok
    obtain rfl := Except.ok.inj hok
    have hsends := hinv.packAndSend hpack hcan hsend
    exact ⟨hsends.inv, hsends.moves⟩

/-- Every event keeps the invariant, and is a move of the ledger. -/
theorem Inv.step (hinv : s.Inv) {e : Event} (hstep : Step s e t) :
    t.Inv ∧ Ledger.Moves s.ledger t.ledger := by
  obtain ⟨hadmissible, hok⟩ := hstep
  cases e with
  | queueControlFrame frame pathID =>
    obtain rfl := Except.ok.inj hok
    refine ⟨hinv.queueControlFrames [frame] pathID, ?_⟩
    rw [ledger_queueControlFrames]
    exact .refl _
  | sendPacket c => exact hinv.sendPacket hadmissible hok
  | sendAck i env =>
    exact hinv.sendsPacked_of_map (fun r hr => ⟨_, _, PacketPacker.packAckPacket_ok hr⟩)
      hadmissible hok
  | sendPing i env =>
    exact hinv.sendsPacked_of_map
      (fun r hr => PacketPacker.packPing_ok hinv.queue_lt hadmissible.visits hr) hadmissible hok
  | deliver id =>
    obtain rfl := Except.ok.inj hok
    refine ⟨⟨hinv.handlers, hinv.queue_lt, hinv.sendable, fun q p hp => ?_, hinv.numbers,
      hinv.unique, hinv.duplicates⟩, moves_of (List.Subset.refl _) (List.subset_cons_self _ _)
      (fun _ => .inr) fun _ => .inl⟩
    obtain ⟨hsecure, hlt, hwritten⟩ := hinv.keeps q p hp
    exact ⟨hsecure, hlt, hwritten⟩
  | receivedAck pathID f n env =>
    obtain rfl := Except.ok.inj hok
    exact hinv.ackOutcome hadmissible (PathHandlers.receivedAck_outcome s.handlers pathID f n env)
  | receivedClosePath pathID f n =>
    obtain rfl := Except.ok.inj hok
    exact hinv.ackOutcome hadmissible (PathHandlers.receivedClosePath_outcome s.handlers pathID f n)
  | onAlarm pathID env potentiallyFailed =>
    obtain rfl := Except.ok.inj hok
    exact hinv.loses _ (SentPacketHandler.onAlarm_queues _ env potentiallyFailed)
      (SentPacketHandler.trims_onAlarm _ env potentiallyFailed).toForgets
  | setInflightAsLost pathID =>
    obtain rfl := Except.ok.inj hok
    exact hinv.loses _ (SentPacketHandler.setInflightAsLost_queues _)
      (SentPacketHandler.trims_setInflightAsLost _).toForgets
  | getRetransmission needed pathID =>
    obtain rfl := Except.ok.inj hok
    exact hinv.getRetransmission needed pathID

/-- In every run the invariant holds and nothing is lost. -/
theorem inv_of_run {events : List Event} (hrun : Run Step new events s) :
    s.Inv ∧ s.ledger.Safe := by
  refine hrun.invariant (I := fun _ s => s.Inv ∧ s.ledger.Safe) ⟨inv_new, nofun⟩ ?_
  rintro _ s e t ⟨hinv, hsafe⟩ hstep
  obtain ⟨hinv', hmoves⟩ := hinv.step hstep
  exact ⟨hinv', hsafe.moves hmoves⟩

/-- After every sequence of events, everything that was written into a packet is in a packet that
the peer has received, or the sender holds it. A packet that an ACK frame for another path discards
was written with nothing that the peer has not received in a packet of that path. -/
theorem no_data_lost {events : List Event} (hrun : Run Step new events s) :
    (∀ w ∈ s.written, ∀ x ∈ w.items, s.Delivered x ∨ s.Holds x) ∧
      ∀ pathID f n env, s.Honest pathID (AckFrame.toAckedPackets f) →
        ∀ q ≠ pathID, ∀ p ∈ (s.handlers.handler q).packets,
          p ∉ ((s.handlers.receivedAck pathID f n env).2.handler q).packets →
          ∃ w ∈ s.written, ∃ w' ∈ s.written, w.id = ⟨q, p.packetNumber⟩ ∧
            w'.id.pathID = pathID ∧ w'.id ∈ s.received ∧ w.items ⊆ w'.items := by
  obtain ⟨hinv, hsafe⟩ := inv_of_run hrun
  refine ⟨fun w hw x hx => ?_, fun pathID f n env hhonest q hq p hp hgone => ?_⟩
  · exact (hsafe w.id x ⟨w, hw, rfl, hx⟩).imp delivered_ledger.mp id
  · -- a packet of another path is discarded only as the duplicate of an acknowledged packet
    have hdiscards := hinv.handlers.ackOutcome_discards
      (PathHandlers.receivedAck_outcome s.handlers pathID f n env)
    rcases (hdiscards.kept q p hp).resolve_left hgone with ⟨heq, -⟩ | ⟨m, hacked, hdup⟩
    · exact absurd heq hq
    · obtain ⟨w, hw, hid, -⟩ := (hinv.keeps q p hp).written
      obtain ⟨w', hw', hid', hitems⟩ := hinv.duplicate_written hdup hw hid
      exact ⟨w, hw, w', hw', hid, by rw [hid'], hid' ▸ hhonest m hacked, hitems⟩

/-- A public header of ten bytes. -/
def exampleHeader : HeaderBytes where
  packetNumberLen := .len1
  length := 10
  raw := .ok (List.replicate 10 0)

/-- Three bytes and the end of stream 5 are sent on path 1 and copied to path 3. -/
def exampleSend : SendCall where
  input :=
    { pathID := 1, header := exampleHeader, encryptionLevel := .forwardSecure, isClient := true
      sealer := SealingState.exampleSealer, order := .big, now := 0, random := none
      visits :=
        [{ stream :=
            { streamID := 5, writeOffset := 0, dataForWriting := [7, 8, 9], finishedWriting := true
              finSent := false, failed := false }
           sendWindowSize := 100, remainingConnectionWindowSize := 100 }] }
  env := noSamples 0
  windowUpdateFrames := []
  duplication := .redundant [{ pathID := 3, header := exampleHeader, random := none }]

/-- The peer receives the copy only and acknowledges it. -/
def exampleAck : AckFrame where
  largestAcked := 1
  lowestAcked := 1
  ackRanges := []
  pathID := 3
  packetReceivedTime := 0
  delayTime := 0

theorem step_exampleSend :
    Step new (.sendPacket exampleSend) (new.after (.sendPacket exampleSend)) := by
  refine step_after ⟨rfl, ?_, fun _ => ?_⟩ (by decide +kernel)
  · rw [show exampleSend.input.visits = [_] from rfl, List.forall_mem_singleton]
    exact ⟨by decide, by decide⟩
  · change PacketNumberGenerator.new.next + 2 * 2 < uint64Size
    decide

/-- The acknowledgement of a copy on path 3 discards the packet on path 1. -/
theorem no_data_lost_example :
    ∃ s, Run Step new [.sendPacket exampleSend, .deliver ⟨3, 1⟩,
        .receivedAck 3 exampleAck 1 exampleSend.env] s ∧
      (s.handlers.handler 1).packets = [] ∧ s.written.length = 2 ∧
      ∀ w ∈ s.written, ∀ x ∈ w.items, s.Delivered x ∨ s.Holds x := by
  have hdeliver := step_after (s := new.after (.sendPacket exampleSend)) (e := .deliver ⟨3, 1⟩)
    (show Sent _ _ from ⟨by decide +kernel, by decide +kernel⟩) rfl
  have hack := step_after (s := (new.after (.sendPacket exampleSend)).after (.deliver ⟨3, 1⟩))
    (e := .receivedAck 3 exampleAck 1 exampleSend.env)
    (show Honest _ _ _ from fun n hn => by
      obtain ⟨hlow, hhigh, -⟩ := (exampleAck.acksPacket_iff n).mp hn
      obtain rfl : n = 1 := le_antisymm hhigh hlow
      exact List.mem_cons_self) rfl
  have hrun : Run Step new _ _ := ((Run.nil.snoc step_exampleSend).snoc hdeliver).snoc hack
  exact ⟨_, hrun, by decide +kernel, by decide +kernel, (no_data_lost hrun).1⟩

end Sender

end MPQuic
