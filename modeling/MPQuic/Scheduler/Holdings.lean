import MPQuic.Lib.Custody
import MPQuic.Scheduler.Discards
import MPQuic.Scheduler.Sending

/-!
# What the sender holds

The sender as a `Custody.Ledger`: the messages are the packets that were written, and what it holds
is what the frames carry that are referenced by a packet of a history or a retransmission queue, or
by the retransmission queue of the stream framer. A frame may carry less now than when it was
written, if it was split in between.

`Inv` is the invariant of the sender, and `Inv.sendPacked` says what sending a packet does to it and
to the ledger.
-/

namespace MPQuic

open Transition Custody

namespace Sender

variable {s t : Sender}

/-! ## The ledger -/

/-- The items that the sender can send again. -/
def Holds (s : Sender) (x : StreamItem) : Prop :=
  (∃ q, ∃ p ∈ (s.handlers.handler q).packets, x ∈ itemsOf s.packer.heap.get (streamRefs p.frames)) ∨
    x ∈ itemsOf s.packer.heap.get s.packer.streamFramer.retransmissionQueue

/-- The items that are in a packet that the peer has received. -/
def Delivered (s : Sender) (x : StreamItem) : Prop :=
  ∃ w ∈ s.written, w.id ∈ s.received ∧ x ∈ w.items

/-- The sender as a ledger. -/
def ledger (s : Sender) : Ledger DupID StreamItem where
  record := fun id => { x | ∃ w ∈ s.written, w.id = id ∧ x ∈ w.items }
  received := { id | id ∈ s.received }
  held := { x | s.Holds x }

variable {x : StreamItem}

theorem delivered_ledger : x ∈ s.ledger.delivered ↔ s.Delivered x := by
  constructor
  · rintro ⟨i, hi, w, hw, rfl, hx⟩
    exact ⟨w, hw, hi, hx⟩
  · rintro ⟨w, hw, hid, hx⟩
    exact ⟨w.id, hid, w, hw, rfl, hx⟩

/-- A step that keeps what has not arrived, and writes what was written before or is held. -/
theorem moves_of (hwritten : s.written ⊆ t.written) (hreceived : s.received ⊆ t.received)
    (hheld : ∀ x, s.Holds x → t.Delivered x ∨ t.Holds x)
    (hnew : ∀ w ∈ t.written, w ∈ s.written ∨
      ∀ x ∈ w.items, (∃ w' ∈ s.written, x ∈ w'.items) ∨ t.Holds x) :
    Ledger.Moves s.ledger t.ledger where
  record := fun id x ⟨w, hw, hid, hx⟩ => ⟨w, hwritten hw, hid, hx⟩
  received := fun _ hid => hreceived hid
  held := fun x hx => (hheld x hx).imp delivered_ledger.mpr id
  covered := by
    rintro id x ⟨w, hw, -, hx⟩
    rcases hnew w hw with hw | hw
    · exact .inl ⟨w.id, w, hw, rfl, hx⟩
    · rcases hw x hx with ⟨w', hw', hx⟩ | hx
      · exact .inl ⟨w'.id, w', hw', rfl, hx⟩
      · exact .inr (.inr hx)

/-! ## The invariant -/

/-- A packet that is kept for a path: it was written, with at least what its frames carry now. -/
structure Keeps (s : Sender) (q : PathID) (p : Packet) : Prop where
  forwardSecure : p.encryptionLevel = .forwardSecure
  refs_lt : ∀ ref ∈ streamRefs p.frames, ref < s.packer.heap.next
  written : ∃ w ∈ s.written, w.id = ⟨q, p.packetNumber⟩ ∧
    itemsOf s.packer.heap.get (streamRefs p.frames) ⊆ w.items

/-- The invariant of the sender. -/
structure Inv (s : Sender) : Prop where
  handlers : s.handlers.Inv
  queue_lt : ∀ ref ∈ s.packer.streamFramer.retransmissionQueue, ref < s.packer.heap.next
  sendable : ∀ ref < s.packer.heap.next, (s.packer.heap.get ref).Sendable
  keeps : ∀ q, ∀ p ∈ (s.handlers.handler q).packets, s.Keeps q p
  /-- Packet numbers are not used twice. -/
  numbers : ∀ w ∈ s.written, w.id.packetNumber < (s.generator w.id.pathID).next
  unique : (s.written.map WirePacket.id).Nodup
  /-- A packet carries what its duplicate was written with. -/
  duplicates : ∀ k e, s.handlers.dupPackets k = some e →
    ∃ wk ∈ s.written, ∃ we ∈ s.written, wk.id = k ∧ we.id = e ∧ we.items ⊆ wk.items

theorem inv_new : new.Inv where
  handlers := PathHandlers.inv_new
  queue_lt := nofun
  sendable := nofun
  keeps := nofun
  numbers := nofun
  unique := List.nodup_nil
  duplicates := nofun

/-- The packet with a given path and number was written once. -/
theorem Inv.eq_of_id (hinv : s.Inv) {w w' : WirePacket} (hw : w ∈ s.written) (hw' : w' ∈ s.written)
    (hid : w.id = w'.id) : w = w' :=
  List.inj_on_of_nodup_map hinv.unique hw hw' hid

variable {p : PacketPacker}

/-- The frames change as the framer changes them, and the queue gets shorter. -/
theorem Inv.evolve (hinv : s.Inv) {p : PacketPacker} {popped : List FrameRef} {heap : FrameHeap}
    (hpops : StreamFramer.PopsFrom s.packer.streamFramer.retransmissionQueue s.packer.heap popped
      p.streamFramer.retransmissionQueue heap)
    (hheap : p.heap = PacketPacker.omitLastDataLen popped heap) : { s with packer := p }.Inv := by
  obtain ⟨hevolves, first, k, hqueue, -, -⟩ := hpops
  have hnext : s.packer.heap.next ≤ p.heap.next := by
    rw [hheap, PacketPacker.next_omitLastDataLen]
    exact hevolves.next_le
  refine ⟨hinv.handlers, fun ref href => ?_, fun ref href => ?_, fun q pkt hpkt => ?_, hinv.numbers,
    hinv.unique, hinv.duplicates⟩
  · refine (hinv.queue_lt ref ?_).trans_le hnext
    rw [hqueue]
    exact List.mem_append_right _ href
  · rw [hheap, PacketPacker.next_omitLastDataLen] at href
    rw [hheap]
    exact PacketPacker.omitLastDataLen_of_forall
      (fun f hf => ⟨hf.streamID_lt, hf.end_lt, hf.carries⟩)
      (hevolves.sendable hinv.sendable ref href)
  · obtain ⟨hsecure, hlt, w, hw, hid, hitems⟩ := hinv.keeps q pkt hpkt
    refine ⟨hsecure, fun ref href => (hlt ref href).trans_le hnext, w, hw, hid, ?_⟩
    intro x hx
    dsimp only at hx
    rw [hheap, PacketPacker.itemsOf_omitLastDataLen] at hx
    obtain ⟨ref, href, hx⟩ := mem_itemsOf.mp hx
    exact hitems (mem_itemsOf.mpr ⟨ref, href, hevolves.shrinks ref (hlt ref href) hx⟩)

/-- The packer changes, but not the STREAM frames. -/
theorem Inv.repack (hinv : s.Inv) (hheap : p.heap = s.packer.heap)
    (hframer : p.streamFramer = s.packer.streamFramer) : { s with packer := p }.Inv := by
  refine ⟨hinv.handlers, ?_, ?_, fun q pkt hpkt => ?_, hinv.numbers, hinv.unique, hinv.duplicates⟩
  · dsimp only
    rw [hheap, hframer]
    exact hinv.queue_lt
  · dsimp only
    rw [hheap]
    exact hinv.sendable
  · obtain ⟨hsecure, hlt, hwritten⟩ := hinv.keeps q pkt hpkt
    refine ⟨hsecure, ?_, ?_⟩ <;> dsimp only <;> rwa [hheap]

theorem ledger_repack (hheap : p.heap = s.packer.heap)
    (hframer : p.streamFramer = s.packer.streamFramer) :
    { s with packer := p }.ledger = s.ledger := by
  unfold ledger Holds
  dsimp only
  rw [hheap, hframer]

variable {q : PathID}

/-- A generator moves on. -/
theorem Inv.advance (hinv : s.Inv) {generator : PacketNumberGenerator}
    (hle : (s.generator q).next ≤ generator.next) :
    { s with generator := Function.update s.generator q generator }.Inv := by
  refine ⟨hinv.handlers, hinv.queue_lt, hinv.sendable, fun q' p hp => ?_, fun w hw => ?_,
    hinv.unique, hinv.duplicates⟩
  · obtain ⟨hsecure, hlt, hwritten⟩ := hinv.keeps q' p hp
    exact ⟨hsecure, hlt, hwritten⟩
  · have hlt := hinv.numbers w hw
    dsimp only
    by_cases hq : w.id.pathID = q
    · rw [hq] at hlt ⊢
      rw [Function.update_self]
      exact hlt.trans_le hle
    · rwa [Function.update_of_ne hq]

variable {packet : PackedPacket}

/-- A packet is written, with the number that the generator has just passed. -/
theorem Inv.record (hinv : s.Inv) (hlt : packet.number < (s.generator q).next)
    (hfresh : ∀ w ∈ s.written, w.id ≠ ⟨q, packet.number⟩) : (s.record q packet).Inv where
  handlers := hinv.handlers
  queue_lt := hinv.queue_lt
  sendable := hinv.sendable
  keeps := fun q' p hp => by
    obtain ⟨hsecure, hlt, w, hw, hitems⟩ := hinv.keeps q' p hp
    exact ⟨hsecure, hlt, w, List.mem_cons_of_mem _ hw, hitems⟩
  numbers := List.forall_mem_cons.mpr ⟨hlt, hinv.numbers⟩
  unique := by
    refine List.nodup_cons.mpr ⟨fun hmem => ?_, hinv.unique⟩
    obtain ⟨w, hw, hid⟩ := List.mem_map.mp hmem
    exact hfresh w hw hid
  duplicates := fun k e hk => by
    obtain ⟨wk, hwk, we, hwe, h⟩ := hinv.duplicates k e hk
    exact ⟨wk, List.mem_cons_of_mem _ hwk, we, List.mem_cons_of_mem _ hwe, h⟩

/-- A packet that was written with what its frames carry now, and can be registered with a path. -/
structure Writes (s : Sender) (q : PathID) (packet : PackedPacket) : Prop where
  forwardSecure : packet.encryptionLevel = .forwardSecure
  length_lt : packet.length < 2 ^ 48
  refs_lt : ∀ ref ∈ streamRefs packet.frames, ref < s.packer.heap.next
  written : ∃ w ∈ s.written, w.id = ⟨q, packet.number⟩ ∧
    w.items = itemsOf s.packer.heap.get (streamRefs packet.frames)

/-- A packet that was just written. -/
theorem writes_record (hsecure : packet.encryptionLevel = .forwardSecure)
    (hlength : packet.length < 2 ^ 48)
    (hrefs : ∀ ref ∈ streamRefs packet.frames, ref < s.packer.heap.next) :
    (s.record q packet).Writes q packet := by
  refine ⟨hsecure, hlength, hrefs, _, List.mem_cons_self, rfl, ?_⟩
  rw [WirePacket.items, List.flatMap_map]
  rfl

/-- What was written stays so. -/
theorem Writes.mono (h : s.Writes q packet) (hheap : t.packer.heap = s.packer.heap)
    (hwritten : s.written ⊆ t.written) :
    t.Writes q packet := by
  obtain ⟨hsecure, hlength, hlt, w, hw, hid, hitems⟩ := h
  refine ⟨hsecure, hlength, ?_, w, hwritten hw, hid, ?_⟩ <;> rwa [hheap]

/-- What registering a packet does. -/
theorem sendPackedPacket_ok {env : Env} (hok : s.sendPackedPacket packet q env = .ok t) :
    ∃ h, (s.handlers.handler q).sentPacket (toPacket packet) env = .ok h ∧
      t = { s with handlers := s.handlers.modify q fun _ => h } := by
  unfold sendPackedPacket at hok
  split at hok
  · next h hsent => exact ⟨h, hsent, (Except.ok.inj hok).symm⟩
  · cases hok

theorem Inv.sendPackedPacket (hinv : s.Inv) {env : Env} (hwrites : s.Writes q packet)
    (hok : s.sendPackedPacket packet q env = .ok t) : t.Inv := by
  obtain ⟨h, hsent, rfl⟩ := sendPackedPacket_ok hok
  have hhandlers : (s.handlers.modify q fun _ => h).Inv :=
    hinv.handlers.modify _ ((hinv.handlers.handler q).sentPacket hwrites.length_lt hsent)
  refine ⟨hhandlers, hinv.queue_lt, hinv.sendable, fun q' p hp => ?_, hinv.numbers, hinv.unique,
    hinv.duplicates⟩
  have hkeeps : p ∈ (s.handlers.handler q').packets → s.Keeps q' p := hinv.keeps q' p
  suffices s.Keeps q' p from ⟨this.forwardSecure, this.refs_lt, this.written⟩
  dsimp only at hp
  by_cases hq : q' = q
  · subst hq
    rw [PathHandlers.modify_handler_self] at hp
    rcases List.mem_cons.mp ((SentPacketHandler.packets_sentPacket hsent).2.1 hp) with rfl | hp
    · -- the handler keeps all STREAM frames of the packet
      obtain ⟨hsecure, -, hlt, w, hw, hid, hitems⟩ := hwrites
      refine ⟨hsecure, ?_, w, hw, hid, ?_⟩ <;> rw [Packet.kept, streamRefs_strip]
      · exact hlt
      · exact hitems ▸ List.Subset.refl _
    · exact hkeeps hp
  · rw [PathHandlers.modify_handler_of_ne hq] at hp
    exact hkeeps hp

/-- What is held stays held when a packet is registered, and so is what the packet carries. -/
theorem Holds.sendPackedPacket {env : Env} (hok : s.sendPackedPacket packet q env = .ok t)
    (hx : s.Holds x ∨ x ∈ itemsOf s.packer.heap.get (streamRefs packet.frames)) : t.Holds x := by
  obtain ⟨h, hsent, rfl⟩ := sendPackedPacket_ok hok
  obtain ⟨hsub, -, hkept⟩ := SentPacketHandler.packets_sentPacket hsent
  rcases hx with (⟨q', p, hp, hx⟩ | hx) | hx
  · refine .inl ⟨q', p, ?_, hx⟩
    dsimp only
    by_cases hq : q' = q
    · subst hq
      rw [PathHandlers.modify_handler_self]
      exact hsub hp
    · rwa [PathHandlers.modify_handler_of_ne hq]
  · exact .inr hx
  · obtain ⟨ref, href, hx⟩ := mem_itemsOf.mp hx
    have hkept := hkept (List.ne_nil_of_mem href)
    refine .inl ⟨q, (toPacket packet).kept env, ?_, ?_⟩
    · dsimp only
      rwa [PathHandlers.modify_handler_self]
    · rw [Packet.kept, streamRefs_strip]
      exact mem_itemsOf.mpr ⟨ref, href, hx⟩

/-- What the sender held before frames were popped, it holds now or it is in the frames. -/
theorem Holds.evolve {p : PacketPacker} {popped : List FrameRef} {heap : FrameHeap} {x : StreamItem}
    (hinv : s.Inv)
    (hpops : StreamFramer.PopsFrom s.packer.streamFramer.retransmissionQueue s.packer.heap popped
      p.streamFramer.retransmissionQueue heap)
    (hheap : p.heap = PacketPacker.omitLastDataLen popped heap) (hx : s.Holds x) :
    { s with packer := p }.Holds x ∨ x ∈ itemsOf p.heap.get popped := by
  obtain ⟨hevolves, first, k, hqueue, hframes, -⟩ := hpops
  unfold Holds
  dsimp only
  simp only [hheap, PacketPacker.itemsOf_omitLastDataLen]
  rcases hx with ⟨q, pkt, hpkt, hx⟩ | hx
  · obtain ⟨ref, href, hx⟩ := mem_itemsOf.mp hx
    rcases hevolves.keeps ref ((hinv.keeps q pkt hpkt).refs_lt ref href) x hx with hx | hx
    · exact .inl (.inl ⟨q, pkt, hpkt, mem_itemsOf.mpr ⟨ref, href, hx⟩⟩)
    · exact .inr hx
  · obtain ⟨ref, href, hx⟩ := mem_itemsOf.mp hx
    rcases hevolves.keeps ref (hinv.queue_lt ref href) x hx with hx | hx
    · -- the frame is still in the queue, or it was popped
      rw [hqueue] at href
      rcases List.mem_append.mp href with href | href
      · refine .inr (mem_itemsOf.mpr ⟨ref, ?_, hx⟩)
        rw [hframes]
        exact List.mem_append_left _ href
      · exact .inl (.inr (mem_itemsOf.mpr ⟨ref, href, hx⟩))
    · exact .inr hx

/-! ## Sending -/

/-- After a packet there is a packet number less. -/
theorem NumbersLeft.update {generator : PacketNumberGenerator} {n : ℕ}
    (hleft : s.NumbersLeft (n + 1)) (hle : generator.next ≤ (s.generator q).next + 2) :
    { s with generator := Function.update s.generator q generator }.NumbersLeft n := by
  intro q'
  have hleft := hleft q'
  dsimp only
  by_cases hq : q' = q
  · subst hq
    rw [Function.update_self]
    omega
  · rw [Function.update_of_ne hq]
    omega

theorem NumbersLeft.congr {n : ℕ} (hgenerator : t.generator = s.generator)
    (hleft : s.NumbersLeft n) : t.NumbersLeft n := by
  intro q
  rw [hgenerator]
  exact hleft q

/-- The next number of a path was not used before. -/
theorem Inv.id_ne_next (hinv : s.Inv) (q : PathID) :
    ∀ w ∈ s.written, w.id ≠ ⟨q, (s.generator q).next⟩ := by
  intro w hw hid
  have hlt := hinv.numbers w hw
  rw [hid] at hlt
  exact lt_irrefl _ hlt

/-- What sending a packed packet does. -/
structure SendsPacked (s t : Sender) (q : PathID) (packet : Option PackedPacket) : Prop where
  inv : t.Inv
  moves : Ledger.Moves s.ledger t.ledger
  writes : ∀ p, packet = some p → t.Writes q p
  numbersLeft : ∀ n, s.NumbersLeft (n + 1) → t.NumbersLeft n

/-- The sender after a packet was packed, before it is sent. -/
def packed (s : Sender) (q : PathID) (r : PacketPacker.Packed) : Sender :=
  { s with
    packer := r.packer
    generator := Function.update s.generator q r.generator }

section Packed

variable {i : PacketPacker.PackInput} {r : PacketPacker.Packed} {popped : List FrameRef}
  {heap : FrameHeap} (hpacks : PacketPacker.Packs s.packer (s.generator i.pathID) i r popped heap)
include hpacks

/-- A packet that was packed has a new number, and is recorded under this number. -/
theorem Inv.record_packed (hinv : s.Inv) {p : PackedPacket} (hpacket : r.packet = some p)
    (hsecure : i.encryptionLevel = .forwardSecure)
    (hleft : (s.generator i.pathID).next + 2 < uint64Size) :
    ((s.packed i.pathID r).record i.pathID p).Inv ∧
      ((s.packed i.pathID r).record i.pathID p).Writes i.pathID p := by
  obtain ⟨hnumber, hrefs, hlevel, -, hlength, hgenerator⟩ := hpacks.some p hpacket
  have hlt : (s.generator i.pathID).next < r.generator.next :=
    hgenerator ▸ PacketNumberGenerator.next_lt_pop hleft i.random
  have hpacked : (s.packed i.pathID r).Inv :=
    (hinv.evolve hpacks.popsFrom hpacks.heap_eq).advance hlt.le
  constructor
  · refine hpacked.record ?_ fun w hw => ?_
    · have hself : (s.packed i.pathID r).generator i.pathID = r.generator := Function.update_self ..
      rw [hnumber, hself]
      exact hlt
    · rw [hnumber]
      exact hinv.id_ne_next i.pathID w hw
  · refine writes_record (hlevel.trans hsecure) ?_ ?_
    · unfold maxPacketSize at hlength
      omega
    · intro ref href
      change ref < r.packer.heap.next
      rw [hpacks.heap_eq, PacketPacker.next_omitLastDataLen]
      exact hpacks.popsFrom.evolves.popped_lt ref (hrefs ▸ href)

theorem Inv.sendPacked (hinv : s.Inv) {env : Env} {packet : Option PackedPacket}
    (hsecure : i.encryptionLevel = .forwardSecure)
    (hleft : (s.generator i.pathID).next + 2 < uint64Size)
    (hok : s.sendPacked i.pathID env r = .ok (packet, t)) : SendsPacked s t i.pathID packet := by
  have hholds := fun x (hx : s.Holds x) =>
    Holds.evolve hinv hpacks.popsFrom hpacks.heap_eq hx
  unfold Sender.sendPacked at hok
  dsimp only at hok
  cases hpacket : r.packet with
  | none =>
    -- nothing was popped, and no number was used
    rw [hpacket] at hok
    obtain ⟨rfl, hgenerator⟩ := hpacks.none hpacket
    obtain ⟨rfl, rfl⟩ := Prod.mk.inj (Except.ok.inj hok)
    have hnext := congrArg PacketNumberGenerator.next hgenerator
    refine ⟨(hinv.evolve hpacks.popsFrom hpacks.heap_eq).advance hnext.ge,
      moves_of (List.Subset.refl _) (List.Subset.refl _) ?_ fun _ => .inl, nofun,
      fun n hn => NumbersLeft.update hn (by omega)⟩
    intro x hx
    exact .inr ((hholds x hx).resolve_right (by simp [itemsOf]))
  | some p =>
    rw [hpacket] at hok
    obtain ⟨-, hrefs, -, -, -, hgenerator⟩ := hpacks.some p hpacket
    have hle : r.generator.next ≤ (s.generator i.pathID).next + 2 :=
      hgenerator ▸ PacketNumberGenerator.next_pop_le _ i.random
    obtain ⟨hrecord, hwrites⟩ := hinv.record_packed hpacks hpacket hsecure hleft
    dsimp only at hok
    cases hsent : ((s.packed i.pathID r).record i.pathID p).sendPackedPacket p i.pathID env with
    | error e =>
      unfold packed at hsent
      rw [hsent] at hok
      cases hok
    | ok t' =>
      have hheld : ∀ x, (s.packed i.pathID r).Holds x ∨ x ∈ itemsOf r.packer.heap.get popped →
          t'.Holds x :=
        fun x hx => Holds.sendPackedPacket hsent (by rwa [hrefs])
      have hinv' := hrecord.sendPackedPacket hwrites hsent
      unfold packed at hsent
      rw [hsent] at hok
      obtain ⟨rfl, rfl⟩ := Prod.mk.inj (Except.ok.inj hok)
      obtain ⟨h, -, rfl⟩ := sendPackedPacket_ok hsent
      -- what the packet took out of the queues is held by the handler of the path
      refine ⟨hinv', moves_of (List.subset_cons_self _ _) (List.Subset.refl _)
        (fun x hx => .inr (hheld x (hholds x hx))) ?_, ?_, fun n hn => NumbersLeft.update hn hle⟩
      · refine List.forall_mem_cons.mpr ⟨.inr fun x hx => .inr (hheld x (.inr ?_)), fun _ => .inl⟩
        rw [WirePacket.items, List.flatMap_map, hrefs] at hx
        exact hx
      · intro p' hp'
        obtain rfl := Option.some.inj hp'
        exact hwrites.mono rfl (List.Subset.refl _)

end Packed

end Sender

end MPQuic
