import MPQuic.AckHandler.Acknowledged
import MPQuic.Scheduler.CrossAck

/-!
# What acknowledgements discard

The packets that a handler still keeps are those of its history and of its retransmission queue.
Loss only moves packets between the two. An ACK frame for a path discards packets of that path that
it acknowledges, and through `crossAckHandling` packets of other paths that the scheduler's map has
as duplicates of these: `ackOutcome_discards`.
-/

namespace MPQuic

open KeyedList

namespace TrackedPackets

/-- The packets that are kept for a retransmission. -/
def packets (t : TrackedPackets) : List Packet := t.packetHistory ++ t.retransmissionQueue

variable {t t' : TrackedPackets} {p p' : Packet}

theorem packets_remove (t : TrackedPackets) (p : Packet) :
    (t.remove p).packets ⊆ t.packets ∧
      ∀ p' ∈ t.packets, p' ∈ (t.remove p).packets ∨ p'.packetNumber = p.packetNumber := by
  refine ⟨List.append_subset.mpr ⟨?_, List.subset_append_right _ _⟩, fun p' hp' => ?_⟩
  · exact List.subset_append_of_subset_left _ (eraseKey_sublist ..).subset
  · rcases List.mem_append.mp hp' with hp' | hp'
    · exact (mem_eraseKey_or Packet.packetNumber p.packetNumber hp').imp
        (List.mem_append_left _) id
    · exact .inl (List.mem_append_right _ hp')

theorem packets_unqueue (t : TrackedPackets) (num : ℕ) :
    (t.unqueue num).packets ⊆ t.packets ∧
      ∀ p' ∈ t.packets, p' ∈ (t.unqueue num).packets ∨ p'.packetNumber = num := by
  refine ⟨List.append_subset.mpr ⟨List.subset_append_left _ _, ?_⟩, fun p' hp' => ?_⟩
  · exact List.subset_append_of_subset_right _ (eraseKey_sublist ..).subset
  · rcases List.mem_append.mp hp' with hp' | hp'
    · exact .inl (List.mem_append_left _ hp')
    · exact (mem_eraseKey_or Packet.packetNumber num hp').imp (List.mem_append_right _) id

/-- Lost packets move to the retransmission queue. -/
theorem InFlight.mem_packets_queues (h : t.InFlight) (hqueues : t.Queues t') :
    p ∈ t'.packets ↔ p ∈ t.packets := by
  obtain ⟨lost, hsub, rfl⟩ := hqueues
  unfold packets
  rw [List.mem_append, List.mem_append, h.mem_foldl_queue hsub, foldl_queue_retransmissionQueue,
    List.mem_append]
  constructor
  · rintro (⟨hp, -⟩ | hp | hp)
    · exact .inl hp
    · exact .inr hp
    · exact .inl (hsub.subset hp)
  · rintro (hp | hp)
    · by_cases hlost : p ∈ lost
      · exact .inr (.inr hlost)
      · exact .inl ⟨hp, hlost⟩
    · exact .inr (.inl hp)

end TrackedPackets

theorem SentPacketHandler.packets_removePacketByNumber (h : SentPacketHandler) (num : ℕ) :
    (h.removePacketByNumber num).2.packets ⊆ h.packets ∧
      ∀ p ∈ h.packets, p ∈ (h.removePacketByNumber num).2.packets ∨ p.packetNumber = num := by
  rcases h.removePacketByNumber_tracked num with ⟨p, -, rfl, heq | heq⟩ | ⟨-, heq | heq⟩
  · rw [heq]
    exact h.packets_remove p
  · rw [heq]
    obtain ⟨hsub, hor⟩ := h.packets_remove p
    obtain ⟨hsub', hor'⟩ := (h.remove p).packets_unqueue p.packetNumber
    refine ⟨List.Subset.trans hsub' hsub, fun p' hp' => ?_⟩
    rcases hor p' hp' with h | h
    · exact hor' p' h
    · exact .inr h
  · rw [heq]
    exact ⟨List.Subset.refl _, fun _ => .inl⟩
  · rw [heq]
    exact h.packets_unqueue num

/-- What the handler keeps of a packet that is sent. -/
def Packet.kept (packet : Packet) (env : Env) : Packet :=
  { packet with frames := stripNonRetransmittableFrames packet.frames, sendTime := env.now }

/-- A packet that is sent is kept if it has a STREAM frame, and no other packet is dropped. -/
theorem SentPacketHandler.packets_sentPacket {h h' : SentPacketHandler} {packet : Packet}
    {env : Env} (hok : h.sentPacket packet env = .ok h') :
    h.packets ⊆ h'.packets ∧ h'.packets ⊆ packet.kept env :: h.packets ∧
      (streamRefs packet.frames ≠ [] → packet.kept env ∈ h'.packets) := by
  obtain ⟨-, -, -, ⟨hnil, heq⟩ | ⟨-, heq⟩⟩ := sentPacket_ok hok
  · rw [heq]
    refine ⟨List.Subset.refl _, List.subset_cons_self _ _, fun hne => ?_⟩
    rw [← streamRefs_strip, hnil] at hne
    exact absurd rfl hne
  · rw [heq]
    unfold TrackedPackets.packets TrackedPackets.push
    dsimp only
    refine ⟨fun p hp => ?_, fun p hp => ?_, fun _ => ?_⟩
    · rcases List.mem_append.mp hp with hp | hp <;> simp [hp]
    · simp only [List.mem_append, List.mem_singleton] at hp
      rcases hp with (hp | rfl) | hp
      · exact List.mem_cons_of_mem _ (List.mem_append_left _ hp)
      · exact List.mem_cons_self
      · exact List.mem_cons_of_mem _ (List.mem_append_right _ hp)
    · simp [Packet.kept]

/-- A packet that is dequeued is the only one that the handler gives up. -/
theorem SentPacketHandler.packets_dequeue {h h' : SentPacketHandler} {packet : Packet}
    (heq : h.dequeuePacketForRetransmission = (some packet, h')) :
    packet ∈ h.packets ∧ h'.packets ⊆ h.packets ∧
      ∀ p ∈ h.packets, p ∈ h'.packets ∨ p = packet := by
  unfold dequeuePacketForRetransmission at heq
  unfold TrackedPackets.packets
  split at heq
  · cases heq
  · next rest hqueue =>
    obtain ⟨hpacket, rfl⟩ := Prod.mk.inj heq
    obtain rfl := Option.some.inj hpacket
    simp only [hqueue]
    refine ⟨by simp, List.append_subset.mpr ⟨List.subset_append_left _ _, ?_⟩, fun p hp => ?_⟩
    · exact List.subset_append_of_subset_right _ (List.subset_cons_self _ _)
    · rcases List.mem_append.mp hp with hp | hp
      · exact .inl (List.mem_append_left _ hp)
      · rcases List.mem_cons.mp hp with rfl | hp
        · exact .inr rfl
        · exact .inl (List.mem_append_right _ hp)

namespace PathHandlers

/-- A step that discards only the packets in `gone`, and forgets duplicates. -/
structure Discards (s t : PathHandlers) (gone : PathID → ℕ → Prop) : Prop where
  subset : ∀ q, (t.handler q).packets ⊆ (s.handler q).packets
  kept : ∀ q, ∀ p ∈ (s.handler q).packets, p ∈ (t.handler q).packets ∨ gone q p.packetNumber
  duplicates : ∀ k e, t.dupPackets k = some e → s.dupPackets k = some e

variable {s t u : PathHandlers} {pathID : PathID} {gone gone' : PathID → ℕ → Prop}

theorem Discards.trans (h : Discards s t gone) (h' : Discards t u gone) : Discards s u gone where
  subset := fun q => List.Subset.trans (h'.subset q) (h.subset q)
  kept := fun q p hp => (h.kept q p hp).elim (h'.kept q p) .inr
  duplicates := fun k e hk => h.duplicates k e (h'.duplicates k e hk)

theorem Discards.mono (h : Discards s t gone) (hgone : ∀ q n, gone q n → gone' q n) :
    Discards s t gone' :=
  ⟨h.subset, fun q p hp => (h.kept q p hp).imp id (hgone q _), h.duplicates⟩

/-- A change to one handler. -/
theorem Discards.modify (s : PathHandlers) (pathID : PathID)
    (f : SentPacketHandler → SentPacketHandler)
    (hsub : (f (s.handler pathID)).packets ⊆ (s.handler pathID).packets)
    (hkept : ∀ p ∈ (s.handler pathID).packets,
      p ∈ (f (s.handler pathID)).packets ∨ gone pathID p.packetNumber) :
    Discards s (s.modify pathID f) gone where
  subset := forall_modify (P := fun q h => h.packets ⊆ (s.handler q).packets) hsub
    fun _ _ => List.Subset.refl _
  kept := forall_modify (P := fun q h => ∀ p ∈ (s.handler q).packets,
    p ∈ h.packets ∨ gone q p.packetNumber) hkept fun _ _ _ => .inl
  duplicates := fun _ _ => id

/-- The callback discards the duplicate of the acknowledged packet. -/
theorem crossAckHandling_discards (s : PathHandlers) (pathID : PathID) (n : ℕ) :
    Discards s (s.crossAckHandling pathID n)
      (fun q m => s.dupPackets ⟨pathID, n⟩ = some ⟨q, m⟩) := by
  unfold crossAckHandling
  dsimp only
  split
  · next dupEntry hentry =>
    obtain ⟨hsub, hor⟩ :=
      (s.handler dupEntry.pathID).packets_removePacketByNumber dupEntry.packetNumber
    have hmodify : Discards s (s.modify dupEntry.pathID _)
        (fun q m => s.dupPackets ⟨pathID, n⟩ = some ⟨q, m⟩) :=
      Discards.modify s dupEntry.pathID
        (fun h => (h.removePacketByNumber dupEntry.packetNumber).2) hsub fun p hp =>
          (hor p hp).imp id fun hnum => by rw [hentry, hnum]
    exact ⟨hmodify.subset, hmodify.kept, fun k e hk =>
      eq_some_of_update_none (eq_some_of_update_none hk)⟩
  · exact ⟨fun _ => List.Subset.refl _, fun _ _ => .inl, fun _ _ => eq_some_of_update_none⟩

/-- The packets that an acknowledgement of the packets `acked` of a path discards: these packets,
and their duplicates. -/
def GoneWith (s : PathHandlers) (pathID : PathID) (acked : ℕ → Prop) (q : PathID) (n : ℕ) : Prop :=
  (q = pathID ∧ acked n) ∨ ∃ m, acked m ∧ s.dupPackets ⟨pathID, m⟩ = some ⟨q, n⟩

theorem ackPackets_discards (s : PathHandlers) (pathID : PathID) {ackedPackets : List Packet}
    {acked : ℕ → Prop} (hacked : ∀ p ∈ ackedPackets, acked p.packetNumber) :
    Discards s (s.ackPackets pathID ackedPackets) (s.GoneWith pathID acked) := by
  induction ackedPackets generalizing s with
  | nil => exact ⟨fun _ => List.Subset.refl _, fun _ _ => .inl, fun _ _ => id⟩
  | cons p ackedPackets ih =>
    obtain ⟨hp, hacked⟩ := List.forall_mem_cons.mp hacked
    have hcross := crossAckHandling_discards s pathID p.packetNumber
    have hremove := (((s.crossAckHandling pathID p.packetNumber).handler pathID).packets_remove p)
    have hself : Discards (s.crossAckHandling pathID p.packetNumber)
        ((s.crossAckHandling pathID p.packetNumber).modify pathID (·.onPacketAcked p))
        (s.GoneWith pathID acked) :=
      Discards.modify _ pathID _ hremove.1 fun p' hp' =>
        (hremove.2 p' hp').imp id fun hnum : p'.packetNumber = p.packetNumber =>
          .inl ⟨rfl, hnum ▸ hp⟩
    have hone := (hcross.mono fun q m h => .inr ⟨p.packetNumber, hp, h⟩).trans hself
    -- the duplicates that later callbacks find were there from the start
    refine hone.trans ((ih _ hacked).mono ?_)
    rintro q n (h | ⟨m, hm, h⟩)
    · exact .inl h
    · exact .inr ⟨m, hm, hone.duplicates _ _ h⟩

/-- A frame discards the packets of its path that it acknowledges, and their duplicates. -/
theorem Inv.ackOutcome_discards (hinv : s.Inv) {f : AckedPackets}
    (h : AckOutcome s pathID f t) :
    Discards s t (s.GoneWith pathID fun n => f.acksPacket n = true) := by
  have hreplace : ∀ h : SentPacketHandler,
      h.toTrackedPackets = (s.handler pathID).toTrackedPackets →
      Discards s (s.modify pathID fun _ => h)
        (s.GoneWith pathID fun n => f.acksPacket n = true) := by
    intro h heq
    refine Discards.modify s pathID _ ?_ fun p hp => .inl ?_ <;> rw [heq]
    · exact List.Subset.refl _
    · exact hp
  cases h with
  | ignored h heq hforgets => exact hreplace h heq
  | acked h heq hforgets ackedPackets hsub hacks lose hlose =>
    have hinFlight := ((hinv.replace_ackPackets heq hforgets hsub).handler pathID).inFlight
    have hqueues := (hlose (((s.modify pathID fun _ => h).ackPackets pathID
      ackedPackets).handler pathID)).1
    refine ((hreplace h heq).trans (ackPackets_discards _ pathID hacks)).trans
      (Discards.modify _ pathID lose ?_ ?_)
    · exact fun p hp => (hinFlight.mem_packets_queues hqueues).mp hp
    · exact fun p hp => .inl ((hinFlight.mem_packets_queues hqueues).mpr hp)

end PathHandlers

end MPQuic
