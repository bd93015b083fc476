import MPQuic.Packer.HandshakeRetransmission
import MPQuic.Scheduler.SelectPath

/-!
# Queueing lost data again

`sendPacket` of `scheduler.go` calls `getRetransmission` until it returns no packet. A
forward-secure packet is taken apart: its STREAM frames go to the queue of the stream framer. As
long as the handshake is not complete, a packet of a lower level is returned and retransmitted
whole. When the handshake is complete, it is dropped.

A packet of a lower level may contain data: a client sends STREAM frames as soon as it has secure
keys. If such a packet is lost and the handshake completes before it is retransmitted, its data is
never sent again. `requeued_iff` says when all data is kept.

A call with a complete handshake returns no packet, so that it is the last one. The state before the
last call is part of the result.
-/

namespace MPQuic

open PacketPacker

/-- A round of the loop of `sendPacket`: a call of `getRetransmission`, and what a packet that it
returns is retransmitted with. -/
structure DrainCall where
  handshakeComplete : Bool
  /-- Whether a WINDOW_UPDATE frame is still needed. -/
  needed : WindowUpdateFrame → Bool
  /-- The orders of the path map. -/
  orders : List (List Path)
  input : PackInput
  env : Env

namespace Sender

/-- Retransmit a packet of the handshake with a STOP_WAITING frame. There is no result if this fails
and the session is closed. -/
def retransmitHandshake (s : Sender) (i : PackInput) (env : Env) (packet : Packet) :
    Option (PackedPacket × Sender) :=
  let swf := (s.handlers.handler i.pathID).stopWaitingManager.getStopWaitingFrame true
  let frame : Option StopWaitingFrame :=
    swf.1.map fun leastUnacked => { leastUnacked, packetNumberLen := .invalid, packetNumber := 0 }
  let s := { s with
    handlers := s.handlers.modify i.pathID fun h => { h with stopWaitingManager := swf.2 }
    packer := { s.packer with
      stopWaiting := Function.update s.packer.stopWaiting i.pathID frame } }
  match s.packer.packHandshakeRetransmission (s.generator i.pathID) i packet with
  | .error _ => none
  | .ok r =>
    match s.sendPacked i.pathID env r with
    | .ok (some retransmission, s) => some (retransmission, s)
    | _ => none

end Sender

namespace Scheduler

/-- What is left when the queues are drained. -/
structure Drained where
  /-- The packets that were retransmitted whole. -/
  sent : List PackedPacket
  /-- The last call, and the state before it. -/
  last : DrainCall
  before : Sender
  sender : Sender

/-- Call `getRetransmission` until it returns no packet. There is no result if there are too few
calls or a retransmission fails. -/
def drain (sch : Scheduler) : List DrainCall → Sender → Option Drained
  | [], _ => none
  | call :: calls, s =>
    match { sch with handshakeComplete := call.handshakeComplete }.getRetransmission call.needed
      call.orders .none s with
    | none => none
    | some (r, s') =>
      match r.retransmitPacket with
      | none => some { sent := [], last := call, before := s, sender := s' }
      | some packet =>
        match s'.retransmitHandshake call.input call.env packet with
        | none => none
        | some (retransmission, s'') =>
          (sch.drain calls s'').map fun d => { d with sent := retransmission :: d.sent }

/-- A packet is in a retransmission queue. -/
def InQueue (paths : List Path) (s : Sender) (packet : Packet) : Prop :=
  ∃ pth ∈ paths, packet ∈ (s.handlers.handler pth.pathID).retransmissionQueue

/-- The STREAM frames of a packet that belong to data streams. The crypto stream has the id 1. -/
def dataRefs (heap : FrameHeap) (packet : Packet) : List FrameRef :=
  (streamRefs packet.frames).filter fun ref => (heap.get ref).streamID ≠ 1

/-- The frame waits in the stream framer, or it was retransmitted. -/
def Covered (sent : List PackedPacket) (s : Sender) (ref : FrameRef) : Prop :=
  ref ∈ s.packer.streamFramer.retransmissionQueue ∨ ∃ p ∈ sent, ref ∈ streamRefs p.frames

/-- All data of the packets that were in the queues of `s` is queued again. -/
def Requeued (paths : List Path) (s : Sender) (d : Drained) : Prop :=
  ∀ packet, InQueue paths s packet → ∀ ref ∈ dataRefs s.packer.heap packet,
    Covered d.sent d.sender ref

/-- When the last call finds the handshake complete, the packets that it drops contain no data, or
only frames that are also in a forward-secure packet, in the stream framer or in a retransmitted
packet. -/
def KeepsData (paths : List Path) (d : Drained) : Prop :=
  d.last.handshakeComplete = true → ∀ packet, InQueue paths d.before packet →
    packet.encryptionLevel ≠ .forwardSecure → ∀ ref ∈ dataRefs d.before.packer.heap packet,
      Covered d.sent d.before ref ∨ ∃ packet', InQueue paths d.before packet' ∧
        packet'.encryptionLevel = .forwardSecure ∧ ref ∈ streamRefs packet'.frames

/-! ## One round -/

variable {sch : Scheduler} {paths : List Path} {s s' : Sender} {packet : Packet}

/-- Packets in queues before and after the first packet of a queue was taken out. -/
theorem inQueue_iff_of_dequeue {pth : Path} {rest : List Packet} (hpth : pth ∈ paths)
    (hqueue : (s.handlers.handler pth.pathID).retransmissionQueue = packet :: rest)
    (hafter : ∀ q, (s'.handlers.handler q).retransmissionQueue =
      if q = pth.pathID then rest else (s.handlers.handler q).retransmissionQueue) (x : Packet) :
    InQueue paths s x ↔ x = packet ∨ InQueue paths s' x := by
  constructor
  · rintro ⟨p, hp, hx⟩
    by_cases heq : p.pathID = pth.pathID
    · rw [heq, hqueue] at hx
      refine (List.mem_cons.mp hx).imp_right fun hrest => ⟨pth, hpth, ?_⟩
      rw [hafter, if_pos rfl]
      exact hrest
    · refine .inr ⟨p, hp, ?_⟩
      rw [hafter, if_neg heq]
      exact hx
  · rintro (rfl | ⟨p, hp, hx⟩)
    · exact ⟨pth, hpth, hqueue ▸ List.mem_cons_self⟩
    · refine ⟨p, hp, ?_⟩
      rw [hafter] at hx
      split_ifs at hx with heq
      · rw [heq, hqueue]
        exact List.mem_cons_of_mem _ hx
      · exact hx

/-- A round takes a packet apart if it is forward-secure, and drops it otherwise. -/
theorem getRetransmission_packer (needed : WindowUpdateFrame → Bool) {q : PathID}
    {rest : List Packet}
    (hqueue : (s.handlers.handler q).retransmissionQueue = packet :: rest) :
    (s.getRetransmission needed q).packer.heap = s.packer.heap ∧
      (s.getRetransmission needed q).packer.streamFramer.retransmissionQueue =
        s.packer.streamFramer.retransmissionQueue ++
          if packet.encryptionLevel = .forwardSecure then streamRefs packet.frames else [] := by
  unfold Sender.getRetransmission
  rw [SentPacketHandler.dequeuePacketForRetransmission_cons hqueue]
  dsimp only
  by_cases hlevel : packet.encryptionLevel = .forwardSecure
  · rw [if_neg (not_not.mpr hlevel), if_pos hlevel]
    obtain ⟨p, heq, hheap, hframer⟩ := Sender.foldl_requeueFrame needed q
      { s with handlers := s.handlers.modify q fun _ =>
        { s.handlers.handler q with retransmissionQueue := rest } }
      packet.getFramesForRetransmission
    rw [heq]
    refine ⟨hheap, ?_⟩
    rw [hframer, Packet.getFramesForRetransmission, streamRefs_filter fun _ => rfl]
  · rw [if_pos hlevel, if_neg hlevel, List.append_nil]
    exact ⟨rfl, rfl⟩

/-- What a round of a call does: the queues are empty, a packet of an unfinished handshake is
returned, or a packet is taken apart or dropped before the next round. -/
theorem getRetransmission_cons {needed : WindowUpdateFrame → Bool} {order : List Path}
    {orders : List (List Path)} {r r' : Retransmission}
    (h : sch.getRetransmission needed (order :: orders) r s = some (r', s'))
    (horder : order.Perm sch.paths) :
    (s' = s ∧ r'.retransmitPacket = none ∧ ∀ x, ¬ InQueue sch.paths s x) ∨
      ∃ pth ∈ sch.paths, ∃ packet rest,
        (s.handlers.handler pth.pathID).retransmissionQueue = packet :: rest ∧
        ((sch.handshakeComplete = false ∧ r'.retransmitPacket = some packet ∧
            s'.packer = s.packer ∧ ∀ q, (s'.handlers.handler q).retransmissionQueue =
              if q = pth.pathID then rest else (s.handlers.handler q).retransmissionQueue) ∨
          ((packet.encryptionLevel ≠ .forwardSecure → sch.handshakeComplete = true) ∧
            ∃ r₁, sch.getRetransmission needed orders r₁ (s.getRetransmission needed pth.pathID) =
              some (r', s'))) := by
  unfold getRetransmission at h
  split at h
  · next hfind =>
    obtain ⟨rfl, rfl⟩ := Prod.mk.inj (Option.some.inj h)
    refine .inl ⟨rfl, rfl, fun x ⟨p, hp, hx⟩ => ?_⟩
    obtain ⟨y, rest, hqueue⟩ := List.exists_cons_of_ne_nil (List.ne_nil_of_mem hx)
    exact List.find?_eq_none.mp hfind p (horder.mem_iff.mpr hp)
      (isSome_retransmitPacket_iff.mpr ⟨y, rest, hqueue⟩)
  · -- the first path of the map with a packet in its queue
    next pth hfind =>
    have hpth := horder.mem_iff.mp (List.mem_of_find?_eq_some hfind)
    have hsome : (retransmitPacket s pth).isSome = true := by simpa using List.find?_some hfind
    obtain ⟨packet, rest, hqueue⟩ := isSome_retransmitPacket_iff.mp hsome
    refine .inr ⟨pth, hpth, packet, rest, hqueue, ?_⟩
    rw [SentPacketHandler.dequeuePacketForRetransmission_cons hqueue] at h
    dsimp only at h
    split_ifs at h with hreturn
    · -- a packet of the handshake is returned
      obtain ⟨rfl, rfl⟩ := Prod.mk.inj (Option.some.inj h)
      rw [Bool.and_eq_true, Bool.not_eq_true'] at hreturn
      refine .inl ⟨hreturn.2, rfl, rfl, fun q => ?_⟩
      dsimp only
      rw [retransmissionQueue_modify]
    · -- the loop goes on; a packet below forward-secure gets here when the handshake is complete
      refine .inr ⟨fun hlevel => ?_, _, h⟩
      by_contra hcomplete
      exact hreturn (by simp [hlevel, hcomplete])

/-! ## One call -/

/-- What a call of `getRetransmission` does: it takes packets out of the queues until it returns
one, or none is left. -/
structure Takes (paths : List Path) (complete : Bool) (s s' : Sender) (returned : Option Packet) :
    Prop where
  heap_eq : s'.packer.heap = s.packer.heap
  /-- No packet is added to a queue. -/
  of_inQueue : ∀ x, InQueue paths s' x → InQueue paths s x
  /-- A packet that is not in a queue any more was returned, taken apart or dropped. -/
  taken : ∀ x, InQueue paths s x → InQueue paths s' x ∨ returned = some x ∨
    (x.encryptionLevel = .forwardSecure ∧
      ∀ ref ∈ streamRefs x.frames, ref ∈ s'.packer.streamFramer.retransmissionQueue) ∨
    (x.encryptionLevel ≠ .forwardSecure ∧ complete = true)
  framer_subset : s.packer.streamFramer.retransmissionQueue ⊆
    s'.packer.streamFramer.retransmissionQueue
  /-- Only frames of forward-secure packets are added to the stream framer. -/
  of_framer : ∀ ref ∈ s'.packer.streamFramer.retransmissionQueue,
    ref ∈ s.packer.streamFramer.retransmissionQueue ∨ ∃ x, InQueue paths s x ∧
      x.encryptionLevel = .forwardSecure ∧ ref ∈ streamRefs x.frames
  returned_some : ∀ x, returned = some x → complete = false
  returned_none : returned = none → ∀ x, ¬ InQueue paths s' x

variable {complete : Bool}

/-- A round before the rest of the call. -/
theorem Takes.cons {complete : Bool} {s₁ : Sender} {returned : Option Packet}
    (hqueue : ∀ x, InQueue paths s x ↔ x = packet ∨ InQueue paths s₁ x)
    (hheap : s₁.packer.heap = s.packer.heap)
    (hframer : s₁.packer.streamFramer.retransmissionQueue =
      s.packer.streamFramer.retransmissionQueue ++
        if packet.encryptionLevel = .forwardSecure then streamRefs packet.frames else [])
    (hdropped : packet.encryptionLevel ≠ .forwardSecure → complete = true)
    (htakes : Takes paths complete s₁ s' returned) : Takes paths complete s s' returned where
  heap_eq := htakes.heap_eq.trans hheap
  of_inQueue := fun x hx => (hqueue x).mpr (.inr (htakes.of_inQueue x hx))
  taken := by
    intro x hx
    rcases (hqueue x).mp hx with rfl | hx
    · by_cases hlevel : x.encryptionLevel = .forwardSecure
      · refine .inr (.inr (.inl ⟨hlevel, fun ref href => htakes.framer_subset ?_⟩))
        rw [hframer, if_pos hlevel]
        exact List.mem_append_right _ href
      · exact .inr (.inr (.inr ⟨hlevel, hdropped hlevel⟩))
    · exact htakes.taken x hx
  framer_subset := by
    refine List.Subset.trans ?_ htakes.framer_subset
    rw [hframer]
    exact List.subset_append_left _ _
  of_framer := by
    intro ref href
    rcases htakes.of_framer ref href with hmem | ⟨x, hx, hlevel, hmem⟩
    · rw [hframer, List.mem_append] at hmem
      refine hmem.imp_right fun hmem => ?_
      split_ifs at hmem with hlevel
      · exact ⟨packet, (hqueue packet).mpr (.inl rfl), hlevel, hmem⟩
      · cases hmem
    · exact .inr ⟨x, (hqueue x).mpr (.inr hx), hlevel, hmem⟩
  returned_some := htakes.returned_some
  returned_none := htakes.returned_none

/-- A call ends when no packet is left. -/
theorem Takes.nil (hnone : ∀ x, ¬ InQueue paths s x) :
    Takes paths complete s s none where
  heap_eq := rfl
  of_inQueue := fun _ => id
  taken := fun x hx => absurd hx (hnone x)
  framer_subset := List.Subset.refl _
  of_framer := fun _ => .inl
  returned_some := nofun
  returned_none := fun _ => hnone

/-- A call ends with a packet of an unfinished handshake. -/
theorem Takes.returned (hqueue : ∀ x, InQueue paths s x ↔ x = packet ∨ InQueue paths s' x)
    (hpacker : s'.packer = s.packer) : Takes paths false s s' (some packet) where
  heap_eq := congrArg PacketPacker.heap hpacker
  of_inQueue := fun x hx => (hqueue x).mpr (.inr hx)
  taken := fun x hx =>
    ((hqueue x).mp hx).elim (fun heq => .inr (.inl (congrArg some heq.symm))) .inl
  framer_subset := by rw [hpacker]; exact List.Subset.refl _
  of_framer := by rw [hpacker]; exact fun _ => .inl
  returned_some := fun _ _ => rfl
  returned_none := nofun

theorem getRetransmission_takes {needed : WindowUpdateFrame → Bool} {orders : List (List Path)}
    {r r' : Retransmission} (h : sch.getRetransmission needed orders r s = some (r', s'))
    (horders : ∀ order ∈ orders, order.Perm sch.paths) :
    Takes sch.paths sch.handshakeComplete s s' r'.retransmitPacket := by
  induction orders generalizing r s with
  | nil => cases h
  | cons order orders ih =>
    obtain ⟨horder, horders⟩ := List.forall_mem_cons.mp horders
    obtain ⟨rfl, hnone, hempty⟩ | ⟨pth, hpth, packet, rest, hqueue, hround⟩ :=
      getRetransmission_cons h horder
    · rw [hnone]
      exact .nil hempty
    · obtain ⟨hcomplete, hpacket, hpacker, hafter⟩ | ⟨hdropped, r₁, hrest⟩ := hround
      · rw [hcomplete, hpacket]
        exact .returned (inQueue_iff_of_dequeue hpth hqueue hafter) hpacker
      · obtain ⟨hheap, hframer⟩ := getRetransmission_packer needed hqueue
        have hafter := retransmissionQueue_getRetransmission needed hqueue
        exact .cons (inQueue_iff_of_dequeue hpth hqueue hafter) hheap hframer hdropped
          (ih hrest horders)

/-! ## All calls -/

variable {env : Env}

theorem retransmissionQueue_sentPacket {h h' : SentPacketHandler}
    (hsent : h.sentPacket packet env = .ok h') :
    h'.retransmissionQueue = h.retransmissionQueue := by
  obtain ⟨-, -, -, ⟨-, htracked⟩ | ⟨-, htracked⟩⟩ := SentPacketHandler.sentPacket_ok hsent
  · rw [htracked]
  · rw [htracked]
    rfl

/-- Sending a packet leaves the queues. -/
theorem sendPacked_spec {q : PathID} {r : Packed} {packed : Option PackedPacket}
    (h : s.sendPacked q env r = .ok (packed, s')) :
    packed = r.packet ∧ s'.packer = r.packer ∧ ∀ q', (s'.handlers.handler q').retransmissionQueue =
      (s.handlers.handler q').retransmissionQueue := by
  unfold Sender.sendPacked at h
  dsimp only at h
  cases hpacket : r.packet with
  | none =>
    rw [hpacket] at h
    obtain ⟨rfl, rfl⟩ := Prod.mk.inj (Except.ok.inj h)
    exact ⟨rfl, rfl, fun _ => rfl⟩
  | some p =>
    rw [hpacket] at h
    dsimp only at h
    unfold Sender.sendPackedPacket at h
    rcases hsent : ((s.handlers.handler q).sentPacket (Sender.toPacket p) env) with e | h'
    · simp only [Sender.record, hsent] at h
      cases h
    · simp only [Sender.record, hsent] at h
      obtain ⟨rfl, rfl⟩ := Prod.mk.inj (Except.ok.inj h)
      refine ⟨rfl, rfl, fun q' => ?_⟩
      dsimp only
      rw [retransmissionQueue_modify_of_eq (retransmissionQueue_sentPacket hsent)]

/-- A retransmission of the handshake has the STREAM frames of the packet, and it leaves the queues
and the STREAM frames of the session. -/
theorem retransmitHandshake_spec {i : PackInput} {retransmission : PackedPacket}
    (h : s.retransmitHandshake i env packet = some (retransmission, s')) :
    streamRefs retransmission.frames = streamRefs packet.frames ∧
      s'.packer.heap = s.packer.heap ∧ s'.packer.streamFramer = s.packer.streamFramer ∧
      ∀ q, (s'.handlers.handler q).retransmissionQueue =
        (s.handlers.handler q).retransmissionQueue := by
  unfold Sender.retransmitHandshake at h
  dsimp only at h
  split at h
  · cases h
  · next r hpack =>
    split at h
    · next retransmission' s'' hsend =>
      obtain ⟨rfl, rfl⟩ := Prod.mk.inj (Option.some.inj h)
      obtain ⟨swf, p, hp, hframes, -, hheap, hframer⟩ := packHandshakeRetransmission_ok hpack
      obtain ⟨hpacket, hpacker, hqueues⟩ := sendPacked_spec hsend
      obtain rfl := Option.some.inj (hpacket.trans hp)
      refine ⟨by rw [hframes]; rfl, by rw [hpacker, hheap], by rw [hpacker, hframer], fun q => ?_⟩
      rw [hqueues]
      dsimp only
      rw [retransmissionQueue_modify_of_eq]
      -- the handler has another STOP_WAITING manager
      rfl
    · cases h

/-- What the calls before the last one do: a packet that is not in a queue any more is covered. -/
structure Drains (paths : List Path) (s : Sender) (d : Drained) : Prop where
  heap_eq : d.before.packer.heap = s.packer.heap
  of_inQueue : ∀ x, InQueue paths d.before x → InQueue paths s x
  covered : ∀ x, InQueue paths s x → InQueue paths d.before x ∨
    ∀ ref ∈ streamRefs x.frames, Covered d.sent d.before ref
  framer_subset : s.packer.streamFramer.retransmissionQueue ⊆
    d.before.packer.streamFramer.retransmissionQueue
  last : Takes paths d.last.handshakeComplete d.before d.sender none

variable {d : Drained}

/-- A call that returns a packet before the other calls. -/
theorem Takes.drains {s₁ s₂ : Sender} {i : PackInput} {retransmission : PackedPacket}
    (htakes : Takes paths complete s s₁ (some packet)) (hcomplete : complete = false)
    (hretransmit : s₁.retransmitHandshake i env packet = some (retransmission, s₂))
    (hd : Drains paths s₂ d) : Drains paths s { d with sent := retransmission :: d.sent } := by
  obtain ⟨hrefs, hheap, hframer, hqueues⟩ := retransmitHandshake_spec hretransmit
  have hinQueue : ∀ x, InQueue paths s₂ x ↔ InQueue paths s₁ x := by
    intro x
    unfold InQueue
    simp only [hqueues]
  have hsubset : s₁.packer.streamFramer.retransmissionQueue ⊆
      d.before.packer.streamFramer.retransmissionQueue := by
    rw [← hframer]
    exact hd.framer_subset
  refine ⟨hd.heap_eq.trans (hheap.trans htakes.heap_eq), fun x hx => ?_, fun x hx => ?_,
    List.Subset.trans htakes.framer_subset hsubset, hd.last⟩
  · exact htakes.of_inQueue x ((hinQueue x).mp (hd.of_inQueue x hx))
  · rcases htakes.taken x hx with hx | hx | ⟨-, hx⟩ | ⟨-, hx⟩
    · refine (hd.covered x ((hinQueue x).mpr hx)).imp_right fun hcovered ref href => ?_
      exact (hcovered ref href).imp_right fun ⟨p, hp, hmem⟩ => ⟨p, List.mem_cons_of_mem _ hp, hmem⟩
    · -- the returned packet was retransmitted
      obtain rfl := Option.some.inj hx
      refine .inr fun ref href => .inr ⟨retransmission, List.mem_cons_self, ?_⟩
      rw [hrefs]
      exact href
    · exact .inr fun ref href => .inl (hsubset (hx ref href))
    · rw [hcomplete] at hx
      cases hx

theorem drain_drains {calls : List DrainCall}
    (horders : ∀ call ∈ calls, ∀ order ∈ call.orders, order.Perm sch.paths)
    (h : sch.drain calls s = some d) : Drains sch.paths s d := by
  induction calls generalizing s d with
  | nil => cases h
  | cons call calls ih =>
    obtain ⟨horder, horders⟩ := List.forall_mem_cons.mp horders
    unfold drain at h
    split at h
    · cases h
    · next r s₁ hcall =>
      have htakes := getRetransmission_takes hcall horder
      split at h
      · next hnone =>
        -- this was the last call
        obtain rfl := Option.some.inj h
        rw [hnone] at htakes
        exact ⟨rfl, fun _ => id, fun _ => .inl, List.Subset.refl _, htakes⟩
      · next packet hpacket =>
        rw [hpacket] at htakes
        split at h
        · cases h
        · next retransmission s₂ hretransmit =>
          obtain ⟨d', hd', rfl⟩ := Option.map_eq_some_iff.mp h
          exact htakes.drains (htakes.returned_some packet rfl) hretransmit (ih horders hd')

/-- The data of packets that are drained is covered, if and only if the last call keeps it. -/
theorem Drains.requeued_iff_keepsData (hdrains : Drains paths s d) :
    Requeued paths s d ↔ KeepsData paths d := by
  have hlast := hdrains.last
  constructor
  · intro hrequeued hcomplete x hx hlevel ref href
    rw [hdrains.heap_eq] at href
    rcases hrequeued x (hdrains.of_inQueue x hx) ref href with hmem | hsent
    · rcases hlast.of_framer ref hmem with hbefore | hother
      · exact .inl (.inl hbefore)
      · exact .inr hother
    · exact .inl (.inr hsent)
  · intro hkeeps x hx ref href
    have hstream : ref ∈ streamRefs x.frames := List.mem_of_mem_filter href
    have hafter : Covered d.sent d.before ref → Covered d.sent d.sender ref :=
      Or.imp_left fun hmem => hlast.framer_subset hmem
    rcases hdrains.covered x hx with hx | hcovered
    · rcases hlast.taken x hx with hx | hx | ⟨-, hframer⟩ | ⟨hlevel, hcomplete⟩
      · exact absurd hx (hlast.returned_none rfl x)
      · cases hx
      · exact .inl (hframer ref hstream)
      · -- the packet was dropped
        rw [← hdrains.heap_eq] at href
        rcases hkeeps hcomplete x hx hlevel ref href with hcovered | ⟨y, hy, hsecure, hmem⟩
        · exact hafter hcovered
        · rcases hlast.taken y hy with hy | hy | ⟨-, hframer⟩ | ⟨hlevel, -⟩
          · exact absurd hy (hlast.returned_none rfl y)
          · cases hy
          · exact .inl (hframer ref hmem)
          · exact absurd hsecure hlevel
    · exact hafter (hcovered ref hstream)

/-- **Lost stream data is queued again**, if and only if no packet with data is dropped since the
handshake is complete, unless the data is somewhere else. -/
theorem requeued_iff (sch : Scheduler) (s : Sender) (calls : List DrainCall) (d : Drained)
    (horders : ∀ call ∈ calls, ∀ order ∈ call.orders, order.Perm sch.paths)
    (h : sch.drain calls s = some d) :
    Requeued sch.paths s d ↔ KeepsData sch.paths d :=
  (drain_drains horders h).requeued_iff_keepsData

/-- A client that sent data of stream 5 at the secure level, before its handshake was complete. The
retransmission timer has expired. -/
def lostClient : Except SendError Sender :=
  (Sender.new.packAndSend Sender.new.packer.packPacket (clientInput 1 [dataStream 5 3])
    (noSamples 5)).map fun x =>
      { x.2 with handlers := x.2.handlers.modify 0 (·.onAlarm (noSamples 5) false) }

/-- A session with the initial path only. -/
def initialPathOnly : Scheduler where
  sender := .new
  paths := [unprobedPath 0 true false]
  quotas := fun _ => 0
  handshakeComplete := false
  nodup := List.nodup_singleton _

/-- A call of this session. -/
def initialCall (handshakeComplete : Bool) : DrainCall where
  handshakeComplete := handshakeComplete
  needed := fun _ => true
  orders := [initialPathOnly.paths, initialPathOnly.paths]
  input := clientInput 2 []
  env := noSamples 5

/-- The client whose packet was lost, and what is left after the calls. -/
def drainLost (calls : List DrainCall) : Option (Sender × Drained) :=
  lostClient.toOption.bind fun s => (initialPathOnly.drain calls s).map (s, ·)

theorem exists_of_drainLost (calls : List DrainCall) {β : Type} {g : Sender × Drained → β} {b : β}
    (h : (drainLost calls).map g = some b) :
    ∃ s d, lostClient = .ok s ∧ initialPathOnly.drain calls s = some d ∧ g (s, d) = b := by
  obtain ⟨⟨s, d⟩, hrun, hg⟩ := Option.map_eq_some_iff.mp h
  obtain ⟨s', hs, hd⟩ := Option.bind_eq_some_iff.mp hrun
  obtain ⟨d', hd', heq⟩ := Option.map_eq_some_iff.mp hd
  obtain ⟨rfl, rfl⟩ := Prod.mk.inj heq
  refine ⟨s', d', ?_, hd', hg⟩
  cases hlost : lostClient with
  | error e =>
    rw [hlost] at hs
    cases hs
  | ok t =>
    rw [hlost] at hs
    exact congrArg Except.ok (Option.some.inj hs)

/-- If the handshake is not complete, the packet is retransmitted whole. -/
theorem requeued_before_completion : ∃ s d, lostClient = .ok s ∧
    initialPathOnly.drain [initialCall false, initialCall false] s = some d ∧
      d.sent.map (·.frames) = [[.stopWaiting ⟨2, .len2, 2⟩, .stream 0]] ∧
      Requeued initialPathOnly.paths s d := by
  obtain ⟨s, d, hlost, hdrain, hvalues⟩ := exists_of_drainLost
    [initialCall false, initialCall false]
    (g := fun x => (x.2.last.handshakeComplete, x.2.sent.map (·.frames)))
    (b := (false, [[.stopWaiting ⟨2, .len2, 2⟩, .stream 0]])) (by decide +kernel)
  obtain ⟨hcomplete, hsent⟩ := Prod.mk.inj hvalues
  refine ⟨s, d, hlost, hdrain, hsent, (requeued_iff _ _ _ _ ?_ hdrain).2 fun hdone => ?_⟩
  · intro call hcall order horder
    have hpaths : order = initialPathOnly.paths := by
      simp only [List.mem_cons, List.not_mem_nil, or_false, or_self] at hcall
      subst hcall
      simpa [initialCall] using horder
    rw [hpaths]
  · rw [hcomplete] at hdone
    cases hdone

/-- If the handshake is complete, the packet is dropped with its data. -/
theorem data_dropped_at_completion : ∃ s d, lostClient = .ok s ∧
    initialPathOnly.drain [initialCall true] s = some d ∧ d.sent = [] ∧
      d.sender.packer.streamFramer.retransmissionQueue = [] ∧
      ¬ Requeued initialPathOnly.paths s d := by
  obtain ⟨s, d, hlost, hdrain, hvalues⟩ := exists_of_drainLost [initialCall true]
    (g := fun x => (x.2.sent.map (·.frames), x.2.sender.packer.streamFramer.retransmissionQueue,
      (x.1.handlers.handler 0).retransmissionQueue.map (dataRefs x.1.packer.heap)))
    (b := ([], [], [[0]])) (by decide +kernel)
  obtain ⟨hsent, hframer, hqueue⟩ := by simpa only [Prod.mk.injEq] using hvalues
  rw [List.map_eq_nil_iff] at hsent
  refine ⟨s, d, hlost, hdrain, hsent, hframer, fun hrequeued => ?_⟩
  obtain ⟨packet, hpacket, hrefs⟩ : ∃ packet ∈ (s.handlers.handler 0).retransmissionQueue,
      dataRefs s.packer.heap packet = [0] := by
    rw [← List.mem_map, hqueue]
    exact List.mem_singleton_self _
  have hinQueue : InQueue initialPathOnly.paths s packet :=
    ⟨unprobedPath 0 true false, List.mem_singleton_self _, hpacket⟩
  rcases hrequeued packet hinQueue 0 (by rw [hrefs]; exact List.mem_singleton_self _) with
    hmem | ⟨p, hp, -⟩
  · rw [hframer] at hmem
    cases hmem
  · rw [hsent] at hp
    cases hp

end Scheduler

end MPQuic
