import Mathlib.Algebra.Order.BigOperators.Group.List
import MPQuic.Scheduler.NoLoss

/-!
# Selecting a path

`getRetransmission`, `selectPath` and `selectRedundantPaths` of `scheduler.go`. With more than one
path, packets should only be sent on paths that are open, that are not marked as potentially failed
and that are not the initial path.

The order in which Go iterates over the path map is not determined: each loop over the map has an
order of its own, a permutation of the paths, as an argument.

Two branches let other paths through. Whether a path is open is part of `SendingAllowed`, which is
not asked when there is a retransmission, and the shortcut of `selectPathLowLatency` for packets
that were lost on an unprobed path looks at the quotas only. `selectPath_usable_iff` says exactly
when no such path is selected.
-/

namespace MPQuic

/-- The algorithm for packet scheduling. An unknown algorithm is treated as `lowRTT`. -/
inductive SchedulerAlgorithm where
  | lowRTT
  | roundRobin
  | oppRedundant
  deriving DecidableEq

/-- What the scheduler reads of a path. -/
structure Path where
  pathID : PathID
  isOpen : Bool
  potentiallyFailed : Bool
  smoothedRTT : ℕ
  congestionWindow : ℕ
  deriving DecidableEq

/-- A path that packets may be sent on when there are several paths. -/
structure Path.Usable (p : Path) : Prop where
  isOpen : p.isOpen = true
  alive : p.potentiallyFailed = false
  notInitial : p.pathID ≠ initialPathID

/-- A session with its paths. -/
structure Scheduler where
  sender : Sender
  paths : List Path
  /-- The number of packets sent on each path. -/
  quotas : PathID → ℕ
  handshakeComplete : Bool
  /-- The paths are the values of a map. -/
  nodup : (paths.map Path.pathID).Nodup

/-- The result of `getRetransmission`. -/
structure Retransmission where
  hasRetransmission : Bool
  /-- A packet of the handshake, which is sent as it is. -/
  retransmitPacket : Option Packet
  /-- The path that the last packet was dequeued from. -/
  pth : Option Path

/-- No packet was dequeued. -/
def Retransmission.none : Retransmission := ⟨false, .none, .none⟩

namespace Scheduler

/-- The packet that is dequeued for a path. -/
def retransmitPacket (s : Sender) (p : Path) : Option Packet :=
  (s.handlers.handler p.pathID).dequeuePacketForRetransmission.1

/-- Queue the frames of the lost packets of all paths again, up to a packet of an unfinished
handshake. There is an order for each round of the loop; `none` means that more rounds are needed.
-/
def getRetransmission (sch : Scheduler) (needed : WindowUpdateFrame → Bool) :
    List (List Path) → Retransmission → Sender → Option (Retransmission × Sender)
  | [], _, _ => none
  | order :: orders, r, s =>
    match order.find? fun p => (retransmitPacket s p).isSome with
    | none => some ({ r with retransmitPacket := none }, s)
    | some pth =>
      let dequeued := (s.handlers.handler pth.pathID).dequeuePacketForRetransmission
      let r : Retransmission := ⟨true, dequeued.1, some pth⟩
      if dequeued.1.any (·.encryptionLevel ≠ .forwardSecure) && !sch.handshakeComplete then
        some (r, { s with handlers := s.handlers.modify pth.pathID fun _ => dequeued.2 })
      else sch.getRetransmission needed orders r (s.getRetransmission needed pth.pathID)

/-- Whether STREAM frames wait for their retransmission. -/
def hasStreamRetransmission (s : Sender) : Bool :=
  !s.packer.streamFramer.retransmissionQueue.isEmpty

/-- Whether a path is open and its handler lets packets through. -/
def sendingAllowed (sch : Scheduler) (p : Path) : Bool :=
  p.isOpen && (sch.sender.handlers.handler p.pathID).sendingAllowed p.congestionWindow

/-- The checks at the start of every loop over the paths. -/
def considers (sch : Scheduler) (hasRetransmission : Bool) (p : Path) : Bool :=
  -- don't block path usage if we retransmit, even on another path
  (hasRetransmission || sch.sendingAllowed p) && !p.potentiallyFailed &&
    decide (p.pathID ≠ initialPathID)

/-- The initial path, which is used if there is no other one. -/
def onlyPath (sch : Scheduler) (hasRetransmission : Bool) : Option Path :=
  (sch.paths.find? (·.pathID = initialPathID)).filter fun p =>
    hasRetransmission || sch.sendingAllowed p

/-- The path with the smallest quota among those seen so far. -/
structure LowestQuota where
  selectedPath : Option Path
  lowerQuota : ℕ

/-- A round of the loop of `selectPathRoundRobin`. -/
def lowestQuota (sch : Scheduler) (hasRetransmission : Bool) (acc : LowestQuota) (pth : Path) :
    LowestQuota :=
  if !sch.considers hasRetransmission pth then acc
  else if sch.quotas pth.pathID < acc.lowerQuota then ⟨some pth, sch.quotas pth.pathID⟩
  else acc

/-- The round-robin scheduler. -/
def selectPathRoundRobin (sch : Scheduler) (hasRetransmission : Bool) (order : List Path) :
    Option Path :=
  if sch.paths.length ≤ 1 then sch.onlyPath hasRetransmission
  else (order.foldl (sch.lowestQuota hasRetransmission) ⟨none, uint64Size - 1⟩).selectedPath

/-- The path with the lowest round trip time among those seen so far. -/
structure LowestRTT where
  selectedPath : Option Path
  lowerRTT : ℕ
  selectedPathID : PathID

/-- A round of the loop of `selectPathLowLatency`. -/
def lowestRTT (sch : Scheduler) (hasRetransmission : Bool) (acc : LowestRTT) (pth : Path) :
    LowestRTT :=
  if !sch.considers hasRetransmission pth then acc
  -- don't consider this sample if the smoothed RTT is 0
  else if acc.lowerRTT ≠ 0 ∧ pth.smoothedRTT = 0 then acc
  -- case if we have multiple paths unprobed
  else if pth.smoothedRTT = 0 ∧ acc.selectedPath.isSome ∧
      sch.quotas acc.selectedPathID < sch.quotas pth.pathID then acc
  else if pth.smoothedRTT ≠ 0 ∧ acc.lowerRTT ≠ 0 ∧ acc.selectedPath.isSome ∧
      acc.lowerRTT ≤ pth.smoothedRTT then acc
  else ⟨some pth, pth.smoothedRTT, pth.pathID⟩

/-- Another path with a lower number of packets sent, for packets lost on an unprobed path. There is
a path they were lost on whenever there is a retransmission. -/
def lessUsedPath (sch : Scheduler) (hasRetransmission hasStreamRetransmission : Bool)
    (fromPth : Option Path) (order : List Path) : Option Path :=
  match fromPth with
  | none => none
  | some fromPth =>
    if hasRetransmission && hasStreamRetransmission && fromPth.smoothedRTT == 0 then
      order.find? fun pth => pth.pathID ≠ initialPathID ∧ pth.pathID ≠ fromPth.pathID ∧
        sch.quotas pth.pathID < sch.quotas fromPth.pathID
    else none

/-- The scheduler that prefers paths with a low round trip time. It has two loops over the paths. -/
def selectPathLowLatency (sch : Scheduler) (hasRetransmission hasStreamRetransmission : Bool)
    (fromPth : Option Path) (order order' : List Path) : Option Path :=
  if sch.paths.length ≤ 1 then sch.onlyPath hasRetransmission
  else
    match sch.lessUsedPath hasRetransmission hasStreamRetransmission fromPth order with
    | some pth => some pth
    | none => (order'.foldl (sch.lowestRTT hasRetransmission) ⟨none, 0, 255⟩).selectedPath

/-- The first path that allows sending. -/
def selectFreePath (sch : Scheduler) (hasRetransmission : Bool) (order : List Path) :
    Option Path :=
  if sch.paths.length ≤ 1 then sch.onlyPath hasRetransmission
  else order.find? (sch.considers hasRetransmission)

/-- All paths that allow sending. -/
def selectRedundantPaths (sch : Scheduler) (hasRetransmission : Bool) (order : List Path) :
    List Path :=
  if sch.paths.length ≤ 1 then (sch.onlyPath hasRetransmission).toList
  else order.filter (sch.considers hasRetransmission)

/-- The path that the next packet is sent on. -/
def selectPath (sch : Scheduler) (algorithm : SchedulerAlgorithm)
    (hasRetransmission hasStreamRetransmission : Bool) (fromPth : Option Path)
    (order order' : List Path) : Option Path :=
  match algorithm with
  | .lowRTT =>
    sch.selectPathLowLatency hasRetransmission hasStreamRetransmission fromPth order order'
  | .roundRobin => sch.selectPathRoundRobin hasRetransmission order
  | .oppRedundant => sch.selectFreePath hasRetransmission order

/-! ## Retransmissions -/

variable {sch : Scheduler} {needed : WindowUpdateFrame → Bool}

variable {s : Sender}

/-- There is a retransmission if and only if there is a path it comes from. -/
theorem hasRetransmission_getRetransmission {orders : List (List Path)} {r r' : Retransmission}
    {s' : Sender} (hr : r.hasRetransmission = r.pth.isSome)
    (hret : sch.getRetransmission needed orders r s = some (r', s')) :
    r'.hasRetransmission = r'.pth.isSome := by
  induction orders generalizing r s with
  | nil => cases hret
  | cons order orders ih =>
    unfold getRetransmission at hret
    split at hret
    · -- no path has a packet: the result of the last round stays
      obtain ⟨rfl, -⟩ := Prod.mk.inj (Option.some.inj hret)
      exact hr
    · dsimp only at hret
      split at hret
      · obtain ⟨rfl, -⟩ := Prod.mk.inj (Option.some.inj hret)
        rfl
      · exact ih rfl hret

/-- The number of packets that wait for their retransmission. -/
def queued (sch : Scheduler) (s : Sender) : ℕ :=
  (sch.paths.map fun p => (s.handlers.handler p.pathID).retransmissionQueue.length).sum

theorem retransmissionQueue_modify (handlers : PathHandlers) (q : PathID)
    (f : SentPacketHandler → SentPacketHandler) (q' : PathID) :
    ((handlers.modify q f).handler q').retransmissionQueue =
      if q' = q then (f (handlers.handler q)).retransmissionQueue
      else (handlers.handler q').retransmissionQueue :=
  PathHandlers.forall_modify (P := fun q' h => h.retransmissionQueue = if q' = q then
      (f (handlers.handler q)).retransmissionQueue else (handlers.handler q').retransmissionQueue)
    (if_pos rfl).symm (fun _ hq => (if_neg hq).symm) q'

/-- A change to a handler that keeps its queue keeps all queues. -/
theorem retransmissionQueue_modify_of_eq {handlers : PathHandlers} {q : PathID}
    {f : SentPacketHandler → SentPacketHandler}
    (hf : (f (handlers.handler q)).retransmissionQueue =
      (handlers.handler q).retransmissionQueue) (q' : PathID) :
    ((handlers.modify q f).handler q').retransmissionQueue =
      (handlers.handler q').retransmissionQueue :=
  PathHandlers.forall_modify (P := fun q' h => h.retransmissionQueue =
    (handlers.handler q').retransmissionQueue) hf (fun _ _ => rfl) q'

/-- A round of `getRetransmission` takes one packet out of a queue. -/
theorem retransmissionQueue_getRetransmission (needed : WindowUpdateFrame → Bool)
    {packet : Packet} {rest : List Packet} {q : PathID}
    (hqueue : (s.handlers.handler q).retransmissionQueue = packet :: rest) (q' : PathID) :
    ((s.getRetransmission needed q).handlers.handler q').retransmissionQueue =
      if q' = q then rest else (s.handlers.handler q').retransmissionQueue := by
  have hhandlers : (s.getRetransmission needed q).handlers =
      s.handlers.modify q fun h => { h with retransmissionQueue := rest } := by
    unfold Sender.getRetransmission
    rw [SentPacketHandler.dequeuePacketForRetransmission_cons hqueue]
    dsimp only
    split
    · rfl
    · -- queueing the frames again changes the packer, not the handlers
      obtain ⟨p, heq, -⟩ := Sender.foldl_requeueFrame needed q
        { s with handlers := s.handlers.modify q fun _ =>
          { s.handlers.handler q with retransmissionQueue := rest } }
        packet.getFramesForRetransmission
      rw [heq]
      rfl
  rw [hhandlers, retransmissionQueue_modify]

variable {p : Path}

/-- There is a packet to dequeue if the queue is not empty. -/
theorem isSome_retransmitPacket_iff :
    (retransmitPacket s p).isSome = true ↔
      ∃ packet rest, (s.handlers.handler p.pathID).retransmissionQueue = packet :: rest := by
  unfold retransmitPacket SentPacketHandler.dequeuePacketForRetransmission
  cases (s.handlers.handler p.pathID).retransmissionQueue <;> simp

/-- Taking a packet out of a queue leaves one packet less. -/
theorem queued_getRetransmission_lt (needed : WindowUpdateFrame → Bool) {pth : Path}
    (hmem : pth ∈ sch.paths) (hsome : (retransmitPacket s pth).isSome) :
    sch.queued (s.getRetransmission needed pth.pathID) < sch.queued s := by
  obtain ⟨packet, rest, hqueue⟩ := isSome_retransmitPacket_iff.mp hsome
  -- the queue of `pth` gets shorter, and the others stay
  refine List.sum_lt_sum _ _ (fun p _ => ?_) ⟨pth, hmem, ?_⟩ <;>
    rw [retransmissionQueue_getRetransmission needed hqueue]
  · split_ifs with hp
    · rw [hp, hqueue]
      exact Nat.le_succ _
    · exact le_rfl
  · rw [if_pos rfl, hqueue]
    exact Nat.lt_succ_self _

/-- The loop of `getRetransmission` ends: there are at most as many rounds as packets, and the one
that finds no packet. -/
theorem getRetransmission_isSome {orders : List (List Path)} (r : Retransmission)
    (horders : ∀ order ∈ orders, order.Perm sch.paths) (hlength : sch.queued s < orders.length) :
    (sch.getRetransmission needed orders r s).isSome := by
  induction orders generalizing r s with
  | nil => cases hlength
  | cons order orders ih =>
    rw [List.forall_mem_cons] at horders
    unfold getRetransmission
    split
    · rfl
    · next pth hfind =>
      dsimp only
      split
      · rfl
      · have hmem := horders.1.mem_iff.mp (List.mem_of_find?_eq_some hfind)
        have hsome : (retransmitPacket s pth).isSome = true := by simpa using List.find?_some hfind
        have hlt := queued_getRetransmission_lt needed hmem hsome
        exact ih _ horders.2 (by rw [List.length_cons] at hlength; omega)

/-! ## Selected paths -/

variable {hasRetransmission : Bool}

theorem considers_iff :
    sch.considers hasRetransmission p = true ↔
      (hasRetransmission = true ∨ sch.sendingAllowed p = true) ∧ p.potentiallyFailed = false ∧
        p.pathID ≠ initialPathID := by
  simp [considers, and_assoc]

/-- A loop that selects a path only after the checks ends with a path that passed them. -/
theorem considers_of_foldl {σ : Type} {selected : σ → Option Path} {f : σ → Path → σ}
    {hasRetransmission : Bool}
    (hf : ∀ acc p, selected (f acc p) = selected acc ∨
      sch.considers hasRetransmission p = true ∧ selected (f acc p) = some p)
    (order : List Path) (acc : σ) {p : Path} (hp : p ∈ selected (order.foldl f acc)) :
    p ∈ selected acc ∨ p ∈ order ∧ sch.considers hasRetransmission p = true := by
  induction order generalizing acc with
  | nil => exact .inl hp
  | cons q order ih =>
    obtain hacc | ⟨hmem, hcons⟩ := ih (f acc q) hp
    · obtain hsame | ⟨hcons, hq⟩ := hf acc q
      · exact .inl (hsame ▸ hacc)
      · obtain rfl := Option.some.inj (hq.symm.trans hacc)
        exact .inr ⟨List.mem_cons_self, hcons⟩
    · exact .inr ⟨List.mem_cons_of_mem _ hmem, hcons⟩

theorem selectedPath_lowestQuota (hasRetransmission : Bool) (acc : LowestQuota) (p : Path) :
    (sch.lowestQuota hasRetransmission acc p).selectedPath = acc.selectedPath ∨
      sch.considers hasRetransmission p = true ∧
        (sch.lowestQuota hasRetransmission acc p).selectedPath = some p := by
  unfold lowestQuota
  split_ifs with hcons hquota
  · exact .inl rfl
  · exact .inr ⟨by simpa using hcons, rfl⟩
  · exact .inl rfl

theorem selectedPath_lowestRTT (hasRetransmission : Bool) (acc : LowestRTT) (p : Path) :
    (sch.lowestRTT hasRetransmission acc p).selectedPath = acc.selectedPath ∨
      sch.considers hasRetransmission p = true ∧
        (sch.lowestRTT hasRetransmission acc p).selectedPath = some p := by
  unfold lowestRTT
  split_ifs with hcons
  · exact .inl rfl
  · exact .inl rfl
  · exact .inl rfl
  · exact .inl rfl
  · exact .inr ⟨by simpa using hcons, rfl⟩

variable {order : List Path}

/-- With several paths, a path is selected by the shortcut or it passed the checks. -/
theorem mem_selectPath (hmany : 1 < sch.paths.length) {algorithm : SchedulerAlgorithm}
    {stream : Bool} {fromPth : Option Path} {order' : List Path} (horder : order.Perm sch.paths)
    (horder' : order'.Perm sch.paths)
    (hp : p ∈ sch.selectPath algorithm hasRetransmission stream fromPth order order') :
    p ∈ sch.lessUsedPath hasRetransmission stream fromPth order ∨
      p ∈ sch.paths ∧ sch.considers hasRetransmission p = true := by
  have hne : ¬ sch.paths.length ≤ 1 := not_le.mpr hmany
  cases algorithm with
  | lowRTT =>
    rw [selectPath, selectPathLowLatency, if_neg hne] at hp
    split at hp
    · next hless => exact .inl (hless ▸ hp)
    · obtain hnone | ⟨hmem, hcons⟩ :=
        considers_of_foldl (sch.selectedPath_lowestRTT hasRetransmission) _ _ hp
      · cases hnone
      · exact .inr ⟨horder'.mem_iff.mp hmem, hcons⟩
  | roundRobin =>
    rw [selectPath, selectPathRoundRobin, if_neg hne] at hp
    obtain hnone | ⟨hmem, hcons⟩ :=
      considers_of_foldl (sch.selectedPath_lowestQuota hasRetransmission) _ _ hp
    · cases hnone
    · exact .inr ⟨horder.mem_iff.mp hmem, hcons⟩
  | oppRedundant =>
    rw [selectPath, selectFreePath, if_neg hne] at hp
    exact .inr ⟨horder.mem_iff.mp (List.mem_of_find?_eq_some hp), List.find?_some hp⟩

theorem mem_selectRedundantPaths (hmany : 1 < sch.paths.length) (horder : order.Perm sch.paths) :
    p ∈ sch.selectRedundantPaths hasRetransmission order ↔
      p ∈ sch.paths ∧ sch.considers hasRetransmission p = true := by
  rw [selectRedundantPaths, if_neg (not_le.mpr hmany), List.mem_filter, horder.mem_iff]

/-- The paths that the shortcut can select. -/
theorem mem_lessUsedPath {stream : Bool} {fromPth : Option Path}
    (hp : p ∈ sch.lessUsedPath hasRetransmission stream fromPth order) :
    hasRetransmission = true ∧ stream = true ∧ ∃ pth ∈ fromPth, pth.smoothedRTT = 0 ∧
      p ∈ order ∧ p.pathID ≠ initialPathID ∧ p.pathID ≠ pth.pathID ∧
        sch.quotas p.pathID < sch.quotas pth.pathID := by
  unfold lessUsedPath at hp
  split at hp
  · cases hp
  · next pth =>
    split_ifs at hp with hcond
    · simp only [Bool.and_eq_true, beq_iff_eq] at hcond
      obtain ⟨⟨hhas, hstream⟩, hrtt⟩ := hcond
      have hsel := List.find?_some hp
      rw [decide_eq_true_iff] at hsel
      exact ⟨hhas, hstream, pth, rfl, hrtt, List.mem_of_find?_eq_some hp, hsel⟩
    · cases hp

/-- For STREAM frames that were lost on an unprobed path, the first path of the order is selected if
fewer packets were sent on it. -/
theorem mem_selectPath_of_lessUsed (hmany : 1 < sch.paths.length) {pth : Path}
    (hrtt : pth.smoothedRTT = 0) (hid : p.pathID ≠ initialPathID) (hne : p.pathID ≠ pth.pathID)
    (hlt : sch.quotas p.pathID < sch.quotas pth.pathID) (order order' : List Path) :
    p ∈ sch.selectPath .lowRTT true true (some pth) (p :: order) order' := by
  have hless : sch.lessUsedPath true true (some pth) (p :: order) = some p := by
    simp [lessUsedPath, hrtt, hid, hne, hlt]
  rw [selectPath, selectPathLowLatency, if_neg (not_le.mpr hmany), hless]
  rfl

/-- After `getRetransmission`, with several paths: for every algorithm and every order of the map,
only usable paths are selected, if and only if

* with a retransmission, every path that is neither the initial one nor failed is open, and
* with STREAM frames that were lost on an unprobed path, every other path with fewer packets sent is
  open and not failed. -/
theorem selectPath_usable_iff (hmany : 1 < sch.paths.length) {orders : List (List Path)}
    {r : Retransmission} {s : Sender}
    (hret : sch.getRetransmission needed orders .none sch.sender = some (r, s)) :
    (∀ algorithm order order', order.Perm sch.paths → order'.Perm sch.paths →
      (∀ p ∈ { sch with sender := s }.selectPath algorithm r.hasRetransmission
        (hasStreamRetransmission s) r.pth order order', p ∈ sch.paths ∧ p.Usable) ∧
      ∀ p ∈ { sch with sender := s }.selectRedundantPaths r.hasRetransmission order,
        p ∈ sch.paths ∧ p.Usable) ↔
    (r.hasRetransmission = true → ∀ p ∈ sch.paths, p.pathID ≠ initialPathID →
      p.potentiallyFailed = false → p.isOpen = true) ∧
    ∀ pth ∈ r.pth, hasStreamRetransmission s = true → pth.smoothedRTT = 0 →
      ∀ p ∈ sch.paths, p.pathID ≠ initialPathID → p.pathID ≠ pth.pathID →
        sch.quotas p.pathID < sch.quotas pth.pathID →
          p.isOpen = true ∧ p.potentiallyFailed = false := by
  have hhas := hasRetransmission_getRetransmission (r := .none) rfl hret
  generalize hsch' : { sch with sender := s } = sch'
  have hpaths : sch'.paths = sch.paths := hsch' ▸ rfl
  have hquotas : sch'.quotas = sch.quotas := hsch' ▸ rfl
  rw [← hpaths] at hmany
  constructor
  · intro hall
    refine ⟨fun hret p hp hid halive => ?_, fun pth hpth hstream hrtt p hp hid hne hlt => ?_⟩
    · -- the redundant scheduler takes every path that is not failed
      have hmem : p ∈ sch'.selectRedundantPaths r.hasRetransmission sch.paths :=
        (mem_selectRedundantPaths hmany (hpaths ▸ .refl _)).mpr
          ⟨hpaths ▸ hp, considers_iff.mpr ⟨.inl hret, halive, hid⟩⟩
      exact ((hall .lowRTT _ _ (.refl _) (.refl _)).2 p hmem).2.isOpen
    · -- the shortcut takes the first path of the order
      have hperm : (p :: sch.paths.erase p).Perm sch.paths := (List.perm_cons_erase hp).symm
      have hsel : p ∈ sch'.selectPath .lowRTT r.hasRetransmission (hasStreamRetransmission s)
          r.pth (p :: sch.paths.erase p) sch.paths := by
        rw [Option.mem_def] at hpth
        rw [hhas, hpth, Option.isSome_some, hstream]
        exact mem_selectPath_of_lessUsed hmany hrtt hid hne (hquotas ▸ hlt) _ _
      have huse := ((hall .lowRTT _ _ hperm (.refl _)).1 p hsel).2
      exact ⟨huse.isOpen, huse.alive⟩
  · rintro ⟨hopen, hless⟩ algorithm order order' horder horder'
    rw [← hpaths] at horder horder'
    -- a path that the algorithms consider is usable
    have husable : ∀ p, p ∈ sch'.paths ∧ sch'.considers r.hasRetransmission p = true →
        p ∈ sch.paths ∧ p.Usable := by
      rintro p ⟨hp, hcons⟩
      obtain ⟨hallowed, halive, hid⟩ := considers_iff.mp hcons
      rw [hpaths] at hp
      refine ⟨hp, ?_, halive, hid⟩
      obtain hret | hsend := hallowed
      · exact hopen hret p hp hid halive
      · exact (Bool.and_eq_true_iff.mp hsend).1
    refine ⟨fun p hp => ?_, fun p hp => husable p ((mem_selectRedundantPaths hmany horder).mp hp)⟩
    obtain hshort | hcons := mem_selectPath hmany horder horder' hp
    · obtain ⟨-, hstream, pth, hpth, hrtt, hmem, hid, hne, hlt⟩ := mem_lessUsedPath hshort
      have hp' : p ∈ sch.paths := hpaths ▸ horder.mem_iff.mp hmem
      rw [hquotas] at hlt
      obtain ⟨hisOpen, halive⟩ := hless pth hpth hstream hrtt p hp' hid hne hlt
      exact ⟨hp', hisOpen, halive, hid⟩
    · exact husable p hcons

/-- A path without a sample of the round trip time. -/
def unprobedPath (pathID : PathID) (isOpen potentiallyFailed : Bool) : Path :=
  { pathID, isOpen, potentiallyFailed, smoothedRTT := 0, congestionWindow := 32 * 1460 }

/-- The first packet of path 1 was duplicated: it waits in the queue of its own path. -/
def duplicated : Sender :=
  let packet : Packet :=
    { packetNumber := 1, frames := [.stream 0], length := 40, encryptionLevel := .forwardSecure,
      sendTime := 0 }
  let env := noSamples 5
  { Sender.new with
    handlers := [PathHandlers.Call.sentPacket 1 packet env, .duplicatePacket 1 packet].foldl
      PathHandlers.apply .new }

/-- Three paths, of which path 1 may be closed and path 3 may have failed since. -/
def threePaths (isOpen potentiallyFailed : Bool) : Scheduler where
  sender := duplicated
  paths := [unprobedPath 0 true false, unprobedPath 1 isOpen false,
    unprobedPath 3 true potentiallyFailed]
  quotas := fun pathID => if pathID = 1 then 1 else 0
  handshakeComplete := true
  nodup := by
    simp only [List.map_cons, List.map_nil, unprobedPath]
    decide

/-- Path 1 was closed and path 3 has failed, and the packet of path 1 is retransmitted: the
round-robin scheduler and the redundant one select the closed path, and the low-latency scheduler
the failed one. -/
theorem selectPath_dead :
    let sch := threePaths false true
    (sch.getRetransmission (fun _ => true) [sch.paths, sch.paths] .none sch.sender).map (fun x =>
      let sch' := { sch with sender := x.2 }
      let select (algorithm : SchedulerAlgorithm) := sch'.selectPath algorithm
        x.1.hasRetransmission (hasStreamRetransmission x.2) x.1.pth sch.paths sch.paths
      (select .roundRobin, select .lowRTT,
        sch'.selectRedundantPaths x.1.hasRetransmission sch.paths)) =
    some (some (unprobedPath 1 false false), some (unprobedPath 3 true true),
      [unprobedPath 1 false false]) := by
  decide

/-- The same packet when both paths are usable. -/
theorem selectPath_usable_iff_example :
    let sch := threePaths true false
    ∃ r s, sch.getRetransmission (fun _ => true) [sch.paths, sch.paths] .none sch.sender =
        some (r, s) ∧ r.hasRetransmission = true ∧
      ∀ algorithm order order', order.Perm sch.paths → order'.Perm sch.paths →
        (∀ p ∈ { sch with sender := s }.selectPath algorithm r.hasRetransmission
          (hasStreamRetransmission s) r.pth order order', p ∈ sch.paths ∧ p.Usable) ∧
        ∀ p ∈ { sch with sender := s }.selectRedundantPaths r.hasRetransmission order,
          p ∈ sch.paths ∧ p.Usable := by
  obtain ⟨r, s, hret, hhas, hpth⟩ : ∃ r s, (threePaths true false).getRetransmission
      (fun _ => true) [(threePaths true false).paths, (threePaths true false).paths] .none
      (threePaths true false).sender = some (r, s) ∧ r.hasRetransmission = true ∧
      r.pth = some (unprobedPath 1 true false) := ⟨_, _, rfl, rfl, rfl⟩
  refine ⟨r, s, hret, hhas, (selectPath_usable_iff (by decide) hret).mpr ⟨fun _ => ?_, ?_⟩⟩
  · decide
  · intro pth hmem _ _
    obtain rfl := Option.some.inj (hpth.symm.trans hmem)
    decide

end Scheduler

end MPQuic
