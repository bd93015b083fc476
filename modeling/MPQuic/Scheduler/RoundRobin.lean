import MPQuic.Lib.LeastLoaded
import MPQuic.Scheduler.SelectPath

/-!
# Balance of the round-robin scheduler

`selectPathRoundRobin` selects a path with the smallest quota, and `performPacketSending` increments
the quota of the path once the packet is sent. As long as the same paths are eligible, this is a
dispatcher that serves the least loaded (`MPQuic.Lib.LeastLoaded`): which of several paths with the
smallest quota is selected depends on the order of the map, but not how far the quotas can drift
apart.

The quota of a selected path is below the largest `uint`, with which the loop starts, so that the
increment does not wrap around.
-/

namespace MPQuic

open Transition

namespace Scheduler

/-- Send the next packet of a path and update its quota. -/
def performPacketSending (sch : Scheduler) (c : SendCall) :
    Except SendError (Option PackedPacket × Scheduler) := do
  let r ← sch.sender.performPacketSending c
  match r.1 with
  | none => .ok (none, { sch with sender := r.2 })
  | some packet =>
    let pathID := c.input.pathID
    .ok (some packet, { sch with
      sender := r.2
      quotas := Function.update sch.quotas pathID (uint64Add (sch.quotas pathID) 1) })

/-- A packet is sent on the path `pathID`, after which the session goes on to `sch'`.

The order of the map is any permutation. The paths that are considered are the `eligible` ones.
Before the packet is packed, control frames may be queued, and between two packets everything may
change except the quotas and the set of paths. -/
def Sends (eligible : PathID → Bool) (sch : Scheduler) (pathID : PathID) (sch' : Scheduler) :
    Prop :=
  ∃ (hasRetransmission : Bool) (order : List Path) (pth : Path) (sender : Sender) (c : SendCall)
    (packet : PackedPacket) (after : Scheduler),
    order.Perm sch.paths ∧
    (∀ p ∈ sch.paths, sch.considers hasRetransmission p = eligible p.pathID) ∧
    sch.selectPathRoundRobin hasRetransmission order = some pth ∧ pth.pathID = pathID ∧
    c.input.pathID = pathID ∧
    { sch with sender }.performPacketSending c = .ok (some packet, after) ∧
    sch'.quotas = after.quotas ∧
    (sch'.paths.map Path.pathID).Perm (sch.paths.map Path.pathID)

/-- The eligible paths of a session. -/
def eligiblePaths (eligible : PathID → Bool) (sch : Scheduler) : Finset PathID :=
  ((sch.paths.map Path.pathID).filter eligible).toFinset

variable {sch sch' : Scheduler} {eligible : PathID → Bool} {pathID : PathID}

theorem mem_eligiblePaths : pathID ∈ sch.eligiblePaths eligible ↔
    (∃ p ∈ sch.paths, p.pathID = pathID) ∧ eligible pathID = true := by
  rw [eligiblePaths, List.mem_toFinset, List.mem_filter, List.mem_map]

/-! ## Selection -/

/-- What the loop has found after the paths `seen`: a smallest quota below `bound`. -/
structure LowestQuota.Holds (sch : Scheduler) (hasRetransmission : Bool) (bound : ℕ)
    (seen : List Path) (acc : LowestQuota) : Prop where
  lower_le : ∀ p ∈ seen, sch.considers hasRetransmission p = true →
    acc.lowerQuota ≤ sch.quotas p.pathID
  selected : ∀ p ∈ acc.selectedPath, p ∈ seen ∧ sch.considers hasRetransmission p = true ∧
    acc.lowerQuota = sch.quotas p.pathID ∧ sch.quotas p.pathID < bound
  lower_le_bound : acc.lowerQuota ≤ bound

/-- One round of the loop. -/
theorem LowestQuota.Holds.step {hasRetransmission : Bool} {bound : ℕ} {seen : List Path}
    {acc : LowestQuota} (h : acc.Holds sch hasRetransmission bound seen) (pth : Path) :
    (sch.lowestQuota hasRetransmission acc pth).Holds sch hasRetransmission bound
      (seen ++ [pth]) := by
  obtain ⟨hlower, hselected, hbound⟩ := h
  have hkeep : ∀ p ∈ acc.selectedPath, p ∈ seen ++ [pth] ∧
      sch.considers hasRetransmission p = true ∧ acc.lowerQuota = sch.quotas p.pathID ∧
      sch.quotas p.pathID < bound := fun p hp =>
    ⟨List.mem_append_left _ (hselected p hp).1, (hselected p hp).2⟩
  unfold lowestQuota
  split_ifs with hcons hlt
  · refine ⟨fun p hp hpcons => ?_, hkeep, hbound⟩
    rcases List.mem_append.mp hp with hp | hp
    · exact hlower p hp hpcons
    · rw [List.mem_singleton.mp hp] at hpcons
      simp [hpcons] at hcons
  · refine ⟨fun p hp hpcons => ?_, fun p hp => ?_, (hlt.trans_le hbound).le⟩
    · rcases List.mem_append.mp hp with hp | hp
      · exact hlt.le.trans (hlower p hp hpcons)
      · rw [List.mem_singleton.mp hp]
    · obtain rfl := Option.some.inj hp
      exact ⟨by simp, by simpa using hcons, rfl, hlt.trans_le hbound⟩
  · refine ⟨fun p hp hpcons => ?_, hkeep, hbound⟩
    rcases List.mem_append.mp hp with hp | hp
    · exact hlower p hp hpcons
    · rw [List.mem_singleton.mp hp]
      exact not_lt.mp hlt

/-- The loop over the paths. -/
theorem LowestQuota.Holds.foldl {hasRetransmission : Bool} {bound : ℕ} {seen : List Path}
    {acc : LowestQuota} (h : acc.Holds sch hasRetransmission bound seen) (order : List Path) :
    (order.foldl (sch.lowestQuota hasRetransmission) acc).Holds sch hasRetransmission bound
      (seen ++ order) := by
  induction order generalizing seen acc with
  | nil => rwa [List.append_nil]
  | cons pth order ih =>
    rw [← List.singleton_append, ← List.append_assoc]
    exact ih (h.step pth)

/-- The selected path is considered, has the smallest quota of all paths that are, and its quota can
be incremented. -/
theorem selectPathRoundRobin_eq_some (hmany : 1 < sch.paths.length) {hasRetransmission : Bool}
    {order : List Path} (horder : order.Perm sch.paths) {pth : Path}
    (h : sch.selectPathRoundRobin hasRetransmission order = some pth) :
    pth ∈ sch.paths ∧ sch.considers hasRetransmission pth = true ∧
      sch.quotas pth.pathID + 1 < uint64Size ∧
      ∀ p ∈ sch.paths, sch.considers hasRetransmission p = true →
        sch.quotas pth.pathID ≤ sch.quotas p.pathID := by
  rw [selectPathRoundRobin, if_neg (not_le.mpr hmany)] at h
  have hstart : (⟨none, uint64Size - 1⟩ : LowestQuota).Holds sch hasRetransmission
      (uint64Size - 1) [] := ⟨by simp, by simp, le_rfl⟩
  have hfold := hstart.foldl order
  rw [List.nil_append] at hfold
  obtain ⟨hmem, hcons, hquota, hlt⟩ := hfold.selected pth h
  refine ⟨horder.mem_iff.mp hmem, hcons, by omega, fun p hp hpcons => ?_⟩
  rw [← hquota]
  exact hfold.lower_le p (horder.mem_iff.mpr hp) hpcons

/-! ## Sending -/

/-- A packet counts for the quota of its path. -/
theorem quotas_performPacketSending {c : SendCall} {packet : PackedPacket} {after : Scheduler}
    (h : sch.performPacketSending c = .ok (some packet, after)) :
    after.quotas = Function.update sch.quotas c.input.pathID
      (uint64Add (sch.quotas c.input.pathID) 1) := by
  unfold performPacketSending at h
  obtain ⟨r, -, hr⟩ := Bytes.bind_eq_ok h
  split at hr
  · cases hr
  · cases hr
    rfl

/-- What a session keeps while it sends packets: its paths, among which are the initial one and an
eligible one. -/
structure HasPaths (ids : List PathID) (eligible : PathID → Bool) (sch : Scheduler) : Prop where
  perm : (sch.paths.map Path.pathID).Perm ids
  initial : initialPathID ∈ ids
  exists_eligible : ∃ pathID ∈ ids, eligible pathID = true

namespace HasPaths

variable {ids : List PathID} (h : sch.HasPaths ids eligible)

include h

theorem eligiblePaths_eq : sch.eligiblePaths eligible = (ids.filter eligible).toFinset :=
  List.toFinset_eq_of_perm _ _ (h.perm.filter eligible)

/-- The initial path is never eligible, so that there is another one. -/
theorem one_lt_length {hasRetransmission : Bool}
    (hcons : ∀ p ∈ sch.paths, sch.considers hasRetransmission p = eligible p.pathID) :
    1 < sch.paths.length := by
  obtain ⟨pathID, hid, heligible⟩ := h.exists_eligible
  have hmem : pathID ∈ sch.paths.map Path.pathID := h.perm.mem_iff.mpr hid
  have hinitial : initialPathID ∈ sch.paths.map Path.pathID := h.perm.mem_iff.mpr h.initial
  have hne : pathID ≠ initialPathID := by
    obtain ⟨p, hp, rfl⟩ := List.mem_map.mp hmem
    exact (considers_iff.mp ((hcons p hp).trans heligible)).2.2
  rw [← List.length_map Path.pathID]
  -- a list with at most one element does not have both
  match hlist : sch.paths.map Path.pathID with
  | [] =>
    rw [hlist] at hmem
    exact absurd hmem List.not_mem_nil
  | [a] =>
    rw [hlist, List.mem_singleton] at hmem hinitial
    exact absurd (hmem.trans hinitial.symm) hne
  | _ :: _ :: _ => exact Nat.one_lt_succ_succ _

/-- Sending a packet serves one of the eligible paths that have sent the fewest packets. -/
theorem serves (hsends : Sends eligible sch pathID sch') :
    sch'.HasPaths ids eligible ∧
      LeastLoaded.Serves (ids.filter eligible).toFinset sch.quotas pathID sch'.quotas := by
  obtain ⟨has, order, pth, sender, c, packet, after, horder, hcons, hselect, rfl, hpath, hsent,
    hquotas, hids⟩ := hsends
  obtain ⟨hmem, hpcons, hroom, hleast⟩ :=
    selectPathRoundRobin_eq_some (h.one_lt_length hcons) horder hselect
  have hquotas' : sch'.quotas = Function.update sch.quotas pth.pathID
      (sch.quotas pth.pathID + 1) := by
    rw [hquotas, quotas_performPacketSending hsent, hpath, uint64Add_eq hroom]
  refine ⟨⟨hids.trans h.perm, h.initial, h.exists_eligible⟩, ?_⟩
  rw [← h.eligiblePaths_eq]
  refine ⟨?_, fun j hj => ?_, ?_, fun j hj hne => ?_⟩
  · exact mem_eligiblePaths.mpr ⟨⟨pth, hmem, rfl⟩, hcons pth hmem ▸ hpcons⟩
  · obtain ⟨⟨p, hp, rfl⟩, hpe⟩ := mem_eligiblePaths.mp hj
    exact hleast p hp ((hcons p hp).trans hpe)
  · rw [hquotas', Function.update_self]
  · rw [hquotas', Function.update_of_ne hne]

end HasPaths

/-! ## Runs -/

/-- Let the same paths be eligible throughout, at least one, next to the initial path. Whatever the
quotas are at the start and in whatever order the map is visited each time, the difference of two
quotas never grows beyond 1 or the largest one at the start. If all quotas are equal at the start,
then each of the `k` paths has carried `m / k` of `m` packets, rounded down or up. -/
theorem roundRobin_balanced (eligible : PathID → Bool) {l : List PathID}
    (hinitial : initialPathID ∈ sch.paths.map Path.pathID)
    (hne : (sch.eligiblePaths eligible).Nonempty) (hrun : Run (Sends eligible) sch l sch') :
    let S := sch.eligiblePaths eligible
    (∀ d, (∀ p ∈ S, ∀ q ∈ S, sch.quotas p ≤ sch.quotas q + d) →
      ∀ p ∈ S, ∀ q ∈ S, sch'.quotas p ≤ sch'.quotas q + max 1 d) ∧
    ((∀ p ∈ S, ∀ q ∈ S, sch.quotas p = sch.quotas q) →
      ∀ p ∈ S, l.count p = l.length / S.card ∨ l.count p = (l.length + (S.card - 1)) / S.card) := by
  have hpaths : sch.HasPaths (sch.paths.map Path.pathID) eligible := by
    obtain ⟨pathID, hmem⟩ := hne
    obtain ⟨⟨p, hp, rfl⟩, heligible⟩ := mem_eligiblePaths.mp hmem
    exact ⟨.refl _, hinitial, p.pathID, List.mem_map_of_mem hp, heligible⟩
  -- the quotas are the counts of a dispatcher that serves the least loaded
  have hserves : Run (LeastLoaded.Serves (sch.eligiblePaths eligible)) sch.quotas l sch'.quotas :=
    (hrun.simulates hpaths fun _ _ _ h => h.serves).2
  refine ⟨fun d hd => LeastLoaded.within_of_run hd hserves, fun hequal p hp => ?_⟩
  refine LeastLoaded.balanced (fun p hp q hq => ?_) hserves hp
  exact (hequal p hp q hq).le

/-- The paths 1 and 3 next to the initial path, with the given quotas. -/
def idlePaths (quotas : PathID → ℕ) : Scheduler :=
  { threePaths true false with sender := .new, quotas }

/-- Three bytes of a stream are sent on a path. -/
def exampleCall (pathID : PathID) : SendCall :=
  { Sender.exampleSend with input := { Sender.exampleSend.input with pathID } }

theorem exists_performPacketSending {c : SendCall}
    (h : (sch.sender.performPacketSending c).toOption.any (·.1.isSome) = true) :
    ∃ packet after, sch.performPacketSending c = .ok (some packet, after) := by
  unfold performPacketSending
  cases hsent : sch.sender.performPacketSending c with
  | error e =>
    rw [hsent] at h
    cases h
  | ok r =>
    obtain ⟨packet, sender⟩ := r
    cases packet with
    | none =>
      rw [hsent] at h
      cases h
    | some packet => exact ⟨packet, _, rfl⟩

theorem sends_idlePaths (quotas : PathID → ℕ) (pth : Path)
    (hselect : (idlePaths quotas).selectPathRoundRobin false (idlePaths quotas).paths = some pth)
    (hsent : (Sender.new.performPacketSending (exampleCall pth.pathID)).toOption.any
      (·.1.isSome) = true) :
    Sends (· ≠ initialPathID) (idlePaths quotas) pth.pathID (idlePaths
      (Function.update quotas pth.pathID (uint64Add (quotas pth.pathID) 1))) := by
  have hcons : ∀ p ∈ (idlePaths fun _ => 0).paths,
      (idlePaths fun _ => 0).considers false p = decide (p.pathID ≠ initialPathID) := by decide
  obtain ⟨packet, after, hafter⟩ : ∃ packet after,
      (idlePaths quotas).performPacketSending (exampleCall pth.pathID) =
        .ok (some packet, after) := exists_performPacketSending hsent
  exact ⟨false, _, pth, .new, exampleCall pth.pathID, packet, after, .refl _, hcons, hselect, rfl,
    rfl, hafter, (quotas_performPacketSending hafter).symm, .refl _⟩

/-- Three packets on two paths. -/
theorem roundRobin_balanced_two :
    ∃ sch', Run (Sends (· ≠ initialPathID)) (idlePaths fun _ => 0) [1, 3, 1] sch' ∧
      ∀ p ∈ (idlePaths fun _ => 0).eligiblePaths (· ≠ initialPathID),
        ([1, 3, 1] : List PathID).count p = 1 ∨ ([1, 3, 1] : List PathID).count p = 2 := by
  let path1 := unprobedPath 1 true false
  let path3 := unprobedPath 3 true false
  have hrun : Run (Sends (· ≠ initialPathID)) (idlePaths fun _ => 0) [1, 3, 1] _ :=
    ((Run.nil.snoc (sends_idlePaths _ path1 (by decide) (by decide +kernel))).snoc
      (sends_idlePaths _ path3 (by decide) (by decide +kernel))).snoc
        (sends_idlePaths _ path1 (by decide) (by decide +kernel))
  exact ⟨_, hrun, (roundRobin_balanced _ (by decide) (by decide) hrun).2 fun _ _ _ _ => rfl⟩

end Scheduler

end MPQuic
