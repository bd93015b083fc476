import MPQuic.Lib.Scan
import MPQuic.Scheduler.SelectPath

/-!
# The path with the lowest latency

`selectPathLowLatency` goes over the paths once. It compares probed paths by their round trip time
and unprobed ones by their quota, and a probed path replaces an unprobed one. The loop is a scan for
the best path with respect to `NoWorse`, which orders all paths whatever they are compared by, so
that the order in which Go visits the map only decides between equally good paths.
-/

namespace MPQuic

namespace Scheduler

variable {sch : Scheduler} {hasRetransmission : Bool} {p q : Path}

/-- A path that may be selected when there are several paths: sending is allowed or there is a
retransmission, the path is not potentially failed and it is not the initial path. -/
structure Eligible (sch : Scheduler) (hasRetransmission : Bool) (p : Path) : Prop where
  mem : p ∈ sch.paths
  allowed : hasRetransmission = true ∨ sch.sendingAllowed p = true
  alive : p.potentiallyFailed = false
  notInitial : p.pathID ≠ initialPathID

/-- The loop considers the eligible paths. -/
theorem eligible_iff : sch.Eligible hasRetransmission p ↔
    p ∈ sch.paths ∧ sch.considers hasRetransmission p = true := by
  rw [considers_iff]
  exact ⟨fun h => ⟨h.mem, h.allowed, h.alive, h.notInitial⟩,
    fun ⟨hmem, hallowed, halive, hinitial⟩ => ⟨hmem, hallowed, halive, hinitial⟩⟩

/-! ## The comparison -/

/-- The loop replaces the path `q` with the path `p`. -/
def Replaces (sch : Scheduler) (p q : Path) : Prop :=
  if p.smoothedRTT = 0 then q.smoothedRTT = 0 ∧ sch.quotas p.pathID ≤ sch.quotas q.pathID
  else q.smoothedRTT = 0 ∨ p.smoothedRTT < q.smoothedRTT

instance (sch : Scheduler) : DecidableRel sch.Replaces := fun p q => by
  unfold Replaces
  infer_instance

/-- Probed paths come before unprobed ones. The former are ordered by their round trip times, the
latter by their quotas. -/
def NoWorse (sch : Scheduler) (p q : Path) : Prop :=
  if p.smoothedRTT = 0 then q.smoothedRTT = 0 ∧ sch.quotas p.pathID ≤ sch.quotas q.pathID
  else q.smoothedRTT = 0 ∨ p.smoothedRTT ≤ q.smoothedRTT

/-- A path is no worse than itself. -/
theorem noWorse_refl (p : Path) : sch.NoWorse p p := by
  unfold NoWorse
  split_ifs with h
  · exact ⟨h, le_rfl⟩
  · exact .inr le_rfl

theorem noWorse_trans (p q r : Path) (hpq : sch.NoWorse p q) (hqr : sch.NoWorse q r) :
    sch.NoWorse p r := by
  unfold NoWorse at *
  split_ifs at * with hp hq
  · exact ⟨hqr.1, hpq.2.trans hqr.2⟩
  · exact absurd hpq.1 hq
  · exact .inl hqr.1
  · rcases hpq with hpq | hpq
    · contradiction
    · exact hqr.imp_right hpq.trans

/-- The loop takes a path that is no worse. -/
theorem noWorse_of_replaces (p q : Path) (h : sch.Replaces p q) : sch.NoWorse p q := by
  unfold Replaces NoWorse at *
  split_ifs at * with hp
  · exact h
  · exact h.imp_right le_of_lt

/-- The loop keeps a path that is no worse. -/
theorem noWorse_of_not_replaces (p q : Path) (h : ¬ sch.Replaces p q) : sch.NoWorse q p := by
  unfold Replaces at h
  unfold NoWorse
  by_cases hq : q.smoothedRTT = 0
  · rw [if_pos hq]
    split_ifs at h with hp
    · exact ⟨hp, by omega⟩
    · exact absurd (.inl hq) h
  · rw [if_neg hq]
    split_ifs at h with hp
    · exact .inl hp
    · exact .inr (by omega)

/-! ## The loop -/

/-- The state of the loop after the path `p` was selected. -/
def LowestRTT.ofPath (p : Path) : LowestRTT := ⟨some p, p.smoothedRTT, p.pathID⟩

theorem lowestRTT_of_not_considers (h : ¬ sch.considers hasRetransmission p = true)
    (acc : LowestRTT) : sch.lowestRTT hasRetransmission acc p = acc := by
  rw [lowestRTT, if_pos (by simpa using h)]

/-- The first path is selected whatever it is. -/
theorem lowestRTT_none (h : sch.considers hasRetransmission p = true) :
    sch.lowestRTT hasRetransmission ⟨none, 0, 255⟩ p = .ofPath p := by
  simp [lowestRTT, h, LowestRTT.ofPath]

theorem lowestRTT_ofPath (h : sch.considers hasRetransmission p = true) :
    sch.lowestRTT hasRetransmission (.ofPath q) p =
      .ofPath (if sch.Replaces p q then p else q) := by
  by_cases hp : p.smoothedRTT = 0
  · by_cases hq : q.smoothedRTT = 0
    · by_cases hquota : sch.quotas p.pathID ≤ sch.quotas q.pathID
      · simp [lowestRTT, Replaces, h, LowestRTT.ofPath, hp, hq, hquota]
      · simp [lowestRTT, Replaces, h, LowestRTT.ofPath, hp, hq, hquota, not_le.mp hquota]
    · simp [lowestRTT, Replaces, h, LowestRTT.ofPath, hp, hq]
  · by_cases hq : q.smoothedRTT = 0
    · simp [lowestRTT, Replaces, h, LowestRTT.ofPath, hp, hq]
    · by_cases hrtt : p.smoothedRTT < q.smoothedRTT
      · simp [lowestRTT, Replaces, h, LowestRTT.ofPath, hp, hq, hrtt]
      · simp [lowestRTT, Replaces, h, LowestRTT.ofPath, hp, hq, hrtt, not_lt.mp hrtt]

/-- The loop is a scan over the paths that are considered. -/
theorem foldl_lowestRTT_ofPath (q : Path) (order : List Path) :
    order.foldl (sch.lowestRTT hasRetransmission) (.ofPath q) =
      .ofPath (Scan.scan sch.Replaces q (order.filter (sch.considers hasRetransmission))) := by
  induction order generalizing q with
  | nil => rfl
  | cons p order ih =>
    rw [List.foldl_cons]
    by_cases h : sch.considers hasRetransmission p = true
    · rw [lowestRTT_ofPath h, ih, List.filter_cons_of_pos h, Scan.scan_cons]
    · rw [lowestRTT_of_not_considers h, ih, List.filter_cons_of_neg h]

/-- The loop scans the paths that pass the checks. -/
theorem foldl_lowestRTT (order : List Path) :
    (order.foldl (sch.lowestRTT hasRetransmission) ⟨none, 0, 255⟩).selectedPath =
      match order.filter (sch.considers hasRetransmission) with
      | [] => none
      | p :: l => some (Scan.scan sch.Replaces p l) := by
  induction order with
  | nil => rfl
  | cons p order ih =>
    rw [List.foldl_cons]
    by_cases h : sch.considers hasRetransmission p = true
    · rw [lowestRTT_none h, foldl_lowestRTT_ofPath, List.filter_cons_of_pos h]
      rfl
    · rw [lowestRTT_of_not_considers h, ih, List.filter_cons_of_neg h]

/-- What the loop ends with: nothing if no path passes the checks, and else a path that is no worse
than any other. -/
theorem foldl_lowestRTT_spec (hasRetransmission : Bool) {order : List Path}
    (horder : order.Perm sch.paths) :
    let selected := (order.foldl (sch.lowestRTT hasRetransmission) ⟨none, 0, 255⟩).selectedPath
    (selected = none ↔ ∀ p, ¬ sch.Eligible hasRetransmission p) ∧
      ∀ p ∈ selected, sch.Eligible hasRetransmission p ∧
        ∀ q, sch.Eligible hasRetransmission q → sch.NoWorse p q := by
  have hmem : ∀ p, p ∈ order.filter (sch.considers hasRetransmission) ↔
      sch.Eligible hasRetransmission p := by
    intro p
    rw [List.mem_filter, horder.mem_iff, eligible_iff]
  rw [foldl_lowestRTT]
  generalize order.filter (sch.considers hasRetransmission) = l at hmem
  cases l with
  | nil =>
    refine ⟨iff_of_true rfl fun p hp => ?_, fun p hp => ?_⟩
    · exact List.not_mem_nil ((hmem p).mpr hp)
    · cases hp
  | cons p l =>
    have hscan := Scan.scan_mem (R := sch.Replaces) p l
    refine ⟨iff_of_false (by simp) fun hnone => hnone _ ((hmem _).mp hscan), ?_⟩
    intro r hr
    obtain rfl := Option.some.inj hr
    refine ⟨(hmem _).mp hscan, fun q hq => ?_⟩
    exact Scan.scan_best noWorse_refl noWorse_trans noWorse_of_replaces noWorse_of_not_replaces
      ((hmem q).mpr hq)

/-- With several paths, for every order of the map, unless the shortcut for packets lost on an
unprobed path selects one: no path is selected if and only if none is eligible. Otherwise an
eligible path is selected. If some eligible path is probed, it is one with the lowest round trip
time of these, and else it is one with the lowest quota. -/
theorem selectPathLowLatency_optimal (hmany : 1 < sch.paths.length) {stream : Bool}
    {fromPth : Option Path} {order order' : List Path} (horder' : order'.Perm sch.paths)
    (hshortcut : sch.lessUsedPath hasRetransmission stream fromPth order = none) :
    let selected := sch.selectPathLowLatency hasRetransmission stream fromPth order order'
    (selected = none ↔ ∀ p, ¬ sch.Eligible hasRetransmission p) ∧
    ∀ p ∈ selected, sch.Eligible hasRetransmission p ∧
      ((∃ q, sch.Eligible hasRetransmission q ∧ q.smoothedRTT ≠ 0) → p.smoothedRTT ≠ 0 ∧
        ∀ q, sch.Eligible hasRetransmission q → q.smoothedRTT ≠ 0 →
          p.smoothedRTT ≤ q.smoothedRTT) ∧
      ((∀ q, sch.Eligible hasRetransmission q → q.smoothedRTT = 0) →
        ∀ q, sch.Eligible hasRetransmission q → sch.quotas p.pathID ≤ sch.quotas q.pathID) := by
  rw [selectPathLowLatency, if_neg (not_le.mpr hmany), hshortcut]
  obtain ⟨hnone, hsome⟩ := foldl_lowestRTT_spec hasRetransmission horder'
  refine ⟨hnone, fun p hp => ?_⟩
  obtain ⟨heligible, hbest⟩ := hsome p hp
  refine ⟨heligible, ?_, fun hunprobed q hq => ?_⟩
  · rintro ⟨q, hq, hprobed⟩
    have hp : p.smoothedRTT ≠ 0 := by
      intro hzero
      have hpq := hbest q hq
      rw [NoWorse, if_pos hzero] at hpq
      exact hprobed hpq.1
    refine ⟨hp, fun r hr hrprobed => ?_⟩
    have hpr := hbest r hr
    rw [NoWorse, if_neg hp] at hpr
    exact hpr.resolve_left hrprobed
  · have hpq := hbest q hq
    rw [NoWorse, if_pos (hunprobed p heligible)] at hpq
    exact hpq.2

/-- An unprobed path and two probed ones, next to the initial path. -/
def probedPaths : Scheduler where
  sender := .new
  paths := [unprobedPath 0 true false, unprobedPath 1 true false,
    { unprobedPath 3 true false with smoothedRTT := 30 * 10 ^ 6 },
    { unprobedPath 5 true false with smoothedRTT := 20 * 10 ^ 6 }]
  quotas := fun _ => 0
  handshakeComplete := true
  nodup := by
    simp only [List.map_cons, List.map_nil, unprobedPath]
    decide

/-- The path with 20 ms is selected. -/
theorem selectPathLowLatency_optimal_probed :
    let fastest := { unprobedPath 5 true false with smoothedRTT := 20 * 10 ^ 6 }
    probedPaths.selectPathLowLatency false false none probedPaths.paths probedPaths.paths =
        some fastest ∧
      ∀ q, probedPaths.Eligible false q → q.smoothedRTT ≠ 0 → 20 * 10 ^ 6 ≤ q.smoothedRTT := by
  intro fastest
  have hselected : probedPaths.selectPathLowLatency false false none probedPaths.paths
      probedPaths.paths = some fastest := by decide
  have hoptimal := (selectPathLowLatency_optimal (by decide) (.refl _)
    (rfl : probedPaths.lessUsedPath false false none probedPaths.paths = none)).2 fastest hselected
  obtain ⟨heligible, hprobed, -⟩ := hoptimal
  exact ⟨hselected, (hprobed ⟨fastest, heligible, by decide⟩).2⟩

end Scheduler

end MPQuic
