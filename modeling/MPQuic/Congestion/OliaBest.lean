import Mathlib.Tactic.NormNum
import Mathlib.Tactic.Positivity
import MPQuic.Congestion.OliaEpsilon
import MPQuic.Lib.Scan

/-!
# The best paths of OLIA

`getEpsilon` scans the senders for the path with the most bytes between losses for the square of its
RTT. It compares two paths by multiplying the bytes of each with the squared RTT of the other, in
nanoseconds and on 64 bits. A product that wraps around makes the comparison arbitrary: it is still
total, but no longer transitive, and the path that the scan ends with can depend on the order in
which Go visits the map.

If no product wraps around, the comparisons are right (`asGood_iff_of_fits`), and the best paths
gain window in every order (`getEpsilon_favours_best`).
-/

namespace MPQuic

namespace OliaSenders

variable {m : OliaSenders} {rtt : PathID → ℕ} {order : List PathID}
  {p q t : PathID × OliaSender}

/-! ## The scan -/

/-- What the scan keeps of a path. -/
def measure (rtt : PathID → ℕ) (p : PathID × OliaSender) : BestPath :=
  ⟨squaredRTT ⟨rtt, []⟩ p.1, p.2.olia.smoothedBytesBetweenLosses⟩

/-- The comparison of the code: the path `p` replaces the path `t` as the best one. -/
def asGood (rtt : PathID → ℕ) (p t : PathID × OliaSender) : Prop :=
  isBest ⟨rtt, []⟩ (measure rtt t) p = true

instance (rtt : PathID → ℕ) : DecidableRel (asGood rtt) :=
  fun _ _ => inferInstanceAs (Decidable (_ = true))

theorem asGood_iff {rtt : PathID → ℕ} : asGood rtt p t ↔
    int64Wrap (int64Wrap t.2.olia.smoothedBytesBetweenLosses * squaredRTT ⟨rtt, []⟩ p.1) ≤
      int64Wrap (int64Wrap p.2.olia.smoothedBytesBetweenLosses * squaredRTT ⟨rtt, []⟩ t.1) := by
  rw [asGood, isBest, decide_eq_true_iff, measure]

theorem asGood_total (rtt : PathID → ℕ) (p t : PathID × OliaSender) :
    asGood rtt p t ∨ asGood rtt t p := by
  rw [asGood_iff, asGood_iff]
  exact Int.le_total _ _

/-- One round of the first loop of `getEpsilon`. -/
def bestStep (reads : OliaReads) (m : OliaSenders) (best : BestPath) (pathID : PathID) : BestPath :=
  match m.find? (·.1 = pathID) with
  | none => best
  | some p =>
    if isBest reads best p then ⟨squaredRTT reads p.1, p.2.olia.smoothedBytesBetweenLosses⟩
    else best

theorem bestPath_eq_foldl (reads : OliaReads) (m : OliaSenders) :
    bestPath reads m = reads.order.foldl (bestStep reads m) ⟨0, 0⟩ := rfl

section

variable (hnodup : (m.map Prod.fst).Nodup)
include hnodup

theorem find?_of_mem (hp : p ∈ m) :
    m.find? (·.1 = p.1) = some p := by
  cases hfind : m.find? (·.1 = p.1) with
  | none => exact absurd (decide_eq_true rfl) (List.find?_eq_none.mp hfind p hp)
  | some q =>
    have hkey : q.1 = p.1 := by simpa using List.find?_some hfind
    rw [List.inj_on_of_nodup_map hnodup (List.mem_of_find?_eq_some hfind) hp hkey]

/-- The first path is taken in any case. -/
theorem bestStep_zero (hp : p ∈ m) :
    bestStep ⟨rtt, order⟩ m ⟨0, 0⟩ p.1 = measure rtt p := by
  have hbest : isBest ⟨rtt, order⟩ ⟨0, 0⟩ p = true := by simp [isBest, int64Wrap]
  rw [bestStep, find?_of_mem hnodup hp]
  exact if_pos hbest

theorem bestStep_measure (hp : p ∈ m) :
    bestStep ⟨rtt, order⟩ m (measure rtt t) p.1 =
      measure rtt (if asGood rtt p t then p else t) := by
  rw [bestStep, find?_of_mem hnodup hp, apply_ite (measure rtt)]
  rfl

theorem foldl_bestStep {l : OliaSenders} (hl : ∀ q ∈ l, q ∈ m) (t : PathID × OliaSender) :
    (l.map Prod.fst).foldl (bestStep ⟨rtt, order⟩ m) (measure rtt t) =
      measure rtt (Scan.scan (asGood rtt) t l) := by
  induction l generalizing t with
  | nil => rfl
  | cons q l ih =>
    rw [List.map_cons, List.foldl_cons, bestStep_measure hnodup (hl q List.mem_cons_self),
      Scan.scan_cons]
    exact ih (fun r hr => hl r (List.mem_cons_of_mem _ hr)) _

/-- The loop scans the senders in the order of the map. -/
theorem bestPath_eq {l : OliaSenders} (hperm : (p :: l).Perm m) :
    bestPath ⟨rtt, (p :: l).map Prod.fst⟩ m = measure rtt (Scan.scan (asGood rtt) p l) := by
  rw [bestPath_eq_foldl, List.map_cons, List.foldl_cons,
    bestStep_zero hnodup (hperm.subset List.mem_cons_self)]
  exact foldl_bestStep hnodup (fun q hq => hperm.subset (List.mem_cons_of_mem _ hq)) p

/-- In every order the scan ends with a sender from which all senders can be reached by a chain of
comparisons. -/
theorem exists_end (hne : m ≠ []) (horder : order.Perm (m.map Prod.fst)) :
    ∃ t ∈ m, (∀ x ∈ m, Scan.Reaches (asGood rtt) m t x) ∧
      ∀ q, isBest ⟨rtt, order⟩ (bestPath ⟨rtt, order⟩ m) q = true ↔ asGood rtt q t := by
  obtain ⟨l, rfl, hperm⟩ : ∃ l : OliaSenders, order = l.map Prod.fst ∧ l.Perm m :=
    (congrFun (congrFun (List.eq_map_comp_perm Prod.fst) order) m).mpr horder
  cases l with
  | nil => exact absurd (List.nil_perm.mp hperm) hne
  | cons x l =>
    have ht : Scan.scan (asGood rtt) x l ∈ m := hperm.subset (Scan.scan_mem x l)
    refine ⟨_, ht, (Scan.exists_scan_eq_iff (asGood_total rtt) hnodup.of_map ht).mp
      ⟨x, l, hperm, rfl⟩, fun q => ?_⟩
    rw [bestPath_eq hnodup hperm]
    rfl

/-- The scan can end with every such sender. -/
theorem exists_order (ht : t ∈ m) (hreach : ∀ x ∈ m, Scan.Reaches (asGood rtt) m t x) :
    ∃ order : List PathID, order.Perm (m.map Prod.fst) ∧
      ∀ q, isBest ⟨rtt, order⟩ (bestPath ⟨rtt, order⟩ m) q = true ↔ asGood rtt q t := by
  obtain ⟨x, l, hperm, rfl⟩ :=
    (Scan.exists_scan_eq_iff (asGood_total rtt) hnodup.of_map ht).mpr hreach
  refine ⟨_, hperm.map Prod.fst, fun q => ?_⟩
  rw [bestPath_eq hnodup hperm]
  rfl

end

/-! ## Who gains window -/

/-- Some sender has a larger window. -/
def BelowMax (m : OliaSenders) (p : PathID × OliaSender) : Prop :=
  ∃ q ∈ m, p.2.congestionWindow < q.2.congestionWindow

theorem belowMax_iff (hp : p ∈ m) : BelowMax m p ↔ p.2.congestionWindow < m.getMaxCwnd := by
  constructor
  · rintro ⟨q, hq, hlt⟩
    exact hlt.trans_le (le_getMaxCwnd hq)
  · intro hlt
    obtain ⟨q, hq, hmax⟩ := exists_inM (List.ne_nil_of_mem hp)
    exact ⟨q, hq, hlt.trans_eq (of_decide_eq_true hmax).symm⟩

/-- The bytes between losses for the square of the RTT. -/
def ratio (rtt : PathID → ℕ) (p : PathID × OliaSender) : ℚ :=
  p.2.olia.smoothedBytesBetweenLosses / (rtt p.1) ^ 2

/-- No sender has a larger ratio. -/
def LargestRatio (rtt : PathID → ℕ) (m : OliaSenders) (p : PathID × OliaSender) : Prop :=
  ∀ q ∈ m, ratio rtt q ≤ ratio rtt p

/-- The senders with `epsilonNum` 1 are those that have a smaller window and are as good as the path
that the scan has ended with. Their number is not zero on 8 bits, as one sender is not among
them. -/
theorem epsilonNum_eq_one_iff {reads : OliaReads} (hnodup : (m.map Prod.fst).Nodup) (hp : p ∈ m) :
    (epsilon reads m p).1 = 1 ↔ BelowMax m p ∧ isBest reads (bestPath reads m) p = true := by
  rw [belowMax_iff hp, epsilon, countBNotM_eq (length_le hnodup)]
  split_ifs with hzero hboth hmax
  · refine iff_of_false (by decide) fun hboth => ?_
    refine absurd hzero (Nat.pos_iff_ne_zero.mp (List.countP_pos_iff.mpr ⟨p, hp, ?_⟩))
    rw [inBNotM, Bool.and_eq_true, decide_eq_true_eq]
    exact ⟨hboth.1.ne, hboth.2⟩
  · exact iff_of_true rfl hboth
  · refine iff_of_false ?_ hboth
    dsimp only
    decide
  · exact iff_of_false (by decide) hboth

/-- The best paths below the largest window are those that gain, in this order of the map. -/
def FavoursBest (rtt : PathID → ℕ) (m : OliaSenders) (order : List PathID) : Prop :=
  ∀ p ∈ m, (setEpsilon ⟨rtt, order⟩ m p).olia.epsilonNum = 1 ↔ BelowMax m p ∧ LargestRatio rtt m p

theorem favoursBest_iff (hnodup : (m.map Prod.fst).Nodup) :
    FavoursBest rtt m order ↔ ∀ q ∈ m, BelowMax m q →
      (isBest ⟨rtt, order⟩ (bestPath ⟨rtt, order⟩ m) q = true ↔ LargestRatio rtt m q) := by
  refine forall₂_congr fun q hq => ?_
  rw [setEpsilon, epsilonNum_eq_one_iff hnodup hq]
  exact and_congr_right_iff

/-! ## Comparisons without wrap-around -/

/-- No product that is compared leaves the range of `int64`. -/
def CrossProductsFit (rtt : PathID → ℕ) (m : OliaSenders) : Prop :=
  ∀ p ∈ m, 2 * (rtt p.1 * rtt p.1) < uint64Size ∧
    2 * p.2.olia.smoothedBytesBetweenLosses < uint64Size ∧
    ∀ q ∈ m, 2 * (p.2.olia.smoothedBytesBetweenLosses * (rtt q.1 * rtt q.1)) < uint64Size

instance (rtt : PathID → ℕ) (m : OliaSenders) : Decidable (CrossProductsFit rtt m) :=
  inferInstanceAs (Decidable (∀ p ∈ m, _))

theorem int64Wrap_natCast {n : ℕ} (h : 2 * n < uint64Size) : int64Wrap (n : ℤ) = n :=
  int64Wrap_eq (by omega) (by omega)

theorem asGood_iff_mul_le (hfit : CrossProductsFit rtt m) (hp : p ∈ m) (ht : t ∈ m) :
    asGood rtt p t ↔ t.2.olia.smoothedBytesBetweenLosses * (rtt p.1 * rtt p.1) ≤
      p.2.olia.smoothedBytesBetweenLosses * (rtt t.1 * rtt t.1) := by
  obtain ⟨hp_square, hp_bytes, hp_fit⟩ := hfit p hp
  obtain ⟨ht_square, ht_bytes, ht_fit⟩ := hfit t ht
  rw [asGood_iff, squaredRTT, squaredRTT, int64Wrap_natCast hp_square,
    int64Wrap_natCast ht_square, int64Wrap_natCast hp_bytes, int64Wrap_natCast ht_bytes,
    ← Nat.cast_mul, ← Nat.cast_mul, int64Wrap_natCast (ht_fit p hp),
    int64Wrap_natCast (hp_fit t ht), Int.ofNat_le]

/-- The same if all paths have an RTT. The bytes are then no larger than the products. -/
def ComparisonsFit (rtt : PathID → ℕ) (m : OliaSenders) : Prop :=
  ∀ p ∈ m, 0 < rtt p.1 ∧ 2 * (rtt p.1 * rtt p.1) < uint64Size ∧
    ∀ q ∈ m, 2 * (p.2.olia.smoothedBytesBetweenLosses * (rtt q.1 * rtt q.1)) < uint64Size

instance (rtt : PathID → ℕ) (m : OliaSenders) : Decidable (ComparisonsFit rtt m) :=
  inferInstanceAs (Decidable (∀ p ∈ m, _))

theorem ComparisonsFit.crossProductsFit (hfit : ComparisonsFit rtt m) :
    CrossProductsFit rtt m := by
  intro p hp
  obtain ⟨hpos, hsquare, hproducts⟩ := hfit p hp
  refine ⟨hsquare, lt_of_le_of_lt ?_ (hproducts p hp), hproducts⟩
  exact Nat.mul_le_mul_left 2 (Nat.le_mul_of_pos_right _ (Nat.mul_pos hpos hpos))

theorem asGood_iff_of_fits (hfit : ComparisonsFit rtt m) (hp : p ∈ m) (ht : t ∈ m) :
    asGood rtt p t ↔ ratio rtt t ≤ ratio rtt p := by
  have hp_pos := (hfit p hp).1
  have ht_pos := (hfit t ht).1
  have hp_pos' : (0 : ℚ) < (rtt p.1) ^ 2 := by positivity
  have ht_pos' : (0 : ℚ) < (rtt t.1) ^ 2 := by positivity
  rw [asGood_iff_mul_le hfit.crossProductsFit hp ht, ratio, ratio,
    div_le_div_iff₀ ht_pos' hp_pos', pow_two, pow_two]
  exact_mod_cast Iff.rfl

/-- If no product wraps around, the paths that are as good as one from which all paths can be
reached by a chain of comparisons are those with the largest ratio. -/
theorem asGood_iff_largestRatio (hfit : ComparisonsFit rtt m) (ht : t ∈ m)
    (hreach : ∀ x ∈ m, Scan.Reaches (asGood rtt) m t x) (hp : p ∈ m) :
    asGood rtt p t ↔ LargestRatio rtt m p := by
  -- a chain of right comparisons leads to smaller and smaller ratios
  have hlargest : ∀ x ∈ m, ratio rtt x ≤ ratio rtt t := by
    intro x hx
    induction hreach x hx with
    | refl => exact le_refl _
    | tail _ hstep ih =>
      exact ((asGood_iff_of_fits hfit hstep.1 hstep.2.1).mp hstep.2.2).trans (ih hstep.1)
  rw [asGood_iff_of_fits hfit hp ht]
  exact ⟨fun hle q hq => (hlargest q hq).trans hle, fun hp => hp t ht⟩

/-- Two senders with the given numbers of bytes between losses; the first has the larger window. -/
def twoSenders (bytes₁ bytes₂ : ℕ) : OliaSenders :=
  [(1, { OliaSender.new 10 100 with olia := { Olia.new 0 with loss3 := bytes₁ } }),
    (2, { OliaSender.new 5 100 with olia := { Olia.new 0 with loss3 := bytes₂ } })]

/-- The RTTs of the two paths are 10 ms and 20 ms. -/
def twoRTTs (pathID : PathID) : ℕ := if pathID = 1 then 10 * 10 ^ 6 else 20 * 10 ^ 6

end OliaSenders

end MPQuic
