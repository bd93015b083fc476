import MPQuic.Congestion.OliaBest

/-!
# The order of the OLIA senders

The first loop of `getEpsilon` visits the map of the senders in any order. If no product overflows,
it compares the paths by their bytes between losses for the square of their RTT, as fractions: two
paths with the fractions `a / b` and `c / d` by `c * b ≤ a * d`. A new path has the fraction
`0 / 0`, which is as good as any other and which any other is as good as. It can take the place of
the best path and give it away to the worst one.

`getEpsilon_order_independent_iff` says that without such a path the order does not matter, and that
with one it matters unless all senders below the largest window are best paths anyway.
-/

namespace MPQuic

namespace OliaSenders

variable {m : OliaSenders} {rtt : PathID → ℕ} {order order' : List PathID}
  {p q t : PathID × OliaSender}

/-- A new path: it has no sample of the RTT, and no bytes were acknowledged on it. -/
def Unmeasured (rtt : PathID → ℕ) (p : PathID × OliaSender) : Prop :=
  rtt p.1 = 0 ∧ p.2.olia.smoothedBytesBetweenLosses = 0

instance (rtt : PathID → ℕ) (p : PathID × OliaSender) : Decidable (Unmeasured rtt p) :=
  inferInstanceAs (Decidable (_ ∧ _))

/-! ## The comparison -/

/-- An unmeasured path is as good as any other. -/
theorem asGood_of_unmeasured (hfit : CrossProductsFit rtt m) (hp : p ∈ m) (ht : t ∈ m)
    (h : Unmeasured rtt p) : asGood rtt p t := by
  rw [asGood_iff_mul_le hfit hp ht, h.1]
  exact Nat.zero_le _

/-- Any path is as good as an unmeasured one. -/
theorem asGood_unmeasured (hfit : CrossProductsFit rtt m) (hp : p ∈ m) (ht : t ∈ m)
    (h : Unmeasured rtt t) : asGood rtt p t := by
  rw [asGood_iff_mul_le hfit hp ht, h.2, Nat.zero_mul]
  exact Nat.zero_le _

/-- Fractions of which the middle one is not `0 / 0` are compared transitively. -/
theorem mul_le_mul_trans {a b c d e f : ℕ} (hcd : ¬ (d = 0 ∧ c = 0)) (habove : c * b ≤ a * d)
    (hbelow : e * d ≤ c * f) : e * b ≤ a * f := by
  rcases Nat.eq_zero_or_pos d with rfl | hd
  · -- the middle fraction is infinite, and so is the first one
    have hc : 0 < c := Nat.pos_of_ne_zero fun hc => hcd ⟨rfl, hc⟩
    have hb : b = 0 := by
      rcases Nat.mul_eq_zero.mp (Nat.le_zero.mp habove) with hc' | hb
      · exact absurd hc' hc.ne'
      · exact hb
    rw [hb]
    exact Nat.zero_le _
  · refine Nat.le_of_mul_le_mul_right ?_ hd
    calc e * b * d = e * d * b := Nat.mul_right_comm e b d
      _ ≤ c * f * b := Nat.mul_le_mul_right b hbelow
      _ = c * b * f := Nat.mul_right_comm c f b
      _ ≤ a * d * f := Nat.mul_le_mul_right f habove
      _ = a * f * d := Nat.mul_right_comm a d f

theorem asGood_trans (hfit : CrossProductsFit rtt m) (hp : p ∈ m) (hq : q ∈ m) (ht : t ∈ m)
    (hmeasured : ¬ Unmeasured rtt q) (hpq : asGood rtt p q) (hqt : asGood rtt q t) :
    asGood rtt p t := by
  rw [asGood_iff_mul_le hfit hp hq] at hpq
  rw [asGood_iff_mul_le hfit hq ht] at hqt
  rw [asGood_iff_mul_le hfit hp ht]
  refine mul_le_mul_trans (fun hzero => hmeasured ⟨?_, hzero.2⟩) hpq hqt
  exact mul_self_eq_zero.mp hzero.1

/-- Without unmeasured paths, a chain of comparisons is a comparison. -/
theorem asGood_of_reaches (hfit : CrossProductsFit rtt m) (hmeasured : ∀ p ∈ m, ¬ Unmeasured rtt p)
    (ht : t ∈ m) (h : Scan.Reaches (asGood rtt) m t q) : asGood rtt t q := by
  induction h with
  | refl => exact (asGood_total rtt t t).elim id id
  | tail _ hstep ih =>
    obtain ⟨hx, hy, hxy⟩ := hstep
    exact asGood_trans hfit ht hx hy (hmeasured _ hx) ih hxy

/-- With an unmeasured path, there is a chain of comparisons from every path to every other. -/
theorem reaches_of_unmeasured (hfit : CrossProductsFit rtt m) {z : PathID × OliaSender}
    (hz : z ∈ m) (hzero : Unmeasured rtt z) (ht : t ∈ m) (hq : q ∈ m) :
    Scan.Reaches (asGood rtt) m t q :=
  (Relation.ReflTransGen.single ⟨ht, hz, asGood_unmeasured hfit ht hz hzero⟩).tail
    ⟨hz, hq, asGood_of_unmeasured hfit hz hq hzero⟩

/-! ## The epsilons -/

/-- The epsilons of two orders are the same if the same senders below the largest window are as good
as the best path. -/
theorem getEpsilon_congr (h : ∀ p ∈ m, BelowMax m p →
      isBest ⟨rtt, order⟩ (bestPath ⟨rtt, order⟩ m) p =
        isBest ⟨rtt, order'⟩ (bestPath ⟨rtt, order'⟩ m) p) :
    getEpsilon ⟨rtt, order⟩ m = getEpsilon ⟨rtt, order'⟩ m := by
  have hcount : countBNotM ⟨rtt, order⟩ m = countBNotM ⟨rtt, order'⟩ m := by
    refine congrArg (· % UInt8.size) (List.countP_congr fun p hp => ?_)
    by_cases hmax : p.2.congestionWindow = m.getMaxCwnd
    · simp [hmax]
    · rw [h p hp ((belowMax_iff hp).mpr (lt_of_le_of_ne (le_getMaxCwnd hp) hmax))]
  refine List.map_congr_left fun p hp => ?_
  have hepsilon : epsilon ⟨rtt, order⟩ m p = epsilon ⟨rtt, order'⟩ m p := by
    unfold epsilon
    rw [hcount]
    by_cases hlt : p.2.congestionWindow < m.getMaxCwnd
    · rw [h p hp ((belowMax_iff hp).mpr hlt)]
    · simp only [hlt, false_and]
  rw [setEpsilon, setEpsilon, hepsilon]

/-- If the epsilons of two orders are the same, then so are the senders that gain window. -/
theorem isBest_of_getEpsilon_eq (hnodup : (m.map Prod.fst).Nodup)
    (h : getEpsilon ⟨rtt, order⟩ m = getEpsilon ⟨rtt, order'⟩ m) (hp : p ∈ m)
    (hbelow : BelowMax m p) :
    isBest ⟨rtt, order⟩ (bestPath ⟨rtt, order⟩ m) p = true ↔
      isBest ⟨rtt, order'⟩ (bestPath ⟨rtt, order'⟩ m) p = true := by
  have hsender : setEpsilon ⟨rtt, order⟩ m p = setEpsilon ⟨rtt, order'⟩ m p :=
    congrArg Prod.snd (List.map_inj_left.mp h p hp)
  have hnum : (epsilon ⟨rtt, order⟩ m p).1 = (epsilon ⟨rtt, order'⟩ m p).1 :=
    congrArg (fun o : OliaSender => o.olia.epsilonNum) hsender
  have hone : (epsilon ⟨rtt, order⟩ m p).1 = 1 ↔ (epsilon ⟨rtt, order'⟩ m p).1 = 1 := by rw [hnum]
  rw [epsilonNum_eq_one_iff hnodup hp, epsilonNum_eq_one_iff hnodup hp] at hone
  simpa only [hbelow, true_and] using hone

/-- If no product overflows, then all orders of the map give every sender the same epsilon, if and
only if every path is measured, or every sender below the largest window is as good as all
others. -/
theorem getEpsilon_order_independent_iff (rtt : PathID → ℕ) (m : OliaSenders)
    (hnodup : (m.map Prod.fst).Nodup) (hfit : CrossProductsFit rtt m) :
    (∀ order order' : List PathID, order.Perm (m.map Prod.fst) → order'.Perm (m.map Prod.fst) →
      getEpsilon ⟨rtt, order⟩ m = getEpsilon ⟨rtt, order'⟩ m) ↔
    (∀ p ∈ m, ¬ Unmeasured rtt p) ∨
      ∀ p ∈ m, BelowMax m p → ∀ q ∈ m,
        q.2.olia.smoothedBytesBetweenLosses * (rtt p.1 * rtt p.1) ≤
          p.2.olia.smoothedBytesBetweenLosses * (rtt q.1 * rtt q.1) := by
  constructor
  · intro h
    by_cases hmeasured : ∀ p ∈ m, ¬ Unmeasured rtt p
    · exact .inl hmeasured
    · push Not at hmeasured
      obtain ⟨z, hz, hzero⟩ := hmeasured
      refine .inr fun p hp hbelow q hq => ?_
      rw [← asGood_iff_mul_le hfit hp hq]
      -- the scan can end with the unmeasured path as well as with `q`
      obtain ⟨order, horder, hbest⟩ := exists_order hnodup hz fun x hx =>
        reaches_of_unmeasured hfit hz hzero hz hx
      obtain ⟨order', horder', hbest'⟩ := exists_order hnodup hq fun x hx =>
        reaches_of_unmeasured hfit hz hzero hq hx
      have hsame := isBest_of_getEpsilon_eq hnodup (h order order' horder horder') hp hbelow
      rw [hbest, hbest'] at hsame
      exact hsame.mp (asGood_unmeasured hfit hp hz hzero)
  · intro h order order' horder horder'
    refine getEpsilon_congr fun p hp hbelow => ?_
    have hne : m ≠ [] := List.ne_nil_of_mem hp
    obtain ⟨t, ht, hreach, hbest⟩ := exists_end hnodup hne horder
    obtain ⟨t', ht', hreach', hbest'⟩ := exists_end hnodup hne horder'
    rw [Bool.eq_iff_iff, hbest, hbest']
    rcases h with hmeasured | hall
    · -- both scans end with a best path
      have htt' := asGood_of_reaches hfit hmeasured ht (hreach t' ht')
      have ht't := asGood_of_reaches hfit hmeasured ht' (hreach' t ht)
      exact ⟨fun hpt => asGood_trans hfit hp ht ht' (hmeasured t ht) hpt htt',
        fun hpt' => asGood_trans hfit hp ht' ht (hmeasured t' ht') hpt' ht't⟩
    · refine iff_of_true ?_ ?_
      · exact (asGood_iff_mul_le hfit hp ht).mpr (hall p hp hbelow t ht)
      · exact (asGood_iff_mul_le hfit hp ht').mpr (hall p hp hbelow t' ht')

/-- Two measured paths, of which the first one is the better one, and a new path. -/
def newPathSenders : OliaSenders :=
  twoSenders 1000 1000 ++ [(3, .new 32 100)]

/-- The new path has no sample of the RTT. -/
def newPathRTTs (pathID : PathID) : ℕ := if pathID = 3 then 0 else twoRTTs pathID

/-- Both paths are measured. -/
theorem getEpsilon_order_independent_two :
    getEpsilon ⟨twoRTTs, [1, 2]⟩ (twoSenders 1000 1000) =
      getEpsilon ⟨twoRTTs, [2, 1]⟩ (twoSenders 1000 1000) :=
  (getEpsilon_order_independent_iff twoRTTs (twoSenders 1000 1000) (by decide) (by decide)).mpr
    (.inl (by decide)) _ _ (by decide) (by decide)

/-- If the new path is visited last, then both other paths gain window; if it is visited first, only
the better one does. -/
theorem getEpsilon_depends_on_order :
    CrossProductsFit newPathRTTs newPathSenders ∧
      ([1, 2, 3] : List PathID).Perm (newPathSenders.map Prod.fst) ∧
      ([3, 1, 2] : List PathID).Perm (newPathSenders.map Prod.fst) ∧
      (getEpsilon ⟨newPathRTTs, [1, 2, 3]⟩ newPathSenders).map (fun p =>
        (p.2.olia.epsilonNum, p.2.olia.epsilonDen)) = [(1, 6), (1, 6), (-1, 3)] ∧
      (getEpsilon ⟨newPathRTTs, [3, 1, 2]⟩ newPathSenders).map (fun p =>
        (p.2.olia.epsilonNum, p.2.olia.epsilonDen)) = [(1, 3), (0, 1), (-1, 3)] := by
  decide

end OliaSenders

end MPQuic
