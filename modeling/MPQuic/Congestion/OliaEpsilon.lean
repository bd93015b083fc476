import Mathlib.Algebra.BigOperators.Group.List.Basic
import Mathlib.Tactic.FieldSimp
import Mathlib.Tactic.Ring
import MPQuic.Congestion.Olia

/-!
# The epsilons of OLIA

`getEpsilon` moves window from the senders with the largest window to the best senders below it. It
counts both sets on 8 bits in one loop and divides by the counts in the next, which asks again which
sender is in which set. Up to 255 senders the counts are exact, so that what the ones gain is what
the others lose, whatever the comparisons of the paths say: `getEpsilon_cancels`.
-/

namespace MPQuic

namespace OliaSenders

variable {m : OliaSenders} {reads : OliaReads} {p : PathID × OliaSender}

/-! ## The two sets -/

/-- The sender has the largest window. -/
def inM (m : OliaSenders) (p : PathID × OliaSender) : Bool :=
  p.2.congestionWindow = m.getMaxCwnd

/-- The sender has a smaller window, and its path is as good as the best one. -/
def inBNotM (reads : OliaReads) (m : OliaSenders) (p : PathID × OliaSender) : Bool :=
  p.2.congestionWindow ≠ m.getMaxCwnd && isBest reads (bestPath reads m) p

theorem exists_inM (hne : m ≠ []) : ∃ p ∈ m, inM m p = true := by
  have hmax : m.getMaxCwnd = (m.map fun p => p.2.congestionWindow).foldl max 0 :=
    List.foldl_map.symm
  rcases RunningMax.foldl_max_mem (m.map fun p => p.2.congestionWindow) 0 with hzero | hmem
  · obtain ⟨p, hp⟩ := List.exists_mem_of_ne_nil m hne
    refine ⟨p, hp, decide_eq_true ?_⟩
    have hle := le_getMaxCwnd hp
    omega
  · obtain ⟨p, hp, hwindow⟩ := List.mem_map.mp hmem
    exact ⟨p, hp, decide_eq_true (hwindow.trans hmax.symm)⟩

theorem countP_inM_pos (hne : m ≠ []) : 0 < m.countP (inM m) :=
  List.countP_pos_iff.mpr (exists_inM hne)

theorem countM_eq (hlen : m.length ≤ 255) : countM m = m.countP (inM m) :=
  Nat.mod_eq_of_lt ((List.countP_le_length.trans hlen).trans_lt (by decide))

/-- At least one sender has the largest window, so that even 256 senders can be counted. -/
theorem countBNotM_eq (hlen : m.length ≤ 256) :
    countBNotM reads m = m.countP (inBNotM reads m) := by
  refine Nat.mod_eq_of_lt ?_
  rcases eq_or_ne m [] with rfl | hne
  · exact Nat.zero_lt_succ _
  · obtain ⟨p, hp, hmax⟩ := exists_inM hne
    have hlt : m.countP (inBNotM reads m) < m.length := by
      refine lt_of_le_of_ne List.countP_le_length fun heq => ?_
      have hnot := List.countP_eq_length.mp heq p hp
      rw [inBNotM, Bool.and_eq_true, decide_eq_true_eq] at hnot
      exact hnot.1 (of_decide_eq_true hmax)
    exact hlt.trans_le hlen

/-- The epsilon of a sender of the map, by the set it is in. -/
theorem epsilon_eq (hp : p ∈ m) (hlen : m.length ≤ 255) :
    epsilon reads m p =
      if m.countP (inBNotM reads m) = 0 then (0, 1)
      else if inBNotM reads m p then (1, m.length * m.countP (inBNotM reads m))
      else if inM m p then (-1, m.length * m.countP (inM m))
      else (0, 1) := by
  have hfits : ∀ c ≤ m.length, m.length * c < uint32Size := fun c hc =>
    (Nat.mul_le_mul hlen (hc.trans hlen)).trans_lt (by decide)
  have hbelow : p.2.congestionWindow < m.getMaxCwnd ↔
      p.2.congestionWindow ≠ m.getMaxCwnd := (le_getMaxCwnd hp).lt_iff_ne
  rw [epsilon, countBNotM_eq (hlen.trans (by decide)), countM_eq hlen,
    Nat.mod_eq_of_lt (hfits _ List.countP_le_length),
    Nat.mod_eq_of_lt (hfits _ List.countP_le_length)]
  simp only [inBNotM, inM, hbelow, Bool.and_eq_true, decide_eq_true_eq]

/-! ## Signs -/

theorem epsilonDen_pos (hp : p ∈ m) (hlen : m.length ≤ 255) : 0 < (epsilon reads m p).2 := by
  have hne : m ≠ [] := List.ne_nil_of_mem hp
  have hpos : 0 < m.length := List.length_pos_of_mem hp
  rw [epsilon_eq hp hlen]
  split_ifs with hzero
  · exact Nat.one_pos
  · exact Nat.mul_pos hpos (Nat.pos_of_ne_zero hzero)
  · exact Nat.mul_pos hpos (countP_inM_pos hne)
  · exact Nat.one_pos

/-- A sender that loses window has the largest one, and some sender gains. -/
theorem inM_of_epsilonNum_neg (hp : p ∈ m) (hlen : m.length ≤ 255)
    (h : (epsilon reads m p).1 < 0) :
    inM m p = true ∧ ∃ q ∈ m, (epsilon reads m q).1 = 1 := by
  rw [epsilon_eq hp hlen] at h
  split_ifs at h with hzero hbest hmax
  · exact absurd h (lt_irrefl 0)
  · exact absurd h (Int.not_lt.mpr zero_le_one)
  · obtain ⟨q, hq, hqbest⟩ := List.countP_pos_iff.mp (Nat.pos_of_ne_zero hzero)
    refine ⟨hmax, q, hq, ?_⟩
    rw [epsilon_eq hq hlen, if_neg hzero, if_pos hqbest]
  · exact absurd h (lt_irrefl 0)

theorem inBNotM_of_epsilonNum_pos (hp : p ∈ m) (hlen : m.length ≤ 255)
    (h : 0 < (epsilon reads m p).1) : inBNotM reads m p = true := by
  rw [epsilon_eq hp hlen] at h
  split_ifs at h with hzero hbest hmax
  · exact absurd h (lt_irrefl 0)
  · exact hbest
  · exact absurd h (Int.not_lt.mpr (Int.neg_nonpos_of_nonneg zero_le_one))
  · exact absurd h (lt_irrefl 0)

/-! ## The sum -/

/-- What two sets of elements add to a sum and take from it. -/
theorem sum_map_ite_sub {α : Type*} (P Q : α → Bool) (c d : ℚ) (l : List α) :
    (l.map fun a => (if P a then c else 0) - if Q a then d else 0).sum =
      l.countP P * c - l.countP Q * d := by
  induction l with
  | nil => simp
  | cons a l ih =>
    rw [List.map_cons, List.sum_cons, ih, List.countP_cons, List.countP_cons]
    push_cast
    split_ifs <;> ring

/-- The epsilon of a sender as a number. -/
def epsilonValue (o : Olia) : ℚ := o.epsilonNum / o.epsilonDen

theorem sum_epsilonValue (hne : m ≠ []) (hlen : m.length ≤ 255) :
    (m.map fun p => epsilonValue (setEpsilon reads m p).olia).sum = 0 := by
  by_cases hzero : m.countP (inBNotM reads m) = 0
  · refine List.sum_eq_zero fun x hx => ?_
    obtain ⟨p, hp, rfl⟩ := List.mem_map.mp hx
    unfold epsilonValue setEpsilon
    dsimp only
    rw [epsilon_eq hp hlen, if_pos hzero, Int.cast_zero, zero_div]
  have hvalue : ∀ p ∈ m, epsilonValue (setEpsilon reads m p).olia =
      (if inBNotM reads m p then 1 / ((m.length : ℚ) * m.countP (inBNotM reads m)) else 0) -
        if inM m p then 1 / ((m.length : ℚ) * m.countP (inM m)) else 0 := by
    intro p hp
    unfold epsilonValue setEpsilon
    dsimp only
    rw [epsilon_eq hp hlen, if_neg hzero]
    by_cases hbest : inBNotM reads m p = true
    · have hmax : ¬ inM m p = true := by
        rw [inBNotM, Bool.and_eq_true, decide_eq_true_eq] at hbest
        exact fun hmax => hbest.1 (of_decide_eq_true hmax)
      rw [if_pos hbest, if_pos hbest, if_neg hmax]
      push_cast
      ring
    · rw [if_neg hbest, if_neg hbest]
      split_ifs
      · push_cast
        ring
      · norm_num
  rw [List.map_congr_left hvalue, sum_map_ite_sub]
  -- each of the two sets shares one part in `m.length`
  have hlen_ne : (m.length : ℚ) ≠ 0 := by
    exact_mod_cast (List.length_pos_of_ne_nil hne).ne'
  have hbest_ne : (m.countP (inBNotM reads m) : ℚ) ≠ 0 := by exact_mod_cast hzero
  have hmax_ne : (m.countP (inM m) : ℚ) ≠ 0 := by exact_mod_cast (countP_inM_pos hne).ne'
  field_simp
  ring

/-- The epsilons of up to 255 senders cancel out. Only senders with the largest window lose, and
only if another one gains; only senders with a smaller window gain. -/
theorem getEpsilon_cancels (reads : OliaReads) (m : OliaSenders) (hne : m ≠ [])
    (hlen : m.length ≤ 255) :
    (∀ p ∈ getEpsilon reads m, 0 < p.2.olia.epsilonDen) ∧
      ((getEpsilon reads m).map fun p => (p.2.olia.epsilonNum : ℚ) / p.2.olia.epsilonDen).sum = 0 ∧
      (∀ p ∈ getEpsilon reads m, p.2.olia.epsilonNum < 0 →
        (∀ q ∈ m, q.2.congestionWindow ≤ p.2.congestionWindow) ∧
          ∃ q ∈ getEpsilon reads m, q ≠ p ∧ 0 < q.2.olia.epsilonNum) ∧
      ∀ p ∈ getEpsilon reads m, 0 < p.2.olia.epsilonNum →
        ∃ q ∈ m, p.2.congestionWindow < q.2.congestionWindow := by
  refine ⟨?_, ?_, ?_, ?_⟩
  · intro p' hp'
    obtain ⟨p, hp, rfl⟩ := List.mem_map.mp hp'
    exact epsilonDen_pos hp hlen
  · rw [getEpsilon, List.map_map]
    exact sum_epsilonValue hne hlen
  · intro p' hp' hneg
    obtain ⟨p, hp, rfl⟩ := List.mem_map.mp hp'
    obtain ⟨hmax, q, hq, hgain⟩ := inM_of_epsilonNum_neg hp hlen hneg
    have hwindow : p.2.congestionWindow = m.getMaxCwnd := of_decide_eq_true hmax
    refine ⟨fun r hr => (le_getMaxCwnd hr).trans hwindow.ge, _, List.mem_map_of_mem hq, ?_, ?_⟩
    · intro heq
      have hnum : (epsilon reads m q).1 = (epsilon reads m p).1 :=
        congrArg (fun r : PathID × OliaSender => r.2.olia.epsilonNum) heq
      change (epsilon reads m p).1 < 0 at hneg
      omega
    · change 0 < (epsilon reads m q).1
      omega
  · intro p' hp' hpos
    obtain ⟨p, hp, rfl⟩ := List.mem_map.mp hp'
    have hbest := inBNotM_of_epsilonNum_pos hp hlen hpos
    rw [inBNotM, Bool.and_eq_true, decide_eq_true_eq] at hbest
    obtain ⟨q, hq, hmax⟩ := exists_inM hne
    have hbelow : p.2.congestionWindow < m.getMaxCwnd :=
      lt_of_le_of_ne (le_getMaxCwnd hp) hbest.1
    exact ⟨q, hq, hbelow.trans_eq (of_decide_eq_true hmax).symm⟩

/-- Two senders with the windows 10 and 5. -/
def exampleSenders : OliaSenders := [(1, .new 10 100), (2, .new 5 100)]

/-- Both paths have an RTT of 20 ms. -/
def exampleReads : OliaReads := ⟨fun _ => 20 * 10 ^ 6, [1, 2]⟩

/-- The path with the larger window gives what the other one gains. -/
theorem getEpsilon_cancels_two :
    (getEpsilon exampleReads exampleSenders).map (fun p => p.2.olia.epsilonNum) = [-1, 1] ∧
      ((getEpsilon exampleReads exampleSenders).map fun p =>
        (p.2.olia.epsilonNum : ℚ) / p.2.olia.epsilonDen).sum = 0 :=
  ⟨by decide, (getEpsilon_cancels exampleReads exampleSenders (by decide) (by decide)).2.1⟩

end OliaSenders

end MPQuic
