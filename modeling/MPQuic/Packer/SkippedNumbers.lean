import Mathlib.Data.List.Chain
import Mathlib.Data.List.Infix
import Mathlib.Tactic.ByContra
import MPQuic.Packer.Seal

/-!
# Skipped packet numbers

The numbers that come out of a packet number generator (`packet_number_generator.go`).

`Pop` skips the number `nextToSkip` and then draws the next one to skip, at most `2 * averagePeriod`
numbers further on. The constructor leaves `nextToSkip` at 0, which no number reaches before the
counter wraps: nothing is ever drawn, and a new generator counts on without a gap.
`popped_skipsRegularly_iff` says for which generators the numbers are skipped regularly.
-/

namespace MPQuic

namespace PacketNumberGenerator

/-- The generator after one `Pop` for each of the random numbers. Not every `Pop` looks at its
random number. -/
def after (p : PacketNumberGenerator) (draws : List UInt16) : PacketNumberGenerator :=
  draws.foldl (fun p num => (p.pop (some num)).2) p

/-- The numbers popped, one for each of the random numbers. -/
def popped (p : PacketNumberGenerator) : List UInt16 → List ℕ
  | [] => []
  | num :: draws => (p.pop (some num)).1 :: (p.pop (some num)).2.popped draws

/-- A number that lies between popped numbers and was not popped itself. -/
def Skipped (ns : List ℕ) (n : ℕ) : Prop :=
  n ∉ ns ∧ (∃ m ∈ ns, m < n) ∧ ∃ m ∈ ns, n < m

/-- The numbers popped for some random numbers start at `start` and are skipped regularly. -/
structure SkipsRegularly (p : PacketNumberGenerator) (start : ℕ) (draws : List UInt16) :
    Prop where
  /-- The numbers start at `start`. -/
  head : ∀ n ∈ (p.popped draws).head?, n = start
  /-- The numbers increase by steps of 1 or 2. -/
  steps : (p.popped draws).IsChain fun m n => n = m + 1 ∨ n = m + 2
  /-- Two skipped numbers are never consecutive. -/
  apart : ∀ n, Skipped (p.popped draws) n → ¬Skipped (p.popped draws) (n + 1)
  /-- What `Peek` returns is what the next `Pop` returns. -/
  peeked : ∀ before num rest, draws = before ++ num :: rest →
    (p.popped draws)[before.length]? = some (p.after before).peek
  /-- Any `2 * averagePeriod + 3` consecutive numbers contain a skip. -/
  window : ∀ w, w <:+: p.popped draws → w.length = 2 * p.averagePeriod + 3 →
    ∃ n, [n, n + 2] <:+: w

@[simp]
theorem popped_nil (p : PacketNumberGenerator) : p.popped [] = [] := rfl

theorem popped_cons (p : PacketNumberGenerator) (num : UInt16) (draws : List UInt16) :
    p.popped (num :: draws) = p.next :: (p.pop (some num)).2.popped draws := by
  simp only [popped, pop]
  split_ifs <;> rfl

@[simp]
theorem after_nil (p : PacketNumberGenerator) : p.after [] = p := rfl

@[simp]
theorem after_cons (p : PacketNumberGenerator) (num : UInt16) (draws : List UInt16) :
    p.after (num :: draws) = (p.pop (some num)).2.after draws := rfl

@[simp]
theorem length_popped (p : PacketNumberGenerator) (draws : List UInt16) :
    (p.popped draws).length = draws.length := by
  induction draws generalizing p with
  | nil => rfl
  | cons num draws ih => simp [popped_cons, ih]

theorem popped_append (p : PacketNumberGenerator) (draws rest : List UInt16) :
    p.popped (draws ++ rest) = p.popped draws ++ (p.after draws).popped rest := by
  induction draws generalizing p with
  | nil => rfl
  | cons num draws ih => simp [popped_cons, ih]

/-! ## One `Pop` -/

section Pop

variable {p : PacketNumberGenerator}

/-- There is room for `k` more numbers, and for the number to skip after them, in 64 bits. -/
def Fits (p : PacketNumberGenerator) (k : ℕ) : Prop :=
  p.next + 2 * k + 2 * p.averagePeriod + 2 < uint64Size

/-- The next number to skip lies ahead, near enough for a skip among the next
`2 * averagePeriod + 3` numbers. -/
def Due (p : PacketNumberGenerator) : Prop :=
  p.next < p.nextToSkip ∧ p.nextToSkip ≤ p.next + 2 * p.averagePeriod + 2

theorem Fits.mono {k l : ℕ} (hfits : p.Fits l) (h : k ≤ l) : p.Fits k := by
  unfold Fits at hfits ⊢
  omega

/-- The random distance is at most twice the average period. -/
theorem skip_le {averagePeriod : ℕ} (h : averagePeriod ≤ 32767) (num : UInt16) :
    num.toNat * (averagePeriod - 1) / ((2 ^ 16 - 1) / 2) ≤ 2 * (averagePeriod - 1) := by
  have hnum : num.toNat ≤ 65535 := Nat.le_of_lt_succ num.toNat_lt
  have hmul : num.toNat * (averagePeriod - 1) ≤ 65535 * (averagePeriod - 1) :=
    Nat.mul_le_mul_right _ hnum
  -- 65535 is twice 32767 and one more, and the extra `averagePeriod - 1` is below 32767
  refine Nat.le_of_lt_succ (Nat.div_lt_of_lt_mul ?_)
  omega

/-- What `Pop` does to the generator. -/
theorem pop_cases {k : ℕ} (hperiod : p.averagePeriod ≤ 32767) (hfits : p.Fits (k + 1))
    (num : UInt16) :
    p.next + 1 ≠ p.nextToSkip ∧ (p.pop (some num)).2 = { p with next := p.next + 1 } ∨
    p.next + 1 = p.nextToSkip ∧ ∃ skip ≤ 2 * (p.averagePeriod - 1),
      (p.pop (some num)).2 = { p with next := p.next + 2, nextToSkip := p.next + 4 + skip } := by
  unfold Fits at hfits
  have hadd : uint64Add p.next 1 = p.next + 1 := uint64Add_eq (by omega)
  by_cases heq : p.next + 1 = p.nextToSkip
  · have hskip := skip_le hperiod num
    refine .inr ⟨heq, _, hskip, ?_⟩
    have hadd₁ : uint64Add (p.next + 1) 1 = p.next + 2 := uint64Add_eq (by omega)
    have hadd₂ : uint64Add (p.next + 2) 2 = p.next + 4 := uint64Add_eq (by omega)
    have hadd₃ := uint64Add_eq (a := p.next + 4)
      (b := num.toNat * (p.averagePeriod - 1) / ((2 ^ 16 - 1) / 2)) (by omega)
    simp only [pop, hadd, heq, if_true, generateNewSkip]
    rw [← heq, hadd₁, hadd₂, hadd₃]
  · refine .inl ⟨heq, ?_⟩
    simp [pop, hadd, heq]

@[simp]
theorem averagePeriod_pop (p : PacketNumberGenerator) (random : Option UInt16) :
    (p.pop random).2.averagePeriod = p.averagePeriod := by
  unfold pop
  dsimp only
  split_ifs
  · cases random <;> rfl
  · rfl

theorem Fits.pop {k : ℕ} (hperiod : p.averagePeriod ≤ 32767) (hfits : p.Fits (k + 1))
    (num : UInt16) : (p.pop (some num)).2.Fits k := by
  obtain ⟨-, hpop⟩ | ⟨-, skip, -, hpop⟩ := pop_cases hperiod hfits num
  all_goals
    simp only [Fits, hpop] at hfits ⊢
    omega

/-- The numbers go on by 1 or 2. -/
theorem next_pop {k : ℕ} (hperiod : p.averagePeriod ≤ 32767) (hfits : p.Fits (k + 1))
    (num : UInt16) :
    (p.pop (some num)).2.next = p.next + 1 ∨ (p.pop (some num)).2.next = p.next + 2 := by
  obtain ⟨-, hpop⟩ | ⟨-, skip, -, hpop⟩ := pop_cases hperiod hfits num <;> simp [hpop]

/-- A skip that is due stays due until it is made, and the skip after it is due then. -/
theorem Due.pop {k : ℕ} (h : p.Due) (hpos : 0 < p.averagePeriod)
    (hperiod : p.averagePeriod ≤ 32767) (hfits : p.Fits (k + 1)) (num : UInt16) :
    (p.pop (some num)).2.Due := by
  obtain ⟨hne, hpop⟩ | ⟨-, skip, hskip, hpop⟩ := pop_cases hperiod hfits num
  all_goals
    simp only [Due, hpop] at h ⊢
    omega

end Pop

/-! ## Many `Pop`s -/

section Run

variable {p : PacketNumberGenerator} {draws : List UInt16}

@[simp]
theorem averagePeriod_after (p : PacketNumberGenerator) (draws : List UInt16) :
    (p.after draws).averagePeriod = p.averagePeriod := by
  induction draws generalizing p with
  | nil => rfl
  | cons num draws ih => rw [after_cons, ih, averagePeriod_pop]

theorem Fits.after {k : ℕ} (hperiod : p.averagePeriod ≤ 32767) (hfits : p.Fits (draws.length + k)) :
    (p.after draws).Fits k := by
  induction draws generalizing p with
  | nil => simpa using hfits
  | cons num draws ih =>
    have hfits' : p.Fits (draws.length + k + 1) := by
      rwa [List.length_cons, Nat.add_right_comm] at hfits
    exact ih (by simpa using hperiod) (hfits'.pop hperiod num)

theorem Due.after (h : p.Due) (hpos : 0 < p.averagePeriod) (hperiod : p.averagePeriod ≤ 32767)
    (hfits : p.Fits draws.length) : (p.after draws).Due := by
  induction draws generalizing p with
  | nil => exact h
  | cons num draws ih =>
    exact ih (h.pop hpos hperiod hfits num) (by simpa using hpos) (by simpa using hperiod)
      (hfits.pop hperiod num)

theorem head_popped : ∀ n ∈ (p.popped draws).head?, n = p.next := by
  cases draws with
  | nil => simp
  | cons num draws => simp [popped_cons]

theorem isChain_popped (hperiod : p.averagePeriod ≤ 32767) (hfits : p.Fits draws.length) :
    (p.popped draws).IsChain fun m n => n = m + 1 ∨ n = m + 2 := by
  induction draws generalizing p with
  | nil => simp
  | cons num draws ih =>
    rw [popped_cons, List.isChain_cons]
    refine ⟨fun n hn => ?_, ih (by simpa using hperiod) (hfits.pop hperiod num)⟩
    rw [head_popped n hn]
    exact next_pop hperiod hfits num

/-- `Peek` returns the number of the next `Pop`. -/
theorem getElem?_popped {before rest : List UInt16} {num : UInt16}
    (h : draws = before ++ num :: rest) :
    (p.popped draws)[before.length]? = some (p.after before).peek := by
  rw [h, popped_append, popped_cons, List.getElem?_append_right (by simp)]
  simp [peek]

/-- Where the next number to skip is not reached, the numbers are consecutive. -/
theorem popped_eq_range' (hperiod : p.averagePeriod ≤ 32767) (hfits : p.Fits draws.length)
    (h : p.nextToSkip ≤ p.next ∨ p.next + draws.length ≤ p.nextToSkip) :
    p.popped draws = List.range' p.next draws.length := by
  induction draws generalizing p with
  | nil => rfl
  | cons num draws ih =>
    rw [popped_cons, List.length_cons, List.range'_succ]
    obtain ⟨-, hpop⟩ | ⟨heq, skip, -, hpop⟩ := pop_cases hperiod hfits num
    · have ih' := ih (by simpa using hperiod) (hfits.pop hperiod num)
      rw [hpop] at ih'
      rw [hpop, ih' ?_]
      simp only [List.length_cons] at h ⊢
      omega
    · -- only the last number may come right before the one to skip
      obtain rfl : draws = [] := by
        rw [← List.length_eq_zero_iff]
        simp only [List.length_cons] at h
        omega
      rfl

/-- A number to skip that is reached is skipped. -/
theorem exists_skip (hperiod : p.averagePeriod ≤ 32767) (hfits : p.Fits draws.length)
    (hnext : p.next < p.nextToSkip) (hlast : p.nextToSkip < p.next + draws.length) :
    ∃ n, [n, n + 2] <:+: p.popped draws := by
  induction draws generalizing p with
  | nil =>
    simp only [List.length_nil] at hlast
    omega
  | cons num draws ih =>
    rw [popped_cons]
    obtain ⟨hne, hpop⟩ | ⟨heq, skip, -, hpop⟩ := pop_cases hperiod hfits num
    · simp only [List.length_cons] at hlast
      obtain ⟨n, hn⟩ := ih (by simpa using hperiod) (hfits.pop hperiod num)
        (by rw [hpop]; dsimp only; omega) (by rw [hpop]; dsimp only; omega)
      exact ⟨n, List.infix_cons hn⟩
    · -- the skip is made, and there is a number after it
      cases draws with
      | nil =>
        simp only [List.length_cons, List.length_nil] at hlast
        omega
      | cons num' draws =>
        refine ⟨p.next, List.IsPrefix.isInfix ?_⟩
        rw [popped_cons, hpop]
        exact ⟨_, rfl⟩

/-- Consecutive popped numbers are the numbers popped from some later state. -/
theorem exists_of_infix_popped {w : List ℕ} (h : w <:+: p.popped draws) :
    ∃ before mid rest, draws = before ++ mid ++ rest ∧ w = (p.after before).popped mid := by
  obtain ⟨s, t, hst⟩ := h
  have hlen : s.length + w.length + t.length = draws.length := by
    rw [← length_popped p draws, ← hst, List.length_append, List.length_append]
  have hdraws : draws = draws.take s.length ++ (draws.drop s.length).take w.length ++
      (draws.drop s.length).drop w.length := by
    rw [List.append_assoc, List.take_append_drop, List.take_append_drop]
  refine ⟨_, _, _, hdraws, ?_⟩
  rw [hdraws, popped_append, popped_append] at hst
  have hsw := (List.append_inj hst (by simp; omega)).1
  exact (List.append_inj hsw (by simp; omega)).2

end Run

/-- Consecutive numbers contain no skip. -/
theorem not_skip_range' {m k n : ℕ} : ¬[n, n + 2] <:+: List.range' m k := by
  rintro ⟨before, rest, heq⟩
  have hchain := List.isChain_range' m k 1
  rw [← heq, List.append_assoc, List.isChain_append] at hchain
  simp at hchain

/-- A list whose numbers increase by 1 or 2 leaves no two consecutive numbers out. -/
theorem mem_or_succ_mem {ns : List ℕ} (h : ns.IsChain fun m n => n = m + 1 ∨ n = m + 2) {n : ℕ}
    (hlow : ∃ m ∈ ns, m < n) (hhigh : ∃ m ∈ ns, n + 1 < m) : n ∈ ns ∨ n + 1 ∈ ns := by
  induction ns with
  | nil => simp at hlow
  | cons a ns ih =>
    cases ns with
    | nil =>
      obtain ⟨m, hm, hmn⟩ := hlow
      obtain ⟨m', hm', hmn'⟩ := hhigh
      simp only [List.mem_singleton] at hm hm'
      omega
    | cons b ns =>
      have hsorted : (a :: b :: ns).Pairwise (· < ·) :=
        List.isChain_iff_pairwise.mp (h.imp fun m n hmn => by omega)
      rw [List.isChain_cons_cons] at h
      -- the least number is below `n`; the second one is `n` or `n + 1`, or below `n` as well
      have ha : a < n := by
        obtain ⟨m, hm, hmn⟩ := hlow
        obtain rfl | hm := List.mem_cons.mp hm
        · exact hmn
        · exact lt_trans (List.rel_of_pairwise_cons hsorted hm) hmn
      by_cases hb : b < n
      · have hhigh' : ∃ m ∈ b :: ns, n + 1 < m := by
          obtain ⟨m, hm, hmn⟩ := hhigh
          obtain rfl | hm := List.mem_cons.mp hm
          · omega
          · exact ⟨m, hm, hmn⟩
        exact (ih h.2 ⟨b, List.mem_cons_self, hb⟩ hhigh').imp (List.mem_cons_of_mem a)
          (List.mem_cons_of_mem a)
      · have hbn : n = b ∨ n + 1 = b := by omega
        exact hbn.imp (by simp +contextual) (by simp +contextual)

/-- The numbers of a generator are skipped regularly as long as they are few, and from then on if
and only if the next number to skip lies ahead, at a distance that `generateNewSkip` may choose. -/
theorem popped_skipsRegularly_iff (p : PacketNumberGenerator) (draws : List UInt16)
    (hpos : 2 ≤ p.averagePeriod) (hperiod : p.averagePeriod ≤ 32767)
    (hfits : p.Fits draws.length) :
    p.SkipsRegularly p.next draws ↔ draws.length < 2 * p.averagePeriod + 3 ∨ p.Due := by
  constructor
  · intro h
    by_contra! hnot
    obtain ⟨hlen, hdue⟩ := hnot
    -- the first numbers are consecutive, so that they contain no skip
    have hfits' : p.Fits (draws.take (2 * p.averagePeriod + 3)).length :=
      hfits.mono (by simp)
    have hrange := popped_eq_range' hperiod hfits' (by unfold Due at hdue; simp; omega)
    have hwindow : p.popped (draws.take (2 * p.averagePeriod + 3)) <:+: p.popped draws := by
      conv_rhs => rw [← List.take_append_drop (2 * p.averagePeriod + 3) draws, popped_append]
      exact List.IsPrefix.isInfix ⟨_, rfl⟩
    obtain ⟨n, hn⟩ := h.window _ hwindow (by simp; omega)
    exact not_skip_range' (hrange ▸ hn)
  · intro h
    have hchain := isChain_popped hperiod hfits
    refine ⟨head_popped, hchain, ?_, fun _ _ _ => getElem?_popped, ?_⟩
    · intro n hn hn'
      exact (mem_or_succ_mem hchain hn.2.1 hn'.2.2).elim hn.1 hn'.1
    · intro w hw hwlen
      have hlen : w.length ≤ draws.length := by
        simpa using hw.length_le
      have hdue : p.Due := h.resolve_left (by omega)
      obtain ⟨before, mid, rest, rfl, rfl⟩ := exists_of_infix_popped hw
      rw [length_popped] at hwlen
      simp only [List.append_assoc, List.length_append] at hfits
      have hbefore : (p.after before).Due :=
        hdue.after (by omega) hperiod (hfits.mono (by omega))
      have hmid : (p.after before).Fits mid.length :=
        (hfits.after hperiod).mono (by omega)
      refine exists_skip (by simpa using hperiod) hmid hbefore.1 ?_
      have hle := hbefore.2
      rw [averagePeriod_after] at hle
      omega

/-- A generator whose first number to skip is drawn, as after a skip, goes on regularly. -/
theorem generateNewSkip_skipsRegularly :
    ((newPacketNumberGenerator 2).generateNewSkip (some 40000)).SkipsRegularly 1
      [17, 0, 65535, 40000, 3, 1, 0, 9] :=
  (popped_skipsRegularly_iff _ _ (by decide) (by decide) (by unfold Fits; decide)).mpr
    (.inr (by unfold Due; decide))

/-- A new generator has no number to skip. -/
theorem popped_newPacketNumberGenerator {averagePeriod : ℕ} {draws : List UInt16}
    (hperiod : averagePeriod ≤ 32767)
    (hfits : (newPacketNumberGenerator averagePeriod).Fits draws.length) :
    (newPacketNumberGenerator averagePeriod).popped draws = List.range' 1 draws.length :=
  popped_eq_range' hperiod hfits (.inl (Nat.zero_le 1))

/-- The generator of a path counts its first `2 * 500 + 3` numbers without a skip. -/
theorem new_never_skips :
    new.popped (List.replicate 1003 0) = List.range' 1 1003 ∧
      ¬new.SkipsRegularly 1 (List.replicate 1003 0) := by
  have hfits : new.Fits (List.replicate 1003 (0 : UInt16)).length := by
    rw [List.length_replicate]
    unfold Fits
    decide
  have hpopped : new.popped (List.replicate 1003 0) = List.range' 1 1003 := by
    unfold new at hfits ⊢
    rw [popped_newPacketNumberGenerator (by decide) hfits, List.length_replicate]
  refine ⟨hpopped, fun h => ?_⟩
  obtain ⟨n, hn⟩ := h.window _ List.infix_rfl (by rw [length_popped, List.length_replicate]; rfl)
  exact not_skip_range' (hpopped ▸ hn)

end PacketNumberGenerator

end MPQuic
