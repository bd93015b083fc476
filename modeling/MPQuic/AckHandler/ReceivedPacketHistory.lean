import MPQuic.Lib.IntervalList
import MPQuic.Lib.Transition
import MPQuic.Wire.AckFrame

/-!
# The received packet history

`ackhandler/received_packet_history.go`: the packet numbers received on a path, kept as a list of
closed intervals in ascending order. `receivedPacket` walks the list from its end and extends,
merges or inserts an interval; `deleteUpTo` trims a prefix.

The list is a normal form of a set of packet numbers. The main result is
`receivedPacketHistory_faithful`: after any sequence of calls the set holds exactly the numbers
that were received and not deleted since.
-/

namespace MPQuic

open IntervalList Transition

/-- An interval of packet numbers, both ends included. -/
structure PacketInterval where
  start : ℕ
  stop : ℕ

/-- The packet number after an interval. -/
def PacketInterval.next (r : PacketInterval) : ℕ := r.stop + 1

/-- The interval as a range of an ACK frame. -/
def PacketInterval.toAckRange (r : PacketInterval) : AckRange :=
  { first := r.start, last := r.stop }

/-- The packet numbers that were received. -/
structure ReceivedPacketHistory where
  /-- The intervals, in ascending order. -/
  ranges : List PacketInterval
  lowestInReceivedPacketNumbers : ℕ

/-- The errors of the received packet handler. -/
inductive ReceivedPacketError where
  | invalidPacketNumber
  | tooManyOutstandingReceivedAckRanges
  /-- A slice index out of range. -/
  | indexOutOfRange
  deriving DecidableEq

open PacketInterval (start next toAckRange)

namespace ReceivedPacketHistory

/-- A new received packet history. -/
def new : ReceivedPacketHistory := { ranges := [], lowestInReceivedPacketNumbers := 0 }

/-- Merge an extended range with the one before it, if nothing is missing in between. The ranges
before it are given last one first. -/
def mergeWithPrev (el : PacketInterval) : List PacketInterval → List PacketInterval
  | [] => [el]
  | prev :: before =>
    if prev.stop + 1 = el.start then { prev with stop := el.stop } :: before
    else el :: prev :: before

/-- The loop of `receivedPacket`, on the ranges with the last one first. -/
def insertFromBack (p : ℕ) : List PacketInterval → List PacketInterval
  -- create a new range at the beginning
  | [] => [{ start := p, stop := p }]
  | el :: before =>
    if el.start ≤ p ∧ p ≤ el.stop then el :: before
    -- extend a range at the end
    else if el.stop = p - 1 then mergeWithPrev { el with stop := p } before
    -- extend a range at the beginning
    else if el.start = p + 1 then mergeWithPrev { el with start := p } before
    -- create a new range after this one
    else if el.stop < p then { start := p, stop := p } :: el :: before
    else el :: insertFromBack p before

/-- Register the packet `p`. -/
def receivedPacket (h : ReceivedPacketHistory) (p : ℕ) :
    Except ReceivedPacketError ReceivedPacketHistory :=
  if maxTrackedReceivedAckRanges ≤ h.ranges.length then
    .error .tooManyOutstandingReceivedAckRanges
  else
    .ok { h with ranges := (insertFromBack p h.ranges.reverse).reverse }

/-- The loop of `deleteUpTo`. -/
def deleteFromFront (p : ℕ) : List PacketInterval → List PacketInterval
  | [] => []
  | el :: rest =>
    if el.start ≤ p ∧ p < el.stop then { el with start := p + 1 } :: deleteFromFront p rest
    else if el.stop ≤ p then deleteFromFront p rest
    else el :: rest

/-- Delete all entries up to and including `p`. -/
def deleteUpTo (h : ReceivedPacketHistory) (p : ℕ) : ReceivedPacketHistory :=
  { ranges := deleteFromFront p h.ranges
    lowestInReceivedPacketNumbers := max h.lowestInReceivedPacketNumbers (uint64Add p 1) }

/-- All ranges in the order of an ACK frame, the highest one first. -/
def getAckRanges (h : ReceivedPacketHistory) : List AckRange :=
  h.ranges.reverse.map toAckRange

/-- The highest range, or the zero value if there is none. -/
def getHighestAckRange (h : ReceivedPacketHistory) : AckRange :=
  match h.ranges.getLast? with
  | none => { first := 0, last := 0 }
  | some r => r.toAckRange

/-! ## The set of stored packet numbers -/

/-- The packet numbers in some range. -/
def Contains (h : ReceivedPacketHistory) (n : ℕ) : Prop :=
  Covers start next h.ranges n

/-- The ranges are non-empty, sorted, disjoint and non-adjacent. -/
def WellFormed (h : ReceivedPacketHistory) : Prop :=
  Separated start next h.ranges

section Loops

variable {p m : ℕ} {el : PacketInterval} {l : List PacketInterval}

/-- Merging with the previous range does not change the set. -/
theorem covers_mergeWithPrev (hsep : Separated start next l.reverse)
    (hel : el.start ≤ el.stop) (n : ℕ) :
    Covers start next (mergeWithPrev el l) n ↔
      (el.start ≤ n ∧ n < el.next) ∨ Covers start next l n := by
  cases l with
  | nil => simp [mergeWithPrev]
  | cons prev before =>
    obtain ⟨hprev, -, -⟩ := (separated_reverse_cons _ _).mp hsep
    by_cases hadj : prev.stop + 1 = el.start
    · simp only [mergeWithPrev, hadj, ↓reduceIte, covers_cons, ← or_assoc]
      refine or_congr_left ?_
      simp only [next] at hprev ⊢
      omega
    · simp [mergeWithPrev, hadj]

/-- An extended range that does not touch the ranges before the previous one merges into a
separated list. -/
theorem separated_mergeWithPrev
    (hsep : Separated start next l.reverse)
    (hel : el.start ≤ el.stop) (hle : ∀ r ∈ l, r.next ≤ el.start) :
    Separated start next (mergeWithPrev el l).reverse := by
  cases l with
  | nil => simpa [mergeWithPrev, separated_cons, next, Nat.lt_succ_iff] using hel
  | cons prev before =>
    obtain ⟨hprev, hbefore, hrest⟩ := (separated_reverse_cons _ _).mp hsep
    have hprevle : prev.next ≤ el.start := hle prev (by simp)
    by_cases hadj : prev.stop + 1 = el.start
    · simp only [mergeWithPrev, hadj, ↓reduceIte]
      refine (separated_reverse_cons _ _).mpr ⟨?_, hbefore, hrest⟩
      simp only [next] at hprev ⊢
      omega
    · simp only [mergeWithPrev, hadj, ↓reduceIte]
      refine (separated_reverse_cons _ _).mpr ⟨Nat.lt_succ_iff.mpr hel, ?_, hsep⟩
      intro r hr
      rcases List.mem_cons.mp hr with rfl | hr
      · exact lt_of_le_of_ne hprevle hadj
      · exact (hbefore r hr).trans (hprev.trans_le hprevle)

/-- Merging keeps every range below a bound that was above all of them. -/
theorem next_lt_of_mem_mergeWithPrev (hel : el.next < m) (hl : ∀ r ∈ l, r.next < m) :
    ∀ r ∈ mergeWithPrev el l, r.next < m := by
  cases l with
  | nil => simpa [mergeWithPrev] using hel
  | cons prev before =>
    simp only [List.forall_mem_cons] at hl
    by_cases hadj : prev.stop + 1 = el.start
    · simpa [mergeWithPrev, hadj] using ⟨hel, hl.2⟩
    · simpa [mergeWithPrev, hadj] using ⟨hel, hl⟩

/-- The loop of `receivedPacket` adds `p` to the set. -/
theorem covers_insertFromBack (hp : 0 < p)
    (hsep : Separated start next l.reverse) (n : ℕ) :
    Covers start next (insertFromBack p l) n ↔
      n = p ∨ Covers start next l n := by
  induction l with
  | nil => simp [insertFromBack, next]; omega
  | cons el before ih =>
    obtain ⟨hel, hlt, hbefore⟩ := (separated_reverse_cons _ _).mp hsep
    have hne : el.start ≤ el.stop := Nat.lt_succ_iff.mp hel
    rw [insertFromBack]
    -- in the range, right after it, right before it, above it, or further down
    split_ifs with hin hend hstart hafter
    · simp only [covers_cons, next]
      grind
    · rw [covers_mergeWithPrev hbefore (by dsimp only; omega)]
      simp only [covers_cons, next]
      grind
    · rw [covers_mergeWithPrev hbefore (by dsimp only; omega)]
      simp only [covers_cons, next]
      grind
    · simp only [covers_cons, next]
      grind
    · simp only [covers_cons, ih hbefore]
      grind

/-- The loop of `receivedPacket` keeps every range below a bound that is above `p`. -/
theorem next_lt_of_mem_insertFromBack (hp : p + 1 < m) (hl : ∀ r ∈ l, r.next < m) :
    ∀ r ∈ insertFromBack p l, r.next < m := by
  induction l with
  | nil => simpa [insertFromBack, next] using hp
  | cons el before ih =>
    have hl' := hl
    simp only [List.forall_mem_cons] at hl'
    rw [insertFromBack]
    split_ifs with hin hend hstart hafter
    · exact hl
    · exact next_lt_of_mem_mergeWithPrev hp hl'.2
    · exact next_lt_of_mem_mergeWithPrev hl'.1 hl'.2
    · exact List.forall_mem_cons.mpr ⟨hp, hl⟩
    · exact List.forall_mem_cons.mpr ⟨hl'.1, ih hl'.2⟩

/-- The loop of `receivedPacket` keeps the ranges separated. -/
theorem separated_insertFromBack (hp : 0 < p)
    (hsep : Separated start next l.reverse) :
    Separated start next (insertFromBack p l).reverse := by
  induction l with
  | nil => simp [insertFromBack, separated_cons, next]
  | cons el before ih =>
    obtain ⟨hel, hlt, hbefore⟩ := (separated_reverse_cons _ _).mp hsep
    have hne : el.start ≤ el.stop := Nat.lt_succ_iff.mp hel
    rw [insertFromBack]
    split_ifs with hin hend hstart hafter
    · exact hsep
    · exact separated_mergeWithPrev hbefore (by dsimp only; omega) fun r hr => (hlt r hr).le
    · refine separated_mergeWithPrev hbefore (by dsimp only; omega) fun r hr => ?_
      have := hlt r hr
      dsimp only
      omega
    · refine (separated_reverse_cons _ _).mpr ⟨Nat.lt_succ_self p, fun r hr => ?_, hsep⟩
      rcases List.mem_cons.mp hr with rfl | hr
      · simp only [next]
        omega
      · have := hlt r hr
        dsimp only
        omega
    · refine (separated_reverse_cons _ _).mpr ⟨hel, ?_, ih hbefore⟩
      exact next_lt_of_mem_insertFromBack (by omega) hlt

/-- The loop of `deleteUpTo` removes the numbers up to `p`. -/
theorem covers_deleteFromFront (hsep : Separated start next l)
    (n : ℕ) :
    Covers start next (deleteFromFront p l) n ↔
      p < n ∧ Covers start next l n := by
  induction l with
  | nil => simp [deleteFromFront]
  | cons el rest ih =>
    obtain ⟨hel, hlt, hrest⟩ := (separated_cons _ _).mp hsep
    rw [deleteFromFront]
    simp only [next] at hel
    split_ifs with htrim hall
    · simp only [covers_cons, ih hrest, next]
      grind
    · simp only [covers_cons, ih hrest, next]
      grind
    · -- the loop stops here: the later ranges lie above `p` as well
      have hp : ∀ k, Covers start next rest k → p < k := by
        rintro k ⟨r, hr, hk, -⟩
        have := hlt r hr
        simp only [next] at this
        omega
      simp only [covers_cons, next]
      grind

/-- The loop of `deleteUpTo` drops and trims ranges only, so a lower bound stays one. -/
theorem le_start_of_mem_deleteFromFront (hl : ∀ r ∈ l, m < r.start) :
    ∀ r ∈ deleteFromFront p l, m < r.start := by
  induction l with
  | nil => simp [deleteFromFront]
  | cons el rest ih =>
    have hl' := hl
    simp only [List.forall_mem_cons] at hl'
    rw [deleteFromFront]
    split_ifs with htrim hall
    · exact List.forall_mem_cons.mpr ⟨by dsimp only; omega, ih hl'.2⟩
    · exact ih hl'.2
    · exact hl

/-- The loop of `deleteUpTo` keeps the ranges separated. -/
theorem separated_deleteFromFront (hsep : Separated start next l) :
    Separated start next (deleteFromFront p l) := by
  induction l with
  | nil => simp [deleteFromFront]
  | cons el rest ih =>
    obtain ⟨hel, hlt, hrest⟩ := (separated_cons _ _).mp hsep
    rw [deleteFromFront]
    split_ifs with htrim hall
    · refine (separated_cons _ _).mpr ⟨?_, le_start_of_mem_deleteFromFront hlt, ih hrest⟩
      simp only [next]
      omega
    · exact ih hrest
    · exact hsep

end Loops

theorem wellFormed_new : new.WellFormed := separated_nil

theorem not_contains_new (n : ℕ) : ¬ new.Contains n := covers_nil n

section Calls

variable {h h' : ReceivedPacketHistory} {p : ℕ}

/-- `receivedPacket` adds `p` to the set and keeps its normal form. -/
theorem receivedPacket_spec (hwf : h.WellFormed) (hp : 0 < p)
    (hcall : h.receivedPacket p = .ok h') :
    h'.WellFormed ∧ ∀ n, h'.Contains n ↔ n = p ∨ h.Contains n := by
  have hwf' : Separated start next h.ranges.reverse.reverse := by
    rwa [List.reverse_reverse]
  unfold receivedPacket at hcall
  split_ifs at hcall
  cases hcall
  refine ⟨separated_insertFromBack hp hwf', fun n => ?_⟩
  simp only [Contains, covers_reverse, covers_insertFromBack hp hwf']

/-- `receivedPacket` does not look at the largest number that was deleted. -/
theorem receivedPacket_lowest (hcall : h.receivedPacket p = .ok h') :
    h'.lowestInReceivedPacketNumbers = h.lowestInReceivedPacketNumbers := by
  unfold receivedPacket at hcall
  split_ifs at hcall
  cases hcall
  rfl

/-- `deleteUpTo` removes the numbers up to `p` from the set and keeps its normal form. -/
theorem deleteUpTo_spec (hwf : h.WellFormed) :
    (h.deleteUpTo p).WellFormed ∧ ∀ n, (h.deleteUpTo p).Contains n ↔ p < n ∧ h.Contains n :=
  ⟨separated_deleteFromFront hwf, covers_deleteFromFront hwf⟩

end Calls

/-! ## The ranges of an ACK frame -/

/-- Descending separated ranges are consistent with each other. -/
theorem consistentRanges_of_separated {el : PacketInterval} {l : List PacketInterval}
    (hsep : Separated start next (el :: l).reverse) :
    AckedPackets.consistentRanges el.toAckRange (l.map toAckRange) := by
  induction l generalizing el with
  | nil => rfl
  | cons next rest ih =>
    obtain ⟨-, hlt, hrest⟩ := (separated_reverse_cons _ _).mp hsep
    obtain ⟨hnext, -, -⟩ := (separated_reverse_cons _ _).mp hrest
    have hgap : next.stop + 1 < el.start := hlt next (by simp)
    have hadd : uint64Add next.stop 1 ≤ next.stop + 1 := Nat.mod_le _ _
    simp only [PacketInterval.next] at hnext
    simp only [List.map_cons, AckedPackets.consistentRanges, ih hrest, Bool.and_true,
      Bool.and_eq_true, Bool.not_eq_eq_eq_not, Bool.not_true, decide_eq_false_iff_not]
    simp only [toAckRange]
    omega

/-- The ranges of a well-formed history pass the check of an ACK frame, if there are at least two
and the largest acked packet is the last one of the highest range. -/
theorem validateAckRanges_getAckRanges {h : ReceivedPacketHistory} (hwf : h.WellFormed)
    (hlen : 2 ≤ h.ranges.length) {f : AckedPackets} (hranges : f.ackRanges = h.getAckRanges)
    (hlargest : f.largestAcked = h.getHighestAckRange.last) : f.validateAckRanges := by
  have hsep : Separated start next h.ranges.reverse.reverse := by
    rwa [List.reverse_reverse]
  have hhead : h.ranges.getLast? = h.ranges.reverse.head? := List.head?_reverse.symm
  rw [getHighestAckRange, hhead] at hlargest
  rw [← List.length_reverse] at hlen
  rw [getAckRanges] at hranges
  generalize h.ranges.reverse = l at *
  match l with
  | [] | [_] => simp at hlen
  | el :: next :: rest =>
    have hvalid : ∀ r ∈ (el :: next :: rest).map toAckRange, r.first ≤ r.last := by
      simp only [List.forall_mem_map]
      intro r hr
      exact Nat.lt_succ_iff.mp (hsep.nonempty r (List.mem_reverse.mpr hr))
    have hconsistent := consistentRanges_of_separated hsep
    simp only [AckedPackets.validateAckRanges, hranges, hlargest, List.map_cons, List.head?_cons,
      Bool.and_eq_true, beq_self_eq_true, true_and] at hvalid hconsistent ⊢
    exact ⟨List.all_eq_true.mpr fun r hr => decide_eq_true (hvalid r hr), hconsistent⟩

/-! ## Runs -/

/-- A call on the history. -/
inductive Call where
  | receivedPacket (p : ℕ)
  | deleteUpTo (p : ℕ)
  deriving DecidableEq

/-- The packet number a call is made with. -/
def Call.number : Call → ℕ
  | receivedPacket p => p
  | deleteUpTo p => p

/-- The effect of a call that returns no error. -/
def Step (h : ReceivedPacketHistory) (c : Call) (h' : ReceivedPacketHistory) : Prop :=
  match c with
  | .receivedPacket p => h.receivedPacket p = .ok h'
  | .deleteUpTo p => h' = h.deleteUpTo p

/-- The last `receivedPacket n` came after every `deleteUpTo p` with `n ≤ p`. -/
def Retained (calls : List Call) (n : ℕ) : Prop :=
  ∃ before after, calls = before ++ .receivedPacket n :: after ∧ .receivedPacket n ∉ after ∧
    ∀ p, .deleteUpTo p ∈ after → p < n

theorem not_retained_nil (n : ℕ) : ¬ Retained [] n := by
  rintro ⟨before, after, h, -⟩
  simp at h

/-- The packet of the last call is retained, and no other packet is affected. -/
theorem retained_snoc_receivedPacket (calls : List Call) (p n : ℕ) :
    Retained (calls ++ [.receivedPacket p]) n ↔ n = p ∨ Retained calls n := by
  constructor
  · rintro ⟨before, after, h, hlast, hdel⟩
    -- the call that received `n` is the last one, or a call before it
    rcases List.eq_nil_or_concat after with rfl | ⟨after, c, rfl⟩
    · obtain ⟨-, hc⟩ := List.append_inj' h rfl
      simp_all
    · rw [List.concat_eq_append] at *
      rw [← List.cons_append, ← List.append_assoc] at h
      obtain ⟨rfl, -⟩ := List.append_inj' h rfl
      exact .inr ⟨before, after, rfl, fun hm => hlast (by simp [hm]),
        fun q hq => hdel q (by simp [hq])⟩
  · by_cases hn : n = p
    · rintro -
      exact ⟨calls, [], by rw [hn], by simp, by simp⟩
    · rintro (rfl | ⟨before, after, rfl, hlast, hdel⟩)
      · exact absurd rfl hn
      · exact ⟨before, after ++ [.receivedPacket p], by simp, by simp [hlast, hn],
          by simpa using hdel⟩

/-- A deletion releases the packets up to `p`. -/
theorem retained_snoc_deleteUpTo (calls : List Call) (p n : ℕ) :
    Retained (calls ++ [.deleteUpTo p]) n ↔ p < n ∧ Retained calls n := by
  constructor
  · rintro ⟨before, after, h, hlast, hdel⟩
    rcases List.eq_nil_or_concat after with rfl | ⟨after, c, rfl⟩
    · obtain ⟨-, hc⟩ := List.append_inj' h rfl
      simp at hc
    · rw [List.concat_eq_append] at *
      rw [← List.cons_append, ← List.append_assoc] at h
      obtain ⟨rfl, hc⟩ := List.append_inj' h rfl
      refine ⟨hdel p (by simp_all), before, after, rfl, fun hm => hlast (by simp [hm]),
        fun q hq => hdel q (by simp [hq])⟩
  · rintro ⟨hp, before, after, rfl, hlast, hdel⟩
    refine ⟨before, after ++ [.deleteUpTo p], by simp, by simpa using hlast, fun q hq => ?_⟩
    rcases List.mem_append.mp hq with hq | hq
    · exact hdel q hq
    · simp_all

/-- One call keeps the history a faithful normal form of the retained packets. -/
theorem step_faithful {calls : List Call} {h h' : ReceivedPacketHistory} {c : Call}
    (hinv : h.WellFormed ∧ ∀ n, h.Contains n ↔ Retained calls n) (hpos : 0 < c.number)
    (hstep : Step h c h') :
    h'.WellFormed ∧ ∀ n, h'.Contains n ↔ Retained (calls ++ [c]) n := by
  obtain ⟨hwf, hcontains⟩ := hinv
  cases c with
  | receivedPacket p =>
    obtain ⟨hwf', hcontains'⟩ := receivedPacket_spec (p := p) hwf hpos hstep
    refine ⟨hwf', fun n => ?_⟩
    rw [hcontains', hcontains, retained_snoc_receivedPacket]
  | deleteUpTo p =>
    obtain rfl := hstep
    obtain ⟨hwf', hcontains'⟩ := deleteUpTo_spec (p := p) hwf
    refine ⟨hwf', fun n => ?_⟩
    rw [hcontains', hcontains, retained_snoc_deleteUpTo]

/-- After every sequence of calls with positive packet numbers that return no error, the stored
ranges are a normal form of the set of retained packets, and `getAckRanges` lists them in the
descending order that ACK frames require. -/
theorem receivedPacketHistory_faithful {calls : List Call} {h : ReceivedPacketHistory}
    (hpos : ∀ c ∈ calls, 0 < c.number) (hrun : Run Step new calls h) :
    h.WellFormed ∧ (∀ n, h.Contains n ↔ Retained calls n) ∧
      h.getAckRanges.reverse = h.ranges.map toAckRange ∧
      (2 ≤ h.ranges.length → ∀ f : AckedPackets, f.ackRanges = h.getAckRanges →
        f.largestAcked = h.getHighestAckRange.last → f.validateAckRanges) := by
  have hinv : h.WellFormed ∧ ∀ n, h.Contains n ↔ Retained calls n := by
    refine Run.invariant_of_forall
      (I := fun calls h => h.WellFormed ∧ ∀ n, h.Contains n ↔ Retained calls n)
      ⟨wellFormed_new, fun n => ?_⟩ (fun _ _ _ _ hinv hp => step_faithful hinv hp) hpos hrun
    simp [not_contains_new, not_retained_nil]
  refine ⟨hinv.1, hinv.2, ?_, fun hlen f hranges hlargest =>
    validateAckRanges_getAckRanges hinv.1 hlen hranges hlargest⟩
  rw [getAckRanges, List.map_reverse, List.reverse_reverse]

/-- Four packets out of order, a deletion, and the packet 1 once more: 1 and 4 to 5 are left. -/
theorem receivedPacketHistory_faithful_example : ∃ (calls : List Call) (h : ReceivedPacketHistory),
    h.ranges = [⟨1, 1⟩, ⟨4, 5⟩] ∧ h.WellFormed ∧ ∀ n, h.Contains n ↔ Retained calls n := by
  have hrun : Run Step new [.receivedPacket 5, .receivedPacket 1, .receivedPacket 4,
      .receivedPacket 2, .deleteUpTo 2, .receivedPacket 1] _ :=
    (((((Run.nil.snoc (by rfl)).snoc (by rfl)).snoc (by rfl)).snoc (by rfl)).snoc (by rfl)).snoc
      (by rfl)
  have h := receivedPacketHistory_faithful (by decide) hrun
  exact ⟨_, _, rfl, h.1, h.2.1⟩

end ReceivedPacketHistory

end MPQuic
