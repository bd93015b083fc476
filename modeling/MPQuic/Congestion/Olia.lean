import Mathlib.Data.List.Perm.Subperm
import MPQuic.Congestion.WindowState
import MPQuic.Lib.KeyedList
import MPQuic.Lib.RunningMax
import MPQuic.Lib.Transition

/-!
# OLIA senders

`congestion/olia.go` and `congestion/olia_sender.go`: the senders of the paths of a connection share
one map, and the ACK of a packet on one path reads the windows of all of them. In congestion
avoidance a sender counts in `sndCwndCnt` how far its window is from the next packet up or down. The
count goes down only if `epsilonNum` is -1, for a sender that has the largest window while a better
path has a smaller one.

Go visits the entries of a map in any order. The order matters in the loop that finds the best path
and is part of what an ACK reads, as are the RTTs.

The products are those of `uint64` and `int64` and can wrap around. `ProductsFit` says that those do
not on which the sign of the increment depends.

* `epsilon_cases`: with `epsilonNum` -1 some other sender has a smaller window.
* `congestionWindowAfterAck_spec`: the window falls only with `epsilonNum` -1.
* `Bounded.step`: all windows stay within their bounds.
-/

namespace MPQuic

open Transition

/-- The number of bits by which OLIA scales. -/
def oliaScaleBits : ℕ := 10

/-- The scale of `sndCwndCnt`. -/
def oliaUnit : ℕ := 2 ^ oliaScaleBits

def oliaScale (val : ℕ) : ℕ := uint64Mul val oliaUnit

/-- The state of the OLIA algorithm on one path. -/
structure Olia where
  /-- The bytes acked two losses ago. -/
  loss1 : ℕ
  /-- The bytes acked at the last loss. -/
  loss2 : ℕ
  /-- The bytes acked. -/
  loss3 : ℕ
  epsilonNum : ℤ
  epsilonDen : ℕ
  sndCwndCnt : ℤ
  deriving DecidableEq

namespace Olia

/-- `NewOlia`. -/
def new (ackedBytes : ℕ) : Olia where
  loss1 := ackedBytes
  loss2 := ackedBytes
  loss3 := ackedBytes
  epsilonNum := 0
  epsilonDen := 1
  sndCwndCnt := 0

def reset (_ : Olia) : Olia := new 0

def smoothedBytesBetweenLosses (o : Olia) : ℕ :=
  max (uint64Sub o.loss3 o.loss2) (uint64Sub o.loss2 o.loss1)

def updateAckedSinceLastLoss (o : Olia) (ackedBytes : ℕ) : Olia :=
  { o with loss3 := uint64Add o.loss3 ackedBytes }

def onPacketLost (o : Olia) : Olia := { o with loss1 := o.loss2, loss2 := o.loss3 }

/-- `int(oliaScale(incNum, scale) / incDen)`. -/
def increment (incNum incDen : ℕ) : ℤ := int64Wrap (oliaScale incNum / incDen : ℕ)

/-- The denominator of the increment. -/
def incDen (o : Olia) (currentCongestionWindow rate : ℕ) : ℕ :=
  let incDen := uint64Mul (uint64Mul o.epsilonDen currentCongestionWindow) rate
  if incDen = 0 then 1 else incDen

/-- `sndCwndCnt` after the increasing term is added. -/
def nextCount (o : Olia) (currentCongestionWindow rate cwndScaled : ℕ) : ℤ :=
  let incDen := o.incDen currentCongestionWindow rate
  let square := uint64Mul (uint64Mul o.epsilonDen cwndScaled) cwndScaled
  if o.epsilonNum = -1 then
    if square < rate then
      int64Wrap (o.sndCwndCnt - increment (uint64Sub rate square) incDen)
    else int64Wrap (o.sndCwndCnt + increment (uint64Sub square rate) incDen)
  else
    let incNum := uint64Add (uint64Mul (o.epsilonNum % uint64Size).toNat rate) square
    int64Wrap (o.sndCwndCnt + increment incNum incDen)

/-- The new window, and the state with the new count. -/
def congestionWindowAfterAck (o : Olia) (currentCongestionWindow rate cwndScaled : ℕ) : ℕ × Olia :=
  let sndCwndCnt := o.nextCount currentCongestionWindow rate cwndScaled
  if (oliaUnit : ℤ) - 1 ≤ sndCwndCnt then
    (currentCongestionWindow + 1, { o with sndCwndCnt := 0 })
  else if sndCwndCnt ≤ 0 - (oliaUnit : ℤ) + 1 then
    (max 1 (uint64Sub currentCongestionWindow 1), { o with sndCwndCnt := 0 })
  else (currentCongestionWindow, { o with sndCwndCnt })

end Olia

/-- `OliaSender`; the map of the senders is the state in which it stands. -/
structure OliaSender extends WindowState where
  olia : Olia
  deriving DecidableEq

/-- `NewOliaSender`. -/
def OliaSender.new (initialCongestionWindow initialMaxCongestionWindow : ℕ) : OliaSender where
  toWindowState := .new initialCongestionWindow initialMaxCongestionWindow
  olia := .new 0

/-- The map of the senders. -/
abbrev OliaSenders := List (PathID × OliaSender)

/-- What the ACK of a packet reads from the RTT statistics of the paths, and the order in which the
map is visited. -/
structure OliaReads where
  smoothedRTT : PathID → ℕ
  order : List PathID

/-- The path with the most bytes between losses for the square of its RTT. -/
structure BestPath where
  rtt : ℤ
  bytes : ℕ

namespace OliaSenders

/-- Put a sender in the place of the one of its path. -/
def put (m : OliaSenders) (pathID : PathID) (o : OliaSender) : OliaSenders :=
  KeyedList.replaceKey Prod.fst (pathID, o) m

def getMaxCwnd (m : OliaSenders) : ℕ := m.foldl (fun best p => max best p.2.congestionWindow) 0

/-- What a sender adds to the rate. The RTT is zero before the first measurement. -/
def rateTerm (reads : OliaReads) (pathRTT : ℕ) (p : PathID × OliaSender) : ℕ :=
  if reads.smoothedRTT p.1 = 0 then 0
  else uint64Mul (oliaScale p.2.congestionWindow) pathRTT / reads.smoothedRTT p.1

def getRate (reads : OliaReads) (pathRTT : ℕ) (m : OliaSenders) : ℕ :=
  let rate := m.foldl (fun rate p => uint64Add rate (rateTerm reads pathRTT p)) 1
  uint64Mul rate rate

/-- `SmoothedRTT() * SmoothedRTT()`. -/
def squaredRTT (reads : OliaReads) (pathID : PathID) : ℤ :=
  int64Wrap (reads.smoothedRTT pathID * reads.smoothedRTT pathID : ℕ)

/-- Whether a path is as good as the best one. -/
def isBest (reads : OliaReads) (best : BestPath) (p : PathID × OliaSender) : Bool :=
  int64Wrap (int64Wrap best.bytes * squaredRTT reads p.1) ≤
    int64Wrap (int64Wrap p.2.olia.smoothedBytesBetweenLosses * best.rtt)

/-- The first loop of `getEpsilon`. -/
def bestPath (reads : OliaReads) (m : OliaSenders) : BestPath :=
  reads.order.foldl (fun best pathID =>
    match m.find? (·.1 = pathID) with
    | none => best
    | some p =>
      if isBest reads best p then ⟨squaredRTT reads p.1, p.2.olia.smoothedBytesBetweenLosses⟩
      else best) ⟨0, 0⟩

/-- The number of senders with the largest window, on 8 bits. -/
def countM (m : OliaSenders) : ℕ :=
  m.countP (fun p => p.2.congestionWindow = m.getMaxCwnd) % UInt8.size

/-- The number of best paths whose senders do not have the largest window, on 8 bits. -/
def countBNotM (reads : OliaReads) (m : OliaSenders) : ℕ :=
  m.countP (fun p => p.2.congestionWindow ≠ m.getMaxCwnd && isBest reads (bestPath reads m) p) %
    UInt8.size

/-- Numerator and denominator of the epsilon of a sender. -/
def epsilon (reads : OliaReads) (m : OliaSenders) (p : PathID × OliaSender) : ℤ × ℕ :=
  if countBNotM reads m = 0 then (0, 1)
  else if p.2.congestionWindow < m.getMaxCwnd ∧ isBest reads (bestPath reads m) p then
    (1, m.length * countBNotM reads m % uint32Size)
  else if p.2.congestionWindow = m.getMaxCwnd then (-1, m.length * countM m % uint32Size)
  else (0, 1)

/-- Give a sender its epsilon. -/
def setEpsilon (reads : OliaReads) (m : OliaSenders) (p : PathID × OliaSender) : OliaSender :=
  { p.2 with
    olia := { p.2.olia with
      epsilonNum := (epsilon reads m p).1
      epsilonDen := (epsilon reads m p).2 } }

/-- Every sender of the map gets its epsilon. -/
def getEpsilon (reads : OliaReads) (m : OliaSenders) : OliaSenders :=
  m.map fun p => (p.1, setEpsilon reads m p)

end OliaSenders

/-- The sender after an ACK in congestion avoidance. -/
def OliaSender.afterAck (o : OliaSender) (rate : ℕ) : OliaSender :=
  let r := o.olia.congestionWindowAfterAck o.congestionWindow rate (oliaScale o.congestionWindow)
  { o with congestionWindow := min o.maxTCPCongestionWindow r.1, olia := r.2 }

/-- The sender with an ACK outside of recovery, before its window grows. -/
def OliaSender.countAcked (o : OliaSender) (ackedPacketNumber ackedBytes : ℕ) : OliaSender where
  toWindowState := o.acked ackedPacketNumber
  olia := o.olia.updateAckedSinceLastLoss ackedBytes

namespace OliaSenders

/-- `maybeIncreaseCwnd` of the sender `o` of the path. -/
def maybeIncreaseCwnd (reads : OliaReads) (pathID : PathID) (o : OliaSender) (bytesInFlight : ℕ)
    (m : OliaSenders) : OliaSenders :=
  if !o.isCwndLimited bytesInFlight then m
  else if o.maxTCPCongestionWindow ≤ o.congestionWindow then m
  else if o.inSlowStart then m.put pathID { o with toWindowState := o.grow }
  else
    let senders := getEpsilon reads m
    let rate := getRate reads (reads.smoothedRTT pathID) senders
    senders.put pathID ((setEpsilon reads m (pathID, o)).afterAck rate)

def onPacketAcked (reads : OliaReads) (pathID : PathID) (o : OliaSender)
    (ackedPacketNumber ackedBytes bytesInFlight : ℕ) (m : OliaSenders) : OliaSenders :=
  if (o.acked ackedPacketNumber).inRecovery then
    m.put pathID { o with toWindowState := o.acked ackedPacketNumber }
  else
    let o := o.countAcked ackedPacketNumber ackedBytes
    maybeIncreaseCwnd reads pathID o bytesInFlight (m.put pathID o)

end OliaSenders

namespace OliaSender

def onPacketLost (fl : FloatArithmetic) (o : OliaSender) (packetNumber lostBytes : ℕ) :
    OliaSender where
  toWindowState :=
    o.toWindowState.onPacketLost (fl.renoBackoff o.numConnections o.congestionWindow) packetNumber
      lostBytes
  olia := if o.isNewLoss packetNumber then o.olia.onPacketLost else o.olia

def onRetransmissionTimeout (o : OliaSender) (packetsRetransmitted : Bool) : OliaSender where
  toWindowState := o.toWindowState.onRetransmissionTimeout packetsRetransmitted
  olia := if packetsRetransmitted then o.olia.reset else o.olia

def onConnectionMigration (o : OliaSender) : OliaSender where
  toWindowState := o.toWindowState.onConnectionMigration
  olia := o.olia.reset

end OliaSender

namespace OliaSenders

/-- A call of the sender `o` of the path. -/
def apply (fl : FloatArithmetic) (pathID : PathID) (o : OliaSender) (m : OliaSenders) :
    SenderCall OliaReads → OliaSenders
  | .onPacketSent packetNumber isRetransmittable =>
    m.put pathID { o with toWindowState := (o.onPacketSent packetNumber isRetransmittable).2 }
  | .onPacketAcked reads ackedPacketNumber ackedBytes bytesInFlight =>
    m.onPacketAcked reads pathID o ackedPacketNumber ackedBytes bytesInFlight
  | .onPacketLost packetNumber lostBytes =>
    m.put pathID (o.onPacketLost fl packetNumber lostBytes)
  | .exitSlowstart => m.put pathID { o with toWindowState := o.exitSlowstart }
  | .onRetransmissionTimeout packetsRetransmitted =>
    m.put pathID (o.onRetransmissionTimeout packetsRetransmitted)
  | .onConnectionMigration => m.put pathID o.onConnectionMigration
  | .setSlowStartLargeReduction enabled =>
    m.put pathID { o with toWindowState := o.setSlowStartLargeReduction enabled }

end OliaSenders

/-! ## Runs of the senders of a map -/

namespace OliaSenders

/-- The rate before it is squared, as a natural number. -/
def rateSum (reads : OliaReads) (pathRTT : ℕ) (m : OliaSenders) : ℕ :=
  1 + (m.map (rateTerm reads pathRTT)).sum

/-- The square of the rate and the denominator of the increment do not wrap around when the sender
`o` of the path computes them. -/
def ProductsFit (reads : OliaReads) (pathID : PathID) (o : OliaSender) (m : OliaSenders) : Prop :=
  let rate := rateSum reads (reads.smoothedRTT pathID) (getEpsilon reads m)
  rate * rate < uint64Size ∧
    (epsilon reads m (pathID, o)).2 * o.congestionWindow * (rate * rate) < uint64Size

instance (reads : OliaReads) (pathID : PathID) (o : OliaSender) (m : OliaSenders) :
    Decidable (m.ProductsFit reads pathID o) :=
  inferInstanceAs (Decidable (_ ∧ _))

/-- The calls of a run: an ACK visits every entry of the map, and the products it computes, if it
gets to congestion avoidance, do not wrap around. -/
def Admits (pathID : PathID) (o : OliaSender) (m : OliaSenders) : SenderCall OliaReads → Prop
  | .onPacketAcked reads ackedPacketNumber ackedBytes bytesInFlight =>
    let o := o.countAcked ackedPacketNumber ackedBytes
    reads.order.Perm (m.map Prod.fst) ∧
      (o.inRecovery = false → o.isCwndLimited bytesInFlight = true →
        o.congestionWindow < o.maxTCPCongestionWindow → o.inSlowStart = false →
        (m.put pathID o).ProductsFit reads pathID o)
  | _ => True

/-- What happens to the senders of a map: a path is set up with a new sender, or the sender of a
path is called. -/
inductive Event where
  | setup (pathID : PathID) (initialCongestionWindow initialMaxCongestionWindow : ℕ)
  | call (pathID : PathID) (call : SenderCall OliaReads)

/-- The steps of a run. -/
inductive Step (fl : FloatArithmetic) (m : OliaSenders) : Event → OliaSenders → Prop where
  | setup {pathID : PathID} {initialCongestionWindow initialMaxCongestionWindow : ℕ} :
      WindowState.Starts initialCongestionWindow initialMaxCongestionWindow →
      pathID ∉ m.map Prod.fst →
      Step fl m (.setup pathID initialCongestionWindow initialMaxCongestionWindow)
        (m ++ [(pathID, .new initialCongestionWindow initialMaxCongestionWindow)])
  | call {pathID : PathID} {o : OliaSender} {call : SenderCall OliaReads} :
      (pathID, o) ∈ m → m.Admits pathID o call →
      Step fl m (.call pathID call) (m.apply fl pathID o call)

instance (pathID : PathID) (o : OliaSender) (m : OliaSenders) (call : SenderCall OliaReads) :
    Decidable (m.Admits pathID o call) :=
  match call with
  | .onPacketSent .. => inferInstanceAs (Decidable True)
  | .onPacketAcked .. => inferInstanceAs (Decidable (_ ∧ _))
  | .onPacketLost .. => inferInstanceAs (Decidable True)
  | .exitSlowstart => inferInstanceAs (Decidable True)
  | .onRetransmissionTimeout .. => inferInstanceAs (Decidable True)
  | .onConnectionMigration => inferInstanceAs (Decidable True)
  | .setSlowStartLargeReduction .. => inferInstanceAs (Decidable True)

/-- The steps as a function. -/
def step? (fl : FloatArithmetic) (m : OliaSenders) : Event → Option OliaSenders
  | .setup pathID initialCongestionWindow initialMaxCongestionWindow =>
    if (defaultMinimumCongestionWindow ≤ initialCongestionWindow ∧
        initialCongestionWindow ≤ initialMaxCongestionWindow ∧
        initialMaxCongestionWindow < uint64Size) ∧ pathID ∉ m.map Prod.fst then
      some (m ++ [(pathID, .new initialCongestionWindow initialMaxCongestionWindow)])
    else none
  | .call pathID call =>
    (m.find? (·.1 = pathID)).bind fun p =>
      if m.Admits pathID p.2 call then some (m.apply fl pathID p.2 call) else none

theorem step_of_step? {fl : FloatArithmetic} {m t : OliaSenders} {event : Event}
    (h : m.step? fl event = some t) : Step fl m event t := by
  cases event with
  | setup pathID initialCongestionWindow initialMaxCongestionWindow =>
    rw [step?] at h
    split at h
    case isTrue hadmits =>
      obtain ⟨⟨hmin, hmax, hlt⟩, hfresh⟩ := hadmits
      exact Option.some.inj h ▸ .setup ⟨hmin, hmax, hlt⟩ hfresh
    case isFalse => exact absurd h (by simp)
  | call pathID call =>
    rw [step?] at h
    obtain ⟨⟨key, o⟩, hfind, h⟩ := Option.bind_eq_some_iff.mp h
    have hmem := List.mem_of_find?_eq_some hfind
    have hkey := List.find?_some hfind
    obtain rfl : key = pathID := of_decide_eq_true hkey
    split at h
    case isTrue hadmits => exact Option.some.inj h ▸ .call hmem hadmits
    case isFalse => exact absurd h (by simp)

end OliaSenders

/-! ## The count of one sender -/

namespace Olia

variable {o : Olia} {w rate : ℕ}

/-- Between two ACKs the count has not reached a unit in either direction. -/
def CountBounded (o : Olia) : Prop :=
  0 - (oliaUnit : ℤ) + 1 < o.sndCwndCnt ∧ o.sndCwndCnt < (oliaUnit : ℤ) - 1

/-- A count that starts over. -/
theorem countBounded_zero : 0 - (oliaUnit : ℤ) + 1 < 0 ∧ 0 < (oliaUnit : ℤ) - 1 := by decide

/-- An increment that is at most a third of the range is not taken for a negative number. -/
theorem increment_mem {incNum incDen : ℕ} (h : oliaScale incNum ≤ incDen * (uint64Size / 3)) :
    0 ≤ increment incNum incDen ∧ increment incNum incDen ≤ (uint64Size / 3 : ℕ) := by
  have hle : oliaScale incNum / incDen ≤ uint64Size / 3 := Nat.div_le_of_le_mul h
  unfold increment
  generalize oliaScale incNum / incDen = q at hle
  have heq : int64Wrap (q : ℤ) = q := by
    refine int64Wrap_eq ?_ ?_ <;> rw [uint64Size] at * <;> omega
  rw [heq]
  exact ⟨Int.natCast_nonneg _, Int.ofNat_le.mpr hle⟩

theorem incDen_eq (hden : 1 ≤ o.epsilonDen) (hw : 2 ≤ w) (hrate : 1 ≤ rate)
    (hfit : o.epsilonDen * w * rate < uint64Size) : o.incDen w rate = o.epsilonDen * w * rate := by
  have hpos : o.epsilonDen * w * rate ≠ 0 := by
    refine Nat.mul_ne_zero (Nat.mul_ne_zero ?_ ?_) ?_ <;> omega
  have hle : o.epsilonDen * w ≤ o.epsilonDen * w * rate := Nat.le_mul_of_pos_right _ hrate
  unfold incDen
  dsimp only
  rw [uint64Mul_eq (hle.trans_lt hfit), uint64Mul_eq hfit, if_neg hpos]

/-- The increment that is added unless epsilon is negative. With the denominator 2, where a third of
the range is not enough in general, there is one path with the rate 1. -/
theorem oliaScale_incNum_le (heps : o.epsilonNum = 0 ∨ o.epsilonNum = 1) (hden : 1 ≤ o.epsilonDen)
    (hw : 2 ≤ w) (hrate : 1 ≤ rate) :
    oliaScale (uint64Add (uint64Mul (o.epsilonNum % uint64Size).toNat rate)
      (uint64Mul (uint64Mul o.epsilonDen (oliaScale w)) (oliaScale w))) ≤
      o.epsilonDen * w * rate * (uint64Size / 3) := by
  by_cases hsmall : o.epsilonDen * w * rate ≤ 2
  · have hle : w ≤ o.epsilonDen * w := Nat.le_mul_of_pos_left _ hden
    have hle' : o.epsilonDen * w ≤ o.epsilonDen * w * rate := Nat.le_mul_of_pos_right _ hrate
    have hw' : w = 2 := by omega
    subst hw'
    have hden' : o.epsilonDen = 1 := by omega
    rw [hden'] at hsmall ⊢
    have hrate' : rate = 1 := by omega
    subst hrate'
    rcases heps with h | h <;> rw [h] <;> decide
  · have hlt : ∀ x, oliaScale x < uint64Size := fun x => Nat.mod_lt _ (by decide)
    refine (Nat.le_of_lt_succ ((hlt _).trans_le ?_)).trans
      (Nat.mul_le_mul_right (uint64Size / 3) (Nat.lt_of_not_le hsmall))
    decide

/-- Unless epsilon is negative, the count does not go down. -/
theorem le_nextCount (hcount : o.CountBounded) (heps : o.epsilonNum = 0 ∨ o.epsilonNum = 1)
    (hden : 1 ≤ o.epsilonDen) (hw : 2 ≤ w) (hrate : 1 ≤ rate)
    (hfit : o.epsilonDen * w * rate < uint64Size) :
    o.sndCwndCnt ≤ o.nextCount w rate (oliaScale w) := by
  obtain ⟨hlow, hhigh⟩ := hcount
  have hne : o.epsilonNum ≠ -1 := by omega
  unfold nextCount
  dsimp only
  rw [if_neg hne, incDen_eq hden hw hrate hfit]
  obtain ⟨hnonneg, hthird⟩ := increment_mem (oliaScale_incNum_le heps hden hw hrate)
  generalize increment _ _ = inc at hnonneg hthird
  rw [int64Wrap_eq] <;> simp only [oliaUnit, oliaScaleBits, uint64Size] at * <;> omega

/-- After an ACK the count is bounded again. The window grows by one packet at most, and it falls by
one only if epsilon is negative. -/
theorem congestionWindowAfterAck_spec (hcount : o.CountBounded) (hw : 2 ≤ w) (hlt : w < uint64Size)
    (hdown : o.epsilonNum = -1 ∨ o.sndCwndCnt ≤ o.nextCount w rate (oliaScale w)) :
    (o.congestionWindowAfterAck w rate (oliaScale w)).2.CountBounded ∧
      (o.congestionWindowAfterAck w rate (oliaScale w)).1 ≤ w + 1 ∧
      (w ≤ (o.congestionWindowAfterAck w rate (oliaScale w)).1 ∨
        o.epsilonNum = -1 ∧ w - 1 ≤ (o.congestionWindowAfterAck w rate (oliaScale w)).1) := by
  obtain ⟨hlow, hhigh⟩ := hcount
  unfold congestionWindowAfterAck
  dsimp only
  generalize o.nextCount w rate (oliaScale w) = count at hdown ⊢
  by_cases hup : (oliaUnit : ℤ) - 1 ≤ count
  · rw [if_pos hup]
    exact ⟨countBounded_zero, le_refl _, .inl (Nat.le_succ w)⟩
  · rw [if_neg hup]
    by_cases hunit : count ≤ 0 - (oliaUnit : ℤ) + 1
    · rw [if_pos hunit, uint64Sub_eq hlt (by omega)]
      -- a count that did not go down has not reached a unit
      have heps : o.epsilonNum = -1 := hdown.resolve_right (by omega)
      exact ⟨countBounded_zero, by omega, .inr ⟨heps, by omega⟩⟩
    · rw [if_neg hunit]
      exact ⟨⟨Int.lt_of_not_ge hunit, Int.lt_of_not_ge hup⟩, Nat.le_succ w, .inl (le_refl w)⟩

end Olia

/-! ## The epsilons of the senders -/

namespace OliaSenders

variable {m : OliaSenders} {reads : OliaReads} {p q : PathID × OliaSender} {pathID : PathID}
  {o : OliaSender}

theorem le_getMaxCwnd (hp : p ∈ m) : p.2.congestionWindow ≤ m.getMaxCwnd := by
  have hmax : m.getMaxCwnd = (m.map fun p => p.2.congestionWindow).foldl max 0 :=
    List.foldl_map.symm
  rw [hmax]
  exact RunningMax.le_foldl_max (.inr (List.mem_map_of_mem hp))

/-- A path ID is a byte. -/
theorem length_le (hnodup : (m.map Prod.fst).Nodup) : m.length ≤ UInt8.size := by
  have hnodup' := hnodup.map fun _ _ => UInt8.toNat_inj.mp
  have hsub : (m.map Prod.fst).map UInt8.toNat ⊆ List.range UInt8.size := by
    intro x hx
    obtain ⟨id, -, rfl⟩ := List.mem_map.mp hx
    exact List.mem_range.mpr id.toNat_lt
  have hle := (List.subperm_of_subset hnodup' hsub).length_le
  simpa using hle

/-- If epsilon is negative, then some other sender has a smaller window; otherwise it is 0 or 1, and
its denominator is not zero. -/
theorem epsilon_cases (reads : OliaReads) (p : PathID × OliaSender)
    (hnodup : (m.map Prod.fst).Nodup) :
    ((epsilon reads m p).1 = -1 ∧ ∃ q ∈ m, q.2.congestionWindow < p.2.congestionWindow) ∨
      (((epsilon reads m p).1 = 0 ∨ (epsilon reads m p).1 = 1) ∧ 1 ≤ (epsilon reads m p).2) := by
  unfold epsilon
  by_cases hcount : countBNotM reads m = 0
  · rw [if_pos hcount]
    exact .inr ⟨.inl rfl, le_refl 1⟩
  rw [if_neg hcount]
  have hpos : 0 < m.countP fun q =>
      q.2.congestionWindow ≠ m.getMaxCwnd && isBest reads (bestPath reads m) q := by
    refine Nat.pos_of_ne_zero fun hzero => hcount ?_
    rw [countBNotM, hzero, Nat.zero_mod]
  obtain ⟨q, hq, hbest⟩ := List.countP_pos_iff.mp hpos
  have hne : q.2.congestionWindow ≠ m.getMaxCwnd := by
    exact of_decide_eq_true (Bool.and_eq_true_iff.mp hbest).1
  by_cases hsmaller : p.2.congestionWindow < m.getMaxCwnd ∧ isBest reads (bestPath reads m) p
  · rw [if_pos hsmaller]
    refine .inr ⟨.inr rfl, ?_⟩
    have hlen : 0 < m.length := List.length_pos_of_mem hq
    have hmod : countBNotM reads m < UInt8.size := Nat.mod_lt _ (by decide)
    have hmul : m.length * countBNotM reads m < uint32Size :=
      (Nat.mul_le_mul (length_le hnodup) hmod.le).trans_lt (by decide)
    dsimp only
    rw [Nat.mod_eq_of_lt hmul]
    exact Nat.mul_pos hlen (Nat.pos_of_ne_zero hcount)
  rw [if_neg hsmaller]
  by_cases hlargest : p.2.congestionWindow = m.getMaxCwnd
  · rw [if_pos hlargest]
    exact .inl ⟨rfl, q, hq, hlargest ▸ lt_of_le_of_ne (le_getMaxCwnd hq) hne⟩
  · rw [if_neg hlargest]
    exact .inr ⟨.inl rfl, le_refl 1⟩

/-- The rate is the square of the sum, and positive. -/
theorem getRate_eq {pathRTT : ℕ}
    (hfit : rateSum reads pathRTT m * rateSum reads pathRTT m < uint64Size) :
    getRate reads pathRTT m = rateSum reads pathRTT m * rateSum reads pathRTT m ∧
      1 ≤ getRate reads pathRTT m := by
  have hpos : 1 ≤ rateSum reads pathRTT m := Nat.le_add_right 1 _
  have hsum : ∀ (l : OliaSenders) (x : ℕ), x + (l.map (rateTerm reads pathRTT)).sum < uint64Size →
      l.foldl (fun rate p => uint64Add rate (rateTerm reads pathRTT p)) x =
        x + (l.map (rateTerm reads pathRTT)).sum := by
    intro l
    induction l with
    | nil => exact fun x _ => rfl
    | cons p l ih =>
      intro x hlt
      rw [List.map_cons, List.sum_cons, ← Nat.add_assoc] at hlt ⊢
      rw [List.foldl_cons, uint64Add_eq ((Nat.le_add_right _ _).trans_lt hlt)]
      exact ih _ hlt
  have hlt : rateSum reads pathRTT m < uint64Size :=
    (Nat.le_mul_of_pos_left _ hpos).trans_lt hfit
  have heq : getRate reads pathRTT m = rateSum reads pathRTT m * rateSum reads pathRTT m := by
    unfold getRate
    rw [hsum m 1 hlt]
    exact uint64Mul_eq hfit
  exact ⟨heq, heq ▸ Nat.mul_pos hpos hpos⟩

end OliaSenders

/-! ## The invariant -/

/-- The window of a sender is within its bounds, and so is its count. -/
structure OliaSender.Bounded (o : OliaSender) : Prop where
  window : o.toWindowState.Bounded
  count : o.olia.CountBounded

theorem OliaSender.Bounded.onPacketLost {o : OliaSender} {fl : FloatArithmetic} (ho : o.Bounded)
    (hfl : fl.BacksOff) (packetNumber lostBytes : ℕ) :
    (o.onPacketLost fl packetNumber lostBytes).Bounded := by
  refine ⟨ho.window.onPacketLost (hfl.reno_le _ _) _ _, ?_⟩
  unfold OliaSender.onPacketLost
  dsimp only
  split_ifs <;> exact ho.count

theorem OliaSender.Bounded.onRetransmissionTimeout {o : OliaSender} (ho : o.Bounded)
    (packetsRetransmitted : Bool) : (o.onRetransmissionTimeout packetsRetransmitted).Bounded := by
  refine ⟨ho.window.onRetransmissionTimeout packetsRetransmitted, ?_⟩
  cases packetsRetransmitted with
  | false => exact ho.count
  | true => exact Olia.countBounded_zero

namespace OliaSenders

/-- Every sender of the map is within its bounds, and no two have one path. -/
structure Bounded (m : OliaSenders) : Prop where
  nodup : (m.map Prod.fst).Nodup
  senders : ∀ p ∈ m, p.2.Bounded

variable {m : OliaSenders} {reads : OliaReads} {p : PathID × OliaSender} {pathID : PathID}
  {o : OliaSender} {fl : FloatArithmetic}

theorem Bounded.put (h : m.Bounded) (ho : o.Bounded) : (m.put pathID o).Bounded := by
  refine ⟨KeyedList.nodup_replaceKey h.nodup, fun p hp => ?_⟩
  rcases KeyedList.mem_replaceKey hp with rfl | ⟨hmem, -⟩
  · exact ho
  · exact h.senders p hmem

theorem Bounded.getEpsilon (h : m.Bounded) (reads : OliaReads) :
    (OliaSenders.getEpsilon reads m).Bounded := by
  unfold OliaSenders.getEpsilon
  refine ⟨?_, fun q hq => ?_⟩
  · rw [List.map_map]
    exact h.nodup
  · obtain ⟨p, hp, rfl⟩ := List.mem_map.mp hq
    exact ⟨(h.senders p hp).window, (h.senders p hp).count⟩

/-- An ACK in congestion avoidance. If the window falls, then some other sender has a smaller one,
which is not below the minimum. -/
theorem Bounded.afterAck (h : m.Bounded) (hmem : (pathID, o) ∈ m)
    (hlt : o.congestionWindow < o.maxTCPCongestionWindow) (hfit : m.ProductsFit reads pathID o) :
    ((setEpsilon reads m (pathID, o)).afterAck
      (getRate reads (reads.smoothedRTT pathID) (OliaSenders.getEpsilon reads m))).Bounded := by
  obtain ⟨hrate, hincDen⟩ := hfit
  obtain ⟨hrate_eq, hrate_pos⟩ := getRate_eq hrate
  have hmin := (h.senders _ hmem).window.min_le
  have hcount : (setEpsilon reads m (pathID, o)).olia.CountBounded := (h.senders _ hmem).count
  have hsize : o.congestionWindow < uint64Size := (h.senders _ hmem).window.window_lt
  rw [← hrate_eq] at hincDen
  have hcases := epsilon_cases reads (pathID, o) h.nodup
  obtain ⟨hcount', -, hdown⟩ := Olia.congestionWindowAfterAck_spec hcount hmin hsize
    (hcases.imp And.left fun hnot => Olia.le_nextCount hcount hnot.1 hnot.2 hmin hrate_pos hincDen)
  refine ⟨(h.senders _ hmem).window.of_limits_eq rfl ?_ (min_le_left _ _), hcount'⟩
  refine le_min (hmin.trans hlt.le) ?_
  rcases hdown with hle | ⟨heps, hle⟩
  · exact hmin.trans hle
  · rcases hcases with ⟨-, q, hq, hsmaller⟩ | ⟨hnot, -⟩
    · have hq_min := (h.senders q hq).window.min_le
      refine le_trans ?_ hle
      dsimp only [setEpsilon] at hsmaller ⊢
      omega
    · change (epsilon reads m (pathID, o)).1 = -1 at heps
      omega

/-- `maybeIncreaseCwnd` of a sender of the map. -/
theorem Bounded.maybeIncreaseCwnd (h : m.Bounded) (hmem : (pathID, o) ∈ m) {bytesInFlight : ℕ}
    (hfit : o.isCwndLimited bytesInFlight = true → o.congestionWindow < o.maxTCPCongestionWindow →
      o.inSlowStart = false → m.ProductsFit reads pathID o) :
    (OliaSenders.maybeIncreaseCwnd reads pathID o bytesInFlight m).Bounded := by
  have ho := h.senders _ hmem
  unfold OliaSenders.maybeIncreaseCwnd
  dsimp only
  by_cases hlimited : o.isCwndLimited bytesInFlight = true
  swap
  · rw [if_pos (by simpa using hlimited)]
    exact h
  rw [if_neg (by simpa using hlimited)]
  by_cases hfull : o.maxTCPCongestionWindow ≤ o.congestionWindow
  · rw [if_pos hfull]
    exact h
  rw [if_neg hfull]
  have hlt := lt_of_not_ge hfull
  by_cases hslow : o.inSlowStart = true
  · rw [if_pos hslow]
    exact h.put ⟨ho.window.grow hlt, ho.count⟩
  · rw [if_neg hslow]
    exact (h.getEpsilon reads).put
      (h.afterAck hmem hlt (hfit hlimited hlt (eq_false_of_ne_true hslow)))

theorem Bounded.onPacketAcked (h : m.Bounded) (hmem : (pathID, o) ∈ m)
    {ackedPacketNumber ackedBytes bytesInFlight : ℕ} (hadmits : m.Admits pathID o
      (.onPacketAcked reads ackedPacketNumber ackedBytes bytesInFlight)) :
    (m.onPacketAcked reads pathID o ackedPacketNumber ackedBytes bytesInFlight).Bounded := by
  have ho := h.senders _ hmem
  unfold OliaSenders.onPacketAcked
  dsimp only
  by_cases hrecovery : (o.acked ackedPacketNumber).inRecovery = true
  · rw [if_pos hrecovery]
    exact h.put ⟨ho.window.acked _, ho.count⟩
  · rw [if_neg hrecovery]
    have ho' : (o.countAcked ackedPacketNumber ackedBytes).Bounded := ⟨ho.window.acked _, ho.count⟩
    exact (h.put ho').maybeIncreaseCwnd (KeyedList.mem_replaceKey_self hmem rfl)
      (hadmits.2 (eq_false_of_ne_true hrecovery))

/-- Every call of a sender keeps the bounds of all senders. -/
theorem Bounded.apply (h : m.Bounded) (hfl : fl.BacksOff) (hmem : (pathID, o) ∈ m)
    {call : SenderCall OliaReads} (hadmits : m.Admits pathID o call) :
    (m.apply fl pathID o call).Bounded := by
  have ho := h.senders _ hmem
  cases call with
  | onPacketSent packetNumber isRetransmittable =>
    exact h.put ⟨ho.window.onPacketSent _ _, ho.count⟩
  | onPacketAcked reads ackedPacketNumber ackedBytes bytesInFlight =>
    exact h.onPacketAcked hmem hadmits
  | onPacketLost packetNumber lostBytes => exact h.put (ho.onPacketLost hfl _ _)
  | exitSlowstart => exact h.put ⟨ho.window.exitSlowstart, ho.count⟩
  | onRetransmissionTimeout packetsRetransmitted =>
    exact h.put (ho.onRetransmissionTimeout packetsRetransmitted)
  | onConnectionMigration => exact h.put ⟨ho.window.onConnectionMigration, Olia.countBounded_zero⟩
  | setSlowStartLargeReduction enabled =>
    exact h.put ⟨ho.window.setSlowStartLargeReduction enabled, ho.count⟩

/-- A new sender is within its bounds. -/
theorem Bounded.setup (h : m.Bounded) {initialCongestionWindow initialMaxCongestionWindow : ℕ}
    (hstarts : WindowState.Starts initialCongestionWindow initialMaxCongestionWindow)
    (hfresh : pathID ∉ m.map Prod.fst) :
    Bounded (m ++ [(pathID, .new initialCongestionWindow initialMaxCongestionWindow)]) := by
  refine ⟨?_, ?_⟩
  · rw [List.map_append, List.nodup_append_comm]
    exact List.nodup_cons.mpr ⟨hfresh, h.nodup⟩
  · rw [List.forall_mem_append, List.forall_mem_singleton]
    exact ⟨h.senders, .new hstarts, Olia.countBounded_zero⟩

/-- In every run all windows stay within their bounds. -/
theorem Bounded.run (hfl : fl.BacksOff) {events : List Event} (hrun : Run (Step fl) [] events m) :
    m.Bounded := by
  refine Run.invariant (I := fun _ m => m.Bounded) ⟨List.nodup_nil, by simp⟩ ?_ hrun
  rintro - m event _ h (⟨hstarts, hfresh⟩ | ⟨hmem, hadmits⟩)
  · exact h.setup hstarts hfresh
  · exact h.apply hfl hmem hadmits

end OliaSenders

end MPQuic
