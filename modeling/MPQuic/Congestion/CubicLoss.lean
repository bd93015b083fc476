import MPQuic.Congestion.CubicEpoch

/-!
# The first window after a loss

`CongestionWindowAfterPacketLoss` starts a new cycle: it forgets the epoch, so that the next ACK
computes the origin point, the time to it and the estimate anew. It does not forget
`lastCongestionWindow` and `lastUpdateTime`. If the window was at the reduced size within the last
30 ms, the next ACK repeats the target of before the loss.

## Main results

* `Cubic.windowAfterLoss_eq`: the window of the next ACK is the last result or the first window of
  a new cycle, which depends on the last maximum and the number of connections only.
* `Cubic.windowAfterLoss_eq_of_lossForgets`: two states have the same window after a loss, unless
  one of them repeats its last result.
-/

namespace MPQuic

open Transition

namespace Cubic

variable {fl : FloatArithmetic} {reads : CubicReads} {c c₁ c₂ : Cubic} {rounds w : ℕ}

/-- The window of the ACK that follows a loss. -/
def windowAfterLoss (fl : FloatArithmetic) (c : Cubic) (w : ℕ) (reads : CubicReads) : Option ℕ :=
  let afterLoss := c.congestionWindowAfterPacketLoss fl w
  (afterLoss.2.congestionWindowAfterAck fl reads afterLoss.1).map Prod.fst

/-- The result that is repeated within 30 ms. -/
def lastResult (c : Cubic) : ℕ :=
  max c.lastTargetCongestionWindow c.estimatedTCPcongestionWindow

/-- The state with which the first ACK starts a cycle, if nothing but the last maximum is known of
the time before. -/
def freshCycle (fl : FloatArithmetic) (numConnections lastMaxCongestionWindow w : ℕ) (now : ℤ) :
    Cubic :=
  startEpoch fl
    { initial numConnections with lastMaxCongestionWindow := lastMaxCongestionWindow } w now

/-- The first window of a cycle. -/
def firstWindow (fl : FloatArithmetic) (numConnections lastMaxCongestionWindow w : ℕ)
    (reads : CubicReads) : Option ℕ :=
  let cycle := freshCycle fl numConnections lastMaxCongestionWindow w reads.now
  (cycle.updateEstimate fl reads.rounds).map fun c =>
    max (cycle.targetCongestionWindow reads.now reads.minRTT) c.estimatedTCPcongestionWindow

/-- The loop over the estimate ends once the window takes more ACKs than there are. -/
theorem updateEstimate_isSome_of_large {large : ℕ}
    (hlarge : ∀ w, large ≤ w → c.ackedPacketsCount < fl.requiredAckCount c.numConnections w)
    (hrounds : large < c.estimatedTCPcongestionWindow + rounds) (hpos : 0 < rounds) :
    (c.updateEstimate fl rounds).isSome := by
  induction rounds generalizing c with
  | zero => exact absurd hpos (Nat.lt_irrefl 0)
  | succ rounds ih =>
    rw [updateEstimate]
    split_ifs with hlt
    · rfl
    · -- the count of ACKs only falls, and the estimate comes closer to `large` with every round
      have hsmall : c.estimatedTCPcongestionWindow < large := by
        by_contra hle
        exact hlt (hlarge _ (Nat.le_of_not_lt hle))
      refine ih (fun w hw => ?_) (by dsimp only; omega) (by omega)
      exact (Nat.sub_le _ _).trans_lt (hlarge w hw)

theorem firstWindow_isSome {numConnections large : ℕ}
    (hlarge : ∀ w, large ≤ w → 1 < fl.requiredAckCount numConnections w)
    (hrounds : large < reads.rounds) (lastMaxCongestionWindow w : ℕ) :
    (firstWindow fl numConnections lastMaxCongestionWindow w reads).isSome := by
  have hcycle : ∀ now, (freshCycle fl numConnections lastMaxCongestionWindow w now).numConnections =
        numConnections ∧
      (freshCycle fl numConnections lastMaxCongestionWindow w now).ackedPacketsCount = 1 := by
    intro now
    unfold freshCycle startEpoch
    dsimp only
    split_ifs <;> exact ⟨rfl, rfl⟩
  obtain ⟨hconn, hacked⟩ := hcycle reads.now
  unfold firstWindow
  rw [Option.isSome_map]
  exact updateEstimate_isSome_of_large (by rwa [hconn, hacked]) (by omega) (by omega)

/-- The estimate depends on the estimate before, the count of ACKs and the number of connections. -/
theorem updateEstimate_map_congr (hconn : c₁.numConnections = c₂.numConnections)
    (hacked : c₁.ackedPacketsCount = c₂.ackedPacketsCount)
    (hest : c₁.estimatedTCPcongestionWindow = c₂.estimatedTCPcongestionWindow) (rounds : ℕ) :
    (c₁.updateEstimate fl rounds).map estimatedTCPcongestionWindow =
      (c₂.updateEstimate fl rounds).map estimatedTCPcongestionWindow := by
  induction rounds generalizing c₁ c₂ with
  | zero => rfl
  | succ rounds ih =>
    rw [updateEstimate, updateEstimate, hconn, hacked, hest]
    split_ifs
    · exact congrArg some hest
    · exact ih rfl rfl rfl

/-- The first ACK of a cycle takes over the last maximum and the number of connections. -/
theorem startEpoch_eq (fl : FloatArithmetic) (c : Cubic) (w : ℕ) (now : ℤ) :
    c.startEpoch fl w now =
      { freshCycle fl c.numConnections c.lastMaxCongestionWindow w now with
        appLimitedStartTime := c.appLimitedStartTime
        lastUpdateTime := c.lastUpdateTime
        lastCongestionWindow := c.lastCongestionWindow
        lastTargetCongestionWindow := c.lastTargetCongestionWindow } := by
  unfold freshCycle startEpoch
  dsimp only
  split_ifs <;> rfl

theorem window_of_isRecent (h : c.isRecent w reads.now) :
    (c.congestionWindowAfterAck fl reads w).map Prod.fst = some c.lastResult :=
  congrArg (Option.map Prod.fst) (congestionWindowAfterAck_of_isRecent h)

theorem window_of_epoch_eq_none (hepoch : c.epoch = none) (h : ¬ c.isRecent w reads.now) :
    (c.congestionWindowAfterAck fl reads w).map Prod.fst =
      firstWindow fl c.numConnections c.lastMaxCongestionWindow w reads := by
  let cycle := freshCycle fl c.numConnections c.lastMaxCongestionWindow w reads.now
  let entered : Cubic := { cycle with
    appLimitedStartTime := c.appLimitedStartTime
    lastUpdateTime := some reads.now
    lastCongestionWindow := w
    lastTargetCongestionWindow := c.lastTargetCongestionWindow }
  have hentered : c.entered fl w reads.now = entered := by
    unfold Cubic.entered enterEpoch
    simp only [hepoch, startEpoch_eq]
    rfl
  rw [congestionWindowAfterAck_of_not_isRecent h, hentered, Option.map_map]
  -- the fields that differ from those of a fresh cycle are not read
  have hest : (entered.updateEstimate fl reads.rounds).map estimatedTCPcongestionWindow =
      (cycle.updateEstimate fl reads.rounds).map estimatedTCPcongestionWindow :=
    updateEstimate_map_congr (by rfl) (by rfl) (by rfl) reads.rounds
  have hwindow := congrArg
    (Option.map (max (cycle.targetCongestionWindow reads.now reads.minRTT))) hest
  rw [Option.map_map, Option.map_map] at hwindow
  exact hwindow

/-- The window of the next ACK. -/
theorem windowAfterLoss_eq (fl : FloatArithmetic) (c : Cubic) (w : ℕ) (reads : CubicReads) :
    c.windowAfterLoss fl w reads =
      if c.isRecent (c.congestionWindowAfterPacketLoss fl w).1 reads.now then some c.lastResult
      else
        firstWindow fl c.numConnections
          (c.congestionWindowAfterPacketLoss fl w).2.lastMaxCongestionWindow
          (c.congestionWindowAfterPacketLoss fl w).1 reads := by
  unfold windowAfterLoss
  split_ifs with h
  · exact window_of_isRecent h
  · exact window_of_epoch_eq_none rfl h

/-- What remains of the time before the loss does not show: neither state has had the reduced window
within the last 30 ms, or both have, with the same result. -/
def LossForgets (fl : FloatArithmetic) (c₁ c₂ : Cubic) (w : ℕ) (now : ℤ) : Prop :=
  let reduced := (c₁.congestionWindowAfterPacketLoss fl w).1
  (c₁.isRecent reduced now = false ∧ c₂.isRecent reduced now = false) ∨
    (c₁.isRecent reduced now = true ∧ c₂.isRecent reduced now = true ∧
      c₁.lastResult = c₂.lastResult)

/-- Two states that agree on the last maximum and the number of connections have the same window
after a loss, if a large window takes more than one ACK and the loss makes the algorithm forget the
results of before. -/
theorem windowAfterLoss_eq_of_lossForgets {large : ℕ}
    (hlast : c₁.lastMaxCongestionWindow = c₂.lastMaxCongestionWindow)
    (hconn : c₁.numConnections = c₂.numConnections)
    (hlarge : ∀ w, large ≤ w → 1 < fl.requiredAckCount c₁.numConnections w)
    (hrounds : large < reads.rounds) (hforgets : LossForgets fl c₁ c₂ w reads.now) :
    ∃ window, c₁.windowAfterLoss fl w reads = some window ∧
      c₂.windowAfterLoss fl w reads = some window := by
  have hwindow : (c₂.congestionWindowAfterPacketLoss fl w).1 =
      (c₁.congestionWindowAfterPacketLoss fl w).1 :=
    congrArg (fl.cubicBackoff · w) hconn.symm
  have hmax : (c₂.congestionWindowAfterPacketLoss fl w).2.lastMaxCongestionWindow =
      (c₁.congestionWindowAfterPacketLoss fl w).2.lastMaxCongestionWindow := by
    dsimp only [congestionWindowAfterPacketLoss]
    rw [hlast]
  obtain ⟨first, hfirst⟩ := Option.isSome_iff_exists.mp (firstWindow_isSome hlarge hrounds
    (c₁.congestionWindowAfterPacketLoss fl w).2.lastMaxCongestionWindow
    (c₁.congestionWindowAfterPacketLoss fl w).1)
  rw [windowAfterLoss_eq, windowAfterLoss_eq, hwindow, hmax, ← hconn]
  rcases hforgets with ⟨h₁, h₂⟩ | ⟨h₁, h₂, hresult⟩
  · -- the first window of the cycle is the same for both states
    rw [h₁, h₂, hfirst]
    exact ⟨first, rfl, rfl⟩
  · rw [h₁, h₂, hresult]
    exact ⟨c₂.lastResult, rfl, rfl⟩

/-- Two ACKs at a window of 85 packets, of which the second raises it to 100 packets. -/
def exampleEvents : List Event := [.ack 85 (readsAt 0), .ack 85 (readsAt 3300)]

/-- If the ACK after the loss comes 40 ms after the last result, the window is that of an object
without a past. -/
theorem windowAfterLoss_eq_later :
    ∃ s : Clocked, Run (Step exactArithmetic) ⟨.new, 0⟩ exampleEvents s ∧
      s.cubic.lastResult = 100 ∧
      ∃ window, s.cubic.windowAfterLoss exactArithmetic 100 (readsAt 3340) = some window ∧
        Cubic.new.windowAfterLoss exactArithmetic 100 (readsAt 3340) = some window := by
  have hevents : (exampleEvents.foldlM (step? exactArithmetic) ⟨.new, 0⟩).any fun s =>
      s.cubic.lastResult = 100 ∧ s.cubic.lastMaxCongestionWindow = 0 ∧
        s.cubic.numConnections = 2 ∧
        s.cubic.isRecent (s.cubic.congestionWindowAfterPacketLoss exactArithmetic 100).1
          (readsAt 3340).now = false ∧
        Cubic.new.isRecent (s.cubic.congestionWindowAfterPacketLoss exactArithmetic 100).1
          (readsAt 3340).now = false := by
    decide +kernel
  obtain ⟨s, hrun, hresult, hlast, hconn, hrecent, hnew⟩ :=
    Run.exists_of_any (fun _ _ _ => step_of_step?) hevents
  have hmax : s.cubic.lastMaxCongestionWindow = Cubic.new.lastMaxCongestionWindow := hlast
  have hrounds : 2 < (readsAt 3340).rounds := by decide
  have hlarge : ∀ w, 2 ≤ w → 1 < exactArithmetic.requiredAckCount s.cubic.numConnections w := by
    intro w hw
    rw [hconn]
    dsimp only [exactArithmetic]
    omega
  exact ⟨s, hrun, hresult,
    windowAfterLoss_eq_of_lossForgets hmax hconn hlarge hrounds (.inl ⟨hrecent, hnew⟩)⟩

/-- A loss 20 ms after the last result reduces the window from 100 to 85 packets. The next ACK
raises it to 100 packets again, where an object without a past has 86. -/
theorem windowAfterLoss_repeats :
    ∃ s : Clocked, Run (Step exactArithmetic) ⟨.new, 0⟩ exampleEvents s ∧
      s.time ≤ (readsAt 3320).now ∧
      s.cubic.lastMaxCongestionWindow = Cubic.new.lastMaxCongestionWindow ∧
      s.cubic.numConnections = Cubic.new.numConnections ∧
      s.cubic.appLimitedStartTime = Cubic.new.appLimitedStartTime ∧
      s.cubic.windowAfterLoss exactArithmetic 100 (readsAt 3320) = some 100 ∧
      Cubic.new.windowAfterLoss exactArithmetic 100 (readsAt 3320) = some 86 := by
  exact Run.exists_of_any (fun _ _ _ => step_of_step?) (by decide +kernel)

end Cubic

end MPQuic
