import MPQuic.Congestion.Cubic
import MPQuic.Congestion.Olia

/-!
# The bounds of the congestion window

The OLIA senders of the paths of a connection, whose ACKs read each other's windows, and the Cubic
sender keep their windows between the minimum of two packets and the maximum they were made with.
-/

namespace MPQuic

open Transition

/-- The window lies between the minimum, which is two packets, and the maximum. -/
def WindowState.WithinBounds (s : WindowState) : Prop :=
  s.minCongestionWindow = 2 ∧ s.minCongestionWindow ≤ s.congestionWindow ∧
    s.congestionWindow ≤ s.maxTCPCongestionWindow

theorem WindowState.Bounded.withinBounds {s : WindowState} (h : s.Bounded) : s.WithinBounds :=
  ⟨h.min_eq, h.min_eq ▸ h.min_le, h.le_max⟩

/-- If no back-off raises the window, then the windows of all OLIA senders of a map, in every
interleaving of their calls in which the products do not wrap around, and the window of a Cubic
sender, in every run, stay within their bounds. -/
theorem congestionWindow_withinBounds {fl : FloatArithmetic} (hfl : fl.BacksOff) :
    (∀ (events : List OliaSenders.Event) (m : OliaSenders),
      Run (OliaSenders.Step fl) [] events m → ∀ p ∈ m, p.2.WithinBounds) ∧
    (∀ (reno : Bool) (initialCongestionWindow initialMaxCongestionWindow : ℕ),
      WindowState.Starts initialCongestionWindow initialMaxCongestionWindow →
      ∀ (calls : List (SenderCall CubicReads)) (s : CubicSender),
        Run (CubicSender.Step fl)
          (.new reno initialCongestionWindow initialMaxCongestionWindow) calls s →
        s.WithinBounds) := by
  constructor
  · intro events m hrun p hp
    exact ((OliaSenders.Bounded.run hfl hrun).senders p hp).window.withinBounds
  · intro reno initialCongestionWindow initialMaxCongestionWindow hstarts calls s hrun
    exact (CubicSender.Bounded.run hfl hstarts hrun).window.withinBounds

/-- The formulas of the senders, without the rounding of floating point numbers. -/
def exactArithmetic : FloatArithmetic where
  renoBackoff n w := w * (10 * n - 3) / (10 * n)
  cubicBackoff n w := w * (10 * n - 3) / (10 * n)
  lastMaxBackoff w := w * 85 / 100
  requiredAckCount n w := w * (20 * n - 3) / (9 * n * n)
  cbrt x := (List.range 22).foldr (fun i r => if (r + 2 ^ i) ^ 3 ≤ x then r + 2 ^ i else r) 0

theorem backsOff_exactArithmetic : exactArithmetic.BacksOff := by
  have hle : ∀ n w : ℕ, w * (10 * n - 3) / (10 * n) ≤ w := by
    intro n w
    refine Nat.div_le_of_le_mul ?_
    rw [Nat.mul_comm]
    exact Nat.mul_le_mul_right w (Nat.sub_le _ _)
  exact ⟨hle, hle⟩

/-- With an RTT that is a hundred times that of path 3, path 1 has the larger window and gives it
up, packet by packet. -/
def exampleReads : OliaReads where
  smoothedRTT pathID := if pathID = 1 then 100 else 1
  order := [3, 1]

/-- The window of path 1 falls from three packets to the minimum after seven ACKs, where the window
of path 3 is; and a Cubic sender cuts its window back from 32 to 27 packets and grows it again. -/
theorem congestionWindow_withinBounds_example :
    (∃ (events : List OliaSenders.Event) (m : OliaSenders),
      Run (OliaSenders.Step exactArithmetic) [] events m ∧
        m.map (fun p => (p.1, p.2.congestionWindow)) = [(1, 2), (3, 2)] ∧
        ∀ p ∈ m, p.2.WithinBounds) ∧
    ∃ (calls : List (SenderCall CubicReads)) (s : CubicSender),
      Run (CubicSender.Step exactArithmetic) (.new false 32 2500) calls s ∧
        s.congestionWindow = 28 ∧ s.WithinBounds := by
  obtain ⟨holia, hcubic⟩ := congestionWindow_withinBounds backsOff_exactArithmetic
  constructor
  · let acks : List OliaSenders.Event :=
      (List.range 7).map fun i => .call 1 (.onPacketAcked exampleReads (i + 1) 10 0)
    let events : List OliaSenders.Event :=
      [.setup 1 3 10, .setup 3 2 10, .call 1 .exitSlowstart, .call 3 .exitSlowstart,
        .call 3 (.onPacketAcked exampleReads 1 1350 0)] ++ acks
    have hevents : (events.foldlM (OliaSenders.step? exactArithmetic) []).any fun m =>
        m.map (fun p => (p.1, p.2.congestionWindow)) = [(1, 2), (3, 2)] := by
      decide +kernel
    obtain ⟨m, hrun, hwindows⟩ :=
      Run.exists_of_any (fun _ _ _ => OliaSenders.step_of_step?) hevents
    exact ⟨events, m, hrun, hwindows, holia events m hrun⟩
  · let reads : CubicReads := { now := 0, minRTT := 10 ^ 8, rounds := 10 }
    let calls : List (SenderCall CubicReads) :=
      [.exitSlowstart, .onPacketSent 5 true, .onPacketAcked reads 1 1350 (2 ^ 16),
        .onPacketLost 2 1350, .onPacketAcked { reads with now := 10 ^ 9 } 6 1350 (2 ^ 16)]
    have hcalls : (calls.foldlM (CubicSender.apply exactArithmetic) (.new false 32 2500)).any
        fun s => s.congestionWindow = 28 := by
      decide +kernel
    obtain ⟨s, hrun, hwindow⟩ := Run.exists_of_any (fun _ _ _ => id) hcalls
    exact ⟨calls, s, hrun, hwindow,
      hcubic false 32 2500 ⟨by decide, by decide, by decide⟩ calls s hrun⟩

end MPQuic
