import MPQuic.AckHandler.ReceivedPacketHandler

/-!
# The lower limit for acknowledgements

A STOP_WAITING frame tells the receiver which packets the sender has given up. The handler keeps
only the limit of the last frame, whatever its value, while the history remembers the largest one
in `lowestInReceivedPacketNumbers`, which nothing reads. A limit that arrives late therefore opens
the range between the two again: `ackFrame_lowered_limit` is a run that acknowledges a packet below
an earlier limit, and `ackFrame_above_limits` says that such packets are the only way to get there.
-/

namespace MPQuic

open IntervalList Transition

namespace ReceivedPacketHandler

/-- A call on the handler. -/
inductive Call where
  | receivedPacket (now packetNumber : ℕ) (shouldInstigateAck : Bool) (payloadLength : ℕ)
  | setLowerLimit (p : ℕ)
  | getAckFrame (now : ℕ)
  deriving DecidableEq

/-- The effect of a call. A packet that is refused with an error may still be counted. -/
def Step (h : ReceivedPacketHandler) (c : Call) (h' : ReceivedPacketHandler) : Prop :=
  match c with
  | .receivedPacket now n inst len => h' = (h.receivedPacket now n inst len).1
  | .setLowerLimit p => h' = h.setLowerLimit p
  | .getAckFrame now => ∃ ack, h.getAckFrame now = .ok (ack, h')

/-- A packet above the lower limit does not lie below a limit that was set earlier. The largest
limit is the one that the history remembers, unless its successor overflows. -/
def InOrder (h : ReceivedPacketHandler) : Call → Prop
  | .receivedPacket _ n _ _ =>
    h.lowerLimit < n → h.packetHistory.lowestInReceivedPacketNumbers ≤ n
  | .setLowerLimit p => p + 1 < uint64Size
  | .getAckFrame _ => True

instance (h : ReceivedPacketHandler) (c : Call) : Decidable (h.InOrder c) := by
  cases c <;> unfold InOrder <;> infer_instance

variable {h h' : ReceivedPacketHandler}

/-- What `receivedPacket` does to the history, with or without an error. -/
theorem receivedPacket_packetHistory (h : ReceivedPacketHandler) (now n : ℕ) (inst : Bool)
    (len : ℕ) :
    (h.receivedPacket now n inst len).1.lowerLimit = h.lowerLimit ∧
      ((h.receivedPacket now n inst len).1.packetHistory = h.packetHistory ∨
        (0 < n ∧ h.lowerLimit < n ∧ h.packetHistory.receivedPacket n =
          .ok (h.receivedPacket now n inst len).1.packetHistory)) := by
  cases hcall : (h.receivedPacket now n inst len).2 with
  | none =>
    obtain ⟨hn, hlimit, -, ⟨-, hhistory⟩ | hnew⟩ := receivedPacket_eq_none (Prod.ext rfl hcall)
    · exact ⟨hlimit, .inl hhistory⟩
    · exact ⟨hlimit, .inr ⟨hn, hnew⟩⟩
  | some err =>
    unfold receivedPacket at hcall ⊢
    dsimp only at hcall ⊢
    split_ifs at hcall ⊢
    all_goals first | exact ⟨rfl, .inl rfl⟩ | skip
    all_goals
      split at hcall
      · exact ⟨rfl, .inl rfl⟩
      · cases hcall

/-- A frame acknowledges only packets above a bound of the history. -/
theorem lt_of_getAckFrame {now p n : ℕ} {f : AckFrame} (hwf : h.packetHistory.WellFormed)
    (hbound : ∀ m, h.packetHistory.Contains m → p < m)
    (hcall : h.getAckFrame now = .ok (some f, h')) (hn : f.acksPacket n) : p < n := by
  unfold getAckFrame at hcall
  split_ifs at hcall
  · cases hcall
  obtain ⟨acked, hacked, heq⟩ := Bytes.bind_eq_ok hcall
  cases heq
  unfold ackedPackets at hacked
  dsimp only at hacked
  split at hacked
  · cases hacked
  · next lowest hlowest =>
    cases hacked
    -- the lowest range of the history is where the frame starts
    rw [ReceivedPacketHistory.getAckRanges, List.getLast?_map, List.getLast?_reverse] at hlowest
    obtain ⟨r, hr, rfl⟩ := Option.map_eq_some_iff.mp hlowest
    have hmem : r ∈ h.packetHistory.ranges := List.mem_of_head? hr
    have hstart : p < r.start := hbound _ ⟨r, hmem, le_rfl, hwf.nonempty r hmem⟩
    exact hstart.trans_le ((AckedPackets.acksPacket_iff _ _).mp hn).1

/-- Every stored packet number is above all limits that were set so far. -/
structure AboveLimits (calls : List Call) (h : ReceivedPacketHandler) : Prop where
  wellFormed : h.packetHistory.WellFormed
  limit_lt : ∀ p, .setLowerLimit p ∈ calls → p < h.packetHistory.lowestInReceivedPacketNumbers
  lowest_le : ∀ n, h.packetHistory.Contains n → h.packetHistory.lowestInReceivedPacketNumbers ≤ n

theorem aboveLimits_new (version : VersionNumber) : AboveLimits [] (new version) where
  wellFormed := ReceivedPacketHistory.wellFormed_new
  limit_lt := by simp
  lowest_le n hn := absurd hn (ReceivedPacketHistory.not_contains_new n)

/-- Calls in order keep the stored packet numbers above the limits. -/
theorem AboveLimits.step {calls : List Call} {c : Call} (hinv : AboveLimits calls h)
    (horder : h.InOrder c) (hstep : Step h c h') : AboveLimits (calls ++ [c]) h' := by
  obtain ⟨hwf, hlimit, hlowest⟩ := hinv
  cases c with
  | receivedPacket now n inst len =>
    have hcalls : ∀ p, .setLowerLimit p ∈ calls ++ [.receivedPacket now n inst len] →
        p < h.packetHistory.lowestInReceivedPacketNumbers :=
      fun p hp => hlimit p (by simpa using hp)
    obtain rfl := hstep
    obtain ⟨-, hhistory | ⟨hn, hlt, hhistory⟩⟩ := h.receivedPacket_packetHistory now n inst len
    · exact ⟨hhistory ▸ hwf, hhistory ▸ hcalls, hhistory ▸ hlowest⟩
    · obtain ⟨hwf', hcontains⟩ := ReceivedPacketHistory.receivedPacket_spec hwf hn hhistory
      have hsame := ReceivedPacketHistory.receivedPacket_lowest hhistory
      refine ⟨hwf', hsame ▸ hcalls, fun m hm => ?_⟩
      rw [hsame]
      rcases (hcontains m).mp hm with rfl | hm
      · exact horder hlt
      · exact hlowest m hm
  | setLowerLimit p =>
    obtain rfl := hstep
    obtain ⟨hwf', hcontains⟩ := ReceivedPacketHistory.deleteUpTo_spec (p := p) hwf
    have hlow : (h.setLowerLimit p).packetHistory.lowestInReceivedPacketNumbers =
        max h.packetHistory.lowestInReceivedPacketNumbers (p + 1) := by
      rw [setLowerLimit, ReceivedPacketHistory.deleteUpTo, uint64Add_eq horder]
    refine ⟨hwf', fun q hq => ?_, fun n hn => ?_⟩
    · rw [hlow]
      rcases List.mem_append.mp hq with hq | hq
      · have := hlimit q hq
        omega
      · obtain rfl : q = p := by simpa using hq
        omega
    · obtain ⟨hp, hn⟩ := (hcontains n).mp hn
      have := hlowest n hn
      omega
  | getAckFrame now =>
    obtain ⟨ack, hcall⟩ := hstep
    obtain ⟨hhistory, -, -⟩ := getAckFrame_ok hcall
    exact ⟨hhistory ▸ hwf, fun p hp => hhistory ▸ hlimit p (by simpa using hp), hhistory ▸ hlowest⟩

/-- In every run in which no packet between the current limit and an earlier one is received, no
ACK frame acknowledges a packet that an earlier limit ruled out. -/
theorem ackFrame_above_limits {version : VersionNumber} {calls : List Call}
    (hrun : Run (fun h c h' => h.InOrder c ∧ Step h c h') (new version) calls h) {p : ℕ}
    (hp : .setLowerLimit p ∈ calls) {now : ℕ} {f : AckFrame}
    (hcall : h.getAckFrame now = .ok (some f, h')) {n : ℕ} (hn : f.acksPacket n) : p < n := by
  have hinv : AboveLimits calls h := hrun.invariant (aboveLimits_new version)
    fun _ _ _ _ hinv hstep => hinv.step hstep.1 hstep.2
  exact lt_of_getAckFrame hinv.wellFormed
    (fun m hm => (hinv.limit_lt p hp).trans_le (hinv.lowest_le m hm)) hcall hn

/-- Packet 7 brings the limit 5, so that packet 4 is not acknowledged when it arrives later. -/
theorem ackFrame_above_limits_example : ∃ (h h' : ReceivedPacketHandler) (f : AckFrame),
    h.getAckFrame 13 = .ok (some f, h') ∧ f.lowestAcked = 6 ∧ ∀ n, f.acksPacket n → 5 < n := by
  let h := ((((new versionMP).receivedPacket 10 7 true 0).1.setLowerLimit 5).receivedPacket
    11 4 true 0).1.receivedPacket 12 6 true 0 |>.1
  have hrun : Run (fun h c h' => h.InOrder c ∧ Step h c h') (new versionMP)
      [.receivedPacket 10 7 true 0, .setLowerLimit 5, .receivedPacket 11 4 true 0,
        .receivedPacket 12 6 true 0] h :=
    (((Run.nil.snoc ⟨by decide, rfl⟩).snoc ⟨by decide, rfl⟩).snoc ⟨by decide, rfl⟩).snoc
      ⟨by decide, rfl⟩
  exact ⟨h, _, _, rfl, rfl, fun n hn =>
    ackFrame_above_limits hrun (by simp) (rfl : h.getAckFrame 13 = _) hn⟩

/-- Packet 7 brings the limit 5, and packet 6, which was sent earlier, the limit 2. Packet 4 is then
acknowledged. -/
theorem ackFrame_lowered_limit : ∃ (calls : List Call) (h h' : ReceivedPacketHandler)
    (f : AckFrame), Run Step (new versionMP) calls h ∧ .setLowerLimit 5 ∈ calls ∧
      h.getAckFrame 13 = .ok (some f, h') ∧ f.acksPacket 4 := by
  have hrun : Run Step (new versionMP)
      [.receivedPacket 10 7 true 0, .setLowerLimit 5, .receivedPacket 11 6 true 0,
        .setLowerLimit 2, .receivedPacket 12 4 true 0] _ :=
    ((((Run.nil.snoc rfl).snoc rfl).snoc rfl).snoc rfl).snoc rfl
  exact ⟨_, _, _, _, hrun, by simp, rfl, rfl⟩

end ReceivedPacketHandler

end MPQuic
