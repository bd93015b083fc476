import Mathlib.Algebra.Order.BigOperators.Group.List
import Mathlib.Algebra.Order.Group.Nat
import MPQuic.FlowControl.FlowControlManager
import MPQuic.Lib.Transition

/-!
# Flow control of received data

What the receiving side of the flow control manager keeps over every sequence of calls: the
connection counts what its streams count, nothing is read that was not received, and nothing is
received beyond the window. Streams and the connection are updated by different calls, and the
increment of a stream raises that of the connection, so that the invariants are proved together.

* `FlowController.Receives` is the invariant of one controller, `Accounted` that of the manager.
  `Counted` is what it says about the counts alone, whatever the windows are.
* `ConnectionParameters.Sound` and `InRange` keep the windows in the 64-bit range, where an update
  never lowers a window.
* `receive_accounting` is the result.
-/

namespace MPQuic

open KeyedList Transition
open FlowController (highestReceived bytesRead)

/-- The windows of the connection parameters are far from the end of the 64-bit range, and the
maximum ones are not below the half of the initial ones. -/
structure ConnectionParameters.Sound (p : ConnectionParameters) : Prop where
  stream_le : p.receiveStreamFlowControlWindow ≤ 2 ^ 62
  conn_le : p.receiveConnectionFlowControlWindow ≤ 2 ^ 62
  maxStream_le : p.maxReceiveStreamFlowControlWindow ≤ 2 ^ 62
  maxConn_le : p.maxReceiveConnectionFlowControlWindow ≤ 2 ^ 62
  halfStream_le :
    p.receiveStreamFlowControlWindow / 2 ≤ p.maxReceiveStreamFlowControlWindow + 1
  halfConn_le :
    p.receiveConnectionFlowControlWindow / 2 ≤ p.maxReceiveConnectionFlowControlWindow + 1

/-! ## One controller -/

namespace FlowController

variable {c c' : FlowController} {clock : WindowClock}

/-- The bytes that were read were received, and what was received was allowed. A new window is one
increment above the bytes that were read, which is not below the old one if the maximum is not below
the half of the current increment. -/
structure Receives (c : FlowController) : Prop where
  read_le : c.bytesRead ≤ c.highestReceived
  highest_le : c.highestReceived ≤ c.receiveWindow
  window_le : c.receiveWindow ≤ c.bytesRead + 2 ^ 62
  increment_le : c.receiveWindowIncrement ≤ 2 ^ 62
  max_le : c.maxReceiveWindowIncrement ≤ 2 ^ 62
  half_le : c.receiveWindowIncrement / 2 ≤ c.maxReceiveWindowIncrement + 1

/-- The windows that the controller can offer stay far from the end of the 64-bit range. -/
def InRange (c : FlowController) : Prop := c.bytesRead < 2 ^ 62

instance (c : FlowController) : Decidable c.InRange := inferInstanceAs (Decidable (_ < _))

/-- `c'` counts the same bytes as `c`, perhaps with another receive window. -/
structure SameBytes (c c' : FlowController) : Prop where
  streamID : c'.streamID = c.streamID
  contributes : c'.contributesToConnection = c.contributesToConnection
  read : c'.bytesRead = c.bytesRead
  highest : c'.highestReceived = c.highestReceived
  max : c'.maxReceiveWindowIncrement = c.maxReceiveWindowIncrement

theorem SameBytes.refl (c : FlowController) : c.SameBytes c := ⟨rfl, rfl, rfl, rfl, rfl⟩

/-- An adjusted increment is the old one or the doubled one. -/
theorem maybeAdjustWindowIncrement_eq (c : FlowController) (clock : WindowClock) :
    c.maybeAdjustWindowIncrement clock = c ∨
      c.maybeAdjustWindowIncrement clock = { c with
        receiveWindowIncrement :=
          min (uint64Mul 2 c.receiveWindowIncrement) c.maxReceiveWindowIncrement } := by
  unfold maybeAdjustWindowIncrement
  split
  · exact .inl rfl
  · dsimp only
    split_ifs
    · exact .inl rfl
    · exact .inl rfl
    · exact .inr rfl

/-- The window is left as it is if half of the increment is left; otherwise it is set anew, for an
increment that is the old one or the doubled one. -/
theorem maybeUpdateWindow_cases (c : FlowController) (clock : WindowClock) :
    (c.receiveWindowIncrement / 2 ≤ uint64Sub c.receiveWindow c.bytesRead ∧
        c.maybeUpdateWindow clock =
          (⟨false, c.receiveWindowIncrement, c.receiveWindow⟩, c)) ∨
      (uint64Sub c.receiveWindow c.bytesRead < c.receiveWindowIncrement / 2 ∧
        ∃ inc, (inc = c.receiveWindowIncrement ∨
            inc = min (uint64Mul 2 c.receiveWindowIncrement) c.maxReceiveWindowIncrement) ∧
          (c.maybeUpdateWindow clock).1.necessary = true ∧
          (c.maybeUpdateWindow clock).1.offset = uint64Add c.bytesRead inc ∧
          (c.maybeUpdateWindow clock).2 = { c with
            lastWindowUpdateTime := some clock.now
            receiveWindowIncrement := inc
            receiveWindow := uint64Add c.bytesRead inc }) := by
  unfold maybeUpdateWindow
  dsimp only
  by_cases hdiff : uint64Sub c.receiveWindow c.bytesRead < c.receiveWindowIncrement / 2
  · rw [if_pos hdiff]
    refine .inr ⟨hdiff, (c.maybeAdjustWindowIncrement clock).receiveWindowIncrement, ?_⟩
    rcases maybeAdjustWindowIncrement_eq c clock with heq | heq
    · rw [heq]
      exact ⟨.inl rfl, rfl, rfl, rfl⟩
    · rw [heq]
      exact ⟨.inr rfl, rfl, rfl, rfl⟩
  · rw [if_neg hdiff]
    exact .inl ⟨not_lt.mp hdiff, rfl⟩

theorem sameBytes_maybeUpdateWindow (c : FlowController) (clock : WindowClock) :
    c.SameBytes (c.maybeUpdateWindow clock).2 := by
  rcases maybeUpdateWindow_cases c clock with ⟨-, heq⟩ | ⟨-, inc, -, -, -, heq⟩
  · rw [heq]
    exact .refl c
  · rw [heq]
    exact ⟨rfl, rfl, rfl, rfl, rfl⟩

/-- What is offered is the window afterwards. -/
theorem offset_maybeUpdateWindow (c : FlowController) (clock : WindowClock) :
    (c.maybeUpdateWindow clock).1.offset = (c.maybeUpdateWindow clock).2.receiveWindow := by
  rcases maybeUpdateWindow_cases c clock with ⟨-, heq⟩ | ⟨-, inc, -, -, hoffset, heq⟩
  · rw [heq]
  · rw [heq, hoffset]

/-- In the 64-bit range an update keeps the invariant, does not lower the window, and leaves at
least half of the increment. -/
theorem Receives.maybeUpdateWindow (h : c.Receives) (hrange : c.InRange) (clock : WindowClock) :
    let c' := (c.maybeUpdateWindow clock).2
    c'.Receives ∧ c.receiveWindow ≤ c'.receiveWindow ∧
      c'.receiveWindowIncrement / 2 ≤ c'.receiveWindow - c'.bytesRead := by
  obtain ⟨hread, hhighest, hwindow, hinc, hmax, hhalfMax⟩ := h
  unfold InRange at hrange
  have hdiff : uint64Sub c.receiveWindow c.bytesRead = c.receiveWindow - c.bytesRead :=
    uint64Sub_eq (by unfold uint64Size; omega) (by omega)
  have hdouble : uint64Mul 2 c.receiveWindowIncrement = 2 * c.receiveWindowIncrement :=
    uint64Mul_eq (by unfold uint64Size; omega)
  rcases maybeUpdateWindow_cases c clock with ⟨hhalf, heq⟩ | ⟨hhalf, inc, hnew, -, -, heq⟩
  · rw [heq]
    rw [hdiff] at hhalf
    exact ⟨⟨hread, hhighest, hwindow, hinc, hmax, hhalfMax⟩, le_rfl, hhalf⟩
  · -- the old window left less than half of the old increment
    have hle : c.receiveWindowIncrement / 2 ≤ inc + 1 ∧ inc ≤ 2 ^ 62 ∧
        inc / 2 ≤ c.maxReceiveWindowIncrement + 1 := by
      rw [hdouble] at hnew
      omega
    have hadd : uint64Add c.bytesRead inc = c.bytesRead + inc :=
      uint64Add_eq (by unfold uint64Size; omega)
    rw [hdiff] at hhalf
    rw [heq, hadd]
    exact ⟨⟨hread, by dsimp only; omega, by dsimp only; omega, hle.2.1, hmax, hle.2.2⟩,
      by dsimp only; omega, by dsimp only; omega⟩

theorem sameBytes_ensureMinimumWindowIncrement (c : FlowController) (inc : ℕ) :
    c.SameBytes (c.ensureMinimumWindowIncrement inc) := by
  unfold ensureMinimumWindowIncrement
  split_ifs
  · exact ⟨rfl, rfl, rfl, rfl, rfl⟩
  · exact .refl c

theorem receiveWindow_ensureMinimumWindowIncrement (c : FlowController) (inc : ℕ) :
    (c.ensureMinimumWindowIncrement inc).receiveWindow = c.receiveWindow := by
  unfold ensureMinimumWindowIncrement
  split_ifs <;> rfl

theorem Receives.ensureMinimumWindowIncrement (h : c.Receives) (inc : ℕ) :
    (c.ensureMinimumWindowIncrement inc).Receives := by
  unfold FlowController.ensureMinimumWindowIncrement
  split_ifs
  · have hle : min inc c.maxReceiveWindowIncrement ≤ c.maxReceiveWindowIncrement :=
      min_le_right _ _
    have hmax := h.max_le
    exact ⟨h.read_le, h.highest_le, h.window_le, by dsimp only; omega, hmax, by dsimp only; omega⟩
  · exact h

/-- The highest offset after an update is the larger one, and the increment is the difference. -/
theorem updateHighestReceived_eq (c : FlowController) (byteOffset : ℕ) :
    (c.updateHighestReceived byteOffset).2 =
        { c with highestReceived := max c.highestReceived byteOffset } ∧
      (c.updateHighestReceived byteOffset).1.getD 0 = byteOffset - c.highestReceived := by
  unfold updateHighestReceived
  split_ifs with heq hlt
  · subst heq
    exact ⟨by rw [max_self], by simp⟩
  · exact ⟨by rw [max_eq_right (Nat.le_of_lt hlt)], rfl⟩
  · exact ⟨by rw [max_eq_left (by omega)], by simp; omega⟩

theorem receives_new (streamID : ℕ) (contributes : Bool) {p : ConnectionParameters}
    (hp : p.Sound) : (new streamID contributes p).Receives := by
  obtain ⟨hstream, hconn, hmaxStream, hmaxConn, hhalfStream, hhalfConn⟩ := hp
  refine ⟨le_rfl, Nat.zero_le _, ?_, ?_, ?_, ?_⟩ <;> dsimp only [new] <;> split_ifs <;> omega

end FlowController

/-! ## The manager -/

namespace FlowControlManager

variable {f f' : FlowControlManager} {fc fc' : FlowController} {id : ℕ}

theorem of_getFlowController (h : f.getFlowController id = some fc) :
    fc ∈ f.streamFlowController ∧ fc.streamID = id :=
  ⟨List.mem_of_find?_eq_some h, by simpa using List.find?_some h⟩

/-- The sum of a count over the contributing streams that were ever created. -/
def contributed (f : FlowControlManager) (count : FlowController → ℕ) : ℕ :=
  ((f.streamFlowController ++ f.removed).map fun fc =>
    if fc.contributesToConnection then count fc else 0).sum

variable {order : List FlowController}

theorem contributed_reorder (horder : order.Perm f.streamFlowController)
    (count : FlowController → ℕ) :
    (f.reorder order horder).contributed count = f.contributed count :=
  ((horder.append_right f.removed).map _).sum_nat

theorem contributed_newStream (f : FlowControlManager) (id : ℕ) (contributes : Bool)
    (count : FlowController → ℕ)
    (hcount : count (.new id contributes f.connectionParameters) = 0) :
    (f.newStream id contributes).contributed count = f.contributed count := by
  unfold newStream
  split_ifs
  · rfl
  · simp [contributed, hcount]

/-- The controller of a stream that is removed still counts. -/
theorem contributed_removeStream (f : FlowControlManager) (id : ℕ)
    (count : FlowController → ℕ) : (f.removeStream id).contributed count = f.contributed count := by
  unfold removeStream contributed
  dsimp only
  cases hget : f.getFlowController id with
  | none =>
    have hne : ∀ c ∈ f.streamFlowController, c.streamID ≠ id := by
      simpa [getFlowController] using hget
    rw [eraseKey_of_forall_ne hne]
    rfl
  | some fc =>
    obtain ⟨hmem, rfl⟩ := of_getFlowController hget
    obtain ⟨l₁, l₂, hsplit, herase⟩ := eraseKey_of_mem f.nodup hmem
    rw [herase, hsplit]
    simp only [List.map_append, List.sum_append, List.map_cons, List.sum_cons, Option.toList_some,
      List.map_nil, List.sum_nil]
    omega

/-- Replacing the controller of a stream changes the sum by what the stream contributes. -/
theorem contributed_setFlowController (hmem : fc ∈ f.streamFlowController)
    (fc' : FlowController) (hid : fc'.streamID = fc.streamID)
    (hcontributes : fc'.contributesToConnection = fc.contributesToConnection)
    (count : FlowController → ℕ) :
    (f.setFlowController fc').contributed count +
        (if fc.contributesToConnection then count fc else 0) =
      f.contributed count + if fc.contributesToConnection then count fc' else 0 := by
  have hsum := sum_replaceKey f.nodup hmem hid.symm fun fc =>
    if fc.contributesToConnection then count fc else 0
  rw [hcontributes] at hsum
  unfold contributed setFlowController
  dsimp only
  rw [List.map_append, List.map_append, List.sum_append, List.sum_append]
  omega

/-- What is read is at most what is received, in sum as for each stream. -/
theorem contributed_mono {count count' : FlowController → ℕ}
    (h : ∀ fc ∈ f.streamFlowController ++ f.removed, count fc ≤ count' fc) :
    f.contributed count ≤ f.contributed count' := by
  refine List.sum_le_sum fun fc hfc => ?_
  split_ifs
  · exact h fc hfc
  · exact le_rfl

/-- The connection counts what its streams count, and nothing is read that was not received. -/
structure Counted (f : FlowControlManager) : Prop where
  read_le : ∀ fc ∈ f.streamFlowController, fc.bytesRead ≤ fc.highestReceived
  removed : ∀ fc ∈ f.removed, fc.bytesRead ≤ fc.highestReceived
  highest : f.connFlowController.highestReceived = f.contributed highestReceived
  read : f.connFlowController.bytesRead = f.contributed bytesRead

/-- In addition, the controllers of all streams and the one of the connection keep their
invariant. -/
structure Accounted (f : FlowControlManager) : Prop extends Counted f where
  params : f.connectionParameters.Sound
  conn : f.connFlowController.Receives
  streams : ∀ fc ∈ f.streamFlowController, fc.Receives

/-- The windows stay in the 64-bit range. -/
def InRange (f : FlowControlManager) : Prop :=
  f.connFlowController.InRange ∧ ∀ fc ∈ f.streamFlowController, fc.InRange

instance (f : FlowControlManager) : Decidable f.InRange := inferInstanceAs (Decidable (_ ∧ _))

theorem Counted.reorder (h : f.Counted) (horder : order.Perm f.streamFlowController) :
    (f.reorder order horder).Counted where
  read_le := fun fc hfc => h.read_le fc (horder.subset hfc)
  removed := h.removed
  highest := h.highest.trans (contributed_reorder horder _).symm
  read := h.read.trans (contributed_reorder horder _).symm

theorem Accounted.reorder (h : f.Accounted) (horder : order.Perm f.streamFlowController) :
    (f.reorder order horder).Accounted where
  toCounted := h.toCounted.reorder horder
  params := h.params
  conn := h.conn
  streams := fun fc hfc => h.streams fc (horder.subset hfc)

/-- The bytes that were read on the connection were received. -/
theorem Counted.conn_read_le (h : f.Counted) :
    f.connFlowController.bytesRead ≤ f.connFlowController.highestReceived := by
  rw [h.read, h.highest]
  exact contributed_mono (List.forall_mem_append.mpr ⟨h.read_le, h.removed⟩)

theorem Counted.newStream (h : f.Counted) (id : ℕ) (contributes : Bool) :
    (f.newStream id contributes).Counted := by
  have hhighest := contributed_newStream f id contributes highestReceived rfl
  have hread := contributed_newStream f id contributes bytesRead rfl
  unfold FlowControlManager.newStream at *
  split_ifs at *
  · exact h
  · exact ⟨List.forall_mem_cons.mpr ⟨le_rfl, h.read_le⟩, h.removed,
      h.highest.trans hhighest.symm, h.read.trans hread.symm⟩

theorem Accounted.newStream (h : f.Accounted) (id : ℕ) (contributes : Bool) :
    (f.newStream id contributes).Accounted := by
  have hcounted := h.toCounted.newStream id contributes
  unfold FlowControlManager.newStream at *
  split_ifs at *
  · exact h
  · exact ⟨hcounted, h.params, h.conn, List.forall_mem_cons.mpr
      ⟨FlowController.receives_new id contributes h.params, h.streams⟩⟩

theorem Counted.removeStream (h : f.Counted) (id : ℕ) : (f.removeStream id).Counted where
  read_le := fun fc hfc => h.read_le fc ((eraseKey_sublist _ _ _).subset hfc)
  removed := by
    refine List.forall_mem_append.mpr ⟨fun fc hfc => ?_, h.removed⟩
    exact h.read_le fc (of_getFlowController (Option.mem_toList.mp hfc)).1
  highest := h.highest.trans (contributed_removeStream f id _).symm
  read := h.read.trans (contributed_removeStream f id _).symm

theorem Accounted.removeStream (h : f.Accounted) (id : ℕ) : (f.removeStream id).Accounted where
  toCounted := h.toCounted.removeStream id
  params := h.params
  conn := h.conn
  streams := fun fc hfc => h.streams fc ((eraseKey_sublist _ _ _).subset hfc)

/-- A property of the controllers after one of them was replaced. -/
theorem forall_setFlowController {P : FlowController → Prop}
    (h : ∀ c ∈ f.streamFlowController, P c) (hfc : P fc) :
    ∀ c ∈ (f.setFlowController fc).streamFlowController, P c := by
  intro c hc
  rcases mem_replaceKey hc with rfl | ⟨hmem, -⟩
  · exact hfc
  · exact h c hmem

theorem le_of_not_checkFlowControlViolation (h : ¬ fc.checkFlowControlViolation = true) :
    fc.highestReceived ≤ fc.receiveWindow := by
  simpa [FlowController.checkFlowControlViolation] using h

variable {byteOffset : ℕ}

/-- What a new highest offset of a stream does if it raises no error. -/
theorem addReceived_ok {increment : ℕ} (hok : f.addReceived fc byteOffset increment = (none, f')) :
    fc.highestReceived ≤ fc.receiveWindow ∧
      ((fc.contributesToConnection = true ∧
          uint64Add f.connFlowController.highestReceived increment ≤
            f.connFlowController.receiveWindow ∧
          f' = { f.setFlowController fc with
            connFlowController := f.connFlowController.incrementHighestReceived increment }) ∨
        (fc.contributesToConnection = false ∧ f' = f.setFlowController fc)) := by
  unfold addReceived at hok
  dsimp only at hok
  split_ifs at hok with hviolation hcontributes hconn
  · cases (Prod.mk.inj hok).1
  · cases (Prod.mk.inj hok).1
  · obtain ⟨-, rfl⟩ := Prod.mk.inj hok
    exact ⟨le_of_not_checkFlowControlViolation hviolation,
      .inl ⟨hcontributes, le_of_not_checkFlowControlViolation hconn, rfl⟩⟩
  · obtain ⟨-, rfl⟩ := Prod.mk.inj hok
    exact ⟨le_of_not_checkFlowControlViolation hviolation,
      .inr ⟨by simpa using hcontributes, rfl⟩⟩

/-- A new highest offset of a stream is counted, if the sum of the connection does not wrap
around. -/
theorem Counted.addReceived (h : f.Counted) (hmem : fc ∈ f.streamFlowController) {byteOffset : ℕ}
    (hfit : fc.contributesToConnection = true →
      f.connFlowController.highestReceived + (byteOffset - fc.highestReceived) < uint64Size)
    (hok : f.addReceived { fc with highestReceived := max fc.highestReceived byteOffset } byteOffset
      (byteOffset - fc.highestReceived) = (none, f')) : f'.Counted := by
  obtain ⟨-, hcases⟩ := addReceived_ok hok
  generalize hfc' : ({ fc with highestReceived := max fc.highestReceived byteOffset } :
    FlowController) = fc' at hok hcases
  have hid : fc'.streamID = fc.streamID := by rw [← hfc']
  have hcontributes : fc'.contributesToConnection = fc.contributesToConnection := by rw [← hfc']
  have hhighest' : fc'.highestReceived = max fc.highestReceived byteOffset := by rw [← hfc']
  have hread' : fc'.bytesRead = fc.bytesRead := by rw [← hfc']
  have hle : ∀ c ∈ (f.setFlowController fc').streamFlowController,
      c.bytesRead ≤ c.highestReceived := by
    refine forall_setFlowController h.read_le ?_
    have := h.read_le fc hmem
    omega
  have hsum := contributed_setFlowController hmem fc' hid hcontributes
    highestReceived
  have hsumRead := contributed_setFlowController hmem fc' hid hcontributes bytesRead
  have hcount := h.highest
  have hcountRead := h.read
  rcases hcases with ⟨hyes, -, rfl⟩ | ⟨hno, rfl⟩
  · -- the increment of a contributing stream is that of the connection
    have hadd : (f.connFlowController.incrementHighestReceived
        (byteOffset - fc.highestReceived)).highestReceived =
          f.connFlowController.highestReceived + (byteOffset - fc.highestReceived) :=
      uint64Add_eq (hfit (hcontributes ▸ hyes))
    rw [← hcontributes, hyes, if_pos rfl, if_pos rfl] at hsum hsumRead
    refine ⟨hle, h.removed, ?_, ?_⟩
    · dsimp only
      rw [hadd]
      change _ = (f.setFlowController fc').contributed _
      omega
    · change f.connFlowController.bytesRead = (f.setFlowController fc').contributed _
      omega
  · rw [← hcontributes, hno] at hsum hsumRead
    simp only [Bool.false_eq_true, if_false, Nat.add_zero] at hsum hsumRead
    exact ⟨hle, h.removed, hcount.trans hsum.symm, hcountRead.trans hsumRead.symm⟩

theorem Accounted.addReceived (h : f.Accounted) (hrange : f.InRange)
    (hmem : fc ∈ f.streamFlowController) {byteOffset : ℕ}
    (hok : f.addReceived { fc with highestReceived := max fc.highestReceived byteOffset } byteOffset
      (byteOffset - fc.highestReceived) = (none, f')) : f'.Accounted := by
  obtain ⟨hread, -, hwindow, hinc, hmax, hhalf⟩ := h.streams fc hmem
  obtain ⟨-, chighest, cwindow, cinc, cmax, chalf⟩ := h.conn
  have hfcRange : fc.bytesRead < 2 ^ 62 := hrange.2 fc hmem
  have hconnRange : f.connFlowController.bytesRead < 2 ^ 62 := hrange.1
  obtain ⟨hle, hcases⟩ := addReceived_ok hok
  -- what was received is within the windows, so that no sum wraps around
  have hfit : f.connFlowController.highestReceived + (byteOffset - fc.highestReceived) <
      uint64Size := by
    dsimp only at hle
    unfold uint64Size
    omega
  have hcounted := h.toCounted.addReceived hmem (fun _ => hfit) hok
  have hfc : ∀ c ∈ (f.setFlowController { fc with
      highestReceived := max fc.highestReceived byteOffset }).streamFlowController, c.Receives :=
    forall_setFlowController h.streams
      ⟨hread.trans (le_max_left _ _), hle, hwindow, hinc, hmax, hhalf⟩
  rcases hcases with ⟨-, hconn, rfl⟩ | ⟨-, rfl⟩
  · exact ⟨hcounted, h.params, ⟨hcounted.conn_read_le, hconn, cwindow, cinc, cmax, chalf⟩, hfc⟩
  · exact ⟨hcounted, h.params, h.conn, hfc⟩

/-- Both calls for received data add the new offset in the same way. -/
theorem updateHighestReceived_ok (hok : f.updateHighestReceived id byteOffset = (none, f')) :
    ∃ fc ∈ f.streamFlowController, fc.streamID = id ∧
      f.addReceived { fc with highestReceived := max fc.highestReceived byteOffset } byteOffset
        (byteOffset - fc.highestReceived) = (none, f') := by
  unfold updateHighestReceived at hok
  split at hok
  · cases (Prod.mk.inj hok).1
  · next fc hget =>
    obtain ⟨heq, hinc⟩ := fc.updateHighestReceived_eq byteOffset
    dsimp only at hok
    rw [heq, hinc] at hok
    exact ⟨fc, (of_getFlowController hget).1, (of_getFlowController hget).2, hok⟩

/-- A RST_STREAM frame must not take back what was received. -/
theorem resetStream_ok (hok : f.resetStream id byteOffset = (none, f')) :
    ∃ fc ∈ f.streamFlowController, fc.streamID = id ∧ fc.highestReceived ≤ byteOffset ∧
      f.addReceived { fc with highestReceived := max fc.highestReceived byteOffset } byteOffset
        (byteOffset - fc.highestReceived) = (none, f') := by
  unfold resetStream at hok
  split at hok
  · cases (Prod.mk.inj hok).1
  · next fc hget =>
    obtain ⟨heq, hinc⟩ := fc.updateHighestReceived_eq byteOffset
    split at hok
    · cases (Prod.mk.inj hok).1
    · next increment fc' hupdate =>
      have hle : fc.highestReceived ≤ byteOffset := by
        unfold FlowController.updateHighestReceived at hupdate
        split_ifs at hupdate with hsame hlt
        · exact hsame.ge
        · exact hlt.le
        · cases (Prod.mk.inj hupdate).1
      rw [hupdate] at heq hinc
      dsimp only [Option.getD_some] at heq hinc
      rw [heq, hinc] at hok
      exact ⟨fc, (of_getFlowController hget).1, (of_getFlowController hget).2, hle, hok⟩

/-- What reading bytes of a stream does. -/
theorem addBytesRead_eq {n now connNow : ℕ} (hget : f.getFlowController id = some fc) :
    f.addBytesRead id n now connNow = (none,
      { f.setFlowController (fc.addBytesRead n now) with
        connFlowController :=
          if fc.contributesToConnection then f.connFlowController.addBytesRead n connNow
          else f.connFlowController }) := by
  unfold addBytesRead
  rw [hget]
  dsimp only
  split_ifs <;> rfl

/-- Bytes that were received are read, if what was received is in the 64-bit range. -/
theorem Counted.addBytesRead (h : f.Counted) (hget : f.getFlowController id = some fc) {n : ℕ}
    (hn : fc.bytesRead + n ≤ fc.highestReceived) (hfc : fc.highestReceived < uint64Size)
    (hconn : f.connFlowController.highestReceived < uint64Size) (now connNow : ℕ) :
    (f.addBytesRead id n now connNow).2.Counted := by
  obtain ⟨hmem, -⟩ := of_getFlowController hget
  rw [addBytesRead_eq hget]
  have hadd : (fc.addBytesRead n now).bytesRead = fc.bytesRead + n :=
    uint64Add_eq (by omega)
  have hle : ∀ c ∈ (f.setFlowController (fc.addBytesRead n now)).streamFlowController,
      c.bytesRead ≤ c.highestReceived := forall_setFlowController h.read_le (hadd ▸ hn)
  have hsum : (f.setFlowController (fc.addBytesRead n now)).contributed
      highestReceived = f.contributed highestReceived :=
    Nat.add_right_cancel (contributed_setFlowController hmem (fc.addBytesRead n now) rfl rfl
      highestReceived)
  have hsumRead := contributed_setFlowController hmem (fc.addBytesRead n now) rfl rfl
    bytesRead
  rw [hadd] at hsumRead
  -- no stream has read more than it received, so that the connection has not either
  have hmono : (f.setFlowController (fc.addBytesRead n now)).contributed bytesRead ≤
      (f.setFlowController (fc.addBytesRead n now)).contributed highestReceived :=
    contributed_mono (List.forall_mem_append.mpr ⟨hle, h.removed⟩)
  have hcount := h.highest
  have hcountRead := h.read
  cases hcontributes : fc.contributesToConnection with
  | true =>
    rw [hcontributes, if_pos rfl, if_pos rfl] at hsumRead
    have hread : (f.connFlowController.addBytesRead n connNow).bytesRead =
        f.connFlowController.bytesRead + n :=
      uint64Add_eq (by omega)
    rw [if_pos rfl]
    refine ⟨hle, h.removed, ?_, ?_⟩
    · change f.connFlowController.highestReceived = (f.setFlowController _).contributed _
      omega
    · dsimp only
      rw [hread]
      change _ = (f.setFlowController _).contributed _
      omega
  | false =>
    rw [hcontributes] at hsumRead
    simp only [Bool.false_eq_true, if_false, Nat.add_zero] at hsumRead
    rw [if_neg (by decide)]
    exact ⟨hle, h.removed, hcount.trans hsum.symm, hcountRead.trans hsumRead.symm⟩

theorem Accounted.addBytesRead (h : f.Accounted) (hrange : f.InRange)
    (hget : f.getFlowController id = some fc) {n : ℕ}
    (hn : fc.bytesRead + n ≤ fc.highestReceived) (now connNow : ℕ) :
    (f.addBytesRead id n now connNow).2.Accounted := by
  obtain ⟨hmem, -⟩ := of_getFlowController hget
  obtain ⟨-, hhighest, hwindow, hinc, hmax, hhalf⟩ := h.streams fc hmem
  obtain ⟨-, chighest, cwindow, cinc, cmax, chalf⟩ := h.conn
  have hfcRange : fc.bytesRead < 2 ^ 62 := hrange.2 fc hmem
  have hconnRange : f.connFlowController.bytesRead < 2 ^ 62 := hrange.1
  have hcounted := h.toCounted.addBytesRead hget hn (by unfold uint64Size; omega)
    (by unfold uint64Size; omega) now connNow
  have hread := hcounted.conn_read_le
  rw [addBytesRead_eq hget] at hcounted hread ⊢
  have hadd : (fc.addBytesRead n now).bytesRead = fc.bytesRead + n :=
    uint64Add_eq (by unfold uint64Size; omega)
  refine ⟨hcounted, h.params, ?_, forall_setFlowController h.streams ?_⟩
  · dsimp only at hread ⊢
    split_ifs at hread ⊢ with hcontributes
    · have hn : n ≤ fc.highestReceived := by omega
      have hconn : (f.connFlowController.addBytesRead n connNow).bytesRead =
          f.connFlowController.bytesRead + n :=
        uint64Add_eq (by unfold uint64Size; omega)
      refine ⟨hread, chighest, ?_, cinc, cmax, chalf⟩
      rw [hconn]
      exact cwindow.trans (by omega)
    · exact h.conn
  · refine ⟨hadd ▸ hn, hhighest, ?_, hinc, hmax, hhalf⟩
    rw [hadd]
    exact hwindow.trans (by omega)

/-! ## Window updates -/

/-- The loop over the streams only raises the increment of the connection. -/
theorem updateStreamWindows_conn {P : FlowController → Prop}
    (hP : ∀ c inc, P c → P (c.ensureMinimumWindowIncrement inc)) (force : Bool)
    (clock : ℕ → WindowClock) (fcs : List FlowController) {conn : FlowController} (hconn : P conn) :
    P (updateStreamWindows force clock fcs conn).connFlowController := by
  induction fcs generalizing conn with
  | nil => exact hconn
  | cons fc rest ih =>
    rw [updateStreamWindows]
    dsimp only
    split_ifs
    · exact ih (hP _ _ hconn)
    · exact ih hconn
    · exact ih hconn

/-- The controller of the connection after the loop over the streams. -/
theorem updateStreamWindows_conn_spec (f : FlowControlManager) (force : Bool)
    (clock : ℕ → WindowClock) :
    let conn := (updateStreamWindows force clock f.streamFlowController
      f.connFlowController).connFlowController
    f.connFlowController.SameBytes conn ∧
      conn.receiveWindow = f.connFlowController.receiveWindow ∧
      (f.connFlowController.Receives → conn.Receives) := by
  refine updateStreamWindows_conn (P := fun conn => f.connFlowController.SameBytes conn ∧
    conn.receiveWindow = f.connFlowController.receiveWindow ∧
      (f.connFlowController.Receives → conn.Receives)) ?_ force clock _
        ⟨.refl _, rfl, id⟩
  rintro c inc ⟨hsame, hwindow, hreceives⟩
  have hnew := c.sameBytes_ensureMinimumWindowIncrement inc
  refine ⟨⟨hnew.streamID.trans hsame.streamID, hnew.contributes.trans hsame.contributes,
    hnew.read.trans hsame.read, hnew.highest.trans hsame.highest, hnew.max.trans hsame.max⟩,
    (c.receiveWindow_ensureMinimumWindowIncrement inc).trans hwindow,
    fun h => (hreceives h).ensureMinimumWindowIncrement inc⟩

/-- The streams count the same bytes after their windows were updated. -/
theorem contributed_getWindowUpdates (f : FlowControlManager) (force : Bool)
    (clock : ℕ → WindowClock) (connClock : WindowClock) {count : FlowController → ℕ}
    (hcount : ∀ c c' : FlowController, c.SameBytes c' → count c' = count c) :
    (f.getWindowUpdates force clock connClock).2.contributed count = f.contributed count := by
  unfold contributed getWindowUpdates
  dsimp only
  rw [updateStreamWindows_streams, List.map_append, List.map_append, List.map_map]
  congr 2
  refine List.map_congr_left fun fc _ => ?_
  have hsame := fc.sameBytes_maybeUpdateWindow (clock fc.streamID)
  rw [Function.comp_apply, hsame.contributes, hcount _ _ hsame]

/-- At least half of the window increment is left. -/
def HalfLeft (fc : FlowController) : Prop :=
  fc.receiveWindowIncrement / 2 ≤ fc.receiveWindow - fc.bytesRead

theorem Counted.getWindowUpdates (h : f.Counted) (force : Bool) (clock : ℕ → WindowClock)
    (connClock : WindowClock) : (f.getWindowUpdates force clock connClock).2.Counted := by
  obtain ⟨hsame, -, -⟩ := updateStreamWindows_conn_spec f force clock
  have hsame' := FlowController.sameBytes_maybeUpdateWindow (updateStreamWindows force clock
    f.streamFlowController f.connFlowController).connFlowController connClock
  refine ⟨fun fc hfc => ?_, h.removed, ?_, ?_⟩
  · change fc ∈ (updateStreamWindows _ _ _ _).streamFlowController at hfc
    rw [updateStreamWindows_streams] at hfc
    obtain ⟨c, hc, rfl⟩ := List.mem_map.mp hfc
    rw [(c.sameBytes_maybeUpdateWindow _).read, (c.sameBytes_maybeUpdateWindow _).highest]
    exact h.read_le c hc
  · rw [contributed_getWindowUpdates f force clock connClock fun _ _ h => h.highest, ← h.highest]
    exact hsame'.highest.trans hsame.highest
  · rw [contributed_getWindowUpdates f force clock connClock fun _ _ h => h.read, ← h.read]
    exact hsame'.read.trans hsame.read

theorem Accounted.getWindowUpdates (h : f.Accounted) (hrange : f.InRange) (force : Bool)
    (clock : ℕ → WindowClock) (connClock : WindowClock) :
    let f' := (f.getWindowUpdates force clock connClock).2
    f'.Accounted ∧ HalfLeft f'.connFlowController ∧
      ∀ fc ∈ f'.streamFlowController, HalfLeft fc := by
  intro f'
  obtain ⟨hsame, -, hreceives⟩ := updateStreamWindows_conn_spec f force clock
  have hconnRange : (updateStreamWindows force clock f.streamFlowController
      f.connFlowController).connFlowController.InRange := by
    unfold FlowController.InRange
    rw [hsame.read]
    exact hrange.1
  obtain ⟨hconn, -, hconnHalf⟩ := (hreceives h.conn).maybeUpdateWindow hconnRange connClock
  have hstreams : ∀ fc ∈ f'.streamFlowController, fc.Receives ∧ HalfLeft fc := by
    intro fc hfc
    change fc ∈ (updateStreamWindows _ _ _ _).streamFlowController at hfc
    rw [updateStreamWindows_streams] at hfc
    obtain ⟨c, hc, rfl⟩ := List.mem_map.mp hfc
    obtain ⟨hc', -, hhalf⟩ := (h.streams c hc).maybeUpdateWindow (hrange.2 c hc) (clock c.streamID)
    exact ⟨hc', hhalf⟩
  exact ⟨⟨h.toCounted.getWindowUpdates force clock connClock, h.params, hconn,
    fun fc hfc => (hstreams fc hfc).1⟩, hconnHalf, fun fc hfc => (hstreams fc hfc).2⟩

/-! ## Calls -/

/-- A call of the receiving side. -/
inductive ReceiveCall where
  | newStream (streamID : ℕ) (contributesToConnection : Bool)
  | removeStream (streamID : ℕ)
  | updateHighestReceived (streamID byteOffset : ℕ)
  | resetStream (streamID byteOffset : ℕ)
  | addBytesRead (streamID n now connNow : ℕ)
  | getWindowUpdates (force : Bool) (clock : ℕ → WindowClock) (connClock : WindowClock)

/-- The manager after a call that returns no error. -/
def withoutError : Option FlowControlError × FlowControlManager → Option FlowControlManager
  | (none, f) => some f
  | (some _, _) => none

/-- What a call does to the manager, if it returns no error. Only bytes that were received are
read. -/
def receive (f : FlowControlManager) : ReceiveCall → Option FlowControlManager
  | .newStream streamID contributesToConnection =>
    some (f.newStream streamID contributesToConnection)
  | .removeStream streamID => some (f.removeStream streamID)
  | .updateHighestReceived streamID byteOffset =>
    withoutError (f.updateHighestReceived streamID byteOffset)
  | .resetStream streamID byteOffset => withoutError (f.resetStream streamID byteOffset)
  | .addBytesRead streamID n now connNow => do
    let fc ← f.getFlowController streamID
    if fc.bytesRead + n ≤ fc.highestReceived then
      withoutError (f.addBytesRead streamID n now connNow)
    else none
  | .getWindowUpdates force clock connClock => some (f.getWindowUpdates force clock connClock).2

/-- A step is one call that returns no error, for any order of the map. -/
def ReceiveStep (f : FlowControlManager) (call : ReceiveCall) (f' : FlowControlManager) : Prop :=
  ∃ (order : List FlowController) (horder : order.Perm f.streamFlowController),
    (f.reorder order horder).receive call = some f'

theorem eq_of_withoutError {r : Option FlowControlError × FlowControlManager}
    (h : withoutError r = some f') : r = (none, f') := by
  obtain ⟨_ | _, f⟩ := r
  · obtain rfl := Option.some.inj h
    rfl
  · cases h

theorem Accounted.receive (h : f.Accounted) (hrange : f.InRange) {call : ReceiveCall}
    (hcall : f.receive call = some f') : f'.Accounted := by
  cases call with
  | newStream id contributes =>
    obtain rfl := Option.some.inj hcall
    exact h.newStream id contributes
  | removeStream id =>
    obtain rfl := Option.some.inj hcall
    exact h.removeStream id
  | updateHighestReceived id byteOffset =>
    obtain ⟨fc, hmem, -, hok⟩ := updateHighestReceived_ok (eq_of_withoutError hcall)
    exact h.addReceived hrange hmem hok
  | resetStream id byteOffset =>
    obtain ⟨fc, hmem, -, -, hok⟩ := resetStream_ok (eq_of_withoutError hcall)
    exact h.addReceived hrange hmem hok
  | addBytesRead id n now connNow =>
    obtain ⟨fc, hget, hread⟩ := Option.bind_eq_some_iff.mp hcall
    split_ifs at hread with hn
    have hok := h.addBytesRead hrange hget hn now connNow
    rwa [eq_of_withoutError hread] at hok
  | getWindowUpdates force clock connClock =>
    obtain rfl := Option.some.inj hcall
    exact (h.getWindowUpdates hrange force clock connClock).1

/-- A step in the 64-bit range. -/
def RangedStep (f : FlowControlManager) (call : ReceiveCall) (f' : FlowControlManager) : Prop :=
  f.InRange ∧ ReceiveStep f call f'

theorem InRange.reorder (h : f.InRange) (horder : order.Perm f.streamFlowController) :
    (f.reorder order horder).InRange :=
  ⟨h.1, fun fc hfc => h.2 fc (horder.subset hfc)⟩

theorem counted_new (p : ConnectionParameters) : (new p).Counted where
  read_le := fun _ hfc => absurd hfc List.not_mem_nil
  removed := fun _ hfc => absurd hfc List.not_mem_nil
  highest := rfl
  read := rfl

theorem accounted_new {p : ConnectionParameters} (hp : p.Sound) : (new p).Accounted where
  toCounted := counted_new p
  params := hp
  conn := FlowController.receives_new 0 false hp
  streams := fun _ hfc => absurd hfc List.not_mem_nil

theorem accounted_of_run {p : ConnectionParameters} (hp : p.Sound) {calls : List ReceiveCall}
    (hrun : Run RangedStep (new p) calls f) : f.Accounted := by
  refine Run.invariant (I := fun _ f => f.Accounted) (accounted_new hp) ?_ hrun
  rintro _ f call f' hacc ⟨hrange, order, horder, hcall⟩
  exact (hacc.reorder horder).receive (hrange.reorder horder) hcall

/-- For every configuration whose maximum windows are not below the initial ones and at most 2^62,
and every sequence of calls in which less than 2^62 bytes are read before each call: the connection
received the sum of what its streams received, removed ones included; for the connection and for
every stream the bytes that were read are at most those that were received, and these are at most
the window; and right after `GetWindowUpdates` each controller has at least half of its increment
left. -/
theorem receive_accounting {p : ConnectionParameters}
    (hstream : p.receiveStreamFlowControlWindow ≤ p.maxReceiveStreamFlowControlWindow)
    (hconn : p.receiveConnectionFlowControlWindow ≤ p.maxReceiveConnectionFlowControlWindow)
    (hmaxStream : p.maxReceiveStreamFlowControlWindow ≤ 2 ^ 62)
    (hmaxConn : p.maxReceiveConnectionFlowControlWindow ≤ 2 ^ 62)
    {calls : List ReceiveCall} (hrun : Run RangedStep (new p) calls f) :
    f.connFlowController.highestReceived = f.contributed highestReceived ∧
      (∀ fc ∈ f.connFlowController :: f.streamFlowController,
        fc.bytesRead ≤ fc.highestReceived ∧ fc.highestReceived ≤ fc.receiveWindow) ∧
      (f.InRange → ∀ order horder force clock connClock,
        let f' := ((f.reorder order horder).getWindowUpdates force clock connClock).2
        ∀ fc ∈ f'.connFlowController :: f'.streamFlowController, HalfLeft fc) := by
  have hp : p.Sound :=
    ⟨by omega, by omega, hmaxStream, hmaxConn, by omega, by omega⟩
  have hacc := accounted_of_run hp hrun
  refine ⟨hacc.highest, List.forall_mem_cons.mpr ⟨?_, fun fc hfc => ?_⟩, ?_⟩
  · exact ⟨hacc.conn.read_le, hacc.conn.highest_le⟩
  · exact ⟨(hacc.streams fc hfc).read_le, (hacc.streams fc hfc).highest_le⟩
  · intro hrange order horder force clock connClock
    obtain ⟨-, hconnHalf, hhalf⟩ :=
      (hacc.reorder horder).getWindowUpdates (hrange.reorder horder) force clock connClock
    exact List.forall_mem_cons.mpr ⟨hconnHalf, hhalf⟩

theorem receiveStep_of_receive {f' : FlowControlManager} {call : ReceiveCall}
    (h : f.receive call = some f') : ReceiveStep f call f' :=
  ⟨f.streamFlowController, .refl _, h⟩

/-- Two streams receive 20 and 10 bytes, one of them is read and removed. -/
theorem receive_accounting_example :
    ∃ (calls : List ReceiveCall) (f : FlowControlManager),
      Run RangedStep (new (.new (2 ^ 20) (2 ^ 21))) calls f ∧ f.streamFlowController.length = 1 ∧
        f.contributed highestReceived = 30 ∧
        f.connFlowController.highestReceived = 30 := by
  let calls : List ReceiveCall :=
    [.newStream 5 true, .updateHighestReceived 5 20, .addBytesRead 5 20 1 1, .newStream 7 true,
      .resetStream 7 10, .removeStream 5]
  let inRange (f : FlowControlManager) (call : ReceiveCall) : Option FlowControlManager :=
    if f.InRange then f.receive call else none
  have hcalls : (calls.foldlM inRange (new (.new (2 ^ 20) (2 ^ 21)))).any (fun f =>
      f.streamFlowController.length = 1 ∧ f.contributed highestReceived = 30) := by
    decide +kernel
  have hstep : ∀ f call f', inRange f call = some f' → RangedStep f call f' := by
    intro f call f' h
    obtain ⟨hrange, hreceive⟩ := Option.ite_none_right_eq_some.mp h
    exact ⟨hrange, receiveStep_of_receive hreceive⟩
  obtain ⟨f, hrun, hlength, hcontributed⟩ := Run.exists_of_any hstep hcalls
  obtain ⟨hsum, -⟩ := receive_accounting (by decide) (by decide) (by decide) (by decide) hrun
  exact ⟨calls, f, hrun, hlength, hcontributed, hsum.trans hcontributed⟩

/-- A window of 32 kB is read to its end 48 times, so that its increment is doubled to 2^63. When it
is doubled once more, it is 0 as a `uint64`, and the window is set below what was received. -/
theorem receiveWindow_wraps :
    ∃ (calls : List ReceiveCall) (f : FlowControlManager),
      Run ReceiveStep (new (.new (2 ^ 63) (2 ^ 63))) calls f ∧
        ∃ fc ∈ f.streamFlowController, fc.receiveWindow < fc.highestReceived := by
  let clock : WindowClock := { smoothedRTT := 10, remoteRTTs := [], measured := 1, now := 1 }
  let round (byteOffset n : ℕ) : List ReceiveCall :=
    [.updateHighestReceived 5 byteOffset, .addBytesRead 5 n 1 1,
      .getWindowUpdates false (fun _ => clock) clock]
  let calls : List ReceiveCall := .newStream 5 false ::
    (List.range 48).flatMap (fun k => round (2 ^ (16 + k) - 2 ^ 15) (2 ^ (15 + k))) ++
      round (2 ^ 64 - 2 ^ 15) (2 ^ 63 - 1)
  have hcalls : (calls.foldlM receive (new (.new (2 ^ 63) (2 ^ 63)))).any (fun f =>
      ∃ fc ∈ f.streamFlowController, fc.receiveWindow < fc.highestReceived) := by
    decide +kernel
  exact ⟨calls, Run.exists_of_any (fun _ _ _ => receiveStep_of_receive) hcalls⟩

end FlowControlManager

end MPQuic
