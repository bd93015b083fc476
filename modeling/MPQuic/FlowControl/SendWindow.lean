import MPQuic.FlowControl.FlowController
import MPQuic.Lib.RunningMax
import MPQuic.Lib.Transition

/-!
# The offset up to which may be sent

A flow controller starts with a send window of 0, which stands for the negotiated one. The first
WINDOW_UPDATE frame with another offset replaces it, whether it is larger or not.
`sendWindowOffset_grows_iff` says when the offset never shrinks.
-/

namespace MPQuic.FlowController

/-- The offset up to which data may be sent. -/
def sendWindowOffset (c : FlowController) (p : ConnectionParameters) : ℕ := c.getSendWindow p

/-- The calls that concern sending. -/
inductive SendCall
  | updateSendWindow (newOffset : ℕ)
  | addBytesSent (n : ℕ)
  deriving DecidableEq

/-- The offset of a WINDOW_UPDATE frame. -/
def SendCall.newOffset? : SendCall → Option ℕ
  | .updateSendWindow newOffset => some newOffset
  | .addBytesSent _ => none

/-- The offsets that were received. -/
def receivedOffsets (calls : List SendCall) : List ℕ := calls.filterMap SendCall.newOffset?

def applyCall (c : FlowController) : SendCall → FlowController
  | .updateSendWindow newOffset => (c.updateSendWindow newOffset).2
  | .addBytesSent n => c.addBytesSent n

def applyCalls (c : FlowController) (calls : List SendCall) : FlowController :=
  calls.foldl applyCall c

/-- No call sends more than `sendWindowSize` bytes. -/
def Respects (p : ConnectionParameters) (c : FlowController) : List SendCall → Prop
  | [] => True
  | call :: calls =>
    (match call with
      | .addBytesSent n => n ≤ c.sendWindowSize p
      | .updateSendWindow _ => True) ∧ Respects p (c.applyCall call) calls

variable {p : ConnectionParameters} {c : FlowController}

theorem receivedOffsets_append (l₁ l₂ : List SendCall) :
    receivedOffsets (l₁ ++ l₂) = receivedOffsets l₁ ++ receivedOffsets l₂ :=
  List.filterMap_append ..

theorem respects_append {l₁ l₂ : List SendCall} :
    Respects p c (l₁ ++ l₂) ↔ Respects p c l₁ ∧ Respects p (c.applyCalls l₁) l₂ := by
  induction l₁ generalizing c with
  | nil => exact iff_of_eq (true_and _).symm
  | cons call l₁ ih =>
    show _ ∧ Respects p _ (l₁ ++ l₂) ↔ (_ ∧ Respects p _ l₁) ∧ _
    rw [ih, and_assoc]
    rfl

theorem applyCalls_concat (c : FlowController) (calls : List SendCall) (call : SendCall) :
    c.applyCalls (calls ++ [call]) = (c.applyCalls calls).applyCall call :=
  List.foldl_append ..

@[simp] theorem applyCalls_streamID (calls : List SendCall) :
    (c.applyCalls calls).streamID = c.streamID := by
  induction calls using List.reverseRecOn with
  | nil => rfl
  | append_singleton calls call ih =>
    rw [applyCalls_concat, ← ih]
    cases call with
    | addBytesSent n => rfl
    | updateSendWindow newOffset =>
      rw [applyCall, updateSendWindow]
      split_ifs <;> rfl

/-- The send window is the largest offset that was received. -/
theorem sendWindow_applyCalls (calls : List SendCall) :
    (c.applyCalls calls).sendWindow = (receivedOffsets calls).foldl max c.sendWindow := by
  induction calls using List.reverseRecOn with
  | nil => rfl
  | append_singleton calls call ih =>
    rw [applyCalls_concat, receivedOffsets_append, List.foldl_append, ← ih]
    cases call with
    | addBytesSent n => rfl
    | updateSendWindow newOffset =>
      show ((c.applyCalls calls).updateSendWindow newOffset).2.sendWindow = max _ newOffset
      rw [updateSendWindow]
      split_ifs with hlt
      · exact (max_eq_right hlt.le).symm
      · exact (max_eq_left (not_lt.mp hlt)).symm

/-- The offset after calls on a controller that has the negotiated window. -/
theorem sendWindowOffset_applyCalls (hwindow : c.sendWindow = 0) (calls : List SendCall) :
    (c.applyCalls calls).sendWindowOffset p =
      if (receivedOffsets calls).foldl max 0 = 0 then c.sendWindowOffset p
      else (receivedOffsets calls).foldl max 0 := by
  unfold sendWindowOffset getSendWindow
  rw [sendWindow_applyCalls, applyCalls_streamID, hwindow, if_pos (rfl : 0 = 0)]

/-! ## When the offset does not shrink -/

/-- What a sender expects of its controller `c` during the calls. -/
structure Grows (p : ConnectionParameters) (c : FlowController) (calls : List SendCall) : Prop where
  /-- The offset is the maximum of the initial one and all offsets that were received. -/
  maximum : ∀ l₁ l₂, calls = l₁ ++ l₂ → (c.applyCalls l₁).sendWindowOffset p =
    (receivedOffsets l₁).foldl max (c.sendWindowOffset p)
  /-- No call makes it smaller. -/
  step : ∀ l₁ call l₂, calls = l₁ ++ call :: l₂ → (c.applyCalls l₁).sendWindowOffset p ≤
    ((c.applyCalls l₁).applyCall call).sendWindowOffset p
  /-- No more was sent. -/
  sent : ∀ l₁ l₂, calls = l₁ ++ l₂ →
    (c.applyCalls l₁).bytesSent ≤ (c.applyCalls l₁).sendWindowOffset p

/-- The offset is the maximum exactly if no received offset has replaced a larger initial one. -/
theorem sendWindowOffset_eq_foldl_iff (hwindow : c.sendWindow = 0) (calls : List SendCall) :
    (c.applyCalls calls).sendWindowOffset p =
        (receivedOffsets calls).foldl max (c.sendWindowOffset p) ↔
      (receivedOffsets calls).foldl max 0 = 0 ∨
        c.sendWindowOffset p ≤ (receivedOffsets calls).foldl max 0 := by
  have hmax := RunningMax.foldl_max_max (receivedOffsets calls) (c.sendWindowOffset p) 0
  rw [max_eq_left (Nat.zero_le _)] at hmax
  rw [sendWindowOffset_applyCalls hwindow, hmax]
  split_ifs with hzero
  · simp [hzero]
  · rw [eq_comm, sup_eq_right, or_iff_right hzero]

/-- The received offsets up to some point are those of the calls up to some point. -/
theorem receivedOffsets_eq_append_iff {calls : List SendCall} {o₁ o₂ : List ℕ} :
    receivedOffsets calls = o₁ ++ o₂ ↔
      ∃ l₁ l₂, calls = l₁ ++ l₂ ∧ receivedOffsets l₁ = o₁ ∧ receivedOffsets l₂ = o₂ :=
  List.filterMap_eq_append_iff

theorem forall_sendWindowOffset_eq_iff (hwindow : c.sendWindow = 0) (calls : List SendCall) :
    (∀ l₁ l₂, calls = l₁ ++ l₂ → (c.applyCalls l₁).sendWindowOffset p =
        (receivedOffsets l₁).foldl max (c.sendWindowOffset p)) ↔
      ∀ o, (receivedOffsets calls).find? (· ≠ 0) = some o → c.sendWindowOffset p ≤ o := by
  rw [← RunningMax.forall_foldl_max_iff]
  simp only [sendWindowOffset_eq_foldl_iff hwindow]
  constructor
  · intro h o₁ o₂ ho
    obtain ⟨l₁, l₂, rfl, rfl, rfl⟩ := receivedOffsets_eq_append_iff.mp ho
    exact h l₁ l₂ rfl
  · rintro h l₁ l₂ rfl
    exact h _ _ (receivedOffsets_append l₁ l₂)

/-- Sends within the window do not go beyond the offset as long as it grows. -/
theorem bytesSent_le_sendWindowOffset {calls : List SendCall} (hrespects : Respects p c calls)
    (hsent : c.bytesSent ≤ c.sendWindowOffset p)
    (hgrows : ∀ l₀ call l, calls = l₀ ++ call :: l → (c.applyCalls l₀).sendWindowOffset p ≤
      ((c.applyCalls l₀).applyCall call).sendWindowOffset p) :
    (c.applyCalls calls).bytesSent ≤ (c.applyCalls calls).sendWindowOffset p := by
  -- the calls are peeled from the front, so that `hrespects` and `hgrows` follow the controller
  induction calls generalizing c with
  | nil => exact hsent
  | cons call calls ih =>
    refine ih hrespects.2 ?_ fun l₀ a l hl => hgrows (call :: l₀) a l (by rw [hl]; rfl)
    have hfirst := hgrows [] call calls rfl
    cases call with
    | updateSendWindow newOffset =>
      have hsame : (c.updateSendWindow newOffset).2.bytesSent = c.bytesSent := by
        rw [updateSendWindow]
        split_ifs <;> rfl
      exact hsame.le.trans (hsent.trans hfirst)
    | addBytesSent n =>
      have hn : n ≤ c.sendWindowOffset p - c.bytesSent := by
        have hsize := hrespects.1
        unfold sendWindowSize at hsize
        unfold sendWindowOffset at hsent ⊢
        rwa [if_neg hsent.not_gt] at hsize
      -- a wrap-around would only make the sum smaller
      calc uint64Add c.bytesSent n ≤ c.bytesSent + n := Nat.mod_le _ _
        _ ≤ c.sendWindowOffset p := by omega

/-- With a new flow controller and sends within the window, the offset grows as it should if and
only if the first offset other than 0 that a WINDOW_UPDATE frame brings is at least the negotiated
window. -/
theorem sendWindowOffset_grows_iff (hwindow : c.sendWindow = 0)
    (hsent : c.bytesSent ≤ c.sendWindowOffset p) (calls : List SendCall)
    (hrespects : Respects p c calls) :
    Grows p c calls ↔
      ∀ o, (receivedOffsets calls).find? (· ≠ 0) = some o → c.sendWindowOffset p ≤ o := by
  rw [← forall_sendWindowOffset_eq_iff hwindow]
  constructor
  · exact Grows.maximum
  · intro hmaximum
    have hstep : ∀ l₁ call l₂, calls = l₁ ++ call :: l₂ → (c.applyCalls l₁).sendWindowOffset p ≤
        ((c.applyCalls l₁).applyCall call).sendWindowOffset p := by
      rintro l₁ call l₂ rfl
      rw [← applyCalls_concat, hmaximum _ _ rfl,
        hmaximum (l₁ ++ [call]) l₂ (by rw [List.append_assoc]; rfl), receivedOffsets_append,
        List.foldl_append]
      exact RunningMax.le_foldl_max (.inl le_rfl)
    refine ⟨hmaximum, hstep, ?_⟩
    rintro l₁ l₂ rfl
    refine bytesSent_le_sendWindowOffset (respects_append.mp hrespects).1 hsent ?_
    rintro l₀ call l rfl
    exact hstep l₀ call (l ++ l₂) (by rw [List.append_assoc]; rfl)

/-- A peer raises the window of stream 5 after some data. -/
theorem sendWindowOffset_grows_of_larger :
    let p := ((ConnectionParameters.new 100000 100000).setFromMap (some 32768) (some 49152)).2
    Grows p (new 5 true p) [.addBytesSent 20000, .updateSendWindow 40000, .addBytesSent 20000] := by
  intro p
  have hrespects : Respects p (new 5 true p)
      [.addBytesSent 20000, .updateSendWindow 40000, .addBytesSent 20000] :=
    ⟨by decide, trivial, by decide, trivial⟩
  refine (sendWindowOffset_grows_iff rfl (by decide) _ hrespects).mpr fun o ho => ?_
  obtain rfl : 40000 = o := Option.some.inj ho
  decide

/-- The first update is smaller than the negotiated window: less may be sent afterwards than
before, and more has been sent. -/
theorem sendWindowOffset_shrinks :
    let p := ((ConnectionParameters.new 100000 100000).setFromMap (some 32768) (some 49152)).2
    let c := new 5 true p
    let sent := c.applyCalls [.addBytesSent 20000]
    let updated := c.applyCalls [.addBytesSent 20000, .updateSendWindow 10000]
    Respects p c [.addBytesSent 20000, .updateSendWindow 10000] ∧
      sent.sendWindowOffset p = 32768 ∧ updated.sendWindowOffset p = 10000 ∧
      updated.sendWindowOffset p < updated.bytesSent :=
  ⟨⟨by decide, trivial, trivial⟩, by decide, by decide, by decide⟩

end MPQuic.FlowController
