import MPQuic.FlowControl.Receiving

/-!
# Peers that respect flow control

A peer that never sends beyond the largest offset that was advertised to it, for a stream and for
the connection, must not be accused of sending too much. The offsets are advertised by the initial
windows and by the results of `GetWindowUpdates`; they are recorded here next to the manager.

The initial windows are constants, but the maximum ones come from the configuration. A maximum below
half of the initial window lowers a window that was advertised before (`honest_accused`), and
`honest_never_accused` says that nothing else does.
-/

namespace MPQuic

open KeyedList Transition FlowControlManager
open FlowController (streamID)

/-- The manager together with the largest offsets that were advertised. -/
structure Advertising where
  manager : FlowControlManager
  stream : ℕ → ℕ
  conn : ℕ

namespace Advertising

/-- The initial windows are advertised in the handshake. -/
def new (p : ConnectionParameters) : Advertising where
  manager := .new p
  stream := fun _ => p.receiveStreamFlowControlWindow
  conn := p.receiveConnectionFlowControlWindow

/-- A WINDOW_UPDATE frame is sent. -/
def advertise (a : Advertising) (update : WindowUpdate) : Advertising :=
  if update.streamID = 0 then { a with conn := max a.conn update.offset }
  else
    { a with
      stream := Function.update a.stream update.streamID
        (max (a.stream update.streamID) update.offset) }

/-- What a call returns, and what it does. A stream that is created starts with the initial
window. -/
def apply (a : Advertising) : ReceiveCall → Option FlowControlError × Advertising
  | .newStream streamID contributesToConnection =>
    (none, { a with
      manager := a.manager.newStream streamID contributesToConnection
      stream :=
        if (a.manager.getFlowController streamID).isSome then a.stream
        else Function.update a.stream streamID
          a.manager.connectionParameters.receiveStreamFlowControlWindow })
  | .removeStream streamID => (none, { a with manager := a.manager.removeStream streamID })
  | .updateHighestReceived streamID byteOffset =>
    let r := a.manager.updateHighestReceived streamID byteOffset
    (r.1, { a with manager := r.2 })
  | .resetStream streamID byteOffset =>
    let r := a.manager.resetStream streamID byteOffset
    (r.1, { a with manager := r.2 })
  | .addBytesRead streamID n now connNow =>
    let r := a.manager.addBytesRead streamID n now connNow
    (r.1, { a with manager := r.2 })
  | .getWindowUpdates force clock connClock =>
    let r := a.manager.getWindowUpdates force clock connClock
    (none, r.1.foldl advertise { a with manager := r.2 })

/-- The peer may send data of a stream up to this offset: it was advertised, and what the peer sent
on all streams of the connection was advertised too. -/
def WithinLimits (a : Advertising) (streamID byteOffset : ℕ) : Prop :=
  byteOffset ≤ a.stream streamID ∧
    (a.manager.getFlowController streamID).all (fun fc =>
      !fc.contributesToConnection ||
        decide (a.manager.contributed FlowController.highestReceived +
          (byteOffset - fc.highestReceived) ≤ a.conn)) = true

/-- The calls that an honest peer and a correct application cause. -/
def Honest (a : Advertising) : ReceiveCall → Prop
  | .newStream streamID _ => streamID ≠ 0
  | .updateHighestReceived streamID byteOffset => a.WithinLimits streamID byteOffset
  | .resetStream streamID byteOffset => a.WithinLimits streamID byteOffset
  | .addBytesRead streamID n _ _ =>
    (a.manager.getFlowController streamID).all
      (fun fc => decide (fc.bytesRead + n ≤ fc.highestReceived)) = true
  | _ => True

instance (a : Advertising) (streamID byteOffset : ℕ) :
    Decidable (a.WithinLimits streamID byteOffset) :=
  inferInstanceAs (Decidable (_ ∧ _))

instance (a : Advertising) (call : ReceiveCall) : Decidable (a.Honest call) :=
  match call with
  | .newStream _ _ => inferInstanceAs (Decidable (_ ≠ _))
  | .removeStream _ => isTrue trivial
  | .updateHighestReceived _ _ => inferInstanceAs (Decidable (WithinLimits _ _ _))
  | .resetStream _ _ => inferInstanceAs (Decidable (WithinLimits _ _ _))
  | .addBytesRead _ _ _ _ => inferInstanceAs (Decidable (_ = _))
  | .getWindowUpdates _ _ _ => isTrue trivial

/-- Loops over the map find the controllers in another order. -/
def reorder (a : Advertising) (order : List FlowController)
    (horder : order.Perm a.manager.streamFlowController) : Advertising :=
  { a with manager := a.manager.reorder order horder }

/-- A step is a call that an honest peer causes, in the 64-bit range. -/
def Step (a : Advertising) (call : ReceiveCall) (a' : Advertising) : Prop :=
  a.manager.InRange ∧ ∃ order horder,
    (a.reorder order horder).Honest call ∧ a' = ((a.reorder order horder).apply call).2

/-- The step as a function, for the order in which the list has the controllers. -/
def step? (a : Advertising) (call : ReceiveCall) : Option Advertising :=
  if a.manager.InRange ∧ a.Honest call then some (a.apply call).2 else none

theorem step_of_step? {a a' : Advertising} {call : ReceiveCall}
    (h : a.step? call = some a') : a.Step call a' := by
  rw [step?, Option.ite_none_right_eq_some] at h
  obtain ⟨⟨hrange, hhonest⟩, heq⟩ := h
  exact ⟨hrange, a.manager.streamFlowController, .refl _, hhonest, (Option.some.inj heq).symm⟩

/-! ## Windows are not lowered -/

/-- No receive window of `f'` is below that of `f`. -/
structure NotLowered (f f' : FlowControlManager) : Prop where
  conn : f.connFlowController.receiveWindow ≤ f'.connFlowController.receiveWindow
  stream : ∀ fc ∈ f.streamFlowController, ∀ fc' ∈ f'.streamFlowController,
    fc'.streamID = fc.streamID → fc.receiveWindow ≤ fc'.receiveWindow

variable {a a' : Advertising} {f f' : FlowControlManager} {fc fc' : FlowController} {id : ℕ}

theorem eq_of_streamID (hfc : fc ∈ f.streamFlowController) (hfc' : fc' ∈ f.streamFlowController)
    (hid : fc'.streamID = fc.streamID) : fc' = fc :=
  List.inj_on_of_nodup_map f.nodup hfc' hfc hid

/-- The same streams have the same windows. -/
theorem NotLowered.of_subset (hconn : f'.connFlowController = f.connFlowController)
    (hsub : f'.streamFlowController ⊆ f.streamFlowController) : NotLowered f f' := by
  refine ⟨by rw [hconn], fun fc hfc fc' hfc' hid => ?_⟩
  rw [eq_of_streamID hfc (hsub hfc') hid]

theorem notLowered_newStream (f : FlowControlManager) (id : ℕ) (contributes : Bool) :
    NotLowered f (f.newStream id contributes) := by
  unfold FlowControlManager.newStream
  split_ifs with hknown
  · exact .of_subset rfl (List.Subset.refl _)
  · refine ⟨le_rfl, fun fc hfc fc' hfc' hid => ?_⟩
    rcases List.mem_cons.mp hfc' with rfl | hfc'
    · exact absurd (List.mem_map.mpr ⟨fc, hfc, hid.symm⟩) hknown
    · rw [eq_of_streamID hfc hfc' hid]

/-- A stream gets another controller with the same window. -/
theorem NotLowered.of_replaceKey (hfc : fc ∈ f.streamFlowController)
    (hstreams : f'.streamFlowController =
      replaceKey streamID fc' f.streamFlowController)
    (hid : fc'.streamID = fc.streamID) (hwindow : fc'.receiveWindow = fc.receiveWindow)
    (hconn : f'.connFlowController.receiveWindow = f.connFlowController.receiveWindow) :
    NotLowered f f' := by
  refine ⟨hconn.ge, fun c hc c' hc' hids => ?_⟩
  rw [hstreams] at hc'
  rcases mem_replaceKey hc' with rfl | ⟨hmem, -⟩
  · rw [hwindow, eq_of_streamID hc hfc (hid.symm.trans hids)]
  · rw [eq_of_streamID hc hmem hids]

theorem addReceived_snd (f : FlowControlManager) (fc : FlowController)
    (byteOffset increment : ℕ) :
    (f.addReceived fc byteOffset increment).2.streamFlowController =
        replaceKey streamID fc f.streamFlowController ∧
      (f.addReceived fc byteOffset increment).2.connFlowController.receiveWindow =
        f.connFlowController.receiveWindow := by
  unfold FlowControlManager.addReceived
  dsimp only
  split_ifs <;> exact ⟨rfl, rfl⟩

theorem notLowered_getWindowUpdates (h : f.Accounted) (hrange : f.InRange) (force : Bool)
    (clock : ℕ → WindowClock) (connClock : WindowClock) :
    NotLowered f (f.getWindowUpdates force clock connClock).2 := by
  obtain ⟨hsame, hwindow, hreceives⟩ := updateStreamWindows_conn_spec f force clock
  refine ⟨?_, fun fc hfc fc' hfc' hid => ?_⟩
  · have hconnRange : (updateStreamWindows force clock f.streamFlowController
        f.connFlowController).connFlowController.InRange := by
      unfold FlowController.InRange
      rw [hsame.read]
      exact hrange.1
    obtain ⟨-, hle, -⟩ := (hreceives h.conn).maybeUpdateWindow hconnRange connClock
    exact hwindow ▸ hle
  · change fc' ∈ (updateStreamWindows _ _ _ _).streamFlowController at hfc'
    rw [updateStreamWindows_streams] at hfc'
    obtain ⟨c, hc, rfl⟩ := List.mem_map.mp hfc'
    rw [streamID_maybeUpdateWindow] at hid
    obtain rfl := eq_of_streamID hfc hc hid
    exact ((h.streams c hc).maybeUpdateWindow (hrange.2 c hc) (clock c.streamID)).2.1

/-! ## The invariant -/

/-- Every offset that was advertised is within the current window. -/
structure Inv (a : Advertising) : Prop where
  accounted : a.manager.Accounted
  nonzero : ∀ fc ∈ a.manager.streamFlowController, fc.streamID ≠ 0
  stream_le : ∀ fc ∈ a.manager.streamFlowController, a.stream fc.streamID ≤ fc.receiveWindow
  conn_le : a.conn ≤ a.manager.connFlowController.receiveWindow

theorem inv_new {p : ConnectionParameters} (hp : p.Sound) : (new p).Inv where
  accounted := accounted_new hp
  nonzero := fun _ hfc => absurd hfc List.not_mem_nil
  stream_le := fun _ hfc => absurd hfc List.not_mem_nil
  conn_le := le_rfl

theorem Inv.reorder (h : a.Inv) {order : List FlowController}
    (horder : order.Perm a.manager.streamFlowController) : (a.reorder order horder).Inv where
  accounted := h.accounted.reorder horder
  nonzero := fun fc hfc => h.nonzero fc (horder.subset hfc)
  stream_le := fun fc hfc => h.stream_le fc (horder.subset hfc)
  conn_le := h.conn_le

/-- The same streams with windows that are not lowered. -/
theorem Inv.notLowered (h : a.Inv) (hacc : f'.Accounted) (hnot : NotLowered a.manager f')
    (hids : f'.streamFlowController.map streamID ⊆
      a.manager.streamFlowController.map streamID) :
    { a with manager := f' }.Inv := by
  have hold : ∀ fc' ∈ f'.streamFlowController, ∃ fc ∈ a.manager.streamFlowController,
      fc.streamID = fc'.streamID :=
    fun fc' hfc' => List.mem_map.mp (hids (List.mem_map_of_mem hfc'))
  refine ⟨hacc, fun fc' hfc' => ?_, fun fc' hfc' => ?_, h.conn_le.trans hnot.conn⟩
  · obtain ⟨fc, hfc, hid⟩ := hold fc' hfc'
    exact hid ▸ h.nonzero fc hfc
  · obtain ⟨fc, hfc, hid⟩ := hold fc' hfc'
    exact (hid ▸ h.stream_le fc hfc).trans (hnot.stream fc hfc fc' hfc' hid.symm)

theorem addReceived_fst {byteOffset increment : ℕ}
    (hstream : fc.highestReceived ≤ fc.receiveWindow)
    (hconn : fc.contributesToConnection = true →
      uint64Add f.connFlowController.highestReceived increment ≤
        f.connFlowController.receiveWindow) :
    (f.addReceived fc byteOffset increment).1 = none := by
  unfold FlowControlManager.addReceived
  dsimp only
  rw [if_neg (by simpa [FlowController.checkFlowControlViolation] using hstream)]
  split_ifs with hcontributes hviolation
  · refine absurd hviolation ?_
    rw [FlowController.checkFlowControlViolation, decide_eq_true_eq, not_lt]
    exact hconn hcontributes
  · rfl
  · rfl

/-- Data within the limits is accepted. -/
theorem Inv.addReceived (h : a.Inv) (hrange : a.manager.InRange)
    (hget : a.manager.getFlowController id = some fc) {byteOffset : ℕ}
    (hlimits : a.WithinLimits id byteOffset) :
    let r := a.manager.addReceived
      { fc with highestReceived := max fc.highestReceived byteOffset } byteOffset
      (byteOffset - fc.highestReceived)
    r.1 = none ∧ { a with manager := r.2 }.Inv ∧ NotLowered a.manager r.2 := by
  intro r
  obtain ⟨hmem, hid⟩ := of_getFlowController hget
  obtain ⟨hstream, hconn⟩ := hlimits
  rw [hget, Option.all_some] at hconn
  have hwindow := h.stream_le fc hmem
  rw [hid] at hwindow
  have hhighest := (h.accounted.streams fc hmem).highest_le
  have hnone : r.1 = none := by
    refine addReceived_fst (by dsimp only; omega) fun hcontributes => ?_
    change fc.contributesToConnection = true at hcontributes
    rw [hcontributes, Bool.not_true, Bool.false_or, decide_eq_true_eq, ← h.accounted.highest]
      at hconn
    have hle := h.conn_le
    have hbound := h.accounted.conn.window_le
    have hread : a.manager.connFlowController.bytesRead < 2 ^ 62 := hrange.1
    rw [uint64Add_eq (by unfold uint64Size; omega)]
    omega
  have hok : a.manager.addReceived { fc with
      highestReceived := max fc.highestReceived byteOffset } byteOffset
      (byteOffset - fc.highestReceived) = (none, r.2) := Prod.ext hnone rfl
  have hacc := h.accounted.addReceived hrange hmem hok
  obtain ⟨hstreams, hconnWindow⟩ := addReceived_snd a.manager
    { fc with highestReceived := max fc.highestReceived byteOffset } byteOffset
    (byteOffset - fc.highestReceived)
  have hnot : NotLowered a.manager r.2 := .of_replaceKey hmem hstreams rfl rfl hconnWindow
  refine ⟨hnone, h.notLowered hacc hnot ?_, hnot⟩
  rw [hstreams, map_key_replaceKey]
  exact List.Subset.refl _

/-! ## Advertised offsets -/

/-- What is advertised for a stream is what was advertised before, or the offset of an update. -/
theorem stream_foldl_advertise_le {updates : List WindowUpdate} {bound : ℕ} (hid : id ≠ 0)
    (hold : a.stream id ≤ bound)
    (hnew : ∀ u ∈ updates, u.streamID = id → u.offset ≤ bound) :
    (updates.foldl advertise a).stream id ≤ bound := by
  refine List.foldlRecOn (motive := fun a => a.stream id ≤ bound) updates advertise hold ?_
  intro a ha u hu
  unfold advertise
  split_ifs with hconn
  · exact ha
  · dsimp only
    rw [Function.update_apply]
    split_ifs with heq
    · subst heq
      exact max_le ha (hnew u hu rfl)
    · exact ha

theorem conn_foldl_advertise_le {updates : List WindowUpdate} {bound : ℕ} (hold : a.conn ≤ bound)
    (hnew : ∀ u ∈ updates, u.streamID = 0 → u.offset ≤ bound) :
    (updates.foldl advertise a).conn ≤ bound := by
  refine List.foldlRecOn (motive := fun a => a.conn ≤ bound) updates advertise hold ?_
  intro a ha u hu
  unfold advertise
  split_ifs with hconn
  · exact max_le ha (hnew u hu hconn)
  · exact ha

theorem manager_foldl_advertise (updates : List WindowUpdate) (a : Advertising) :
    (updates.foldl advertise a).manager = a.manager := by
  induction updates generalizing a with
  | nil => rfl
  | cons u updates ih =>
    rw [List.foldl_cons, ih]
    unfold advertise
    split_ifs <;> rfl

/-- The update of a stream has the new window of the stream. -/
theorem mem_updateStreamWindows {force : Bool} {clock : ℕ → WindowClock}
    {fcs : List FlowController} {conn : FlowController} {u : WindowUpdate}
    (hu : u ∈ (updateStreamWindows force clock fcs conn).res) :
    ∃ fc ∈ (updateStreamWindows force clock fcs conn).streamFlowController,
      u.streamID = fc.streamID ∧ u.offset = fc.receiveWindow := by
  induction fcs generalizing conn with
  | nil => cases hu
  | cons fc rest ih =>
    rw [updateStreamWindows] at hu ⊢
    dsimp only at hu ⊢
    split_ifs at hu ⊢
    all_goals first
      | rcases List.mem_cons.mp hu with rfl | hu
        · exact ⟨_, List.mem_cons_self, rfl, fc.offset_maybeUpdateWindow _⟩
        · obtain ⟨c, hc, heq⟩ := ih hu
          exact ⟨c, List.mem_cons_of_mem _ hc, heq⟩
      | obtain ⟨c, hc, heq⟩ := ih hu
        exact ⟨c, List.mem_cons_of_mem _ hc, heq⟩

/-- The update with the stream id 0 is that of the connection. -/
theorem mem_getWindowUpdates {force : Bool} {clock : ℕ → WindowClock} {connClock : WindowClock}
    {u : WindowUpdate} (hu : u ∈ (f.getWindowUpdates force clock connClock).1) :
    (∃ fc ∈ (f.getWindowUpdates force clock connClock).2.streamFlowController,
        u.streamID = fc.streamID ∧ u.offset = fc.receiveWindow) ∨
      (u.streamID = 0 ∧ u.offset =
        (f.getWindowUpdates force clock connClock).2.connFlowController.receiveWindow) := by
  unfold FlowControlManager.getWindowUpdates at hu ⊢
  dsimp only at hu ⊢
  split_ifs at hu
  · rcases List.mem_append.mp hu with hu | hu
    · exact .inl (mem_updateStreamWindows hu)
    · obtain rfl := List.mem_singleton.mp hu
      exact .inr ⟨rfl, FlowController.offset_maybeUpdateWindow _ _⟩
  · exact .inl (mem_updateStreamWindows hu)

theorem streamIDs_getWindowUpdates (f : FlowControlManager) (force : Bool)
    (clock : ℕ → WindowClock) (connClock : WindowClock) :
    (f.getWindowUpdates force clock connClock).2.streamFlowController.map streamID =
      f.streamFlowController.map streamID := by
  change (updateStreamWindows _ _ _ _).streamFlowController.map _ = _
  rw [updateStreamWindows_streams, List.map_map]
  exact List.map_congr_left fun fc _ => streamID_maybeUpdateWindow fc _

/-! ## Calls -/

/-- What an honest call does: the invariant is kept, the peer is not accused, and no window is
lowered. -/
structure Served (a : Advertising) (r : Option FlowControlError × Advertising) : Prop where
  inv : r.2.Inv
  not_accused : ∀ e, r.1 = some e → e.isReceivedTooMuchData = false
  not_lowered : NotLowered a.manager r.2.manager

theorem Served.of_none {r : Option FlowControlError × Advertising} (hnone : r.1 = none)
    (hinv : r.2.Inv) (hnot : NotLowered a.manager r.2.manager) : Served a r :=
  ⟨hinv, fun _ he => absurd (hnone.symm.trans he) (by simp), hnot⟩

/-- A call that is refused for another reason. -/
theorem Inv.refused (h : a.Inv) {e : FlowControlError} (he : e.isReceivedTooMuchData = false) :
    Served a (some e, a) where
  inv := h
  not_accused := fun _ heq => Option.some.inj heq ▸ he
  not_lowered := .of_subset rfl (List.Subset.refl _)

theorem Inv.updateHighestReceived (h : a.Inv) (hrange : a.manager.InRange) {byteOffset : ℕ}
    (hlimits : a.WithinLimits id byteOffset) :
    Served a (a.apply (.updateHighestReceived id byteOffset)) := by
  unfold Advertising.apply FlowControlManager.updateHighestReceived
  dsimp only
  cases hget : a.manager.getFlowController id with
  | none => exact h.refused rfl
  | some fc =>
    obtain ⟨heq, hinc⟩ := fc.updateHighestReceived_eq byteOffset
    dsimp only
    rw [heq, hinc]
    obtain ⟨hnone, hinv, hnot⟩ := h.addReceived hrange hget hlimits
    exact .of_none hnone hinv hnot

theorem Inv.resetStream (h : a.Inv) (hrange : a.manager.InRange) {byteOffset : ℕ}
    (hlimits : a.WithinLimits id byteOffset) :
    Served a (a.apply (.resetStream id byteOffset)) := by
  unfold Advertising.apply FlowControlManager.resetStream
  dsimp only
  cases hget : a.manager.getFlowController id with
  | none => exact h.refused rfl
  | some fc =>
    obtain ⟨heq, hinc⟩ := fc.updateHighestReceived_eq byteOffset
    dsimp only
    cases hupdate : fc.updateHighestReceived byteOffset with
    | mk increment fc' =>
      cases increment with
      | none => exact h.refused rfl
      | some increment =>
        rw [hupdate] at heq hinc
        dsimp only [Option.getD_some] at heq hinc ⊢
        rw [heq, hinc]
        obtain ⟨hnone, hinv, hnot⟩ := h.addReceived hrange hget hlimits
        exact .of_none hnone hinv hnot

theorem Inv.addBytesRead (h : a.Inv) (hrange : a.manager.InRange) {n now connNow : ℕ}
    (hhonest : a.Honest (.addBytesRead id n now connNow)) :
    Served a (a.apply (.addBytesRead id n now connNow)) := by
  change Option.all _ _ = true at hhonest
  cases hget : a.manager.getFlowController id with
  | none =>
    unfold Advertising.apply FlowControlManager.addBytesRead
    dsimp only
    rw [hget]
    exact h.refused rfl
  | some fc =>
    rw [hget, Option.all_some, decide_eq_true_eq] at hhonest
    obtain ⟨hmem, -⟩ := of_getFlowController hget
    have hacc := h.accounted.addBytesRead hrange hget hhonest now connNow
    unfold Advertising.apply
    dsimp only
    rw [addBytesRead_eq hget] at hacc ⊢
    have hnot : NotLowered a.manager
        { a.manager.setFlowController (fc.addBytesRead n now) with
          connFlowController :=
            if fc.contributesToConnection then a.manager.connFlowController.addBytesRead n connNow
            else a.manager.connFlowController } := by
      refine .of_replaceKey hmem rfl rfl rfl ?_
      dsimp only
      split_ifs <;> rfl
    refine .of_none rfl (h.notLowered hacc hnot ?_) hnot
    change (replaceKey _ _ _).map _ ⊆ _
    rw [map_key_replaceKey]
    exact List.Subset.refl _

theorem Inv.newStream (h : a.Inv) (hid : id ≠ 0) (contributes : Bool) :
    Served a (a.apply (.newStream id contributes)) := by
  refine .of_none rfl ?_ (notLowered_newStream a.manager id contributes)
  have hacc := h.accounted.newStream id contributes
  unfold Advertising.apply FlowControlManager.newStream at *
  dsimp only at hacc ⊢
  by_cases hknown : id ∈ a.manager.streamFlowController.map streamID
  · have hget : (a.manager.getFlowController id).isSome = true := by
      simpa [getFlowController] using hknown
    rw [dif_pos hknown, if_pos hget]
    exact h
  · have hget : ¬ (a.manager.getFlowController id).isSome = true := by
      simpa [getFlowController] using hknown
    rw [dif_neg hknown] at hacc ⊢
    rw [if_neg hget]
    refine ⟨hacc, List.forall_mem_cons.mpr ⟨hid, h.nonzero⟩, List.forall_mem_cons.mpr ⟨?_, ?_⟩,
      h.conn_le⟩
    · dsimp only [FlowController.new]
      rw [Function.update_self, if_neg hid]
    · -- the new stream has another id
      intro fc hfc
      have hne : fc.streamID ≠ id := fun heq => hknown (heq ▸ List.mem_map_of_mem hfc)
      dsimp only
      rw [Function.update_of_ne hne]
      exact h.stream_le fc hfc

theorem Inv.getWindowUpdates (h : a.Inv) (hrange : a.manager.InRange) (force : Bool)
    (clock : ℕ → WindowClock) (connClock : WindowClock) :
    Served a (a.apply (.getWindowUpdates force clock connClock)) := by
  have hnot := notLowered_getWindowUpdates h.accounted hrange force clock connClock
  have hacc := (h.accounted.getWindowUpdates hrange force clock connClock).1
  have hids := streamIDs_getWindowUpdates a.manager force clock connClock
  have hold := h.notLowered hacc hnot (hids ▸ List.Subset.refl _)
  unfold Advertising.apply
  dsimp only
  refine .of_none rfl ⟨?_, ?_, ?_, ?_⟩ ?_
  all_goals dsimp only
  · rw [manager_foldl_advertise]
    exact hacc
  · rw [manager_foldl_advertise]
    exact hold.nonzero
  · rw [manager_foldl_advertise]
    intro fc hfc
    refine stream_foldl_advertise_le (hold.nonzero fc hfc) (hold.stream_le fc hfc) ?_
    intro u hu heq
    rcases mem_getWindowUpdates hu with ⟨c, hc, hid, hoffset⟩ | ⟨hzero, -⟩
    · rw [hoffset, eq_of_streamID hfc hc (hid.symm.trans heq)]
    · exact absurd (heq.symm.trans hzero) (hold.nonzero fc hfc)
  · rw [manager_foldl_advertise]
    refine conn_foldl_advertise_le hold.conn_le fun u hu heq => ?_
    rcases mem_getWindowUpdates hu with ⟨c, hc, hid, -⟩ | ⟨-, hoffset⟩
    · exact absurd (hid.symm.trans heq) (hold.nonzero c hc)
    · exact hoffset.le
  · rw [manager_foldl_advertise]
    exact hnot

theorem Inv.apply (h : a.Inv) (hrange : a.manager.InRange) {call : ReceiveCall}
    (hhonest : a.Honest call) : Served a (a.apply call) := by
  cases call with
  | newStream id contributes => exact h.newStream hhonest contributes
  | removeStream id =>
    have hsub := (eraseKey_sublist streamID id a.manager.streamFlowController)
    have hnot : NotLowered a.manager (a.manager.removeStream id) := .of_subset rfl hsub.subset
    exact .of_none rfl (h.notLowered (h.accounted.removeStream id) hnot (hsub.map _).subset) hnot
  | updateHighestReceived id byteOffset => exact h.updateHighestReceived hrange hhonest
  | resetStream id byteOffset => exact h.resetStream hrange hhonest
  | addBytesRead id n now connNow => exact h.addBytesRead hrange hhonest
  | getWindowUpdates force clock connClock => exact h.getWindowUpdates hrange force clock connClock

/-- For every configuration whose maximum windows are at least half of the initial windows minus one
byte (and at most 2^62), and every run of an honest peer in which less than 2^62 bytes are read
before each call: no call accuses the peer, and no call lowers a window. -/
theorem honest_never_accused {maxStream maxConn : ℕ}
    (hstream : receiveStreamFlowControlWindow / 2 ≤ maxStream + 1 ∧ maxStream ≤ 2 ^ 62)
    (hconn : receiveConnectionFlowControlWindow / 2 ≤ maxConn + 1 ∧ maxConn ≤ 2 ^ 62)
    {calls : List ReceiveCall} (hrun : Run Step (new (.new maxStream maxConn)) calls a)
    (hrange : a.manager.InRange) {call : ReceiveCall} (hhonest : a.Honest call) :
    (∀ e, (a.apply call).1 = some e → e.isReceivedTooMuchData = false) ∧
      NotLowered a.manager (a.apply call).2.manager := by
  have hinitial : receiveStreamFlowControlWindow ≤ 2 ^ 62 ∧
      receiveConnectionFlowControlWindow ≤ 2 ^ 62 := by decide
  have hp : (ConnectionParameters.new maxStream maxConn).Sound :=
    ⟨hinitial.1, hinitial.2, hstream.2, hconn.2, hstream.1, hconn.1⟩
  have hinv : a.Inv := by
    refine Run.invariant (I := fun _ a => a.Inv) (inv_new hp) ?_ hrun
    rintro _ a call _ hinv ⟨hrange, order, horder, hhonest, rfl⟩
    exact ((hinv.reorder horder).apply (hrange.reorder horder) hhonest).inv
  have hserved := hinv.apply hrange hhonest
  exact ⟨hserved.not_accused, hserved.not_lowered⟩

/-- The controllers measure an interval that is short against the RTT. -/
def shortInterval : WindowClock := { smoothedRTT := 10, remoteRTTs := [], measured := 1, now := 1 }

/-- With the default maximum windows of a server, a stream that was read to 24 kB is offered
more. -/
theorem honest_never_accused_example :
    ∃ (calls : List ReceiveCall) (a : Advertising),
      Run Step (new (.new (2 ^ 20) (3 * 2 ^ 19))) calls a ∧
        a.stream 5 = 24577 + 2 ^ 16 ∧ a.WithinLimits 5 (2 ^ 15) ∧
        ∀ e, (a.apply (.updateHighestReceived 5 (2 ^ 15))).1 = some e →
          e.isReceivedTooMuchData = false := by
  let calls : List ReceiveCall :=
    [.newStream 5 true, .updateHighestReceived 5 24577, .addBytesRead 5 24577 1 1,
      .getWindowUpdates false (fun _ => shortInterval) shortInterval]
  have hcalls : (calls.foldlM step? (new (.new (2 ^ 20) (3 * 2 ^ 19)))).any (fun a =>
      a.stream 5 = 24577 + 2 ^ 16 ∧ a.WithinLimits 5 (2 ^ 15) ∧ a.manager.InRange) := by
    decide +kernel
  obtain ⟨a, hrun, hoffset, hlimits, hrange⟩ :=
    Run.exists_of_any (fun _ _ _ => step_of_step?) hcalls
  have hhonest : a.Honest (.updateHighestReceived 5 (2 ^ 15)) := hlimits
  have hnot := (honest_never_accused (by decide) (by decide) hrun hrange hhonest).1
  exact ⟨calls, a, hrun, hoffset, hlimits, hnot⟩

/-- With a maximum window that is one byte smaller than allowed, of a stream or of the connection,
an honest peer is accused: the window is lowered while data that it allowed is on its way. -/
theorem honest_accused :
    (∃ (calls : List ReceiveCall) (a : Advertising) (e : FlowControlError),
      Run Step (new (.new 16382 (3 * 2 ^ 19))) calls a ∧ a.WithinLimits 5 (2 ^ 15) ∧
        (a.apply (.updateHighestReceived 5 (2 ^ 15))).1 = some e ∧
        e.isReceivedTooMuchData = true) ∧
    (∃ (calls : List ReceiveCall) (a : Advertising) (e : FlowControlError),
      Run Step (new (.new (2 ^ 20) 24574)) calls a ∧ a.WithinLimits 7 (2 ^ 14) ∧
        (a.apply (.updateHighestReceived 7 (2 ^ 14))).1 = some e ∧
        e.isReceivedTooMuchData = true) := by
  constructor
  · let calls : List ReceiveCall :=
      [.newStream 5 true, .updateHighestReceived 5 16385, .addBytesRead 5 16385 1 1,
        .getWindowUpdates false (fun _ => shortInterval) shortInterval]
    have hcalls : (calls.foldlM step? (new (.new 16382 (3 * 2 ^ 19)))).any (fun a =>
        a.WithinLimits 5 (2 ^ 15) ∧ (a.apply (.updateHighestReceived 5 (2 ^ 15))).1 =
          some (.receivedTooMuchDataOnStream (2 ^ 15) 5 32767)) := by
      decide +kernel
    obtain ⟨a, hrun, hlimits, herror⟩ := Run.exists_of_any (fun _ _ _ => step_of_step?) hcalls
    exact ⟨calls, a, _, hrun, hlimits, herror, rfl⟩
  · let calls : List ReceiveCall :=
      [.newStream 5 true, .newStream 7 true, .updateHighestReceived 5 (2 ^ 15),
        .updateHighestReceived 7 8193, .addBytesRead 5 (2 ^ 14) 1 1, .addBytesRead 7 8193 1 1,
        .getWindowUpdates false (fun _ => shortInterval) shortInterval]
    have hcalls : (calls.foldlM step? (new (.new (2 ^ 20) 24574))).any (fun a =>
        a.WithinLimits 7 (2 ^ 14) ∧ (a.apply (.updateHighestReceived 7 (2 ^ 14))).1 =
          some (.receivedTooMuchData 49152 49151)) := by
      decide +kernel
    obtain ⟨a, hrun, hlimits, herror⟩ := Run.exists_of_any (fun _ _ _ => step_of_step?) hcalls
    exact ⟨calls, a, _, hrun, hlimits, herror, rfl⟩

end Advertising

end MPQuic
