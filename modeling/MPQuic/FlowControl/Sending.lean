import MPQuic.FlowControl.Receiving
import MPQuic.Packer.Partition

/-!
# Flow control of sent data

`maybePopNormalFrames` asks the flow control manager for the window of a stream before it takes
data, and tells it what it took before it comes to the next stream. The windows are the negotiated
ones until the first WINDOW_UPDATE frame arrives, and the negotiated ones change once.

What was granted, to a stream and to the connection, is the largest window that was in force or was
offered by a WINDOW_UPDATE frame (`granted`). `sender_respects_flowControl` says that the new frames
never go beyond it.
-/

namespace MPQuic

open KeyedList Transition StreamFramer FlowControlManager
open FlowController (bytesSent updateSendWindow getSendWindow)

/-! ## The windows of a call -/

/-- The window that the framer gets for a stream. It ignores the error for an unknown stream. -/
def FlowControlManager.windowOf (f : FlowControlManager) (streamID : ℕ) : ℕ :=
  match f.sendWindowSize streamID with
  | .ok n => n
  | .error _ => 0

/-- A stream that is not visited any more. -/
def StreamVisit.unvisited (stream : SendStream) : StreamVisit where
  stream := stream
  sendWindowSize := 0
  remainingConnectionWindowSize := 0

/-- The visits of `maybePopNormalFrames` with the answers of the flow control manager, and the
manager afterwards. -/
def StreamFramer.flowVisits (maxBytes : ℕ) :
    List SendStream → ℕ → FlowControlManager → List StreamVisit × FlowControlManager
  | [], _, f => ([], f)
  | s :: streams, currentLen, f =>
    let v : StreamVisit :=
      { stream := s, sendWindowSize := f.windowOf s.streamID, remainingConnectionWindowSize := 0 }
    match visit maxBytes currentLen v with
    | .stopped => (v :: streams.map .unvisited, f)
    | .skipped _ =>
      let r := flowVisits maxBytes streams currentLen f
      (v :: r.1, r.2)
    | .made frame _ _ =>
      let f := (f.addBytesSent s.streamID frame.dataLen).2
      let v := { v with remainingConnectionWindowSize := f.remainingConnectionWindowSize }
      let currentLen := currentLen + (frame.minLength + frame.dataLen)
      if currentLen = maxBytes then (v :: streams.map .unvisited, f)
      else
        let r := flowVisits maxBytes streams currentLen f
        (v :: r.1, r.2)

namespace StreamFramer

/-- The remaining window of the connection only decides about BLOCKED frames. -/
theorem visit_remaining {maxBytes currentLen : ℕ} {v : StreamVisit} {f : StreamFrame}
    {s : SendStream} {blocked : Option BlockedFrame}
    (h : visit maxBytes currentLen v = .made f s blocked) (n : ℕ) :
    ∃ blocked', visit maxBytes currentLen { v with remainingConnectionWindowSize := n } =
      .made f s blocked' := by
  unfold visit at h ⊢
  dsimp only at h ⊢
  by_cases hid : v.stream.streamID = 1
  · rw [if_pos hid] at h
    cases h
  rw [if_neg hid] at h ⊢
  set header : ℕ := StreamFrame.minLength _
  by_cases hroom : maxBytes < currentLen + header
  · rw [if_pos hroom] at h
    cases h
  rw [if_neg hroom] at h ⊢
  set maxLen : ℕ := if v.stream.lenOfDataForWriting ≠ 0 then _ else _
  by_cases hpos : maxLen = 0
  · rw [if_pos hpos] at h
    cases h
  rw [if_neg hpos] at h ⊢
  set taken : List UInt8 × SendStream := if v.stream.lenOfDataForWriting ≠ 0 then _ else _
  by_cases hnothing : (taken.1.isEmpty && !taken.2.shouldSendFin) = true
  · rw [if_pos hnothing] at h
    cases h
  rw [if_neg hnothing] at h ⊢
  obtain ⟨rfl, rfl, -⟩ := Visited.made.inj h
  exact ⟨_, rfl⟩

/-- The frames are within the windows of the manager, which is told about each of them. -/
inductive Sends : FlowControlManager → List StreamFrame → FlowControlManager → Prop
  | nil (f : FlowControlManager) : Sends f [] f
  | cons {f f' : FlowControlManager} {frame : StreamFrame} {frames : List StreamFrame} :
    frame.dataLen ≤ f.windowOf frame.streamID →
      Sends (f.addBytesSent frame.streamID frame.dataLen).2 frames f' →
      Sends f (frame :: frames) f'

/-- The frames that are made of the streams are within the windows. -/
theorem maybePopNormalFrames_sends (maxBytes : ℕ) (streams : List SendStream) (currentLen : ℕ)
    (f : FlowControlManager) (heap : FrameHeap) :
    let visits := flowVisits maxBytes streams currentLen f
    let r := maybePopNormalFrames maxBytes visits.1 currentLen heap
    Sends f (r.frames.map r.heap.get) visits.2 := by
  induction streams generalizing currentLen f heap with
  | nil => exact .nil f
  | cons s streams ih =>
    rw [flowVisits]
    set v : StreamVisit :=
      { stream := s, sendWindowSize := f.windowOf s.streamID, remainingConnectionWindowSize := 0 }
    have hspec := visit_spec maxBytes currentLen v
    cases hvisit : visit maxBytes currentLen v with
    | stopped =>
      dsimp only
      rw [maybePopNormalFrames, hvisit]
      exact .nil f
    | skipped s' =>
      dsimp only
      rw [maybePopNormalFrames, hvisit]
      exact ih currentLen f heap
    | made frame s' blocked =>
      rw [hvisit] at hspec
      obtain ⟨htakes, -⟩ := hspec
      have hid : frame.streamID = s.streamID := htakes.frame_streamID
      have hwindow : frame.dataLen ≤ f.windowOf frame.streamID := hid ▸ htakes.window
      rw [← hid]
      dsimp only
      set f' := (f.addBytesSent frame.streamID frame.dataLen).2
      obtain ⟨blocked', hvisit'⟩ := visit_remaining hvisit f'.remainingConnectionWindowSize
      have hself : (heap.alloc frame).2.get heap.next = frame := CellHeap.get_alloc_self
      by_cases hfull : currentLen + (frame.minLength + frame.dataLen) = maxBytes
      · rw [if_pos hfull, maybePopNormalFrames, hvisit']
        dsimp only
        rw [if_pos hfull, List.map_singleton]
        change Sends f [(heap.alloc frame).2.get heap.next] f'
        rw [hself]
        exact .cons hwindow (.nil f')
      · rw [if_neg hfull, maybePopNormalFrames, hvisit']
        dsimp only
        rw [if_neg hfull, List.map_cons]
        have hrest := ih (currentLen + (frame.minLength + frame.dataLen)) f' (heap.alloc frame).2
        have hmakes := maybePopNormalFrames_spec maxBytes
          (flowVisits maxBytes streams (currentLen + (frame.minLength + frame.dataLen)) f').1
          (currentLen + (frame.minLength + frame.dataLen)) (heap.alloc frame).2
        dsimp only at hrest
        generalize maybePopNormalFrames maxBytes _ _ (heap.alloc frame).2 = r at hrest hmakes
        have hvalue : r.heap.get heap.next = frame :=
          (hmakes.others _ (Nat.lt_succ_self _)).trans hself
        change Sends f (r.heap.get heap.next :: _) _
        rw [hvalue]
        exact .cons hwindow hrest

end StreamFramer

/-! ## The sender with its flow control -/

/-- The sending side of a session with its flow control. -/
structure FlowSender where
  sender : StreamSender
  flowControlManager : FlowControlManager
  /-- The largest offset that was granted to a stream. This is a ghost variable. -/
  granted : ℕ → ℕ
  /-- The largest offset that was granted to the connection. This is a ghost variable. -/
  grantedConn : ℕ

namespace FlowSender

/-- The flow controllers of the streams, as `session.newStream` creates them. -/
def newStreams (f : FlowControlManager) (streamIDs : List ℕ) : FlowControlManager :=
  streamIDs.foldl (fun f id => f.newStream id (!(id == 1 || id == 3))) f

/-- The sender for streams with the given numbers. -/
def new (p : ConnectionParameters) (streamIDs : List ℕ) : FlowSender where
  sender := .new streamIDs
  flowControlManager := newStreams (.new p) streamIDs
  granted := fun _ => p.sendStreamFlowControlWindow
  grantedConn := p.sendConnectionFlowControlWindow

/-- Pop the frames of a packet, when the streams are visited in the given order. -/
def popStreamFrames (s : FlowSender) (maxLen : ℕ) (order : List SendStream) : FlowSender :=
  let fs := maybePopFramesForRetransmission maxLen s.sender.framer.retransmissionQueue 0
    s.sender.heap
  let visits := flowVisits (maxLen - fs.currentLen) order 0 s.flowControlManager
  { s with
    sender := s.sender.popStreamFrames maxLen visits.1
    flowControlManager := visits.2 }

/-- A WINDOW_UPDATE frame is received. An error closes the session. -/
def windowUpdate (s : FlowSender) (streamID offset : ℕ) : Option FlowSender :=
  match s.flowControlManager.updateWindow streamID offset with
  | (.error _, _) => none
  | (.ok _, f) =>
    some { s with
      flowControlManager := f
      granted := if streamID = 0 then s.granted
        else Function.update s.granted streamID (max (s.granted streamID) offset)
      grantedConn := if streamID = 0 then max s.grantedConn offset else s.grantedConn }

/-- The peer tells its windows in the handshake. -/
def setFromMap (s : FlowSender) (sfcw cfcw : Option UInt32) : FlowSender :=
  let p := (s.flowControlManager.connectionParameters.setFromMap sfcw cfcw).2
  { s with
    flowControlManager := { s.flowControlManager with connectionParameters := p }
    granted := fun id => max (s.granted id) p.sendStreamFlowControlWindow
    grantedConn := max s.grantedConn p.sendConnectionFlowControlWindow }

/-- What happens to the sender. -/
inductive Event where
  /-- `Write` is called. If it returns before its data was taken, the next call replaces it. -/
  | write (streamID : ℕ) (data : List UInt8)
  | close (streamID : ℕ)
  | popStreamFrames (maxLen : ℕ) (order : List SendStream)
  | addFrameForRetransmission (frame : FrameRef)
  | windowUpdate (streamID offset : ℕ)
  | setFromMap (sfcw cfcw : Option UInt32)

/-- The sender after an event, if there is no error. -/
def apply (s : FlowSender) : Event → Option FlowSender
  | .write streamID data => some { s with sender := s.sender.write streamID data }
  | .close streamID => some { s with sender := s.sender.close streamID }
  | .popStreamFrames maxLen order =>
    -- the framer visits streams of the session in any order
    if (∀ stream ∈ order, stream ∈ s.sender.streams) ∧ (order.map SendStream.streamID).Nodup then
      some (s.popStreamFrames maxLen order)
    else none
  | .addFrameForRetransmission frame =>
    some { s with sender := s.sender.addFrameForRetransmission frame }
  | .windowUpdate streamID offset =>
    if offset < uint64Size then s.windowUpdate streamID offset else none
  | .setFromMap sfcw cfcw => some (s.setFromMap sfcw cfcw)

/-- The number of bytes that were sent on a stream, in frames that are not retransmissions. No byte
is in two of them. -/
def sentOn (made : List StreamFrame) (streamID : ℕ) : ℕ :=
  ((StreamSender.framesOf streamID made).map StreamFrame.dataLen).sum

theorem sentOn_append_singleton (made : List StreamFrame) (frame : StreamFrame) (id : ℕ) :
    sentOn (made ++ [frame]) id =
      sentOn made id + if frame.streamID = id then frame.dataLen else 0 := by
  unfold sentOn StreamSender.framesOf
  rw [List.filter_append, List.map_append, List.sum_append, List.filter_singleton]
  split_ifs with hid
  · rw [decide_eq_true hid]
    rfl
  · rw [decide_eq_false hid]
    rfl

/-- A controller has sent no more than was granted, and its window was granted. -/
structure Within (c : FlowController) (p : ConnectionParameters) (granted : ℕ) : Prop where
  sent_le : c.bytesSent ≤ granted
  window_le : c.getSendWindow p ≤ granted
  granted_lt : granted < uint64Size

variable {c : FlowController} {p : ConnectionParameters}

theorem Within.addBytesSent {granted n : ℕ} (h : Within c p granted) (hn : n ≤ c.sendWindowSize p) :
    Within (c.addBytesSent n) p granted ∧ (c.addBytesSent n).bytesSent = c.bytesSent + n := by
  have hsum : c.bytesSent + n ≤ granted := by
    have hsent := h.sent_le
    have hwindow := h.window_le
    unfold FlowController.sendWindowSize at hn
    dsimp only at hn
    split_ifs at hn <;> omega
  have hadd : (c.addBytesSent n).bytesSent = c.bytesSent + n :=
    uint64Add_eq (Nat.lt_of_le_of_lt hsum h.granted_lt)
  exact ⟨⟨hadd ▸ hsum, h.window_le, h.granted_lt⟩, hadd⟩

/-- What the flow control manager counts is what was sent, and was granted. -/
structure Counts (f : FlowControlManager) (made : List StreamFrame) (granted : ℕ → ℕ)
    (grantedConn : ℕ) : Prop where
  params_lt : f.connectionParameters.sendStreamFlowControlWindow < uint64Size ∧
    f.connectionParameters.sendConnectionFlowControlWindow < uint64Size
  conn : Within f.connFlowController f.connectionParameters grantedConn
  connID : f.connFlowController.streamID = 0
  connSent : f.connFlowController.bytesSent = f.contributed bytesSent
  removed : f.removed = []
  streams : ∀ fc ∈ f.streamFlowController, Within fc f.connectionParameters (granted fc.streamID)
  streamIDs : ∀ fc ∈ f.streamFlowController, fc.streamID ≠ 0
  sent : ∀ fc ∈ f.streamFlowController, fc.bytesSent = sentOn made fc.streamID
  unknown : ∀ id, (∀ fc ∈ f.streamFlowController, fc.streamID ≠ id) → sentOn made id = 0

variable {granted : ℕ → ℕ} {f : FlowControlManager} {made : List StreamFrame} {grantedConn : ℕ}
  {fc : FlowController}

/-- The controller of one stream and the one of the connection are replaced. -/
theorem Counts.replace {made' : List StreamFrame} {granted' : ℕ → ℕ}
    (h : Counts f made granted grantedConn) {fc' conn : FlowController}
    (hfc : fc ∈ f.streamFlowController) (hid : fc'.streamID = fc.streamID)
    (hwithin : Within fc' f.connectionParameters (granted' fc.streamID))
    (hsent : fc'.bytesSent = sentOn made' fc.streamID)
    (hgranted : ∀ id ≠ fc.streamID, granted' id = granted id)
    (hmade : ∀ id ≠ fc.streamID, sentOn made' id = sentOn made id)
    (hconn : Within conn f.connectionParameters grantedConn) (hconnID : conn.streamID = 0)
    (hconnSent : conn.bytesSent = (f.setFlowController fc').contributed bytesSent) :
    Counts { f.setFlowController fc' with connFlowController := conn } made' granted'
      grantedConn := by
  refine ⟨h.params_lt, hconn, hconnID, hconnSent, h.removed, fun c hc => ?_, fun c hc => ?_,
    fun c hc => ?_, fun id hunknown => ?_⟩
  · rcases mem_replaceKey hc with rfl | ⟨hmem, hne⟩
    · exact hid ▸ hwithin
    · rw [hgranted _ (hid ▸ hne)]
      exact h.streams c hmem
  · rcases mem_replaceKey hc with rfl | ⟨hmem, -⟩
    · exact hid ▸ h.streamIDs fc hfc
    · exact h.streamIDs c hmem
  · rcases mem_replaceKey hc with rfl | ⟨hmem, hne⟩
    · exact hid ▸ hsent
    · rw [hmade _ (hid ▸ hne)]
      exact h.sent c hmem
  · have hids : ∀ c ∈ f.streamFlowController, c.streamID ≠ id := by
      intro c hc heq
      have hmem : id ∈ f.streamFlowController.map FlowController.streamID :=
        heq ▸ List.mem_map_of_mem hc
      rw [← map_key_replaceKey FlowController.streamID fc'] at hmem
      obtain ⟨c', hc', heq'⟩ := List.mem_map.mp hmem
      exact hunknown c' hc' heq'
    rw [hmade id fun heq => hids fc hfc heq.symm]
    exact h.unknown id hids

/-- What sending bytes of a stream does. -/
theorem addBytesSent_eq {id : ℕ} (hget : f.getFlowController id = some fc) (n : ℕ) :
    (f.addBytesSent id n).2 =
      { f.setFlowController (fc.addBytesSent n) with
        connFlowController :=
          if fc.contributesToConnection then f.connFlowController.addBytesSent n
          else f.connFlowController } := by
  unfold FlowControlManager.addBytesSent
  rw [hget]
  dsimp only
  split_ifs <;> rfl

/-- The window of a stream is at most its own one, and that of the connection if it contributes. -/
theorem windowOf_le {id : ℕ} (hget : f.getFlowController id = some fc) :
    f.windowOf id ≤ fc.sendWindowSize f.connectionParameters ∧
      (fc.contributesToConnection = true →
        f.windowOf id ≤ f.connFlowController.sendWindowSize f.connectionParameters) := by
  unfold FlowControlManager.windowOf FlowControlManager.sendWindowSize
  rw [hget]
  dsimp only
  split_ifs with hcontributes
  · exact ⟨min_le_left _ _, fun _ => min_le_right _ _⟩
  · exact ⟨le_rfl, fun h => absurd h hcontributes⟩

/-- One frame within the window of its stream. -/
theorem Counts.addBytesSent (h : Counts f made granted grantedConn) {frame : StreamFrame}
    (hframe : frame.dataLen ≤ f.windowOf frame.streamID) :
    Counts (f.addBytesSent frame.streamID frame.dataLen).2 (made ++ [frame]) granted
      grantedConn := by
  cases hget : f.getFlowController frame.streamID with
  | none =>
    -- there is no window for an unknown stream
    have hzero : frame.dataLen = 0 := by
      rw [FlowControlManager.windowOf, FlowControlManager.sendWindowSize, hget] at hframe
      exact Nat.le_zero.mp hframe
    have hsent : ∀ id, sentOn (made ++ [frame]) id = sentOn made id := fun id => by
      rw [sentOn_append_singleton, hzero, ite_self, Nat.add_zero]
    rw [FlowControlManager.addBytesSent, hget]
    exact { h with
      sent := fun fc hfc => (h.sent fc hfc).trans (hsent _).symm
      unknown := fun id hid => (hsent id).trans (h.unknown id hid) }
  | some fc =>
    obtain ⟨hfc, hid⟩ := of_getFlowController hget
    obtain ⟨hwindow, hconnWindow⟩ := windowOf_le hget
    obtain ⟨hwithin, hadd⟩ := (h.streams fc hfc).addBytesSent (hframe.trans hwindow)
    rw [addBytesSent_eq hget]
    have hcontributed := contributed_setFlowController hfc (fc.addBytesSent frame.dataLen) rfl rfl
      bytesSent
    rw [hadd] at hcontributed
    have hsent : (fc.addBytesSent frame.dataLen).bytesSent =
        sentOn (made ++ [frame]) fc.streamID := by
      rw [sentOn_append_singleton, if_pos hid.symm, hadd, h.sent fc hfc]
    have hmade : ∀ id ≠ fc.streamID, sentOn (made ++ [frame]) id = sentOn made id := by
      intro id hne
      rw [sentOn_append_singleton, if_neg fun heq => hne (heq.symm.trans hid.symm), Nat.add_zero]
    have hconnSent := h.connSent
    cases hcontributes : fc.contributesToConnection with
    | true =>
      obtain ⟨hconn, hconnAdd⟩ := h.conn.addBytesSent (hframe.trans (hconnWindow hcontributes))
      rw [hcontributes, if_pos rfl, if_pos rfl] at hcontributed
      rw [if_pos rfl]
      exact h.replace hfc rfl hwithin hsent (fun _ _ => rfl) hmade hconn h.connID (by omega)
    | false =>
      rw [hcontributes, if_neg (by decide), if_neg (by decide)] at hcontributed
      rw [if_neg (by decide)]
      exact h.replace hfc rfl hwithin hsent (fun _ _ => rfl) hmade h.conn h.connID (by omega)

theorem Counts.sends {f' : FlowControlManager} {frames : List StreamFrame}
    (hsends : Sends f frames f') (h : Counts f made granted grantedConn) :
    Counts f' (made ++ frames) granted grantedConn := by
  induction hsends generalizing made with
  | nil f =>
    rw [List.append_nil]
    exact h
  | cons hframe _ ih =>
    rw [List.append_cons]
    exact ih (h.addBytesSent hframe)

/-- A WINDOW_UPDATE frame grants its offset. -/
theorem Within.updateSendWindow {granted : ℕ} (h : Within c p granted) {offset : ℕ}
    (hoffset : offset < uint64Size) :
    Within (c.updateSendWindow offset).2 p (max granted offset) := by
  obtain ⟨hsent, hwindow, hlt⟩ := h
  unfold FlowController.updateSendWindow
  split_ifs with hlarger
  · refine ⟨hsent.trans (le_max_left _ _), ?_, max_lt hlt hoffset⟩
    rw [getSendWindow, if_neg (Nat.ne_of_gt (Nat.zero_lt_of_lt hlarger))]
    exact le_max_right _ _
  · exact ⟨hsent.trans (le_max_left _ _), hwindow.trans (le_max_left _ _), max_lt hlt hoffset⟩

/-- New parameters grant their windows. -/
theorem Within.setParameters {c : FlowController} {p p' : ConnectionParameters} {granted n : ℕ}
    (h : Within c p granted) (hn : (if c.streamID = 0 then p'.sendConnectionFlowControlWindow
      else p'.sendStreamFlowControlWindow) = n) (hlt : n < uint64Size) :
    Within c p' (max granted n) := by
  refine ⟨h.sent_le.trans (le_max_left _ _), ?_, max_lt h.granted_lt hlt⟩
  have hwindow := h.window_le
  unfold getSendWindow at hwindow ⊢
  by_cases hzero : c.sendWindow = 0
  · rw [if_pos hzero, hn]
    exact le_max_right _ _
  · rw [if_neg hzero] at hwindow ⊢
    exact hwindow.trans (le_max_left _ _)

/-- A WINDOW_UPDATE frame changes only the window. -/
theorem updateSendWindow_same (c : FlowController) (offset : ℕ) :
    (c.updateSendWindow offset).2.streamID = c.streamID ∧
      (c.updateSendWindow offset).2.bytesSent = c.bytesSent ∧
      (c.updateSendWindow offset).2.contributesToConnection = c.contributesToConnection := by
  unfold updateSendWindow
  split_ifs <;> exact ⟨rfl, rfl, rfl⟩

/-- The parameters stay in the range of their types. -/
theorem setFromMap_lt {p : ConnectionParameters}
    (h : p.sendStreamFlowControlWindow < uint64Size ∧
      p.sendConnectionFlowControlWindow < uint64Size) (sfcw cfcw : Option UInt32) :
    (p.setFromMap sfcw cfcw).2.sendStreamFlowControlWindow < uint64Size ∧
      (p.setFromMap sfcw cfcw).2.sendConnectionFlowControlWindow < uint64Size := by
  have hvalue : ∀ (o : Option UInt32) {d : ℕ}, d < uint64Size →
      (o.map UInt32.toNat).getD d < uint64Size := by
    intro o d hd
    cases o with
    | none => exact hd
    | some n => exact Nat.lt_of_lt_of_le n.toNat_lt (by decide)
  unfold ConnectionParameters.setFromMap
  split_ifs
  · exact h
  · exact ⟨hvalue sfcw h.1, hvalue cfcw h.2⟩

variable {s s' : FlowSender}

/-- The invariant of the sender. -/
def Inv (s : FlowSender) : Prop :=
  Counts s.flowControlManager s.sender.made s.granted s.grantedConn

theorem Inv.popStreamFrames (h : s.Inv) (maxLen : ℕ) (order : List SendStream) :
    (s.popStreamFrames maxLen order).Inv := by
  set fs := maybePopFramesForRetransmission maxLen s.sender.framer.retransmissionQueue 0
    s.sender.heap with hfs
  have hsends := maybePopNormalFrames_sends (maxLen - fs.currentLen) order 0
    s.flowControlManager fs.heap
  have hmade : (s.popStreamFrames maxLen order).sender.made = s.sender.made ++
      (maybePopNormalFrames (maxLen - fs.currentLen) (flowVisits (maxLen - fs.currentLen) order 0
        s.flowControlManager).1 0 fs.heap).frames.map (maybePopNormalFrames
          (maxLen - fs.currentLen) (flowVisits (maxLen - fs.currentLen) order 0
            s.flowControlManager).1 0 fs.heap).heap.get := by
    unfold FlowSender.popStreamFrames StreamSender.popStreamFrames StreamFramer.popStreamFrames
    dsimp only
    rw [← hfs, List.drop_left]
  unfold Inv
  rw [hmade]
  exact Counts.sends hsends h

theorem Inv.windowUpdate (h : s.Inv) {streamID offset : ℕ} (hoffset : offset < uint64Size)
    (hok : s.windowUpdate streamID offset = some s') : s'.Inv := by
  unfold FlowSender.windowUpdate at hok
  split at hok
  · cases hok
  · next updated f hupdate =>
    obtain rfl := Option.some.inj hok
    unfold FlowControlManager.updateWindow at hupdate
    by_cases hzero : streamID = 0
    · rw [if_pos hzero] at hupdate
      obtain ⟨-, rfl⟩ := Prod.mk.inj hupdate
      unfold Inv
      dsimp only
      rw [if_pos hzero, if_pos hzero]
      obtain ⟨hid, hsent, -⟩ := updateSendWindow_same s.flowControlManager.connFlowController offset
      exact { h with
        conn := h.conn.updateSendWindow hoffset
        connID := hid.trans h.connID
        connSent := hsent.trans h.connSent }
    · rw [if_neg hzero] at hupdate
      cases hget : s.flowControlManager.getFlowController streamID with
      | none =>
        rw [hget] at hupdate
        cases (Prod.mk.inj hupdate).1
      | some fc =>
        rw [hget] at hupdate
        obtain ⟨-, rfl⟩ := Prod.mk.inj hupdate
        obtain ⟨hfc, rfl⟩ := of_getFlowController hget
        obtain ⟨hid, hsent, hcontributes⟩ := updateSendWindow_same fc offset
        have hcontributed := contributed_setFlowController hfc (fc.updateSendWindow offset).2 hid
          hcontributes bytesSent
        rw [hsent] at hcontributed
        unfold Inv
        dsimp only
        rw [if_neg hzero, if_neg hzero]
        refine Counts.replace h hfc hid ?_ (hsent.trans (h.sent fc hfc))
          (fun id hne => Function.update_of_ne hne _ _) (fun _ _ => rfl) h.conn h.connID
          (h.connSent.trans (Nat.add_right_cancel hcontributed).symm)
        rw [Function.update_self]
        exact (h.streams fc hfc).updateSendWindow hoffset

theorem Inv.setFromMap (h : s.Inv) (sfcw cfcw : Option UInt32) : (s.setFromMap sfcw cfcw).Inv := by
  have hlt := setFromMap_lt h.params_lt sfcw cfcw
  refine { h with params_lt := hlt, conn := ?_, streams := fun fc hfc => ?_ }
  · exact h.conn.setParameters (if_pos h.connID) hlt.2
  · exact (h.streams fc hfc).setParameters (if_neg (h.streamIDs fc hfc)) hlt.1

theorem Inv.apply (h : s.Inv) {e : Event} (happly : s.apply e = some s') : s'.Inv := by
  cases e with
  | write streamID data => exact Option.some.inj happly ▸ h
  | close streamID => exact Option.some.inj happly ▸ h
  | popStreamFrames maxLen order =>
    rw [FlowSender.apply] at happly
    split_ifs at happly
    exact Option.some.inj happly ▸ h.popStreamFrames maxLen order
  | addFrameForRetransmission frame => exact Option.some.inj happly ▸ h
  | windowUpdate streamID offset =>
    rw [FlowSender.apply] at happly
    split_ifs at happly with hoffset
    exact h.windowUpdate hoffset happly
  | setFromMap sfcw cfcw => exact Option.some.inj happly ▸ h.setFromMap sfcw cfcw

/-- A new stream has the negotiated window. -/
theorem Counts.newStream {id : ℕ} (h : Counts f made granted grantedConn) (hid : id ≠ 0)
    (hgranted : f.connectionParameters.sendStreamFlowControlWindow ≤ granted id)
    (hlt : granted id < uint64Size) (contributes : Bool) :
    Counts (f.newStream id contributes) made granted grantedConn := by
  have hcontributed := contributed_newStream f id contributes bytesSent rfl
  unfold FlowControlManager.newStream at hcontributed ⊢
  split_ifs at hcontributed ⊢ with hknown
  · exact h
  · have hunknown : ∀ fc ∈ f.streamFlowController, fc.streamID ≠ id := fun fc hfc heq =>
      hknown (List.mem_map.mpr ⟨fc, hfc, heq⟩)
    have hnew : Within (.new id contributes f.connectionParameters) f.connectionParameters
        (granted id) := by
      refine ⟨Nat.zero_le _, ?_, hlt⟩
      unfold getSendWindow
      exact ((if_pos rfl).trans (if_neg hid)).trans_le hgranted
    exact { h with
      connSent := h.connSent.trans hcontributed.symm
      streams := List.forall_mem_cons.mpr ⟨hnew, h.streams⟩
      streamIDs := List.forall_mem_cons.mpr ⟨hid, h.streamIDs⟩
      sent := List.forall_mem_cons.mpr ⟨(h.unknown id hunknown).symm, h.sent⟩
      unknown := fun id' hid' => h.unknown id' (List.forall_mem_cons.mp hid').2 }

theorem inv_new (hstream : p.sendStreamFlowControlWindow < uint64Size)
    (hconn : p.sendConnectionFlowControlWindow < uint64Size) {streamIDs : List ℕ}
    (hids : ∀ id ∈ streamIDs, id ≠ 0) : (new p streamIDs).Inv := by
  have hnew : Counts (.new p) [] (fun _ => p.sendStreamFlowControlWindow)
      p.sendConnectionFlowControlWindow :=
    { params_lt := ⟨hstream, hconn⟩
      conn := ⟨Nat.zero_le _, le_rfl, hconn⟩
      connID := rfl
      connSent := rfl
      removed := rfl
      streams := fun _ hfc => absurd hfc List.not_mem_nil
      streamIDs := fun _ hfc => absurd hfc List.not_mem_nil
      sent := fun _ hfc => absurd hfc List.not_mem_nil
      unknown := fun _ _ => rfl }
  have hfold : ∀ (f : FlowControlManager), f.connectionParameters = p →
      Counts f [] (fun _ => p.sendStreamFlowControlWindow) p.sendConnectionFlowControlWindow →
      Counts (newStreams f streamIDs) [] (fun _ => p.sendStreamFlowControlWindow)
        p.sendConnectionFlowControlWindow := by
    clear hnew
    induction streamIDs with
    | nil => exact fun _ _ h => h
    | cons id ids ih =>
      obtain ⟨hid, hids⟩ := List.forall_mem_cons.mp hids
      intro f hf h
      refine ih hids _ ?_ (h.newStream hid (by rw [hf]) hstream _)
      unfold FlowControlManager.newStream
      dsimp only
      split_ifs <;> exact hf
  exact hfold _ rfl hnew

/-- The number of bytes that were sent on a stream is at most what was granted to it, and the sum
over the contributing streams is at most what was granted to the connection. -/
theorem sender_respects_flowControl {p : ConnectionParameters}
    (hstream : p.sendStreamFlowControlWindow < uint64Size)
    (hconn : p.sendConnectionFlowControlWindow < uint64Size) {streamIDs : List ℕ}
    (hids : ∀ id ∈ streamIDs, id ≠ 0) {events : List Event}
    (hrun : Run (fun s e s' => apply s e = some s') (new p streamIDs) events s) :
    (∀ id, sentOn s.sender.made id ≤ s.granted id) ∧
      (s.flowControlManager.streamFlowController.map fun fc =>
        if fc.contributesToConnection then sentOn s.sender.made fc.streamID else 0).sum ≤
          s.grantedConn := by
  have h : s.Inv := Run.invariant (I := fun _ s => s.Inv) (inv_new hstream hconn hids)
    (fun _ _ _ _ hinv happly => hinv.apply happly) hrun
  refine ⟨fun id => ?_, ?_⟩
  · cases hget : s.flowControlManager.getFlowController id with
    | none =>
      rw [h.unknown id (by simpa [getFlowController] using hget)]
      exact Nat.zero_le _
    | some fc =>
      obtain ⟨hfc, rfl⟩ := of_getFlowController hget
      rw [← h.sent fc hfc]
      exact (h.streams fc hfc).sent_le
  · have hsum : (s.flowControlManager.streamFlowController.map fun fc =>
        if fc.contributesToConnection then sentOn s.sender.made fc.streamID else 0) =
          s.flowControlManager.streamFlowController.map fun fc =>
            if fc.contributesToConnection then fc.bytesSent else 0 :=
      List.map_congr_left fun fc hfc => by rw [h.sent fc hfc]
    have hconnSent := h.connSent
    rw [contributed, h.removed, List.append_nil] at hconnSent
    rw [hsum, ← hconnSent]
    exact h.conn.sent_le

/-- Two streams have 12 bytes each, for windows of 10 bytes and one of 15 bytes for the connection.
The second stream can send its window only after the connection has got more. -/
theorem sender_respects_flowControl_example :
    let p : ConnectionParameters :=
      { ConnectionParameters.new (2 ^ 20) (2 ^ 20) with
        sendStreamFlowControlWindow := 10, sendConnectionFlowControlWindow := 15 }
    ∃ (events : List Event) (s : FlowSender),
      Run (fun s e s' => apply s e = some s') (new p [5, 7]) events s ∧
        sentOn s.sender.made 5 = 10 ∧ sentOn s.sender.made 7 = 10 ∧ s.grantedConn = 30 ∧
        sentOn s.sender.made 7 ≤ s.granted 7 := by
  intro p
  let stream (streamID writeOffset length : ℕ) : SendStream :=
    { SendStream.new streamID with writeOffset, dataForWriting := List.replicate length 1 }
  let events : List Event :=
    [.write 5 (List.replicate 12 1), .write 7 (List.replicate 12 1),
      .popStreamFrames 100 [stream 5 0 12, stream 7 0 12], .windowUpdate 0 30,
      .popStreamFrames 100 [stream 5 10 2, stream 7 5 7]]
  have hevents : (events.foldlM apply (new p [5, 7])).any (fun s =>
      sentOn s.sender.made 5 = 10 ∧ sentOn s.sender.made 7 = 10 ∧ s.grantedConn = 30) := by
    decide +kernel
  obtain ⟨s, hrun, hfive, hseven, hgranted⟩ := Run.exists_of_any (fun _ _ _ h => h) hevents
  exact ⟨events, s, hrun, hfive, hseven, hgranted,
    (sender_respects_flowControl (by decide) (by decide) (by decide) hrun).1 7⟩

end FlowSender

end MPQuic
