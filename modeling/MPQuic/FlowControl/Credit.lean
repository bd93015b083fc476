import MPQuic.FlowControl.Receiving
import MPQuic.Stream.EndOfStream
import MPQuic.Streams.StreamsMap

/-!
# The credit of closed streams

What a stream receives takes credit of the connection, and `stream.Read` gives it back with
`AddBytesRead`. The session removes a stream as soon as it is finished (`garbageCollectStreams`),
also if some of its data was not read. `Read` stops giving credit back when a RST_STREAM frame was
received, and `ResetStream` takes credit for the data that will never arrive.

The connection's credit is balanced if what it received and did not read is what its open streams
received and did not read. A stream comes to its end in three ways: it is cancelled, its peer resets
it, or a frame with the FIN bit is read. Credit is lost if some data was not read then, or if more
data is received afterwards (`credit_lost`). `ReadsOut` excludes this, and `credit_returned` says
that no credit is lost otherwise.
-/

namespace MPQuic

open KeyedList Transition FlowControlManager

/-! ## Streams -/

/-- A stream: what `finished` depends on, and the reading side. -/
structure StreamState where
  flags : Stream
  reader : StreamReader

namespace StreamState

/-- The stream has come to its end: nothing that is received from now on gives credit back. -/
def ended (s : StreamState) : Bool :=
  s.flags.cancelled || s.flags.resetRemotely || s.flags.finishedReading

/-- A new stream. -/
def new (streamID : ℕ) : StreamState where
  flags := .new streamID
  reader := .init

/-- The stream after an event. `Reset` and `Cancel` stop the reader; all three set the error. -/
def apply (s : StreamState) (e : Stream.Event) : StreamState where
  flags := s.flags.apply e
  reader :=
    match e with
    | .reset | .cancel => { s.reader with err := true, stopped := true }
    | .registerRemoteError => { s.reader with err := true }
    | _ => s.reader

/-- The reader made a step. -/
def setReader (s : StreamState) (reader : StreamReader) : StreamState where
  flags := { s.flags with finishedReading := reader.finishedReading }
  reader := reader

end StreamState

/-- The streams of a session and their flow control. -/
structure CreditSession where
  flowControlManager : FlowControlManager
  /-- The numbers of the streams in the streams map. -/
  openStreams : List ℕ
  /-- All streams that were opened. The application can still use those that were removed. -/
  streams : ℕ → Option StreamState

namespace CreditSession

/-- A new session. -/
def new (p : ConnectionParameters) : CreditSession where
  flowControlManager := .new p
  openStreams := []
  streams := fun _ => none

/-- A stream was changed. -/
def setStream (c : CreditSession) (streamID : ℕ) (s : StreamState) : CreditSession :=
  { c with streams := Function.update c.streams streamID (some s) }

/-- A new stream is opened. The crypto stream and the header stream do not contribute to connection
level flow control. -/
def newStream (c : CreditSession) (streamID : ℕ) : CreditSession where
  flowControlManager :=
    if streamID = 1 ∨ streamID = 3 then c.flowControlManager.newStream streamID false
    else c.flowControlManager.newStream streamID true
  openStreams := streamID :: c.openStreams
  streams := Function.update c.streams streamID (some (.new streamID))

/-- A stream of the streams map. -/
def getStream (c : CreditSession) (streamID : ℕ) : Option StreamState :=
  if streamID ∈ c.openStreams then c.streams streamID else none

/-- A STREAM frame is received. It is ignored if the stream was removed. The result is `none` if
there is an error, which closes the session. -/
def handleStreamFrame (c : CreditSession) (frame : StreamFrame) : Option CreditSession :=
  match c.getStream frame.streamID with
  | none => some c
  | some s =>
    match c.flowControlManager.updateHighestReceived frame.streamID
      (uint64Add frame.offset frame.dataLen) with
    | (some _, _) => none
    | (none, f) =>
      match s.reader.frameQueue.push frame with
      | (frameQueue, none) | (frameQueue, some .duplicateStreamData) =>
        some (setStream { c with flowControlManager := f } frame.streamID
          { s with reader := { s.reader with frameQueue } })
      | _ => none

/-- A RST_STREAM frame is received. -/
def handleRstStreamFrame (c : CreditSession) (streamID byteOffset : ℕ) : Option CreditSession :=
  match c.getStream streamID with
  | none => none
  | some s =>
    match c.flowControlManager.resetStream streamID byteOffset with
    | (some _, _) => none
    | (none, f) =>
      some (setStream { c with flowControlManager := f } streamID (s.apply .registerRemoteError))

/-- `Read` copies data of a frame. The credit is given back unless the stream was reset remotely. -/
def copyFrame (c : CreditSession) (streamID now connNow : ℕ) (s : StreamState)
    (len bytesRead : ℕ) (frame : StreamFrame) : CreditSession :=
  let m := min (len - bytesRead) (frame.dataLen - s.reader.readPosInFrame)
  let f :=
    if len < bytesRead ∨ frame.dataLen < s.reader.readPosInFrame ∨ s.flags.resetRemotely then
      c.flowControlManager
    else (c.flowControlManager.addBytesRead streamID m now connNow).2
  setStream { c with flowControlManager := f } streamID
    (s.setReader (s.reader.copyFrame len bytesRead frame))

/-- Remove a stream from the streams map and from flow control. -/
def removeStream (c : CreditSession) (streamID : ℕ) : CreditSession :=
  { c with
    flowControlManager := c.flowControlManager.removeStream streamID
    openStreams := c.openStreams.filter (· ≠ streamID) }

/-- Whether the stream with this number is finished. -/
def finished (c : CreditSession) (streamID : ℕ) : Bool :=
  (c.streams streamID).any fun s => s.flags.finished

/-- Remove the streams that are finished. -/
def garbageCollectStreams (c : CreditSession) : CreditSession :=
  (c.openStreams.filter c.finished).foldl removeStream c

/-- What happens to the streams of a session. -/
inductive Event where
  | newStream (streamID : ℕ)
  | streamFrame (frame : StreamFrame)
  | rstStreamFrame (streamID byteOffset : ℕ)
  /-- `Close`, `Reset`, `Cancel`, or the FIN bit was sent. -/
  | stream (streamID : ℕ) (e : Stream.Event)
  /-- The application calls `Read`. -/
  | startRead (streamID len : ℕ)
  | nextFrame (streamID : ℕ) (deadlineExceeded : Bool)
  | copyFrame (streamID now connNow : ℕ)
  | getWindowUpdates (force : Bool) (clock : ℕ → WindowClock) (connClock : WindowClock)
  | garbageCollectStreams

/-- The session after an event, if the event is possible and raises no error. -/
def apply (c : CreditSession) : Event → Option CreditSession
  | .newStream streamID =>
    if streamID = 0 ∨ streamID ∈ c.openStreams then none else some (c.newStream streamID)
  | .streamFrame frame =>
    -- the parser refuses frames that end beyond the 64-bit range
    if frame.stop < uint64Size then c.handleStreamFrame frame else none
  | .rstStreamFrame streamID byteOffset => c.handleRstStreamFrame streamID byteOffset
  | .stream streamID e =>
    -- the other events come from `Read` and from RST_STREAM frames
    if e = .finishReading ∨ e = .registerRemoteError then none
    else (c.streams streamID).map fun s => c.setStream streamID (s.apply e)
  | .startRead streamID len =>
    (c.streams streamID).bind fun s =>
      if s.reader.pos = .idle then
        some (c.setStream streamID (s.setReader (s.reader.startRead len)))
      else none
  | .nextFrame streamID deadlineExceeded =>
    (c.streams streamID).bind fun s =>
      match s.reader.pos with
      | .loop len bytesRead =>
        let reader := s.reader.nextFrame len bytesRead deadlineExceeded
        some (c.setStream streamID (s.setReader reader))
      | _ => none
  | .copyFrame streamID now connNow =>
    (c.streams streamID).bind fun s =>
      match s.reader.pos with
      | .copying len bytesRead frame =>
        some (c.copyFrame streamID now connNow s len bytesRead frame)
      | _ => none
  | .getWindowUpdates force clock connClock =>
    some { c with
      flowControlManager := (c.flowControlManager.getWindowUpdates force clock connClock).2 }
  | .garbageCollectStreams => some c.garbageCollectStreams

/-- Loops over the map find the flow controllers in another order. -/
def reorder (c : CreditSession) (order : List FlowController)
    (horder : order.Perm c.flowControlManager.streamFlowController) : CreditSession :=
  { c with flowControlManager := c.flowControlManager.reorder order horder }

/-- Less than 2^64 bytes were received, on every stream and on the contributing streams together. -/
def InRange (c : CreditSession) : Prop :=
  c.flowControlManager.contributed FlowController.highestReceived < uint64Size ∧
    ∀ fc ∈ c.flowControlManager.streamFlowController, fc.highestReceived < uint64Size

instance (c : CreditSession) : Decidable c.InRange := inferInstanceAs (Decidable (_ ∧ _))

/-- A step is an event, in the 64-bit range. -/
def Step (c : CreditSession) (e : Event) (c' : CreditSession) : Prop :=
  (∃ order horder, (c.reorder order horder).apply e = some c') ∧ c'.InRange

/-- The rest of a frame with the FIN bit is the rest of all data that was received. -/
def EndsCopy (highestReceived readOffset readPosInFrame : ℕ) : ReaderPos → Prop
  | .copying len bytesRead frame =>
    frame.finBit = true → frame.dataLen - readPosInFrame ≤ len - bytesRead →
      highestReceived ≤ readOffset + (frame.dataLen - readPosInFrame)
  | _ => True

/-- If the event brings the stream to its end, or comes after that, then all that was received is
read, and no more is received. -/
def EndsRead (fc : FlowController) (s : StreamState) : Event → Prop
  | .stream id .cancel => id = fc.streamID → fc.highestReceived ≤ fc.bytesRead
  -- the offset of the frame is not beyond the data that was read
  | .rstStreamFrame id byteOffset => id = fc.streamID → byteOffset ≤ fc.bytesRead
  | .streamFrame frame =>
    frame.streamID = fc.streamID → s.ended = true → frame.stop ≤ fc.highestReceived
  | .copyFrame id _ _ => id = fc.streamID →
    EndsCopy fc.highestReceived s.reader.readOffset s.reader.readPosInFrame s.reader.pos
  | _ => True

/-- Contributing streams come to their end only when all of their data was read. -/
def ReadsOut (c : CreditSession) (e : Event) : Prop :=
  ∀ fc ∈ c.flowControlManager.streamFlowController, fc.contributesToConnection = true →
    ∀ s ∈ c.streams fc.streamID, EndsRead fc s e

/-- A step that keeps the credit. -/
def ReadingStep (c : CreditSession) (e : Event) (c' : CreditSession) : Prop :=
  c.ReadsOut e ∧ c.Step e c'

end CreditSession

/-! ## Reading only what was received -/

/-- No queued frame ends beyond `n`. -/
def StreamFrameSorter.QueuedBelow (s : StreamFrameSorter) (n : ℕ) : Prop :=
  ∀ k q, s.queuedFrames k = some q → q.stop ≤ n

namespace StreamFrameSorter.QueuedBelow

variable {s s' : StreamFrameSorter} {f : StreamFrame} {n : ℕ}

theorem mono (h : s.QueuedBelow n) {m : ℕ} (hle : n ≤ m) : s.QueuedBelow m :=
  fun k q hq => (h k q hq).trans hle

/-- One frame is queued in addition. -/
theorem update (h : s.QueuedBelow n) {k : ℕ} {q : StreamFrame} (hq : q.stop ≤ n)
    {queuedFrames : ℕ → Option StreamFrame}
    (hold : ∀ k q, queuedFrames k = some q → s.queuedFrames k = some q)
    (hs' : s'.queuedFrames = Function.update queuedFrames k (some q)) : s'.QueuedBelow n := by
  intro k' q' hq'
  rw [hs'] at hq'
  by_cases hk : k' = k
  · rw [hk, Function.update_self] at hq'
    exact Option.some.inj hq' ▸ hq
  · rw [Function.update_of_ne hk] at hq'
    exact h k' q' (hold k' q' hq')

theorem insertFrame (h : s.QueuedBelow n) (hf : f.stop ≤ n) {err : Option PushError}
    (herr : err = none ∨ err = some .duplicateStreamData)
    (hinsert : s.insertFrame f = (s', err)) : s'.QueuedBelow n := by
  unfold StreamFrameSorter.insertFrame at hinsert
  cases hfind : findGap f.offset f.stop s.gaps with
  | duplicate =>
    rw [hfind] at hinsert
    exact (Prod.mk.inj hinsert).1 ▸ h
  | noGap =>
    rw [hfind] at hinsert
    exact (Prod.mk.inj hinsert).1 ▸ h
  | found before gap after =>
    obtain ⟨-, -, hgapStart, -⟩ := findGap_found hfind
    rw [hfind] at hinsert
    dsimp only at hinsert
    cases hsearch : findEndGap f.stop s.queuedFrames true gap after with
    | error r =>
      rw [hsearch] at hinsert
      obtain ⟨-, rfl⟩ := Prod.mk.inj hinsert
      simp at herr
    | ok e =>
      obtain ⟨passed, he⟩ := findEndGap_ok hsearch
      have hold : ∀ k q, e.queuedFrames k = some q → s.queuedFrames k = some q := by
        intro k q hq
        rw [he.queued] at hq
        split_ifs at hq
        exact hq
      -- both cuts keep the frame within its old end
      have hcut : (if e.endGap.stop < f.stop then
          (f.cutHead (gap.start - f.offset)).cutTail
            (e.endGap.stop - (f.cutHead (gap.start - f.offset)).offset)
          else f.cutHead (gap.start - f.offset)).stop ≤ f.stop := by
        have hhead : (f.cutHead (gap.start - f.offset)).stop = f.stop :=
          StreamFrame.stop_cutHead (by unfold StreamFrame.stop at hgapStart; omega)
        split_ifs
        · exact (Nat.add_le_add_left (List.take_sublist _ _).length_le _).trans hhead.le
        · exact hhead.le
      rw [hsearch] at hinsert
      dsimp only at hinsert
      generalize (if e.endGap.stop < f.stop then _ else _ : StreamFrame) = g at hinsert hcut
      split_ifs at hinsert
      · obtain ⟨-, rfl⟩ := Prod.mk.inj hinsert
        simp at herr
      · obtain ⟨rfl, -⟩ := Prod.mk.inj hinsert
        exact h.update (hcut.trans hf) hold rfl

theorem push (h : s.QueuedBelow n) (hf : f.stop ≤ n) {err : Option PushError}
    (herr : err = none ∨ err = some .duplicateStreamData)
    (hpush : s.push f = (s', err)) : s'.QueuedBelow n := by
  unfold StreamFrameSorter.push at hpush
  split_ifs at hpush with hempty hfin
  · obtain ⟨rfl, -⟩ := Prod.mk.inj hpush
    exact h.update hf (fun _ _ hq => hq) rfl
  · exact (Prod.mk.inj hpush).1 ▸ h
  · cases hcut : s.cutQueued f with
    | none =>
      rw [hcut] at hpush
      exact (Prod.mk.inj hpush).1 ▸ h
    | some g =>
      rw [hcut] at hpush
      have hg : g.stop ≤ f.stop := by
        unfold cutQueued at hcut
        split at hcut
        · exact Option.some.inj hcut ▸ le_rfl
        · split_ifs at hcut with hle
          rw [← Option.some.inj hcut, StreamFrame.stop_cutHead (not_le.mp hle).le]
      exact h.insertFrame (hg.trans hf) herr hpush

theorem pop (h : s.QueuedBelow n) : s.pop.1.QueuedBelow n := by
  unfold StreamFrameSorter.pop
  cases hhead : s.head with
  | none => exact h
  | some f =>
    intro k q hq
    dsimp only at hq
    by_cases hk : k = f.offset
    · rw [hk, Function.update_self] at hq
      cases hq
    · rw [Function.update_of_ne hk] at hq
      exact h k q hq

end StreamFrameSorter.QueuedBelow

/-- The reader of a stream has read, is reading and will read only below `n`. -/
structure StreamReader.ReadsBelow (s : StreamReader) (n : ℕ) : Prop where
  queued : s.frameQueue.QueuedBelow n
  copying : ∀ len bytesRead frame, s.pos = .copying len bytesRead frame →
    frame.stop ≤ n ∧ s.readPosInFrame = s.readOffset - frame.offset

namespace StreamReader.ReadsBelow

variable {s : StreamReader} {n : ℕ}

theorem mono (h : s.ReadsBelow n) {m : ℕ} (hle : n ≤ m) : s.ReadsBelow m where
  queued := h.queued.mono hle
  copying := fun len bytesRead frame hpos =>
    ⟨(h.copying len bytesRead frame hpos).1.trans hle, (h.copying len bytesRead frame hpos).2⟩

theorem finishRead (h : s.frameQueue.QueuedBelow n) (bytesRead : ℕ) (err : Option ReadError) :
    (s.finishRead bytesRead err).ReadsBelow n :=
  ⟨h, fun _ _ _ hpos => nomatch hpos⟩

theorem startRead (h : s.ReadsBelow n) (len : ℕ) : (s.startRead len).ReadsBelow n := by
  unfold StreamReader.startRead
  split_ifs
  any_goals exact finishRead h.queued 0 _
  exact ⟨h.queued, fun _ _ _ hpos => nomatch hpos⟩

theorem nextFrame (h : s.ReadsBelow n) (len bytesRead : ℕ) (deadlineExceeded : Bool) :
    (s.nextFrame len bytesRead deadlineExceeded).ReadsBelow n := by
  unfold StreamReader.nextFrame
  split_ifs
  any_goals exact finishRead h.queued _ _
  cases hhead : s.frameQueue.head with
  | none => exact h
  | some f =>
    refine ⟨h.queued, fun _ _ _ hpos => ?_⟩
    obtain ⟨-, -, rfl⟩ := ReaderPos.copying.inj hpos
    exact ⟨h.queued _ _ hhead, rfl⟩

theorem copyFrame (h : s.ReadsBelow n) (len bytesRead : ℕ) (frame : StreamFrame) :
    (s.copyFrame len bytesRead frame).ReadsBelow n := by
  unfold StreamReader.copyFrame
  dsimp only
  split_ifs
  · exact finishRead h.queued _ _
  · unfold StreamReader.maybePop
    split_ifs
    · exact finishRead h.queued.pop _ _
    · exact ⟨h.queued.pop, fun _ _ _ hpos => nomatch hpos⟩
    · exact ⟨h.queued, fun _ _ _ hpos => nomatch hpos⟩

/-- The read offset after data of a frame was copied. -/
theorem readOffset_copyFrame (h : s.ReadsBelow n) {len bytesRead : ℕ} {frame : StreamFrame}
    (hpos : s.pos = .copying len bytesRead frame)
    (hbug : ¬ (len < bytesRead ∨ frame.dataLen < s.readPosInFrame)) :
    (s.copyFrame len bytesRead frame).readOffset =
        s.readOffset + min (len - bytesRead) (frame.dataLen - s.readPosInFrame) ∧
      s.readOffset + min (len - bytesRead) (frame.dataLen - s.readPosInFrame) ≤ n := by
  obtain ⟨hstop, hread⟩ := h.copying len bytesRead frame hpos
  unfold StreamFrame.stop at hstop
  refine ⟨?_, by omega⟩
  unfold StreamReader.copyFrame StreamReader.maybePop
  dsimp only
  rw [if_neg hbug]
  split_ifs <;> rfl

end StreamReader.ReadsBelow

/-- `Read` reports the end of the stream only after the rest of a frame with the FIN bit. -/
theorem StreamReader.finishedReading_copyFrame {s : StreamReader} {len bytesRead : ℕ}
    {frame : StreamFrame} (h : (s.copyFrame len bytesRead frame).finishedReading = true) :
    s.finishedReading = true ∨
      (¬ (len < bytesRead ∨ frame.dataLen < s.readPosInFrame) ∧ frame.finBit = true ∧
        frame.dataLen - s.readPosInFrame ≤ len - bytesRead) := by
  unfold StreamReader.copyFrame StreamReader.maybePop at h
  dsimp only at h
  by_cases hbug : len < bytesRead ∨ frame.dataLen < s.readPosInFrame
  · rw [if_pos hbug] at h
    exact .inl h
  rw [if_neg hbug] at h
  split_ifs at h with hend hfin
  · refine .inr ⟨hbug, hfin, ?_⟩
    change frame.dataLen ≤ s.readPosInFrame +
      min (len - bytesRead) (frame.dataLen - s.readPosInFrame) at hend
    omega
  · exact .inl h
  · exact .inl h

namespace CreditSession

variable {c c' : CreditSession} {fc fc' : FlowController} {s : StreamState} {id : ℕ}

/-! ## Flow controllers and their streams -/

/-- What the flow controller of a stream counts as read was read, and what can be read was received.
A contributing stream that has come to its end was read to its end. -/
structure Counts (fc : FlowController) (s : StreamState) : Prop where
  read_eq : s.flags.resetRemotely = false → fc.bytesRead = s.reader.readOffset
  below : s.reader.ReadsBelow fc.highestReceived
  finished_eq : s.flags.finishedReading = s.reader.finishedReading
  read_at_end : fc.contributesToConnection = true → s.ended = true →
    fc.bytesRead = fc.highestReceived

/-- The contributing streams that were removed have given all of their credit back. -/
def Returned (c : CreditSession) : Prop :=
  ∀ fc ∈ c.flowControlManager.removed, fc.contributesToConnection →
    fc.bytesRead = fc.highestReceived

/-- The flow control manager counts correctly, for the streams of the streams map, and no credit is
lost. -/
structure Inv (c : CreditSession) : Prop where
  counted : c.flowControlManager.Counted
  counts : ∀ fc ∈ c.flowControlManager.streamFlowController, fc.streamID ∈ c.openStreams ∧
    ∃ s, c.streams fc.streamID = some s ∧ Counts fc s
  returned : c.Returned

theorem Inv.reorder (h : c.Inv) {order : List FlowController}
    (horder : order.Perm c.flowControlManager.streamFlowController) :
    (c.reorder order horder).Inv where
  counted := h.counted.reorder horder
  counts := fun fc hfc => h.counts fc (horder.subset hfc)
  returned := h.returned

/-- The controller of a stream counts what happens to it. -/
theorem Inv.counts_of_streams (h : c.Inv) (hs : c.streams id = some s)
    (hfc : fc ∈ c.flowControlManager.streamFlowController) (hid : fc.streamID = id) :
    Counts fc s := by
  obtain ⟨-, s', hs', hcounts⟩ := h.counts fc hfc
  rw [hid, hs] at hs'
  exact Option.some.inj hs' ▸ hcounts

/-- A stream is changed, and its flow controller is replaced. -/
theorem Inv.setStream (h : c.Inv) (hfc : fc ∈ c.flowControlManager.streamFlowController)
    (hid : fc'.streamID = fc.streamID) {f : FlowControlManager} (hcounted : f.Counted)
    (hf : f.streamFlowController =
      replaceKey FlowController.streamID fc' c.flowControlManager.streamFlowController)
    (hremoved : f.removed = c.flowControlManager.removed) (hcounts : Counts fc' s) :
    (CreditSession.setStream { c with flowControlManager := f } fc.streamID s).Inv := by
  refine ⟨hcounted, fun fc₁ hfc₁ => ?_, fun fc₁ hfc₁ => h.returned fc₁ (hremoved ▸ hfc₁)⟩
  change fc₁ ∈ f.streamFlowController at hfc₁
  rw [hf] at hfc₁
  rcases mem_replaceKey hfc₁ with rfl | ⟨hmem, hne⟩
  · refine ⟨hid ▸ (h.counts fc hfc).1, s, ?_, hcounts⟩
    rw [hid]
    exact Function.update_self ..
  · obtain ⟨hopen, s', hs', hcounts'⟩ := h.counts fc₁ hmem
    exact ⟨hopen, s', (Function.update_of_ne (hid ▸ hne) _ _).trans hs', hcounts'⟩

/-- Only the stream is changed. -/
theorem Inv.setStream_same (h : c.Inv)
    (hcounts : ∀ fc ∈ c.flowControlManager.streamFlowController, fc.streamID = id → Counts fc s) :
    (c.setStream id s).Inv := by
  refine ⟨h.counted, fun fc hfc => ?_, h.returned⟩
  obtain ⟨hopen, s', hs', hcounts'⟩ := h.counts fc hfc
  by_cases hid : fc.streamID = id
  · exact ⟨hopen, s, by rw [hid]; exact Function.update_self .., hcounts fc hfc hid⟩
  · exact ⟨hopen, s', (Function.update_of_ne hid _ _).trans hs', hcounts'⟩

theorem InRange.reorder (h : c.InRange) {order : List FlowController}
    (horder : order.Perm c.flowControlManager.streamFlowController) :
    (c.reorder order horder).InRange :=
  ⟨(contributed_reorder horder _).trans_lt h.1, fun fc hfc => h.2 fc (horder.subset hfc)⟩

/-! ## Received frames -/

theorem streams_of_getStream (h : c.getStream id = some s) : c.streams id = some s := by
  unfold getStream at h
  split_ifs at h
  exact h

/-- A new highest offset is counted, if the sum over the streams stays in the 64-bit range. -/
theorem counted_addReceived {f f' : FlowControlManager} (hf : f.Counted)
    (hfc : fc ∈ f.streamFlowController) {byteOffset : ℕ}
    (hok : f.addReceived { fc with highestReceived := max fc.highestReceived byteOffset } byteOffset
      (byteOffset - fc.highestReceived) = (none, f'))
    (hrange : f'.contributed FlowController.highestReceived < uint64Size) :
    f'.Counted ∧ f'.removed = f.removed ∧ f'.streamFlowController =
      replaceKey FlowController.streamID
        { fc with highestReceived := max fc.highestReceived byteOffset }
        f.streamFlowController := by
  have hsame : f'.removed = f.removed ∧ f'.streamFlowController =
      replaceKey FlowController.streamID
        { fc with highestReceived := max fc.highestReceived byteOffset }
        f.streamFlowController := by
    obtain ⟨-, ⟨-, -, rfl⟩ | ⟨-, rfl⟩⟩ := addReceived_ok hok <;> exact ⟨rfl, rfl⟩
  refine ⟨hf.addReceived hfc (fun hcontributes => ?_) hok, hsame⟩
  have hsum := contributed_setFlowController hfc
    { fc with highestReceived := max fc.highestReceived byteOffset } rfl rfl
      FlowController.highestReceived
  unfold contributed at hrange hsum
  rw [hsame.1, hsame.2] at hrange
  rw [if_pos hcontributes, if_pos hcontributes] at hsum
  dsimp only [setFlowController] at hsum
  have := hf.highest
  unfold contributed at this
  omega

/-- A received STREAM frame is counted and queued. After the end of a stream it brings nothing
new. -/
theorem Inv.handleStreamFrame (h : c.Inv) {frame : StreamFrame} (hframe : frame.stop < uint64Size)
    (hreads : c.ReadsOut (.streamFrame frame)) (hok : c.handleStreamFrame frame = some c')
    (hrange' : c'.InRange) : c'.Inv := by
  unfold CreditSession.handleStreamFrame at hok
  rw [uint64Add_eq (show frame.offset + frame.dataLen < uint64Size from hframe)] at hok
  cases hget : c.getStream frame.streamID with
  | none =>
    rw [hget] at hok
    exact Option.some.inj hok ▸ h
  | some s =>
    rw [hget] at hok
    dsimp only at hok
    split at hok
    · cases hok
    · next f hupdate =>
      obtain ⟨fc, hfc, hid, hadd⟩ := updateHighestReceived_ok hupdate
      have hs := streams_of_getStream hget
      have hcounts := h.counts_of_streams hs hfc hid
      have hbelow := hcounts.below.mono (le_max_left _ frame.stop)
      have hqueue : ∀ frameQueue err, (err = none ∨ err = some .duplicateStreamData) →
          s.reader.frameQueue.push frame = (frameQueue, err) →
          some (CreditSession.setStream { c with flowControlManager := f } frame.streamID
            { s with reader := { s.reader with frameQueue } }) = some c' → c'.Inv := by
        intro frameQueue err herr hpush heq
        obtain rfl := Option.some.inj heq
        obtain ⟨hcounted, hremoved, hf⟩ := counted_addReceived h.counted hfc hadd hrange'.1
        rw [← hid]
        refine h.setStream hfc (by rfl) hcounted hf hremoved ⟨hcounts.read_eq,
          ⟨hbelow.queued.push (le_max_right _ _) herr hpush, hbelow.copying⟩,
          hcounts.finished_eq, fun hcontributes hended => ?_⟩
        have hle : frame.stop ≤ fc.highestReceived :=
          hreads fc hfc hcontributes s (hid ▸ hs) hid.symm hended
        exact (hcounts.read_at_end hcontributes hended).trans (max_eq_left hle).symm
      split at hok
      · next frameQueue hpush => exact hqueue frameQueue none (.inl rfl) hpush hok
      · next frameQueue hpush => exact hqueue frameQueue _ (.inr rfl) hpush hok
      · cases hok

/-- An event of the stream keeps what is counted, if all was read when it is the end of the
stream. -/
theorem Counts.apply (h : Counts fc s) {e : Stream.Event} (he : e ≠ .finishReading)
    (hend : fc.contributesToConnection = true → e = .cancel ∨ e = .registerRemoteError →
      fc.bytesRead = fc.highestReceived) : Counts fc (s.apply e) := by
  obtain ⟨hread, ⟨hqueued, hcopying⟩, hfinished, hended⟩ := h
  cases e with
  | finishReading => exact absurd rfl he
  | close | sentFin => exact ⟨hread, ⟨hqueued, hcopying⟩, hfinished, hended⟩
  | cancel =>
    exact ⟨hread, ⟨hqueued, hcopying⟩, hfinished,
      fun hcontributes _ => hend hcontributes (.inl rfl)⟩
  | reset =>
    unfold StreamState.apply Stream.apply
    dsimp only
    split_ifs <;> exact ⟨hread, ⟨hqueued, hcopying⟩, hfinished, hended⟩
  | registerRemoteError =>
    have hall := fun hcontributes (_ : (s.apply .registerRemoteError).ended = true) =>
      hend hcontributes (.inr rfl)
    unfold StreamState.apply Stream.apply at hall ⊢
    dsimp only at hall ⊢
    split_ifs at hall ⊢
    · exact ⟨hread, ⟨hqueued, hcopying⟩, hfinished, hall⟩
    · exact ⟨fun hreset => (nomatch hreset), ⟨hqueued, hcopying⟩, hfinished, hall⟩

/-- A RST_STREAM frame comes only when all up to its offset was read. -/
theorem Inv.handleRstStreamFrame (h : c.Inv) {byteOffset : ℕ}
    (hreads : c.ReadsOut (.rstStreamFrame id byteOffset))
    (hok : c.handleRstStreamFrame id byteOffset = some c') (hrange' : c'.InRange) : c'.Inv := by
  unfold CreditSession.handleRstStreamFrame at hok
  cases hget : c.getStream id with
  | none =>
    rw [hget] at hok
    cases hok
  | some s =>
    rw [hget] at hok
    dsimp only at hok
    split at hok
    · cases hok
    · next f hreset =>
      obtain rfl := Option.some.inj hok
      obtain ⟨fc, hfc, hid, hle, hadd⟩ := resetStream_ok hreset
      subst hid
      have hs := streams_of_getStream hget
      have hcounts := h.counts_of_streams hs hfc rfl
      have hall : fc.contributesToConnection = true →
          fc.bytesRead = max fc.highestReceived byteOffset := by
        intro hcontributes
        have hoffset : byteOffset ≤ fc.bytesRead := hreads fc hfc hcontributes s hs rfl
        have hread := h.counted.read_le fc hfc
        omega
      obtain ⟨hcounted, hremoved, hf⟩ := counted_addReceived h.counted hfc hadd hrange'.1
      refine h.setStream hfc (by rfl) hcounted hf hremoved (Counts.apply ?_ (by decide) ?_)
      · exact ⟨hcounts.read_eq, hcounts.below.mono (le_max_left _ _), hcounts.finished_eq,
          fun hcontributes _ => hall hcontributes⟩
      · exact fun hcontributes _ => hall hcontributes

/-! ## Reading -/

/-- The reader made a step that is not the end of the stream. -/
theorem Counts.setReader (h : Counts fc s) {reader : StreamReader}
    (hread : reader.readOffset = s.reader.readOffset)
    (hfinished : reader.finishedReading = s.reader.finishedReading)
    (hbelow : reader.ReadsBelow fc.highestReceived) : Counts fc (s.setReader reader) where
  read_eq := fun hreset => (h.read_eq hreset).trans hread.symm
  below := hbelow
  finished_eq := rfl
  read_at_end := fun hcontributes hended => by
    refine h.read_at_end hcontributes ?_
    rwa [StreamState.ended, h.finished_eq, ← hfinished]

theorem ne_of_getFlowController_eq_none {f : FlowControlManager}
    (h : f.getFlowController id = none) : ∀ fc ∈ f.streamFlowController, fc.streamID ≠ id := by
  simpa [getFlowController] using h

/-- `Read` gives back the credit for what it copies. The rest of a frame with the FIN bit is the
rest of all data. -/
theorem Counts.copyFrame (h : Counts fc s) (hrange : fc.highestReceived < uint64Size)
    {len bytesRead : ℕ} {frame : StreamFrame} (hpos : s.reader.pos = .copying len bytesRead frame)
    (hbug : ¬ (len < bytesRead ∨ frame.dataLen < s.reader.readPosInFrame))
    (hreset : s.flags.resetRemotely = false) (now : ℕ)
    (hend : fc.contributesToConnection = true →
      EndsCopy fc.highestReceived s.reader.readOffset s.reader.readPosInFrame s.reader.pos) :
    fc.bytesRead + min (len - bytesRead) (frame.dataLen - s.reader.readPosInFrame) ≤
        fc.highestReceived ∧
      Counts (fc.addBytesRead (min (len - bytesRead) (frame.dataLen - s.reader.readPosInFrame)) now)
        (s.setReader (s.reader.copyFrame len bytesRead frame)) := by
  obtain ⟨hoffset, hle⟩ := h.below.readOffset_copyFrame hpos hbug
  have hread := h.read_eq hreset
  have hadd : (fc.addBytesRead (min (len - bytesRead) (frame.dataLen - s.reader.readPosInFrame))
      now).bytesRead =
        s.reader.readOffset + min (len - bytesRead) (frame.dataLen - s.reader.readPosInFrame) := by
    rw [← hread] at hle ⊢
    exact uint64Add_eq (hle.trans_lt hrange)
  refine ⟨hread ▸ hle, fun _ => hadd.trans hoffset.symm, h.below.copyFrame _ _ _, rfl,
    fun hcontributes hended => ?_⟩
  rw [hadd]
  change _ = fc.highestReceived
  by_cases hbefore : s.ended = true
  · have := h.read_at_end hcontributes hbefore
    omega
  · -- the FIN bit is read now, and nothing was received beyond it
    have hfinished : (s.reader.copyFrame len bytesRead frame).finishedReading = true := by
      simp only [StreamState.ended, StreamState.setReader, Bool.or_eq_true] at hended hbefore
      tauto
    rcases StreamReader.finishedReading_copyFrame hfinished with hold | ⟨-, hfin, hrest⟩
    · refine absurd ?_ hbefore
      simp [StreamState.ended, h.finished_eq, hold]
    · have hcond := hend hcontributes
      rw [hpos] at hcond
      have := hcond hfin hrest
      omega

/-- The stream may have been removed, or reset by the peer: then no credit is given back. -/
theorem Inv.copyFrame (h : c.Inv) (hrange : c.InRange) {now connNow : ℕ}
    (hreads : c.ReadsOut (.copyFrame id now connNow)) (hs : c.streams id = some s)
    {len bytesRead : ℕ} {frame : StreamFrame}
    (hpos : s.reader.pos = .copying len bytesRead frame) :
    (c.copyFrame id now connNow s len bytesRead frame).Inv := by
  unfold CreditSession.copyFrame
  dsimp only
  by_cases hbug : len < bytesRead ∨ frame.dataLen < s.reader.readPosInFrame
  · -- `Read` returns with an error
    have hreader : s.reader.copyFrame len bytesRead frame =
        s.reader.finishRead bytesRead (some .bug) := if_pos hbug
    rw [if_pos (hbug.imp_right .inl), hreader]
    exact h.setStream_same fun fc hfc hid =>
      have hcounts := h.counts_of_streams hs hfc hid
      hcounts.setReader rfl rfl (.finishRead hcounts.below.queued _ _)
  cases hreset : s.flags.resetRemotely with
  | true =>
    rw [if_pos (.inr (.inr rfl))]
    refine h.setStream_same fun fc hfc hid => ?_
    obtain ⟨-, hbelow, -, hended⟩ := h.counts_of_streams hs hfc hid
    refine ⟨fun hnot => ?_, hbelow.copyFrame _ _ _, rfl, fun hcontributes _ => ?_⟩
    · cases hreset.symm.trans hnot
    · exact hended hcontributes (by simp [StreamState.ended, hreset])
  | false =>
    rw [if_neg (by simpa using hbug)]
    cases hget : c.flowControlManager.getFlowController id with
    | none =>
      rw [FlowControlManager.addBytesRead, hget]
      exact h.setStream_same fun fc hfc hid =>
        absurd hid (ne_of_getFlowController_eq_none hget fc hfc)
    | some fc =>
      obtain ⟨hfc, rfl⟩ := of_getFlowController hget
      have hcounts := h.counts_of_streams hs hfc rfl
      obtain ⟨hle, hcounts'⟩ := hcounts.copyFrame (hrange.2 fc hfc) hpos hbug hreset now
        fun hcontributes => hreads fc hfc hcontributes s hs rfl
      have hcounted := h.counted.addBytesRead hget hle (hrange.2 fc hfc)
        (h.counted.highest ▸ hrange.1) now connNow
      rw [addBytesRead_eq hget] at hcounted ⊢
      refine h.setStream hfc ?_ hcounted ?_ rfl hcounts' <;> rfl

/-! ## New and finished streams -/

theorem Inv.newStream (h : c.Inv) (hid : id ∉ c.openStreams) : (c.newStream id).Inv := by
  have hknown : id ∉ c.flowControlManager.streamFlowController.map FlowController.streamID := by
    intro hmem
    obtain ⟨fc, hfc, rfl⟩ := List.mem_map.mp hmem
    exact hid (h.counts fc hfc).1
  have hnew : ∃ contributes, (c.newStream id).flowControlManager =
      c.flowControlManager.newStream id contributes := by
    unfold CreditSession.newStream
    dsimp only
    split_ifs <;> exact ⟨_, rfl⟩
  obtain ⟨contributes, hnew⟩ := hnew
  have hstreams : (c.newStream id).flowControlManager.streamFlowController =
      .new id contributes c.flowControlManager.connectionParameters ::
        c.flowControlManager.streamFlowController := by
    rw [hnew, FlowControlManager.newStream, dif_neg hknown]
  refine ⟨hnew ▸ h.counted.newStream id contributes, fun fc hfc => ?_, fun fc hfc => ?_⟩
  · rw [hstreams] at hfc
    rcases List.mem_cons.mp hfc with rfl | hmem
    · refine ⟨List.mem_cons_self, .new id, Function.update_self .., fun _ => rfl, ?_, rfl,
        fun _ hended => nomatch hended⟩
      exact ⟨fun _ _ hq => (nomatch hq), fun _ _ _ hpos => nomatch hpos⟩
    · obtain ⟨hopen, s, hs, hcounts⟩ := h.counts fc hmem
      have hne : fc.streamID ≠ id := fun heq => hid (heq ▸ hopen)
      exact ⟨List.mem_cons_of_mem _ hopen, s, (Function.update_of_ne hne _ _).trans hs, hcounts⟩
  · rw [hnew, FlowControlManager.newStream, dif_neg hknown] at hfc
    exact h.returned fc hfc

/-- A stream is finished only after its end. -/
theorem ended_of_finished (h : s.flags.finished = true) : s.ended = true := by
  simp only [Stream.finished, StreamState.ended, Bool.or_eq_true, Bool.and_eq_true] at h ⊢
  tauto

/-- A stream that is finished has given its credit back when it is removed. -/
theorem Inv.removeStream (h : c.Inv) (hfinished : c.finished id = true) :
    (c.removeStream id).Inv := by
  refine ⟨h.counted.removeStream id, fun fc hfc => ?_, fun fc hfc hcontributes => ?_⟩
  · obtain ⟨hmem, hne⟩ := (mem_eraseKey c.flowControlManager.nodup).mp hfc
    obtain ⟨hopen, hs⟩ := h.counts fc hmem
    exact ⟨List.mem_filter.mpr ⟨hopen, by simpa using hne⟩, hs⟩
  · rcases List.mem_append.mp hfc with hfc | hfc
    · obtain ⟨hmem, rfl⟩ := of_getFlowController (Option.mem_toList.mp hfc)
      obtain ⟨-, s, hs, hcounts⟩ := h.counts fc hmem
      rw [finished, hs] at hfinished
      exact hcounts.read_at_end hcontributes (ended_of_finished hfinished)
    · exact h.returned fc hfc hcontributes

theorem Inv.foldl_removeStream (h : c.Inv) {ids : List ℕ} (hids : ∀ id ∈ ids, c.finished id) :
    (ids.foldl CreditSession.removeStream c).Inv := by
  induction ids generalizing c with
  | nil => exact h
  | cons id ids ih =>
    obtain ⟨hid, hids⟩ := List.forall_mem_cons.mp hids
    exact ih (h.removeStream hid) hids

theorem Inv.getWindowUpdates (h : c.Inv) (force : Bool) (clock : ℕ → WindowClock)
    (connClock : WindowClock) :
    Inv { c with flowControlManager :=
      (c.flowControlManager.getWindowUpdates force clock connClock).2 } := by
  refine ⟨h.counted.getWindowUpdates force clock connClock, fun fc' hfc' => ?_, h.returned⟩
  change fc' ∈ (updateStreamWindows _ _ _ _).streamFlowController at hfc'
  rw [updateStreamWindows_streams] at hfc'
  obtain ⟨fc, hfc, rfl⟩ := List.mem_map.mp hfc'
  have hsame := fc.sameBytes_maybeUpdateWindow (clock fc.streamID)
  obtain ⟨hopen, s, hs, hread, hbelow, hfinished, hended⟩ := h.counts fc hfc
  rw [hsame.streamID]
  refine ⟨hopen, s, hs, fun hreset => hsame.read.trans (hread hreset), ?_, hfinished, ?_⟩
  · rwa [hsame.highest]
  · rwa [hsame.contributes, hsame.read, hsame.highest]

/-- Every event keeps the credit, if streams come to their end only when all was read. -/
theorem Inv.apply (h : c.Inv) (hrange : c.InRange) {e : Event} (hreads : c.ReadsOut e)
    (happly : c.apply e = some c') (hrange' : c'.InRange) : c'.Inv := by
  cases e with
  | newStream id =>
    rw [CreditSession.apply] at happly
    split_ifs at happly with hid
    exact Option.some.inj happly ▸ h.newStream fun hmem => hid (.inr hmem)
  | streamFrame frame =>
    rw [CreditSession.apply] at happly
    split_ifs at happly with hframe
    exact h.handleStreamFrame hframe hreads happly hrange'
  | rstStreamFrame id byteOffset => exact h.handleRstStreamFrame hreads happly hrange'
  | stream id e =>
    rw [CreditSession.apply] at happly
    split_ifs at happly with he
    obtain ⟨hfinish, hremote⟩ := not_or.mp he
    obtain ⟨s, hs, rfl⟩ := Option.map_eq_some_iff.mp happly
    refine h.setStream_same fun fc hfc hid =>
      (h.counts_of_streams hs hfc hid).apply hfinish fun hcontributes hend => ?_
    obtain rfl := hend.resolve_right hremote
    subst hid
    exact le_antisymm (h.counted.read_le fc hfc) (hreads fc hfc hcontributes s hs rfl)
  | startRead id len =>
    obtain ⟨s, hs, hstart⟩ := Option.bind_eq_some_iff.mp happly
    split_ifs at hstart
    obtain rfl := Option.some.inj hstart
    refine h.setStream_same fun fc hfc hid => ?_
    have hcounts := h.counts_of_streams hs hfc hid
    refine hcounts.setReader ?_ ?_ (hcounts.below.startRead len)
    all_goals
      unfold StreamReader.startRead
      split_ifs <;> rfl
  | nextFrame id deadlineExceeded =>
    obtain ⟨s, hs, hnext⟩ := Option.bind_eq_some_iff.mp happly
    split at hnext
    · obtain rfl := Option.some.inj hnext
      refine h.setStream_same fun fc hfc hid => ?_
      have hcounts := h.counts_of_streams hs hfc hid
      refine hcounts.setReader ?_ ?_ (hcounts.below.nextFrame _ _ _)
      all_goals
        unfold StreamReader.nextFrame
        split_ifs
        any_goals rfl
        split <;> rfl
    · cases hnext
  | copyFrame id now connNow =>
    obtain ⟨s, hs, hcopy⟩ := Option.bind_eq_some_iff.mp happly
    split at hcopy
    · next len bytesRead frame hpos =>
      exact Option.some.inj hcopy ▸ h.copyFrame hrange hreads hs hpos
    · cases hcopy
  | getWindowUpdates force clock connClock =>
    exact Option.some.inj happly ▸ h.getWindowUpdates force clock connClock
  | garbageCollectStreams =>
    exact Option.some.inj happly ▸
      h.foldl_removeStream fun id hid => (List.mem_filter.mp hid).2

/-! ## The balance -/

/-- The credit of the connection that a stream has taken and not given back. -/
def outstanding (fc : FlowController) : ℕ :=
  if fc.contributesToConnection then fc.highestReceived - fc.bytesRead else 0

/-- The credit that the connection has not got back is that of its open streams. -/
def Balanced (c : CreditSession) : Prop :=
  let conn := c.flowControlManager.connFlowController
  conn.highestReceived - conn.bytesRead =
    (c.flowControlManager.streamFlowController.map outstanding).sum

theorem Inv.balanced (h : c.Inv) : c.Balanced := by
  obtain ⟨⟨hstreams, hremoved, hhighest, hread⟩, -, hreturned⟩ := h
  have hsum : ∀ l : List FlowController, (∀ fc ∈ l, fc.bytesRead ≤ fc.highestReceived) →
      (l.map fun fc => if fc.contributesToConnection then fc.highestReceived else 0).sum =
        (l.map fun fc => if fc.contributesToConnection then fc.bytesRead else 0).sum +
          (l.map outstanding).sum := by
    intro l hl
    rw [← List.sum_map_add]
    congr 1
    refine List.map_congr_left fun fc hfc => ?_
    have := hl fc hfc
    unfold outstanding
    split_ifs <;> omega
  have hlost : (c.flowControlManager.removed.map outstanding).sum = 0 := by
    rw [List.sum_eq_zero_iff]
    simp only [List.mem_map, forall_exists_index, and_imp, forall_apply_eq_imp_iff₂]
    intro fc hfc
    unfold outstanding
    split_ifs with hcontributes
    · rw [hreturned fc hfc hcontributes, Nat.sub_self]
    · rfl
  have hopen := hsum _ hstreams
  have hgone := hsum _ hremoved
  unfold contributed at hhighest hread
  unfold Balanced
  simp only [List.map_append, List.sum_append] at hhighest hread
  omega

/-- For every run, and every order in which the loops find the flow controllers: as long as less
than 2^64 bytes are received, and streams come to their end only when all of their data was read,
the streams that were removed have given all of their credit back, and what the connection received
and did not read is what its open streams received and did not read. -/
theorem credit_returned {p : ConnectionParameters} {events : List Event}
    (hrun : Run ReadingStep (new p) events c) : c.Returned ∧ c.Balanced := by
  have hinit : (new p).Inv ∧ (new p).InRange :=
    ⟨⟨counted_new p, fun _ hfc => absurd hfc List.not_mem_nil, fun _ hfc => absurd hfc
      List.not_mem_nil⟩, show 0 < uint64Size by decide, fun _ hfc => absurd hfc List.not_mem_nil⟩
  have hinv : c.Inv ∧ c.InRange := by
    refine Run.invariant (I := fun _ c => c.Inv ∧ c.InRange) hinit ?_ hrun
    rintro _ c e c' ⟨hinv, hrange⟩ ⟨hreads, ⟨order, horder, happly⟩, hrange'⟩
    exact ⟨(hinv.reorder horder).apply (hrange.reorder horder)
      (fun fc hfc => hreads fc (horder.subset hfc)) happly hrange', hrange'⟩
  exact ⟨hinv.1.returned, hinv.1.balanced⟩

/-- The step as a function, for the order in which the list has the controllers. -/
def step? (c : CreditSession) (e : Event) : Option CreditSession :=
  (c.apply e).filter fun c' => c'.InRange

theorem step_of_step? {e : Event} (h : c.step? e = some c') : c.Step e c' := by
  rw [step?, Option.filter_eq_some_iff, decide_eq_true_iff] at h
  exact ⟨⟨c.flowControlManager.streamFlowController, .refl _, h.1⟩, h.2⟩

/-- Ten bytes of stream 5. -/
def tenBytes (finBit : Bool) : StreamFrame where
  streamID := 5
  finBit := finBit
  dataLenPresent := true
  offset := 0
  data := List.replicate 10 0

instance (highestReceived readOffset readPosInFrame : ℕ) (pos : ReaderPos) :
    Decidable (EndsCopy highestReceived readOffset readPosInFrame pos) :=
  match pos with
  | .copying _ _ _ => inferInstanceAs (Decidable (_ → _ → _))
  | .idle => isTrue trivial
  | .loop _ _ => isTrue trivial

instance (fc : FlowController) (s : StreamState) (e : Event) : Decidable (EndsRead fc s e) :=
  match e with
  | .stream _ .cancel => inferInstanceAs (Decidable (_ → _))
  | .rstStreamFrame _ _ => inferInstanceAs (Decidable (_ → _))
  | .streamFrame _ => inferInstanceAs (Decidable (_ → _ → _))
  | .copyFrame _ _ _ => inferInstanceAs (Decidable (_ → EndsCopy _ _ _ _))
  | .stream _ .finishReading | .stream _ .close | .stream _ .sentFin | .stream _ .reset
  | .stream _ .registerRemoteError => isTrue trivial
  | .newStream _ => isTrue trivial
  | .startRead _ _ => isTrue trivial
  | .nextFrame _ _ => isTrue trivial
  | .getWindowUpdates _ _ _ => isTrue trivial
  | .garbageCollectStreams => isTrue trivial

instance (c : CreditSession) (e : Event) : Decidable (c.ReadsOut e) :=
  inferInstanceAs (Decidable (∀ fc ∈ _, _ → ∀ s ∈ _, _))

/-- A stream is read to its end, closed and removed. -/
theorem credit_returned_example :
    ∃ (events : List Event) (c : CreditSession),
      Run ReadingStep (new (.new (2 ^ 20) (3 * 2 ^ 19))) events c ∧ c.openStreams = [] ∧
        c.flowControlManager.connFlowController.highestReceived = 10 ∧ c.Balanced := by
  let events : List Event :=
    [.newStream 5, .streamFrame (tenBytes true), .startRead 5 20, .nextFrame 5 false,
      .copyFrame 5 1 1, .stream 5 .close, .stream 5 .sentFin, .garbageCollectStreams]
  let read? (c : CreditSession) (e : Event) : Option CreditSession :=
    if c.ReadsOut e then c.step? e else none
  have hevents : (events.foldlM read? (new (.new (2 ^ 20) (3 * 2 ^ 19)))).any (fun c =>
      c.openStreams = [] ∧ c.flowControlManager.connFlowController.highestReceived = 10) := by
    decide +kernel
  have hstep : ∀ c e c', read? c e = some c' → ReadingStep c e c' := by
    intro c e c' h
    obtain ⟨hreads, hstep⟩ := Option.ite_none_right_eq_some.mp h
    exact ⟨hreads, step_of_step? hstep⟩
  obtain ⟨c, hrun, hopen, hhighest⟩ := Run.exists_of_any hstep hevents
  exact ⟨events, c, hrun, hopen, hhighest, (credit_returned hrun).2⟩

/-- A stream receives ten bytes and is reset by its peer. The reset is answered at once, so that the
stream is finished and removed before the application can read. The ten bytes are never counted as
read. -/
theorem credit_lost :
    ∃ (events : List Event) (c : CreditSession),
      Run Step (new (.new (2 ^ 20) (3 * 2 ^ 19))) events c ∧ c.openStreams = [] ∧
        c.flowControlManager.streamFlowController = [] ∧
        c.flowControlManager.connFlowController.highestReceived = 10 ∧
        c.flowControlManager.connFlowController.bytesRead = 0 := by
  let events : List Event :=
    [.newStream 5, .streamFrame (tenBytes false), .rstStreamFrame 5 10, .garbageCollectStreams]
  have hevents : (events.foldlM step? (new (.new (2 ^ 20) (3 * 2 ^ 19)))).any (fun c =>
      c.openStreams = [] ∧ c.flowControlManager.streamFlowController = [] ∧
        c.flowControlManager.connFlowController.highestReceived = 10 ∧
        c.flowControlManager.connFlowController.bytesRead = 0) := by
    decide +kernel
  exact ⟨events, Run.exists_of_any (fun _ _ _ => step_of_step?) hevents⟩

end CreditSession

end MPQuic
