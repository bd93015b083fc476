import MPQuic.Lib.KeyedList
import MPQuic.Protocol

/-!
# The streams of a session

`streams_map.go`: the map of the open streams, the order in which they are visited, and the two
counters that limit them. The streams with odd numbers are opened by the client, those with even
numbers by the server; when the peer opens a stream, the streams below it are opened as well.

The map is a list of streams with distinct numbers. A callback is a function of the streams it was
called for before and of the current one. The streams that were opened and those that were accepted
are ghost variables.
-/

namespace MPQuic

open KeyedList

/-! ## Streams -/

/-- What `finished` depends on. -/
structure Stream where
  streamID : ℕ
  cancelled : Bool
  finishedReading : Bool
  finishedWriting : Bool
  finSent : Bool
  resetLocally : Bool
  resetRemotely : Bool
  rstSent : Bool
  deriving DecidableEq

namespace Stream

/-- A new stream. -/
def new (streamID : ℕ) : Stream where
  streamID := streamID
  cancelled := false
  finishedReading := false
  finishedWriting := false
  finSent := false
  resetLocally := false
  resetRemotely := false
  rstSent := false

/-- Whether everything was written, and the FIN bit was sent. -/
def finishedWriteAndSentFin (s : Stream) : Bool := s.finishedWriting && s.finSent

/-- Whether the stream can be removed. -/
def finished (s : Stream) : Bool :=
  s.cancelled || (s.finishedReading && s.finishedWriteAndSentFin) ||
    (s.resetRemotely && s.rstSent) || (s.finishedReading && s.rstSent) ||
    (s.finishedWriteAndSentFin && s.resetRemotely)

/-- Whether a RST_STREAM frame is to be sent. -/
def shouldSendReset (s : Stream) : Bool :=
  if s.rstSent then false
  else (s.resetLocally || s.resetRemotely) && !s.finishedWriteAndSentFin

/-- What happens to a stream that is not part of the map. -/
inductive Event where
  /-- The last byte was read. -/
  | finishReading
  | close
  | sentFin
  /-- The stream is reset locally. -/
  | reset
  /-- A RST_STREAM frame was received. -/
  | registerRemoteError
  | cancel
  deriving DecidableEq

/-- The stream after an event. A reset is answered by a RST_STREAM frame, if one is to be sent. -/
def apply (s : Stream) : Event → Stream
  | .finishReading => { s with finishedReading := true }
  | .close => { s with finishedWriting := true }
  | .sentFin => { s with finSent := true }
  | .reset =>
    if s.resetLocally then s
    else
      let s := { s with resetLocally := true }
      { s with rstSent := s.rstSent || s.shouldSendReset }
  | .registerRemoteError =>
    if s.resetRemotely then s
    else
      let s := { s with resetRemotely := true }
      { s with rstSent := s.rstSent || s.shouldSendReset }
  | .cancel => { s with cancelled := true }

/-- A stream keeps its number. -/
theorem streamID_apply (s : Stream) (e : Event) : (s.apply e).streamID = s.streamID := by
  cases e with
  | finishReading => rfl
  | close => rfl
  | sentFin => rfl
  | reset => exact (apply_ite streamID _ s _).trans (ite_self _)
  | registerRemoteError => exact (apply_ite streamID _ s _).trans (ite_self _)
  | cancel => rfl

end Stream

/-! ## The map -/

/-- The errors of the map. -/
inductive StreamsMapError where
  | invalidStreamID (id : ℕ)
  | tooManyOpenStreams
  | nonExistingStream (id : ℕ)
  /-- The error that the session was closed with. -/
  | closed
  deriving DecidableEq

/-- The streams of a session. -/
structure StreamsMap where
  perspective : Perspective
  /-- `GetMaxOutgoingStreams` of the connection parameters. -/
  maxOutgoingStreams : ℕ
  streams : List Stream
  /-- The streams are the values of a map. -/
  nodup : (streams.map Stream.streamID).Nodup
  /-- Needed for round-robin scheduling. -/
  openStreams : List ℕ
  roundRobinIndex : ℕ
  /-- The next stream that will be returned by `OpenStream`. -/
  nextStream : ℕ
  highestStreamOpenedByPeer : ℕ
  nextStreamToAccept : ℕ
  numOutgoingStreams : ℕ
  numIncomingStreams : ℕ
  closeErr : Bool
  /-- The streams that were opened. This is a ghost variable. -/
  opened : List ℕ
  /-- The streams that were accepted. This is a ghost variable. -/
  accepted : List ℕ

/-- The streams that a side opens. -/
def Perspective.opens : Perspective → ℕ → Bool
  | .server, id => id % 2 = 0
  | .client, id => id % 2 = 1

/-- The first stream that a side opens. -/
def Perspective.firstStream : Perspective → ℕ
  | .client => 1
  | .server => 2

theorem Perspective.eq_or_eq_peer (p q : Perspective) : q = p ∨ q = p.peer := by
  cases p <;> cases q <;> simp [peer]

/-- A number belongs to one side only. -/
theorem Perspective.opens_peer (p : Perspective) (id : ℕ) : p.peer.opens id = !p.opens id := by
  cases p <;> simp only [peer, opens] <;> rw [← decide_not, decide_eq_decide] <;> omega

/-- The numbers of the two sides alternate. -/
theorem Perspective.opens_succ (p : Perspective) (id : ℕ) : p.opens (id + 1) = !p.opens id := by
  cases p <;> simp only [opens] <;> rw [← decide_not, decide_eq_decide] <;> omega

/-- The next number of a side, also after an overflow. -/
theorem Perspective.opens_uint32Add_two (p : Perspective) (id : ℕ) :
    p.opens (uint32Add id 2) = p.opens id := by
  have hmod : uint32Add id 2 % 2 = id % 2 := by
    unfold uint32Add uint32Size
    omega
  cases p <;> simp only [opens, hmod]

namespace StreamsMap

/-- The map of a new session. -/
def new (perspective : Perspective) (maxOutgoingStreams : ℕ) : StreamsMap where
  perspective := perspective
  maxOutgoingStreams := maxOutgoingStreams
  streams := []
  nodup := List.nodup_nil
  openStreams := []
  roundRobinIndex := 0
  nextStream := perspective.firstStream
  highestStreamOpenedByPeer := 0
  nextStreamToAccept := perspective.peer.firstStream
  numOutgoingStreams := 0
  numIncomingStreams := 0
  closeErr := false
  opened := []
  accepted := []

/-- The stream with the given number. -/
def get (m : StreamsMap) (id : ℕ) : Option Stream := m.streams.find? (·.streamID = id)

/-- The numbers of the streams in the map. -/
def ids (m : StreamsMap) : List ℕ := m.streams.map Stream.streamID

theorem nodup_ids (m : StreamsMap) : m.ids.Nodup := m.nodup

/-- A stream that is not in the map. -/
theorem get_eq_none_iff {m : StreamsMap} {id : ℕ} : m.get id = none ↔ id ∉ m.ids := by
  simp only [get, ids, List.find?_eq_none, decide_eq_true_eq, List.mem_map, not_exists, not_and]

/-- A stream that is in the map. -/
theorem exists_get_iff {m : StreamsMap} {id : ℕ} : (∃ s, m.get id = some s) ↔ id ∈ m.ids := by
  rw [← Option.ne_none_iff_exists', Ne, get_eq_none_iff, not_not]

theorem streamID_of_get {m : StreamsMap} {id : ℕ} {s : Stream} (h : m.get id = some s) :
    s.streamID = id := by
  simpa using List.find?_some h

/-- Add a new stream. There must be no stream with its number, otherwise nothing happens. -/
def putStream (m : StreamsMap) (id : ℕ) : StreamsMap :=
  if h : id ∈ m.ids then m
  else { m with
    streams := m.streams ++ [.new id]
    nodup := by
      rw [List.map_append, List.nodup_append]
      refine ⟨m.nodup, List.nodup_singleton _, fun a ha b hb => ?_⟩
      obtain rfl := List.mem_singleton.mp hb
      rintro rfl
      exact h ha
    openStreams := m.openStreams ++ [id] }

/-- The number of streams that the peer may open. -/
def getMaxIncomingStreams : ℕ :=
  max (maxIncomingDynamicStreamsPerConnection + maxStreamsMinimumIncrement)
    (maxIncomingDynamicStreamsPerConnection * 11 / 10)

/-- Open a stream of the peer. On the server it is counted as incoming, on the client as
outgoing. -/
def openRemoteStream (m : StreamsMap) (id : ℕ) : Except StreamsMapError StreamsMap :=
  if getMaxIncomingStreams ≤ m.numIncomingStreams then .error .tooManyOpenStreams
  else if uint32Add id maxNewStreamIDDelta < m.highestStreamOpenedByPeer then
    .error (.invalidStreamID id)
  else
    let m :=
      if m.perspective = .server then
        { m with numIncomingStreams := uint32Add m.numIncomingStreams 1 }
      else { m with numOutgoingStreams := uint32Add m.numOutgoingStreams 1 }
    let m := { m with
      highestStreamOpenedByPeer :=
        if m.highestStreamOpenedByPeer < id then id else m.highestStreamOpenedByPeer
      opened := m.opened ++ [id] }
    .ok (m.putStream id)

/-- The loop that opens the streams from `sid` to `id`. The first argument bounds the number of
rounds; `openRemoteStreams_rounds` says that `id + 1` rounds are enough. -/
def openRemoteStreams (id : ℕ) : ℕ → StreamsMap → ℕ → Option StreamsMapError × StreamsMap
  | 0, m, _ => (none, m)
  | n + 1, m, sid =>
    if id < sid then (none, m)
    else
      match m.openRemoteStream sid with
      | .error e => (some e, m)
      | .ok m => openRemoteStreams id n m (uint32Add sid 2)

/-- The first stream that the loop opens: after the highest one, and stream 1 if there is none and
this is the server. -/
def firstToOpen (m : StreamsMap) : ℕ :=
  let sid := uint32Add m.highestStreamOpenedByPeer 2
  if sid = 2 ∧ m.perspective = .server then 1 else sid

/-- The stream with the given number, which is opened if the peer can open it. There is no stream if
it was closed already. -/
def getOrOpenStream (m : StreamsMap) (id : ℕ) :
    Except StreamsMapError (Option Stream) × StreamsMap :=
  match m.get id with
  | some s => (.ok (some s), m)
  | none =>
    if m.perspective.opens id then
      -- this is a stream that we already opened
      if id ≤ m.nextStream then (.ok none, m) else (.error (.invalidStreamID id), m)
    -- this is a stream of the peer that doesn't exist anymore
    else if id ≤ m.highestStreamOpenedByPeer then (.ok none, m)
    else
      match openRemoteStreams id (id + 1) m m.firstToOpen with
      | (some e, m) => (.error e, m)
      | (none, m) => (.ok (m.get id), m)

/-- Open the next stream. On the server it is counted as outgoing, on the client as incoming. -/
def openStreamImpl (m : StreamsMap) : Except StreamsMapError ℕ × StreamsMap :=
  let id := m.nextStream
  if m.maxOutgoingStreams ≤ m.numOutgoingStreams then (.error .tooManyOpenStreams, m)
  else
    let m :=
      if m.perspective = .server then
        { m with numOutgoingStreams := uint32Add m.numOutgoingStreams 1 }
      else { m with numIncomingStreams := uint32Add m.numIncomingStreams 1 }
    let m := { m with nextStream := uint32Add m.nextStream 2, opened := m.opened ++ [id] }
    (.ok id, m.putStream id)

/-- Open the next stream. -/
def openStream (m : StreamsMap) : Except StreamsMapError ℕ × StreamsMap :=
  if m.closeErr then (.error .closed, m) else m.openStreamImpl

/-- Accept the next stream of the peer. There is no result if the call waits for a stream. -/
def acceptStream (m : StreamsMap) : Option (Except StreamsMapError ℕ) × StreamsMap :=
  if m.closeErr then (some (.error .closed), m)
  else
    match m.get m.nextStreamToAccept with
    | none => (none, m)
    | some s =>
      (some (.ok s.streamID), { m with
        nextStreamToAccept := uint32Add m.nextStreamToAccept 2
        accepted := m.accepted ++ [s.streamID] })

/-- Delete a stream from the order of the streams, and adjust the round-robin index. -/
def deleteOpen (m : StreamsMap) (id : ℕ) : StreamsMap :=
  match m.openStreams.idxOf? id with
  | none => m
  | some i =>
    { m with
      openStreams := m.openStreams.eraseIdx i
      roundRobinIndex :=
        if i % uint32Size < m.roundRobinIndex then uint32Sub m.roundRobinIndex 1
        else m.roundRobinIndex }

/-- Count the stream as removed: the streams with even numbers are outgoing. -/
def uncount (m : StreamsMap) (id : ℕ) : StreamsMap :=
  if id % 2 = 0 then { m with numOutgoingStreams := uint32Sub m.numOutgoingStreams 1 }
  else { m with numIncomingStreams := uint32Sub m.numIncomingStreams 1 }

/-- Remove a stream. -/
def removeStream (m : StreamsMap) (id : ℕ) : Except StreamsMapError StreamsMap :=
  if (m.get id).isNone then .error (.nonExistingStream id)
  else
    let m := (m.uncount id).deleteOpen id
    .ok { m with
      streams := eraseKey Stream.streamID id m.streams
      nodup := nodup_eraseKey m.nodup }

/-- Something happens to a stream. -/
def streamEvent (m : StreamsMap) (id : ℕ) (e : Stream.Event) : StreamsMap :=
  { m with
    streams := m.streams.map fun s => if s.streamID = id then s.apply e else s
    nodup := by
      rw [List.map_map]
      convert m.nodup using 2
      ext s
      simp only [Function.comp_apply]
      split_ifs
      · exact s.streamID_apply e
      · rfl }

/-- Close all streams. -/
def closeWithError (m : StreamsMap) : StreamsMap :=
  { m.openStreams.foldl (fun m id => m.streamEvent id .cancel) m with closeErr := true }

/-! ## Iteration -/

/-- The errors of an iteration. -/
inductive IterateError where
  /-- "Error accessing the streams map" -/
  | mapAccess
  /-- An error of the callback. -/
  | callback
  deriving DecidableEq

/-- What a callback does: it may remove streams, and it may go on or fail. -/
structure Outcome where
  remove : List ℕ
  cont : Bool
  err : Option IterateError

/-- Remove a stream, if there is one. -/
def tryRemove (m : StreamsMap) (id : ℕ) : StreamsMap :=
  match m.removeStream id with
  | .ok m => m
  | .error _ => m

/-- The loop of `Iterate` over a copy of the open streams. -/
def iterateLoop (fn : List ℕ → Stream → Outcome) :
    List ℕ → List ℕ → StreamsMap → Option IterateError × StreamsMap
  | [], _, m => (none, m)
  | id :: ids, visited, m =>
    match m.get id with
    | none => (some .mapAccess, m)
    | some s =>
      let r := fn visited s
      let m := r.remove.foldl tryRemove m
      match r.err with
      | some e => (some e, m)
      | none => if r.cont then iterateLoop fn ids (visited ++ [id]) m else (none, m)

/-- Call a function for the open streams. -/
def iterate (m : StreamsMap) (fn : List ℕ → Stream → Outcome) : Option IterateError × StreamsMap :=
  iterateLoop fn m.openStreams [] m

/-- Remove the streams that are finished. -/
def garbageCollectStreams (m : StreamsMap) : StreamsMap :=
  (m.iterate fun _ s => ⟨if s.finished then [s.streamID] else [], true, none⟩).2

/-- A callback of `RoundRobinIterate`, which does not change the map. -/
abbrev StreamLambda := List ℕ → Stream → Bool × Option IterateError

/-- Call the function for a stream. The result is the streams it was called for, and whether the
iteration goes on. -/
def iterateFunc (m : StreamsMap) (fn : StreamLambda) (visited : List ℕ) (id : ℕ) :
    List ℕ × Bool × Option IterateError :=
  match m.get id with
  | none => (visited, true, some .mapAccess)
  | some s => (visited ++ [id], fn visited s)

/-- The streams that are visited first, the crypto stream and the header stream. -/
def prioritized : List ℕ := [1, 3]

/-- The loop over the prioritized streams. The second component is the result of the iteration, if
it ends here. -/
def iteratePrioritized (m : StreamsMap) (fn : StreamLambda) :
    List ℕ → List ℕ → List ℕ × Option (Option IterateError)
  | [], visited => (visited, none)
  | id :: ids, visited =>
    match m.iterateFunc fn visited id with
    | (visited, _, some .callback) => (visited, some (some .callback))
    | (visited, cont, _) =>
      if cont then m.iteratePrioritized fn ids visited else (visited, some none)

/-- The result of an iteration. -/
structure Iteration where
  visited : List ℕ
  err : Option IterateError
  streamsMap : StreamsMap

/-- The loop over the other streams: the streams are those at the indices of the loop, `none` for an
index out of range. -/
def iterateOthers (fn : StreamLambda) (numStreams : ℕ) :
    List (Option ℕ) → List ℕ → StreamsMap → Option Iteration
  | [], visited, m => some ⟨visited, none, m⟩
  | none :: _, _, _ => none
  | some id :: ids, visited, m =>
    if id ∈ prioritized then iterateOthers fn numStreams ids visited m
    else
      match m.iterateFunc fn visited id with
      | (visited, _, some e) => some ⟨visited, some e, m⟩
      | (visited, cont, none) =>
        let m := { m with roundRobinIndex := uint32Add m.roundRobinIndex 1 % numStreams }
        if cont then iterateOthers fn numStreams ids visited m else some ⟨visited, none, m⟩

/-- The streams in the order of `RoundRobinIterate`. -/
def rotation (m : StreamsMap) : List (Option ℕ) :=
  let numStreams := m.streams.length % uint32Size
  (List.range numStreams).map fun i =>
    m.openStreams[uint32Add i m.roundRobinIndex % numStreams]?

/-- Call a function for every open stream, until it returns false. There is no result if an index is
out of range. -/
def roundRobinIterate (m : StreamsMap) (fn : StreamLambda) : Option Iteration :=
  match m.iteratePrioritized fn prioritized [] with
  | (visited, some err) => some ⟨visited, err, m⟩
  | (visited, none) => iterateOthers fn (m.streams.length % uint32Size) m.rotation visited m

end StreamsMap

end MPQuic
