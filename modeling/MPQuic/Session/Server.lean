import MPQuic.Wire.PublicReset

/-!
# The server

`server.go`: the server finds the session of a packet in a table, makes a new session for the first
packet of a connection, and answers packets with a version it does not speak. Three kinds of
goroutines work on the table. One handles packets: it looks the connection ID up, and goes on
without the lock. For each session another one waits until the session is closed and then leaves an
empty entry, so that late packets are dropped. A timer deletes the entry some time later.

The steps of these goroutines are interleaved in any order. In particular a session may be closed,
or the entry of one may be deleted, while a packet for it is handled.

## Main definitions

* `Server.step`: one step of one of the goroutines. `handlePacket` is two steps, `lookup` and
  `handle`, which are the parts before and after the lock is released.
* `Server.Wf`: the table has exactly one goroutine for each session in it and exactly one timer for
  each empty entry, a session is under its connection ID and has a version of the server, and what
  was looked up as missing is still missing.

## Main results

* `Wf.step`: all steps keep this.
* `sessions_supported`: what holds of the sessions after any steps.
* `session_kept`: no step but the end of its own run loop takes a session out of the table, and an
  empty entry stays until its timer fires.
-/

namespace MPQuic

open Bytes Wire

/-- The minimum size the server expects an inchoate CHLO to have. -/
def clientHelloMinimumSize : ℕ := 1024

/-- The errors that the server logs. -/
inductive ServerPacketError where
  | invalidPacketHeader (e : HeaderParseError)
  /-- "dropping small packet with unknown version" -/
  | droppingSmallPacket
  /-- "Server BUG: negotiated version not supported" -/
  | negotiatedVersionNotSupported
  /-- The session could not be created. -/
  | newSession
  deriving DecidableEq

/-- A session, as the server sees it. -/
structure ServerSession where
  connectionID : ℕ
  version : VersionNumber
  received : List (ParsedPublicHeader × List UInt8)

/-- An entry of the session table. -/
inductive SessionEntry where
  | live (session : ServerSession)
  /-- The session is closed. Late packets for it are dropped. -/
  | closed

/-- A packet that is being handled, with the entry that was looked up. -/
structure PacketLookup where
  packet : List UInt8
  connID : ℕ
  found : Option SessionEntry

/-- A server. -/
structure Server where
  /-- The versions of the configuration. -/
  versions : List VersionNumber
  sessions : ℕ → Option SessionEntry
  /-- The connection IDs of the sessions whose run loop has not returned. -/
  running : List ℕ
  /-- The connection IDs that a timer will delete. -/
  timers : List ℕ
  /-- The packet between the lookup and the rest of `handlePacket`. -/
  handling : Option PacketLookup
  /-- The packets sent by the server itself. -/
  sent : List (List UInt8)
  /-- The errors in the log. -/
  logged : List ServerPacketError

namespace Server

/-- A server that starts to listen. -/
def listen (versions : List VersionNumber) : Server where
  versions := if versions.length = 0 then supportedVersions else versions
  sessions := fun _ => none
  running := []
  timers := []
  handling := none
  sent := []
  logged := []

/-- Write to the log. -/
def log (s : Server) (e : ServerPacketError) : Server := { s with logged := s.logged ++ [e] }

/-- Send a packet. -/
def send (s : Server) (packet : List UInt8) : Server := { s with sent := s.sent ++ [packet] }

/-- Change an entry of the session table. -/
def setEntry (s : Server) (id : ℕ) (entry : Option SessionEntry) : Server :=
  { s with sessions := Function.update s.sessions id entry }

/-! ## Packets -/

/-- Look the session of a packet up. -/
def lookup (s : Server) (packet : List UInt8) : Server :=
  match PublicHeader.peekConnectionID .client packet with
  | .error e => s.log (.invalidPacketHeader e)
  | .ok connID => { s with handling := some ⟨packet, connID, s.sessions connID⟩ }

/-- Hand a packet over to a session. A session that was closed in the meantime drops it. -/
def deliver (s : Server) (id : ℕ) (hdr : ParsedPublicHeader) (data : List UInt8) : Server :=
  match s.sessions id with
  | some (.live session) =>
    s.setEntry id (some (.live { session with received := session.received ++ [(hdr, data)] }))
  | _ => s

/-- Add a new session to the table and start the goroutine that waits for its end. -/
def addSession (s : Server) (connID : ℕ) (session : ServerSession) : Server :=
  { s.setEntry connID (some (.live session)) with
    running := s.running ++ [session.connectionID] }

/-- Handle a packet after its header was parsed. -/
def handleParsed (s : Server) (l : PacketLookup) (newSession : Bool) (hdr : ParsedPublicHeader)
    (data : List UInt8) : Server :=
  let ok := l.found.isSome
  -- all public resets are ignored
  if hdr.resetFlag then s
  -- an old packet from before the version was negotiated
  else if ok && hdr.versionFlag && !isSupportedVersion s.versions hdr.versionNumber then s
  else if hdr.versionFlag && !isSupportedVersion s.versions hdr.versionNumber then
    -- too small to be a valid first packet
    if l.packet.length < clientHelloMinimumSize + (l.packet.length - data.length) then
      s.log .droppingSmallPacket
    else s.send (PublicHeader.composeVersionNegotiation hdr.connectionID s.versions)
  else if !ok then
    if !isSupportedVersion s.versions hdr.versionNumber then s.log .negotiatedVersionNotSupported
    else if !newSession then s.log .newSession
    else (s.addSession l.connID ⟨hdr.connectionID, hdr.versionNumber, []⟩).deliver l.connID hdr data
  else s.deliver l.connID hdr data

/-- The version that is expected of a packet. -/
def expectedVersion (found : Option SessionEntry) : VersionNumber :=
  match found with
  | some (.live session) => session.version
  | _ => versionUnknown

/-- Handle a packet after the lookup. -/
def handle (s : Server) (l : PacketLookup) (newSession : Bool) : Server :=
  match l.found with
  | some .closed => s
  | found =>
    match PublicHeader.parse .client (expectedVersion found) l.packet with
    | .error .packetWithUnknownVersion => s.send (PublicReset.writePublicReset l.connID 0 0)
    | .error e => s.log (.invalidPacketHeader e)
    | .ok (hdr, data) => s.handleParsed l newSession hdr data

/-- The run loop of a session has returned. -/
def removeConnection (s : Server) (id : ℕ) : Server :=
  { s.setEntry id (some .closed) with
    running := s.running.erase id
    timers := s.timers ++ [id] }

/-- The timer of a closed session fires. -/
def deleteEntry (s : Server) (id : ℕ) : Server :=
  { s.setEntry id none with timers := s.timers.erase id }

/-! ## Steps -/

/-- The steps of the goroutines. -/
inductive Event where
  /-- A packet comes in. -/
  | lookup (packet : List UInt8)
  /-- The rest of `handlePacket`, in which the creation of a session may fail. -/
  | handle (newSession : Bool)
  /-- The run loop of a session returns. -/
  | runReturned (id : ℕ)
  /-- A timer fires. -/
  | timerFires (id : ℕ)
  deriving DecidableEq

/-- One step, if it can be taken. -/
def step (s : Server) : Event → Option Server
  | .lookup packet => if s.handling.isSome then none else some (s.lookup packet)
  | .handle newSession => s.handling.map fun l => { s.handle l newSession with handling := none }
  | .runReturned id => if id ∈ s.running then some (s.removeConnection id) else none
  | .timerFires id => if id ∈ s.timers then some (s.deleteEntry id) else none

/-- The state after some steps. A step that cannot be taken is left out. -/
def run (s : Server) (events : List Event) : Server := events.foldl (fun s e => (s.step e).getD s) s

variable {s t : Server} {l : PacketLookup} {id : ℕ}

theorem sessions_setEntry (s : Server) (id : ℕ) (entry : Option SessionEntry) (id' : ℕ) :
    (s.setEntry id entry).sessions id' = if id' = id then entry else s.sessions id' :=
  Function.update_apply _ _ _ _

/-! ## What the rest of `handlePacket` does -/

/-- What it can do, given what was looked up. -/
inductive Handled (s : Server) (l : PacketLookup) : Server → Prop where
  | dropped : Handled s l s
  | logged (e : ServerPacketError) (he : e ≠ .negotiatedVersionNotSupported) : Handled s l (s.log e)
  | sent (packet : List UInt8) : Handled s l (s.send packet)
  | delivered (hdr : ParsedPublicHeader) (data : List UInt8) :
    Handled s l (s.deliver l.connID hdr data)
  | created (session : ServerSession) (hfound : l.found = none)
    (hid : session.connectionID = l.connID) (hversion : session.version ∈ s.versions) :
    Handled s l { s.setEntry l.connID (some (.live session)) with
                  running := s.running ++ [l.connID] }

theorem deliver_addSession (s : Server) (id : ℕ) (version : VersionNumber)
    (hdr : ParsedPublicHeader) (data : List UInt8) :
    (s.addSession id ⟨id, version, []⟩).deliver id hdr data =
      { s.setEntry id (some (.live ⟨id, version, [(hdr, data)]⟩)) with
        running := s.running ++ [id] } := by
  simp [deliver, addSession, setEntry]

/-- Without an entry the server expects a version of the client, so that it never gets to the
version that it has not negotiated. -/
theorem handled_handleParsed {hdr : ParsedPublicHeader} {data : List UInt8}
    (hflags : l.found = none → (hdr.versionFlag || hdr.resetFlag) = true)
    (hid : hdr.connectionID = l.connID) (newSession : Bool) :
    Handled s l (s.handleParsed l newSession hdr data) := by
  unfold handleParsed
  dsimp only
  split_ifs with hreset hold hversion hsmall hok hunsupported hnew
  · exact .dropped
  · exact .dropped
  · exact .logged _ (by decide)
  · exact .sent _
  · have hfound : l.found = none := by simpa using hok
    have hflag := hflags hfound
    simp_all
  · exact .logged _ (by decide)
  · have hsupported : hdr.versionNumber ∈ s.versions := by simpa using hunsupported
    rw [hid, deliver_addSession]
    exact .created _ (by simpa using hok) rfl hsupported
  · exact .delivered hdr data

theorem handled_handle (hpeek : PublicHeader.peekConnectionID .client l.packet = .ok l.connID)
    (newSession : Bool) : Handled s l (s.handle l newSession) := by
  have hid {version : VersionNumber} {hdr : ParsedPublicHeader} {data : List UInt8}
      (hparse : PublicHeader.parse .client version l.packet = .ok (hdr, data)) :
      hdr.connectionID = l.connID :=
    Except.ok.inj ((PublicHeader.peekConnectionID_of_parse hparse).symm.trans hpeek)
  unfold handle
  split
  · exact .dropped
  · split
    · exact .sent _
    · exact .logged _ (by simp)
    · rename_i hparse
      refine handled_handleParsed (fun hfound => ?_) (hid hparse) newSession
      rw [hfound] at hparse
      exact PublicHeader.flags_of_parse_unknown hparse

/-! ## The session table -/

/-- What holds of the table between any two steps. -/
structure Wf (s : Server) : Prop where
  running_nodup : s.running.Nodup
  timers_nodup : s.timers.Nodup
  /-- There is a goroutine for each session in the table. -/
  running_iff : ∀ id, id ∈ s.running ↔ ∃ session, s.sessions id = some (.live session)
  /-- There is a timer for each empty entry. -/
  timers_iff : ∀ id, id ∈ s.timers ↔ s.sessions id = some .closed
  session : ∀ id session, s.sessions id = some (.live session) →
    session.connectionID = id ∧ session.version ∈ s.versions
  /-- What was looked up as missing is still missing. -/
  missing : ∀ l, s.handling = some l → l.found = none → s.sessions l.connID = none
  peeked : ∀ l, s.handling = some l →
    PublicHeader.peekConnectionID .client l.packet = .ok l.connID
  logged : .negotiatedVersionNotSupported ∉ s.logged

theorem wf_listen (versions : List VersionNumber) : (listen versions).Wf where
  running_nodup := List.nodup_nil
  timers_nodup := List.nodup_nil
  running_iff := by simp [listen]
  timers_iff := by simp [listen]
  session := by simp [listen]
  missing := by simp [listen]
  peeked := by simp [listen]
  logged := List.not_mem_nil

namespace Wf

theorem lookup (h : s.Wf) (packet : List UInt8) : (s.lookup packet).Wf := by
  unfold Server.lookup
  split
  · exact { h with logged := by simpa [log] using h.logged }
  · rename_i connID hpeek
    refine { h with missing := ?_, peeked := ?_ }
    · rintro l hl hfound
      obtain rfl := Option.some.inj hl
      exact hfound
    · rintro l hl
      obtain rfl := Option.some.inj hl
      exact hpeek

/-- The entry of a session is replaced by one with the same ID and version. -/
theorem setLive (h : s.Wf) {session session' : ServerSession}
    (hlive : s.sessions id = some (.live session))
    (hid : session'.connectionID = session.connectionID)
    (hversion : session'.version = session.version) :
    (s.setEntry id (some (.live session'))).Wf := by
  refine
    { h with
      running_iff := fun id' => ?_
      timers_iff := fun id' => ?_
      session := fun id' other hother => ?_
      missing := fun l hl hfound => ?_ }
  · refine (h.running_iff id').trans ?_
    rw [sessions_setEntry]
    split_ifs with heq
    · rw [heq, hlive]
      exact ⟨fun _ => ⟨_, rfl⟩, fun _ => ⟨_, rfl⟩⟩
    · rfl
  · refine (h.timers_iff id').trans ?_
    rw [sessions_setEntry]
    split_ifs with heq
    · simp [heq, hlive]
    · rfl
  · rw [sessions_setEntry] at hother
    split_ifs at hother with heq
    · cases hother
      rw [hid, hversion, heq]
      exact h.session id session hlive
    · exact h.session id' other hother
  · have hnone := h.missing l hl hfound
    have hne : l.connID ≠ id := by
      rintro rfl
      rw [hlive] at hnone
      cases hnone
    rw [sessions_setEntry, if_neg hne]
    exact hnone

theorem deliver (h : s.Wf) (id : ℕ) (hdr : ParsedPublicHeader) (data : List UInt8) :
    (s.deliver id hdr data).Wf := by
  unfold Server.deliver
  split
  · rename_i session hlive
    exact h.setLive hlive rfl rfl
  · exact h

/-- A session is added where there is no entry. -/
theorem create (h : s.Wf) {session : ServerSession} (hnone : s.sessions id = none)
    (hid : session.connectionID = id) (hversion : session.version ∈ s.versions) :
    ({ s.setEntry id (some (.live session)) with
       running := s.running ++ [id], handling := none } : Server).Wf := by
  have hrunning : id ∉ s.running := by simp [h.running_iff, hnone]
  refine
    { h with
      running_nodup := ?_
      running_iff := fun id' => ?_
      timers_iff := fun id' => ?_
      session := fun id' other hother => ?_
      missing := fun _ hl => nomatch hl
      peeked := fun _ hl => nomatch hl }
  · exact List.nodup_append.mpr ⟨h.running_nodup, List.nodup_singleton id, by
      rintro a ha b hb rfl
      exact hrunning (List.mem_singleton.mp hb ▸ ha)⟩
  · change _ ↔ ∃ session', (s.setEntry id _).sessions id' = _
    rw [List.mem_append, List.mem_singleton, sessions_setEntry, h.running_iff]
    split_ifs with heq <;> simp [heq]
  · change id' ∈ s.timers ↔ (s.setEntry id _).sessions id' = _
    rw [sessions_setEntry, h.timers_iff]
    split_ifs with heq
    · simp [heq, hnone]
    · rfl
  · change (s.setEntry id _).sessions id' = _ at hother
    rw [sessions_setEntry] at hother
    split_ifs at hother with heq
    · cases hother
      exact ⟨hid.trans heq.symm, hversion⟩
    · exact h.session id' other hother

theorem handled (h : s.Wf) (hhandling : s.handling = some l) (ht : Handled s l t) :
    ({ t with handling := none } : Server).Wf := by
  -- after the step no packet is being handled
  have hdone {t : Server} (ht : t.Wf) : ({ t with handling := none } : Server).Wf :=
    { ht with missing := fun _ hl => (nomatch hl), peeked := fun _ hl => (nomatch hl) }
  cases ht with
  | dropped => exact hdone h
  | logged e he =>
    refine hdone { h with logged := ?_ }
    simpa [log] using ⟨h.logged, he.symm⟩
  | sent packet => exact hdone { h with }
  | delivered hdr data => exact hdone (h.deliver l.connID hdr data)
  | created session hfound hid hversion =>
    exact h.create (h.missing l hhandling hfound) hid hversion

theorem removeConnection (h : s.Wf) (hid : id ∈ s.running) : (s.removeConnection id).Wf := by
  obtain ⟨session, hlive⟩ := (h.running_iff id).mp hid
  have htimer : id ∉ s.timers := by simp [h.timers_iff, hlive]
  refine
    { h with
      running_nodup := h.running_nodup.erase id
      timers_nodup := ?_
      running_iff := fun id' => ?_
      timers_iff := fun id' => ?_
      session := fun id' other hother => ?_
      missing := fun l hl hfound => ?_ }
  · exact List.nodup_append.mpr ⟨h.timers_nodup, List.nodup_singleton id, by
      rintro a ha b hb rfl
      exact htimer (List.mem_singleton.mp hb ▸ ha)⟩
  · change id' ∈ s.running.erase id ↔ ∃ session', (s.setEntry id _).sessions id' = _
    rw [h.running_nodup.mem_erase_iff, sessions_setEntry, h.running_iff]
    split_ifs with heq <;> simp [heq]
  · change id' ∈ s.timers ++ [id] ↔ (s.setEntry id _).sessions id' = _
    rw [List.mem_append, List.mem_singleton, sessions_setEntry, h.timers_iff]
    split_ifs with heq <;> simp [heq]
  · change (s.setEntry id _).sessions id' = _ at hother
    rw [sessions_setEntry] at hother
    split_ifs at hother
    · cases hother
    · exact h.session id' other hother
  · have hnone := h.missing l hl hfound
    have hne : l.connID ≠ id := by
      rintro rfl
      rw [hlive] at hnone
      cases hnone
    change (s.setEntry id _).sessions l.connID = _
    rw [sessions_setEntry, if_neg hne]
    exact hnone

theorem deleteEntry (h : s.Wf) (hid : id ∈ s.timers) : (s.deleteEntry id).Wf := by
  have hclosed := (h.timers_iff id).mp hid
  refine
    { h with
      timers_nodup := h.timers_nodup.erase id
      running_iff := fun id' => ?_
      timers_iff := fun id' => ?_
      session := fun id' other hother => ?_
      missing := fun l hl hfound => ?_ }
  · change id' ∈ s.running ↔ ∃ session', (s.setEntry id _).sessions id' = _
    rw [sessions_setEntry, h.running_iff]
    split_ifs with heq
    · simp [heq, hclosed]
    · rfl
  · change id' ∈ s.timers.erase id ↔ (s.setEntry id _).sessions id' = _
    rw [h.timers_nodup.mem_erase_iff, sessions_setEntry, h.timers_iff]
    split_ifs with heq <;> simp [heq]
  · change (s.setEntry id _).sessions id' = _ at hother
    rw [sessions_setEntry] at hother
    split_ifs at hother
    exact h.session id' other hother
  · change (s.setEntry id _).sessions l.connID = _
    rw [sessions_setEntry]
    split_ifs
    · rfl
    · exact h.missing l hl hfound

end Wf

/-! ## Steps and runs -/

/-- What a step does, with what was known before it. -/
inductive Steps (s : Server) : Event → Server → Prop where
  | lookup (packet : List UInt8) : Steps s (.lookup packet) (s.lookup packet)
  | handle (l : PacketLookup) (newSession : Bool) (t : Server) (hl : s.handling = some l)
    (ht : Handled s l t) : Steps s (.handle newSession) { t with handling := none }
  | runReturned (id : ℕ) (hid : id ∈ s.running) : Steps s (.runReturned id) (s.removeConnection id)
  | timerFires (id : ℕ) (hid : id ∈ s.timers) : Steps s (.timerFires id) (s.deleteEntry id)

variable {e : Event}

theorem Wf.steps (h : s.Wf) (hstep : s.step e = some t) : Steps s e t := by
  cases e with
  | lookup packet =>
    rw [step] at hstep
    split_ifs at hstep
    exact Option.some.inj hstep ▸ .lookup packet
  | handle newSession =>
    obtain ⟨l, hl, rfl⟩ := Option.map_eq_some_iff.mp hstep
    exact .handle l newSession _ hl (handled_handle (h.peeked l hl) newSession)
  | runReturned id =>
    rw [step] at hstep
    split_ifs at hstep with hid
    exact Option.some.inj hstep ▸ .runReturned id hid
  | timerFires id =>
    rw [step] at hstep
    split_ifs at hstep with hid
    exact Option.some.inj hstep ▸ .timerFires id hid

/-- Every step keeps the table well formed. -/
theorem Wf.step (h : s.Wf) (hstep : Steps s e t) : t.Wf := by
  cases hstep with
  | lookup packet => exact h.lookup packet
  | handle l newSession t hl ht => exact h.handled hl ht
  | runReturned id hid => exact h.removeConnection hid
  | timerFires id hid => exact h.deleteEntry hid

/-- A property that the possible steps keep holds after any steps. -/
theorem Wf.run_induction {P : Server → Prop} (h : s.Wf) (hP : P s) {events : List Event}
    (hstep : ∀ s e t, e ∈ events → s.Wf → Steps s e t → P s → P t) :
    (s.run events).Wf ∧ P (s.run events) := by
  refine List.foldlRecOn (motive := fun s => s.Wf ∧ P s) events _ ⟨h, hP⟩ fun s hs e he => ?_
  cases hnext : s.step e with
  | none => exact hs
  | some t =>
    have hsteps := hs.1.steps hnext
    exact ⟨hs.1.step hsteps, hstep s e t he hs.1 hsteps hs.2⟩

theorem Wf.run (h : s.Wf) (events : List Event) : (s.run events).Wf :=
  (h.run_induction (P := fun _ => True) trivial fun _ _ _ _ _ _ _ => trivial).1

theorem wf_run (versions : List VersionNumber) (events : List Event) :
    ((listen versions).run events).Wf :=
  (wf_listen versions).run events

/-- The goroutines and the timers fit the table after any steps: a session has a version of the
server and one goroutine, a closed one is waited for by one timer and no goroutine. The server never
comes to a version that it has not negotiated. -/
theorem sessions_supported (versions : List VersionNumber) (events : List Event) :
    let s := (listen versions).run events
    (∀ id session, s.sessions id = some (.live session) →
      session.connectionID = id ∧ session.version ∈ s.versions ∧ s.running.count id = 1 ∧
        id ∉ s.timers) ∧
    (∀ id, s.sessions id = some .closed → s.timers.count id = 1 ∧ id ∉ s.running) ∧
    (∀ id, s.sessions id = none → id ∉ s.running ∧ id ∉ s.timers) ∧
    ServerPacketError.negotiatedVersionNotSupported ∉ s.logged := by
  have h := wf_run versions events
  refine ⟨fun id session hlive => ?_, fun id hclosed => ?_, fun id hnone => ?_, h.logged⟩
  · obtain ⟨hid, hversion⟩ := h.session id session hlive
    have hmem : id ∈ ((listen versions).run events).running := (h.running_iff id).mpr ⟨_, hlive⟩
    refine ⟨hid, hversion, List.count_eq_one_of_mem h.running_nodup hmem, ?_⟩
    rw [h.timers_iff, hlive]
    simp
  · have hmem : id ∈ ((listen versions).run events).timers := (h.timers_iff id).mpr hclosed
    refine ⟨List.count_eq_one_of_mem h.timers_nodup hmem, ?_⟩
    rw [h.running_iff, hclosed]
    simp
  · rw [h.running_iff, h.timers_iff, hnone]
    simp

/-- The first packet of a client with the version 39. -/
def examplePacket (connID : UInt8) : List UInt8 :=
  [0x09, connID, 0, 0, 0, 0, 0, 0, 0, 0x51, 0x30, 0x33, 0x39, 1]

/-- Two clients connect, and the session of the second one is closed. -/
def exampleEvents : List Event :=
  [.lookup (examplePacket 1), .handle true, .lookup (examplePacket 2), .handle true, .runReturned 2]

theorem exampleEvents_sessions :
    (∃ session, ((listen [39]).run exampleEvents).sessions 1 = some (.live session)) ∧
      ((listen [39]).run exampleEvents).sessions 2 = some .closed :=
  ⟨⟨_, rfl⟩, rfl⟩

/-- The table has a session, which is waited for, and an empty entry, which has a timer. -/
theorem sessions_supported_example :
    let s := (listen [39]).run exampleEvents
    (∃ session, s.sessions 1 = some (.live session) ∧ session.version ∈ s.versions) ∧
      s.running.count 1 = 1 ∧ s.sessions 2 = some .closed ∧ s.timers.count 2 = 1 := by
  obtain ⟨⟨session, hlive⟩, hclosed⟩ := exampleEvents_sessions
  obtain ⟨hsessions, hentries, -⟩ := sessions_supported [39] exampleEvents
  obtain ⟨-, hversion, hrunning, -⟩ := hsessions 1 session hlive
  exact ⟨⟨session, hlive, hversion⟩, hrunning, hclosed, (hentries 2 hclosed).1⟩

/-! ## Entries stay -/

/-- The session goes on with its packets. -/
def Continues (session : ServerSession) (entry : Option SessionEntry) : Prop :=
  ∃ more, entry = some (.live { session with received := session.received ++ more })

variable {session : ServerSession}

theorem Continues.deliver (h : Continues session (s.sessions id)) (id' : ℕ)
    (hdr : ParsedPublicHeader) (data : List UInt8) :
    Continues session ((s.deliver id' hdr data).sessions id) := by
  unfold Server.deliver
  split
  · rename_i other hother
    rw [sessions_setEntry]
    split_ifs with heq
    · subst heq
      obtain ⟨more, hmore⟩ := h
      rw [hmore] at hother
      cases hother
      exact ⟨more ++ [(hdr, data)], by rw [List.append_assoc]⟩
    · exact h
  · exact h

theorem sessions_deliver_of_closed (hclosed : s.sessions id = some .closed) (id' : ℕ)
    (hdr : ParsedPublicHeader) (data : List UInt8) :
    (s.deliver id' hdr data).sessions id = some .closed := by
  unfold Server.deliver
  split
  · rename_i other hother
    have hne : id ≠ id' := by
      rintro rfl
      rw [hclosed] at hother
      cases hother
    rw [sessions_setEntry, if_neg hne]
    exact hclosed
  · exact hclosed

theorem sessions_lookup (s : Server) (packet : List UInt8) :
    (s.lookup packet).sessions = s.sessions := by
  unfold Server.lookup
  split
  · rfl
  · rfl

/-- Another entry is written: a session goes on. -/
theorem Continues.setEntry (h : Continues session (s.sessions id)) {id' : ℕ}
    (hne : ∀ other, s.sessions id' ≠ some (.live other)) (entry : Option SessionEntry) :
    Continues session ((s.setEntry id' entry).sessions id) := by
  obtain ⟨more, hmore⟩ := h
  have hne : id ≠ id' := fun heq => hne _ (heq ▸ hmore)
  rw [sessions_setEntry, if_neg hne]
  exact ⟨more, hmore⟩

/-- A step keeps a session in the table unless its own run loop returns. -/
theorem Continues.steps (hs : s.Wf) (hstep : Steps s e t) (hne : e ≠ .runReturned id)
    (h : Continues session (s.sessions id)) :
    Continues session (t.sessions id) := by
  cases hstep with
  | lookup packet => rwa [sessions_lookup]
  | handle l newSession t hl ht =>
    cases ht with
    | dropped | logged e he | sent packet => exact h
    | delivered hdr data => exact h.deliver l.connID hdr data
    | created session' hfound hid hversion =>
      have hnone := hs.missing l hl hfound
      exact h.setEntry (fun other hother => by rw [hnone] at hother; cases hother) _
  | runReturned id' hid =>
    have hid' : id ≠ id' := fun heq => hne (heq ▸ rfl)
    change Continues session ((s.setEntry id' _).sessions id)
    rwa [sessions_setEntry, if_neg hid']
  | timerFires id' hid =>
    have hclosed := (hs.timers_iff id').mp hid
    exact h.setEntry (fun other hother => by rw [hclosed] at hother; cases hother) _

/-- A step keeps an empty entry unless its timer fires. -/
theorem closed_of_steps (hs : s.Wf) (hstep : Steps s e t) (hne : e ≠ .timerFires id)
    (h : s.sessions id = some .closed) : t.sessions id = some .closed := by
  -- an entry that is missing or has a session is another one
  have hother {id' : ℕ} (hid' : s.sessions id' ≠ some .closed) (entry : Option SessionEntry) :
      (s.setEntry id' entry).sessions id = some .closed := by
    have hne : id ≠ id' := fun heq => hid' (heq ▸ h)
    rw [sessions_setEntry, if_neg hne, h]
  cases hstep with
  | lookup packet => rwa [sessions_lookup]
  | handle l newSession t hl ht =>
    cases ht with
    | dropped | logged e he | sent packet => exact h
    | delivered hdr data => exact sessions_deliver_of_closed h l.connID hdr data
    | created session' hfound hid hversion =>
      exact hother (by rw [hs.missing l hl hfound]; simp) _
  | runReturned id' hid =>
    obtain ⟨session, hlive⟩ := (hs.running_iff id').mp hid
    exact hother (by rw [hlive]; simp) _
  | timerFires id' hid =>
    have hid' : id ≠ id' := fun heq => hne (heq ▸ rfl)
    change (s.setEntry id' _).sessions id = _
    rw [sessions_setEntry, if_neg hid', h]

/-- However the goroutines are interleaved, a session that was once added stays in the table, with
all the packets it was given, until its own run loop returns, and an entry of a closed session stays
until its own timer fires. -/
theorem session_kept (versions : List VersionNumber) (before after : List Event) :
    let s := (listen versions).run before
    (∀ id session, s.sessions id = some (.live session) → .runReturned id ∉ after →
      Continues session ((s.run after).sessions id)) ∧
    (∀ id, s.sessions id = some .closed → .timerFires id ∉ after →
      (s.run after).sessions id = some .closed) := by
  have h := wf_run versions before
  refine ⟨fun id session hlive hafter => ?_, fun id hclosed hafter => ?_⟩
  · refine (h.run_induction (P := fun s => Continues session (s.sessions id)) ?_ ?_).2
    · rw [hlive]
      exact ⟨[], by rw [List.append_nil]⟩
    · intro s e t he hs hstep hP
      exact hP.steps hs hstep fun heq => hafter (heq ▸ he)
  · refine (h.run_induction (P := fun s => s.sessions id = some .closed) hclosed ?_).2
    intro s e t he hs hstep hP
    exact closed_of_steps hs hstep (fun heq => hafter (heq ▸ he)) hP

/-- Each of the two clients sends its packet once more. -/
theorem session_kept_example :
    let s := (listen [39]).run exampleEvents
    let after : List Event :=
      [.lookup (examplePacket 2), .handle true, .lookup (examplePacket 1), .handle true]
    (∃ session, s.sessions 1 = some (.live session) ∧
      Continues session ((s.run after).sessions 1)) ∧
    s.sessions 2 = some .closed ∧ (s.run after).sessions 2 = some .closed := by
  obtain ⟨⟨session, hlive⟩, hclosed⟩ := exampleEvents_sessions
  obtain ⟨hsessions, hentries⟩ := session_kept [39] exampleEvents
    [.lookup (examplePacket 2), .handle true, .lookup (examplePacket 1), .handle true]
  exact ⟨⟨session, hlive, hsessions 1 session hlive (by decide)⟩, hclosed,
    hentries 2 hclosed (by decide)⟩

end Server

end MPQuic
