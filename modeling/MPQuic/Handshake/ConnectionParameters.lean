import MPQuic.FlowControl.FlowController
import MPQuic.Wire.ByteOrder

/-!
# Negotiation of the connection parameters

`internal/handshake/connection_parameters_manager.go`: the client sends its parameters in the CHLO,
the server takes them over subject to its own and answers with the SHLO. All values are 4-byte
little endian integers.

The idle connection state lifetime is a number of nanoseconds, sent in whole seconds modulo
`2 ^ 32`. Both sides take the minimum of what they receive and what they have, so they agree only if
nothing is lost on the way back: `negotiate_agrees_iff`.
-/

namespace MPQuic

open Bytes

/-- The tags that carry connection parameters. -/
inductive ParameterTag where
  /-- Truncation of the connection ID. -/
  | tcid
  /-- Maximum streams per connection. -/
  | mspc
  /-- Maximum incoming dynamic streams. -/
  | mids
  /-- Idle connection state lifetime. -/
  | icsl
  /-- Initial stream flow control receive window. -/
  | sfcw
  /-- Initial connection flow control receive window. -/
  | cfcw
  deriving DecidableEq

/-- The parameters of a handshake message. -/
abbrev HelloMap := ParameterTag → Option (List UInt8)

/-- The errors of `SetFromMap`. -/
inductive ParametersError where
  | malformedTag
  | flowControlRenegotiationNotSupported
  deriving DecidableEq

/-- A second. -/
def second : ℕ := 1000000000

/-- The connection parameters of one side. -/
structure ConnectionParametersManager extends ConnectionParameters where
  perspective : Perspective
  truncateConnectionID : Bool
  maxStreamsPerConnection : ℕ
  maxIncomingDynamicStreamsPerConnection : ℕ
  idleConnectionStateLifetime : ℕ

namespace ConnectionParametersManager

/-- The parameters before the handshake. -/
def new (perspective : Perspective)
    (maxReceiveStreamFlowControlWindow maxReceiveConnectionFlowControlWindow idleTimeout : ℕ) :
    ConnectionParametersManager where
  toConnectionParameters :=
    .new maxReceiveStreamFlowControlWindow maxReceiveConnectionFlowControlWindow
  perspective := perspective
  truncateConnectionID := false
  maxStreamsPerConnection := MPQuic.maxStreamsPerConnection
  maxIncomingDynamicStreamsPerConnection := MPQuic.maxStreamsPerConnection
  idleConnectionStateLifetime := idleTimeout

/-- What a step of `SetFromMap` does: the new parameters, or an error and the parameters that were
set before it. -/
abbrev Step := Except (ParametersError × ConnectionParametersManager) ConnectionParametersManager

/-- Set a parameter if its tag is there. -/
def setTag (params : HelloMap) (tag : ParameterTag)
    (set : ℕ → ConnectionParametersManager → ConnectionParametersManager)
    (h : ConnectionParametersManager) : Step :=
  match params tag with
  | none => .ok h
  | some value =>
    match readUintN .little 4 value with
    | .error _ => .error (.malformedTag, h)
    | .ok (clientValue, _) => .ok (set clientValue h)

/-- Set a flow control window if its tag is there. It is set only once. -/
def setWindow (params : HelloMap) (tag : ParameterTag)
    (set : ℕ → ConnectionParametersManager → ConnectionParametersManager)
    (h : ConnectionParametersManager) : Step :=
  if (params tag).isSome && h.flowControlNegotiated then
    .error (.flowControlRenegotiationNotSupported, h)
  else setTag params tag set h

def negotiateMaxStreamsPerConnection (clientValue : ℕ) : ℕ :=
  min clientValue MPQuic.maxStreamsPerConnection

def negotiateMaxIncomingDynamicStreamsPerConnection (clientValue : ℕ) : ℕ :=
  min clientValue MPQuic.maxIncomingDynamicStreamsPerConnection

def negotiateIdleConnectionStateLifetime (h : ConnectionParametersManager) (clientValue : ℕ) : ℕ :=
  min clientValue h.idleConnectionStateLifetime

/-- Only the server truncates connection IDs. -/
def setTCID (params : HelloMap) (h : ConnectionParametersManager) : Step :=
  if h.perspective = .server then
    setTag params .tcid (fun v h => { h with truncateConnectionID := v = 0 }) h
  else .ok h

def setMSPC (params : HelloMap) : ConnectionParametersManager → Step :=
  setTag params .mspc fun v h => { h with
    maxStreamsPerConnection := negotiateMaxStreamsPerConnection v }

def setMIDS (params : HelloMap) : ConnectionParametersManager → Step :=
  setTag params .mids fun v h => { h with
    maxIncomingDynamicStreamsPerConnection := negotiateMaxIncomingDynamicStreamsPerConnection v }

def setICSL (params : HelloMap) : ConnectionParametersManager → Step :=
  setTag params .icsl fun v h => { h with
    idleConnectionStateLifetime := h.negotiateIdleConnectionStateLifetime (v * second) }

def setSFCW (params : HelloMap) : ConnectionParametersManager → Step :=
  setWindow params .sfcw fun v h => { h with sendStreamFlowControlWindow := v }

def setCFCW (params : HelloMap) : ConnectionParametersManager → Step :=
  setWindow params .cfcw fun v h => { h with sendConnectionFlowControlWindow := v }

/-- Take over the parameters of the peer. -/
def setFromMap (h : ConnectionParametersManager) (params : HelloMap) : Step := do
  let h ← setTCID params h
  let h ← setMSPC params h
  let h ← setMIDS params h
  let h ← setICSL params h
  let h ← setSFCW params h
  let h ← setCFCW params h
  return { h with
    flowControlNegotiated :=
      h.flowControlNegotiated || (params .cfcw).isSome || (params .sfcw).isSome }

/-- The parameters for the hello message. -/
def getHelloMap (h : ConnectionParametersManager) : HelloMap
  | .tcid => none
  | .icsl => some (toBytes .little 4 (h.idleConnectionStateLifetime / second % uint32Size))
  | .mspc => some (toBytes .little 4 h.maxStreamsPerConnection)
  | .mids => some (toBytes .little 4 MPQuic.maxIncomingDynamicStreamsPerConnection)
  | .cfcw => some (toBytes .little 4 (h.receiveConnectionFlowControlWindow % uint32Size))
  | .sfcw => some (toBytes .little 4 (h.receiveStreamFlowControlWindow % uint32Size))

/-- Whether the connection ID is truncated. A client never truncates it. -/
def getTruncateConnectionID (h : ConnectionParametersManager) : Bool :=
  if h.perspective = .client then false else h.truncateConnectionID

/-! ## One message -/

section SetFromMap

variable {h h' : ConnectionParametersManager} {params : HelloMap} {tag : ParameterTag}
  {set : ℕ → ConnectionParametersManager → ConnectionParametersManager}

end SetFromMap

/-! ## Both messages -/

section Exchange

variable {h peer : ConnectionParametersManager} {params : HelloMap} {tag : ParameterTag}
  {set : ℕ → ConnectionParametersManager → ConnectionParametersManager} {v : ℕ}

theorem setTag_toBytes (htag : params tag = some (toBytes .little 4 v)) (hv : v < uint32Size) :
    setTag params tag set h = .ok (set v h) := by
  have hread := readUintN_toBytes (o := .little) (w := 4) hv []
  rw [List.append_nil] at hread
  simp only [setTag, htag, hread]

theorem setWindow_toBytes (htag : params tag = some (toBytes .little 4 v)) (hv : v < uint32Size)
    (hnew : h.flowControlNegotiated = false) : setWindow params tag set h = .ok (set v h) := by
  rw [setWindow, hnew, Bool.and_false, if_neg Bool.false_ne_true, setTag_toBytes htag hv]

/-- The lifetime that a hello message announces, in whole seconds. -/
def announcedSeconds (lifetime : ℕ) : ℕ := lifetime / second % uint32Size

/-- What one side takes over from the first hello message of the other. -/
def takeOver (h peer : ConnectionParametersManager) : ConnectionParametersManager :=
  { h with
    maxStreamsPerConnection := negotiateMaxStreamsPerConnection peer.maxStreamsPerConnection
    maxIncomingDynamicStreamsPerConnection := MPQuic.maxIncomingDynamicStreamsPerConnection
    idleConnectionStateLifetime := h.negotiateIdleConnectionStateLifetime
      (announcedSeconds peer.idleConnectionStateLifetime * second)
    sendStreamFlowControlWindow := peer.receiveStreamFlowControlWindow % uint32Size
    sendConnectionFlowControlWindow := peer.receiveConnectionFlowControlWindow % uint32Size
    flowControlNegotiated := true }

theorem setFromMap_getHelloMap (hnew : h.flowControlNegotiated = false)
    (hstreams : peer.maxStreamsPerConnection < uint32Size) :
    h.setFromMap peer.getHelloMap = .ok (h.takeOver peer) := by
  have hmod (n : ℕ) : n % uint32Size < uint32Size := Nat.mod_lt _ (by decide)
  -- `GetHelloMap` has no TCID tag
  have htcid : setTCID peer.getHelloMap h = .ok h := by
    unfold setTCID
    split_ifs <;> rfl
  rw [setFromMap, htcid, ok_bind]
  rw [setMSPC, setTag_toBytes rfl hstreams, ok_bind]
  rw [setMIDS, setTag_toBytes rfl (by decide), ok_bind]
  rw [setICSL, setTag_toBytes rfl (hmod _), ok_bind]
  rw [setSFCW, setWindow_toBytes rfl (hmod _) (by exact hnew), ok_bind]
  rw [setCFCW, setWindow_toBytes rfl (hmod _) (by exact hnew), ok_bind]
  -- both sides announce the same number of incoming streams
  have hmids : negotiateMaxIncomingDynamicStreamsPerConnection
      MPQuic.maxIncomingDynamicStreamsPerConnection =
        MPQuic.maxIncomingDynamicStreamsPerConnection := min_self _
  rw [hmids]
  simp only [getHelloMap, Option.isSome_some, Bool.or_true]
  rfl

/-- The server takes over the parameters of the CHLO, then the client those of the SHLO. -/
def exchange (client server : ConnectionParametersManager) :
    Except (ParametersError × ConnectionParametersManager)
      (ConnectionParametersManager × ConnectionParametersManager) := do
  let server ← server.setFromMap client.getHelloMap
  let client ← client.setFromMap server.getHelloMap
  return (client, server)

theorem exchange_new (clientTimeout serverTimeout : ℕ)
    (maxStreamClient maxConnClient maxStreamServer maxConnServer : ℕ) :
    let client := new .client maxStreamClient maxConnClient clientTimeout
    let server := new .server maxStreamServer maxConnServer serverTimeout
    exchange client server =
      .ok (client.takeOver (server.takeOver client), server.takeOver client) := by
  intro client server
  have hstreams : MPQuic.maxStreamsPerConnection < uint32Size := by decide
  have hchlo : server.setFromMap client.getHelloMap = .ok (server.takeOver client) :=
    setFromMap_getHelloMap rfl hstreams
  have hshlo : client.setFromMap (server.takeOver client).getHelloMap =
      .ok (client.takeOver (server.takeOver client)) :=
    setFromMap_getHelloMap rfl (lt_of_le_of_lt (min_le_right _ _) hstreams)
  rw [exchange, hchlo, ok_bind, hshlo, ok_bind]
  rfl

/-- Two sides with these idle timeouts agree on the parameters of the connection. -/
structure Agree (clientTimeout serverTimeout : ℕ) (client server : ConnectionParametersManager) :
    Prop where
  lifetime_eq : client.idleConnectionStateLifetime = server.idleConnectionStateLifetime
  lifetime_pos : 0 < client.idleConnectionStateLifetime
  lifetime_le_client : client.idleConnectionStateLifetime ≤ clientTimeout
  lifetime_le_server : client.idleConnectionStateLifetime ≤ serverTimeout
  client_stream : client.sendStreamFlowControlWindow = server.receiveStreamFlowControlWindow
  client_connection :
    client.sendConnectionFlowControlWindow = server.receiveConnectionFlowControlWindow
  server_stream : server.sendStreamFlowControlWindow = client.receiveStreamFlowControlWindow
  server_connection :
    server.sendConnectionFlowControlWindow = client.receiveConnectionFlowControlWindow

/-- No part of the lifetime the server chooses is lost in the SHLO: the client announces at least a
second, and the server takes that over or has a whole number of seconds itself. -/
def LosesNothing (clientTimeout serverTimeout : ℕ) : Prop :=
  0 < announcedSeconds clientTimeout ∧
    (announcedSeconds clientTimeout * second ≤ serverTimeout ∨ serverTimeout % second = 0)

instance (clientTimeout serverTimeout : ℕ) : Decidable (LosesNothing clientTimeout serverTimeout) :=
  inferInstanceAs (Decidable (_ ∧ _))

/-- The two hops: the server has the lifetime `b`, and the client gets its whole seconds back. -/
theorem lifetime_agrees_iff {clientTimeout serverTimeout b : ℕ} (hserver : 0 < serverTimeout)
    (hb : b = min (announcedSeconds clientTimeout * second) serverTimeout) :
    (min (announcedSeconds b * second) clientTimeout = b ∧
      0 < min (announcedSeconds b * second) clientTimeout) ↔
        LosesNothing clientTimeout serverTimeout := by
  have ha : announcedSeconds clientTimeout ≤ clientTimeout / second := Nat.mod_le _ _
  have ha' : announcedSeconds clientTimeout < uint32Size := Nat.mod_lt _ (by decide)
  unfold LosesNothing
  generalize announcedSeconds clientTimeout = a at ha ha' hb ⊢
  unfold announcedSeconds second uint32Size at *
  omega

/-- **Both sides agree on the parameters**, for every configuration of the windows, if and only if
no part of the lifetime is lost. -/
theorem negotiate_agrees_iff (clientTimeout serverTimeout : ℕ) (hserver : 0 < serverTimeout)
    (maxStreamClient maxConnClient maxStreamServer maxConnServer : ℕ) :
    ∃ client server,
      exchange (new .client maxStreamClient maxConnClient clientTimeout)
        (new .server maxStreamServer maxConnServer serverTimeout) = .ok (client, server) ∧
      (Agree clientTimeout serverTimeout client server ↔
        LosesNothing clientTimeout serverTimeout) := by
  refine ⟨_, _, exchange_new clientTimeout serverTimeout maxStreamClient maxConnClient
    maxStreamServer maxConnServer, ?_⟩
  rw [← lifetime_agrees_iff hserver rfl]
  constructor
  · intro hagree
    exact ⟨hagree.lifetime_eq, hagree.lifetime_pos⟩
  · rintro ⟨heq, hpos⟩
    -- the receive windows are constants that fit into four bytes
    exact
      { lifetime_eq := heq
        lifetime_pos := hpos
        lifetime_le_client := min_le_right _ _
        lifetime_le_server := heq.le.trans (min_le_right _ _)
        client_stream := rfl
        client_connection := rfl
        server_stream := rfl
        server_connection := rfl }

/-- Thirty seconds on both sides. -/
theorem negotiate_agrees_default : ∃ client server,
    exchange (new .client 0 0 (30 * second)) (new .server 0 0 (30 * second)) =
        .ok (client, server) ∧
      Agree (30 * second) (30 * second) client server := by
  obtain ⟨client, server, hexchange, hagree⟩ :=
    negotiate_agrees_iff (30 * second) (30 * second) (by decide) 0 0 0 0
  exact ⟨client, server, hexchange, hagree.2 (by decide)⟩

/-- A server that waits for a second and a half keeps that, and the client waits for one second. A
client that waits for half a second makes the server wait for nothing. -/
theorem negotiate_disagrees :
    (∃ client server, exchange (new .client 0 0 (10 * second)) (new .server 0 0 1500000000) =
        .ok (client, server) ∧
      client.idleConnectionStateLifetime = 1000000000 ∧
      server.idleConnectionStateLifetime = 1500000000) ∧
    ∃ client server, exchange (new .client 0 0 500000000) (new .server 0 0 (30 * second)) =
        .ok (client, server) ∧
      client.idleConnectionStateLifetime = 0 ∧ server.idleConnectionStateLifetime = 0 :=
  ⟨⟨_, _, exchange_new .., by decide, by decide⟩, ⟨_, _, exchange_new .., by decide, by decide⟩⟩

end Exchange

end ConnectionParametersManager

end MPQuic
