import MPQuic.AckHandler.Packet

/-!
# Frames of a received packet

The parsers of the remaining frames of `internal/wire`, and the choice between them in
`packet_unpacker.go`: `parseFrame` reads one frame, whose type is in its first byte.

A received frame holds the STREAM frame itself, since it is not shared with a packet that was sent.
-/

namespace MPQuic

open Bytes
open Reader (mapError failIf pure_eq_ok ite_eq_ok)

/-- A frame of a received packet. -/
inductive ReceivedFrame where
  | stream (f : StreamFrame)
  | ack (f : AckFrame)
  | rstStream (f : RstStreamFrame)
  | connectionClose (f : ConnectionCloseFrame)
  | goaway (f : GoawayFrame)
  | windowUpdate (f : WindowUpdateFrame)
  | blocked (f : BlockedFrame)
  | stopWaiting (f : StopWaitingFrame)
  | ping
  | addAddress (f : AddAddressFrame)
  | closePath (f : ClosePathFrame)
  | paths (f : PathsFrame)
  deriving DecidableEq

/-- The errors of a frame parser. -/
inductive FrameError where
  | parse (e : ParseError)
  | reasonPhraseTooLong
  | unknownIPVersion
  | tooManyPaths
  deriving DecidableEq

/-- The errors for the content of a packet. -/
inductive UnpackError where
  | invalidStreamData (e : FrameError)
  | unencryptedStreamData (streamID : ℕ)
  | invalidAckData (e : FrameError)
  | congestionFeedback
  | invalidRstStreamData (e : FrameError)
  | invalidConnectionCloseData (e : FrameError)
  | invalidGoawayData (e : FrameError)
  | invalidWindowUpdateData (e : FrameError)
  | invalidBlockedData (e : FrameError)
  | invalidStopWaitingData (e : FrameError)
  | invalidFrameData (typeByte : UInt8)
  /-- An error that is passed on without a code. -/
  | frame (e : FrameError)
  deriving DecidableEq

/-- A field of a frame. -/
def field {α : Type} (r : FrameReader α) : Reader FrameError α := mapError .parse r

/-- Read a reason phrase with its length. -/
def readReasonPhrase (o : Order) : Reader FrameError (List UInt8) := do
  let reasonPhraseLen ← field (readUintN o 2)
  failIf (maxPacketSize < reasonPhraseLen) .reasonPhraseTooLong
  field (StreamFrame.readFull reasonPhraseLen)

/-- Read a RST_STREAM frame. -/
def RstStreamFrame.parse (o : Order) : Reader FrameError RstStreamFrame := do
  let _ ← field readByte
  let streamID ← field (readUintN o 4)
  let byteOffset ← field (readUintN o 8)
  let errorCode ← field (readUintN o 4)
  return { streamID, errorCode, byteOffset }

/-- Read a CONNECTION_CLOSE frame. -/
def ConnectionCloseFrame.parse (o : Order) : Reader FrameError ConnectionCloseFrame := do
  let _ ← field readByte
  let errorCode ← field (readUintN o 4)
  let reasonPhrase ← readReasonPhrase o
  return { errorCode, reasonPhrase }

/-- Read a GOAWAY frame. -/
def GoawayFrame.parse (o : Order) : Reader FrameError GoawayFrame := do
  let _ ← field readByte
  let errorCode ← field (readUintN o 4)
  let lastGoodStream ← field (readUintN o 4)
  let reasonPhrase ← readReasonPhrase o
  return { errorCode, lastGoodStream, reasonPhrase }

/-- Read a WINDOW_UPDATE frame. -/
def WindowUpdateFrame.parse (o : Order) : Reader FrameError WindowUpdateFrame := do
  let _ ← field readByte
  let streamID ← field (readUintN o 4)
  let byteOffset ← field (readUintN o 8)
  return { streamID, byteOffset }

/-- Read a BLOCKED frame. -/
def BlockedFrame.parse (o : Order) : Reader FrameError BlockedFrame := do
  let _ ← field readByte
  let streamID ← field (readUintN o 4)
  return { streamID }

/-- Read an ADD_ADDRESS frame. An IPv4 address is kept in its IPv6 form. -/
def AddAddressFrame.parse (o : Order) : Reader FrameError AddAddressFrame := do
  let _ ← field readByte
  let ipVersion ← field readByte
  let ip ←
    if ipVersion = 4 then do
      let ip ← field (readBytes .eof 4)
      pure (UDPAddr.v4InV6Prefix ++ ip)
    else if ipVersion = 6 then field (readBytes .eof 16)
    else throw .unknownIPVersion
  let port ← field (readUintN o 2)
  return { ipVersion, addr := { ip, port } }

namespace PathsFrame

/-- Read `n` paths with their round trip times, which are in microseconds. -/
def readPaths (o : Order) : ℕ → Reader FrameError (List (PathID × ℕ))
  | 0 => pure []
  | n + 1 => do
    let pathID ← field readByte
    let remoteRTT ← field (readUfloat16 o)
    let rest ← readPaths o n
    return (pathID, remoteRTT * 1000) :: rest

/-- Read a PATHS frame. -/
def parse (o : Order) : Reader FrameError PathsFrame := do
  let _ ← field readByte
  let maxNumPaths ← field readByte
  let numPaths ← field readByte
  failIf (maxNumPaths < numPaths) .tooManyPaths
  let paths ← readPaths o numPaths.toNat
  return { maxNumPaths, numPaths, pathIDs := paths.map (·.1), remoteRTTs := paths.map (·.2) }

theorem length_readPaths {o : Order} {n : ℕ} {bs rest : List UInt8} {paths : List (PathID × ℕ)}
    (h : readPaths o n bs = .ok (paths, rest)) : paths.length = n := by
  induction n generalizing bs rest paths with
  | zero =>
    obtain ⟨rfl, -⟩ := pure_eq_ok h
    rfl
  | succ n ih =>
    obtain ⟨pathID, bs₁, -, h⟩ := Reader.bind_eq_ok h
    obtain ⟨remoteRTT, bs₂, -, h⟩ := Reader.bind_eq_ok h
    obtain ⟨tail, bs₃, htail, h⟩ := Reader.bind_eq_ok h
    obtain ⟨rfl, -⟩ := pure_eq_ok h
    rw [List.length_cons, ih htail]

/-- The lists of an accepted frame are as long as its number of paths says. -/
theorem length_of_parse {o : Order} {bs rest : List UInt8} {f : PathsFrame}
    (h : parse o bs = .ok (f, rest)) :
    f.pathIDs.length = f.numPaths.toNat ∧ f.remoteRTTs.length = f.numPaths.toNat := by
  obtain ⟨typeByte, bs₁, -, h⟩ := Reader.bind_eq_ok h
  obtain ⟨maxNumPaths, bs₂, -, h⟩ := Reader.bind_eq_ok h
  obtain ⟨numPaths, bs₃, -, h⟩ := Reader.bind_eq_ok h
  obtain ⟨u, bs₄, -, h⟩ := Reader.bind_eq_ok h
  obtain ⟨paths, bs₅, hpaths, h⟩ := Reader.bind_eq_ok h
  obtain ⟨rfl, -⟩ := pure_eq_ok h
  have hlength := length_readPaths hpaths
  exact ⟨(List.length_map _).trans hlength, (List.length_map _).trans hlength⟩

end PathsFrame

/-- Read a frame of a kind, with the code for its errors. -/
def parseAs {α : Type} (kind : α → ReceivedFrame) (code : FrameError → UnpackError)
    (r : Reader FrameError α) : Reader UnpackError ReceivedFrame := do
  let f ← mapError code r
  return kind f

/-- Read a STREAM frame. Only those of the crypto stream may be unencrypted. -/
def parseStream (o : Order) (encryptionLevel : EncryptionLevel) :
    Reader UnpackError ReceivedFrame := do
  let f ← mapError .invalidStreamData (field (StreamFrame.parse o))
  failIf (f.streamID ≠ 1 ∧
    (encryptionLevel = .unspecified ∨ encryptionLevel = .unencrypted))
    (.unencryptedStreamData f.streamID)
  return .stream f

/-- Read a frame of the given type, for a packet with the given number and encryption level. -/
def parseFrameOf (o : Order) (packetNumber : ℕ) (packetNumberLen : PacketNumberLen)
    (encryptionLevel : EncryptionLevel) (typeByte : UInt8) : Reader UnpackError ReceivedFrame :=
  if typeByte &&& 0x80 = 0x80 then parseStream o encryptionLevel
  else if typeByte &&& 0xc0 = 0x40 then
    parseAs .ack .invalidAckData (field (AckFrame.parse o))
  else if typeByte &&& 0xe0 = 0x20 then throw .congestionFeedback
  else if typeByte = 0x01 then parseAs .rstStream .invalidRstStreamData (RstStreamFrame.parse o)
  else if typeByte = 0x02 then
    parseAs .connectionClose .invalidConnectionCloseData (ConnectionCloseFrame.parse o)
  else if typeByte = 0x03 then parseAs .goaway .invalidGoawayData (GoawayFrame.parse o)
  else if typeByte = 0x04 then
    parseAs .windowUpdate .invalidWindowUpdateData (WindowUpdateFrame.parse o)
  else if typeByte = 0x05 then parseAs .blocked .invalidBlockedData (BlockedFrame.parse o)
  else if typeByte = 0x06 then
    parseAs .stopWaiting .invalidStopWaitingData
      (field (StopWaitingFrame.parse o packetNumber packetNumberLen))
  else if typeByte = 0x07 then parseAs (fun _ => .ping) .frame (field readByte)
  else if typeByte = 0x10 then parseAs .addAddress .frame (AddAddressFrame.parse o)
  else if typeByte = 0x11 then parseAs .closePath .frame (field (ClosePathFrame.parse o))
  else if typeByte = 0x12 then parseAs .paths .frame (PathsFrame.parse o)
  else throw (.invalidFrameData typeByte)

/-- Read a frame. Its type byte is still to be read. -/
def parseFrame (o : Order) (packetNumber : ℕ) (packetNumberLen : PacketNumberLen)
    (encryptionLevel : EncryptionLevel) : Reader UnpackError ReceivedFrame := fun bs =>
  match bs with
  | [] => .error (.frame (.parse .eof))
  | typeByte :: _ => parseFrameOf o packetNumber packetNumberLen encryptionLevel typeByte bs

/-- The frame can be read from the bytes of some packet. -/
def ReceivedFrame.Parsed (f : ReceivedFrame) : Prop :=
  ∃ o packetNumber packetNumberLen encryptionLevel bs rest,
    parseFrame o packetNumber packetNumberLen encryptionLevel bs = .ok (f, rest)

theorem ite_parseAs_eq_ok {α : Type} {kind : α → ReceivedFrame} {code : FrameError → UnpackError}
    {r : Reader FrameError α} {others : Reader UnpackError ReceivedFrame} {c : Prop} [Decidable c]
    {bs rest : List UInt8} {f : ReceivedFrame}
    (h : (if c then parseAs kind code r else others) bs = .ok (f, rest)) :
    (∃ a, f = kind a ∧ r bs = .ok (a, rest)) ∨ others bs = .ok (f, rest) := by
  obtain h | h := ite_eq_ok h
  · obtain ⟨a, bs', ha, h⟩ := Reader.bind_eq_ok h
    obtain ⟨rfl, rfl⟩ := pure_eq_ok h
    exact .inl ⟨a, rfl, Reader.mapError_eq_ok.mp ha⟩
  · exact .inr h

/-- The parser of its kind reads the frame from the bytes. -/
def ReceivedFrame.ReadFrom (o : Order) (packetNumber : ℕ) (packetNumberLen : PacketNumberLen)
    (bs rest : List UInt8) : ReceivedFrame → Prop
  | stream f => field (StreamFrame.parse o) bs = .ok (f, rest)
  | ack f => field (AckFrame.parse o) bs = .ok (f, rest)
  | rstStream f => RstStreamFrame.parse o bs = .ok (f, rest)
  | connectionClose f => ConnectionCloseFrame.parse o bs = .ok (f, rest)
  | goaway f => GoawayFrame.parse o bs = .ok (f, rest)
  | windowUpdate f => WindowUpdateFrame.parse o bs = .ok (f, rest)
  | blocked f => BlockedFrame.parse o bs = .ok (f, rest)
  | stopWaiting f =>
    field (StopWaitingFrame.parse o packetNumber packetNumberLen) bs = .ok (f, rest)
  | ping => ∃ typeByte, field readByte bs = .ok (typeByte, rest)
  | addAddress f => AddAddressFrame.parse o bs = .ok (f, rest)
  | closePath f => field (ClosePathFrame.parse o) bs = .ok (f, rest)
  | paths f => PathsFrame.parse o bs = .ok (f, rest)

/-- What is read was accepted by the parser of its kind. -/
theorem readFrom_of_parseFrame {o : Order} {packetNumber : ℕ} {packetNumberLen : PacketNumberLen}
    {encryptionLevel : EncryptionLevel} {bs rest : List UInt8} {f : ReceivedFrame}
    (h : parseFrame o packetNumber packetNumberLen encryptionLevel bs = .ok (f, rest)) :
    f.ReadFrom o packetNumber packetNumberLen bs rest := by
  unfold parseFrame at h
  split at h
  · cases h
  · -- one test of the type byte after the other, in the order of the source: a STREAM frame has
    -- a check of its own after its parser, and two branches are errors without a parser
    unfold parseFrameOf at h
    obtain h | h := ite_eq_ok h
    · obtain ⟨g, bs₁, hparse, h₁⟩ := Reader.bind_eq_ok h
      obtain ⟨u, bs₂, hfail, h₂⟩ := Reader.bind_eq_ok h₁
      obtain ⟨-, rfl⟩ := Reader.failIf_eq_ok hfail
      obtain ⟨rfl, rfl⟩ := pure_eq_ok h₂
      exact Reader.mapError_eq_ok.mp hparse
    obtain ⟨g, rfl, hparse⟩ | h := ite_parseAs_eq_ok h
    · exact hparse
    obtain h | h := ite_eq_ok h
    · cases h
    obtain ⟨g, rfl, hparse⟩ | h := ite_parseAs_eq_ok h
    · exact hparse
    obtain ⟨g, rfl, hparse⟩ | h := ite_parseAs_eq_ok h
    · exact hparse
    obtain ⟨g, rfl, hparse⟩ | h := ite_parseAs_eq_ok h
    · exact hparse
    obtain ⟨g, rfl, hparse⟩ | h := ite_parseAs_eq_ok h
    · exact hparse
    obtain ⟨g, rfl, hparse⟩ | h := ite_parseAs_eq_ok h
    · exact hparse
    obtain ⟨g, rfl, hparse⟩ | h := ite_parseAs_eq_ok h
    · exact hparse
    obtain ⟨typeByte, rfl, hparse⟩ | h := ite_parseAs_eq_ok h
    · exact ⟨typeByte, hparse⟩
    obtain ⟨g, rfl, hparse⟩ | h := ite_parseAs_eq_ok h
    · exact hparse
    obtain ⟨g, rfl, hparse⟩ | h := ite_parseAs_eq_ok h
    · exact hparse
    obtain ⟨g, rfl, hparse⟩ | h := ite_parseAs_eq_ok h
    · exact hparse
    · cases h

/-- The lists of a received PATHS frame are as long as its number of paths says. -/
theorem ReceivedFrame.Parsed.length_paths {f : PathsFrame} (hf : (ReceivedFrame.paths f).Parsed) :
    f.pathIDs.length = f.numPaths.toNat ∧ f.remoteRTTs.length = f.numPaths.toNat := by
  obtain ⟨o, packetNumber, packetNumberLen, encryptionLevel, bs, rest, h⟩ := hf
  exact PathsFrame.length_of_parse (readFrom_of_parseFrame h)

end MPQuic
