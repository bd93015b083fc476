import MPQuic.Lib.Heap
import MPQuic.Wire.Frame

/-!
# The stream framer

`stream_framer.go`: it makes the STREAM frames of the next packet, first from the frames that have
to be retransmitted and then from the data that the streams have for writing.

The retransmission queue holds references, and a frame that is referenced by the queue may be
referenced by packets as well. `maybePopFramesForRetransmission` changes frames through these
references: it sets their `DataLenPresent`, and a frame that does not fit is split, which leaves its
rest in the frame that was there before.

The frames of the crypto stream are in `Packer.CryptoPacket`. The queues of the frames that are not
STREAM frames are left out, except for the BLOCKED frames, which `maybePopNormalFrames` makes.
-/

namespace MPQuic

/-! ## Streams -/

/-- The sending side of a stream. No data for writing is an empty list. -/
structure SendStream where
  streamID : ℕ
  writeOffset : ℕ
  dataForWriting : List UInt8
  finishedWriting : Bool
  finSent : Bool
  /-- The stream was reset or cancelled (`err` in the source). -/
  failed : Bool
  deriving DecidableEq

namespace SendStream

/-- The number of bytes for writing. -/
def lenOfDataForWriting (s : SendStream) : ℕ := if s.failed then 0 else s.dataForWriting.length

/-- Take at most `maxBytes` bytes for writing. -/
def getDataForWriting (s : SendStream) (maxBytes : ℕ) : List UInt8 × SendStream :=
  if s.failed then ([], s)
  else
    let ret := s.dataForWriting.take maxBytes
    (ret, { s with
      dataForWriting := s.dataForWriting.drop maxBytes
      writeOffset := s.writeOffset + ret.length })

/-- Whether a FIN has to be sent. -/
def shouldSendFin (s : SendStream) : Bool :=
  s.finishedWriting && !s.finSent && !s.failed && s.dataForWriting.isEmpty

/-- A FIN was sent. -/
def sentFin (s : SendStream) : SendStream := { s with finSent := true }

/-- The stream id is 32 bits, and the offsets of all data are 64 bits. -/
structure InRange (s : SendStream) : Prop where
  streamID_lt : s.streamID < 2 ^ 32
  end_lt : s.writeOffset + s.dataForWriting.length < 2 ^ 64

end SendStream

/-- A stream when the framer comes to it, with what the flow control manager answers. -/
structure StreamVisit where
  stream : SendStream
  sendWindowSize : ℕ
  /-- The remaining window of the connection after the frame was made. -/
  remainingConnectionWindowSize : ℕ

/-! ## The framer -/

/-- The state of the stream framer. -/
structure StreamFramer where
  retransmissionQueue : List FrameRef
  blockedFrameQueue : List BlockedFrame

/-- The STREAM frames of a session. -/
abbrev FrameHeap := CellHeap StreamFrame

namespace StreamFramer

/-- A new stream framer. -/
def new : StreamFramer where
  retransmissionQueue := []
  blockedFrameQueue := []

/-- Queue a frame for retransmission. -/
def addFrameForRetransmission (s : StreamFramer) (frame : FrameRef) : StreamFramer :=
  { s with retransmissionQueue := s.retransmissionQueue ++ [frame] }

/-- The first `n` bytes of a frame as a separate frame. -/
def splitHead (f : StreamFrame) (n : ℕ) : StreamFrame :=
  { f with finBit := false, data := f.data.take n }

/-- The frame without its first `n` bytes. -/
def splitTail (f : StreamFrame) (n : ℕ) : StreamFrame :=
  { f with data := f.data.drop n, offset := f.offset + n }

/-- Remove the first `n` bytes and return them as a separate frame. If the frame is not longer,
nothing is returned and nothing is modified. -/
def maybeSplitOffFrame (heap : FrameHeap) (frame : FrameRef) (n : ℕ) :
    Option (FrameRef × FrameHeap) :=
  let f := heap.get frame
  if f.dataLen ≤ n then none
  else some ((heap.modify frame (splitTail · n)).alloc (splitHead f n))

/-- What was popped from the retransmission queue. -/
structure Retransmissions where
  frames : List FrameRef
  currentLen : ℕ
  retransmissionQueue : List FrameRef
  heap : FrameHeap

/-- Pop frames from the retransmission queue as long as there is room for them. -/
def maybePopFramesForRetransmission (maxLen : ℕ) :
    List FrameRef → ℕ → FrameHeap → Retransmissions
  | [], currentLen, heap => { frames := [], currentLen, retransmissionQueue := [], heap }
  | frame :: queue, currentLen, heap =>
    let heap := heap.modify frame ({ · with dataLenPresent := true })
    let frameHeaderLen := (heap.get frame).minLength
    if maxLen ≤ currentLen + frameHeaderLen then
      { frames := [], currentLen, retransmissionQueue := frame :: queue, heap }
    else
      let currentLen := currentLen + frameHeaderLen
      match maybeSplitOffFrame heap frame (maxLen - currentLen) with
      -- the frame was split, and what is left of it stays in the queue
      | some (splitFrame, heap) =>
        { frames := [splitFrame]
          currentLen := currentLen + (heap.get splitFrame).dataLen
          retransmissionQueue := frame :: queue
          heap }
      | none =>
        let r := maybePopFramesForRetransmission maxLen queue
          (currentLen + (heap.get frame).dataLen) heap
        { r with frames := frame :: r.frames }

/-- What the framer does at a stream. -/
inductive Visited where
  /-- Go on with the next stream. -/
  | skipped (stream : SendStream)
  /-- Stop, since there is no room for the header of a frame. -/
  | stopped
  /-- A new frame, and a BLOCKED frame if flow control does not allow more data. -/
  | made (frame : StreamFrame) (stream : SendStream) (blocked : Option BlockedFrame)

/-- Make a frame of the data of a stream. -/
def visit (maxBytes currentLen : ℕ) (v : StreamVisit) : Visited :=
  let s := v.stream
  -- the crypto stream is handled separately
  if s.streamID = 1 then .skipped s
  else
    let frame : StreamFrame :=
      { streamID := s.streamID, finBit := false, dataLenPresent := true, offset := s.writeOffset
        data := [] }
    let frameHeaderBytes := frame.minLength
    if maxBytes < currentLen + frameHeaderBytes then .stopped
    else
      let maxLen := maxBytes - currentLen - frameHeaderBytes
      let lenStreamData := s.lenOfDataForWriting
      let maxLen := if lenStreamData ≠ 0 then min maxLen v.sendWindowSize else maxLen
      if maxLen = 0 then .skipped s
      else
        let (data, s) := if lenStreamData ≠ 0 then s.getDataForWriting maxLen else ([], s)
        let shouldSendFin := s.shouldSendFin
        if data.isEmpty && !shouldSendFin then .skipped s
        else
          let s := if shouldSendFin then s.sentFin else s
          let frame := { frame with finBit := shouldSendFin, data }
          let blocked : Option BlockedFrame :=
            if v.remainingConnectionWindowSize = 0 then some { streamID := 0 }
            else if !frame.finBit && v.sendWindowSize == frame.dataLen then
              some { streamID := s.streamID }
            else none
          .made frame s blocked

/-- The frames that were made of the data of the streams. -/
structure NormalFrames where
  frames : List FrameRef
  streams : List SendStream
  blocked : List BlockedFrame
  heap : FrameHeap

/-- Make frames of the data of the streams, in the order in which they are visited. -/
def maybePopNormalFrames (maxBytes : ℕ) : List StreamVisit → ℕ → FrameHeap → NormalFrames
  | [], _, heap => { frames := [], streams := [], blocked := [], heap }
  | v :: visits, currentLen, heap =>
    match visit maxBytes currentLen v with
    | .stopped =>
      { frames := [], streams := (v :: visits).map (·.stream), blocked := [], heap }
    | .skipped s =>
      let r := maybePopNormalFrames maxBytes visits currentLen heap
      { r with streams := s :: r.streams }
    | .made f s blocked =>
      let (frame, heap) := heap.alloc f
      let currentLen := currentLen + (f.minLength + f.dataLen)
      if currentLen = maxBytes then
        { frames := [frame], streams := s :: visits.map (·.stream), blocked := blocked.toList,
          heap }
      else
        let r := maybePopNormalFrames maxBytes visits currentLen heap
        { frames := frame :: r.frames
          streams := s :: r.streams
          blocked := blocked.toList ++ r.blocked
          heap := r.heap }

/-- The STREAM frames of a packet. -/
structure StreamFrames where
  frames : List FrameRef
  streams : List SendStream
  framer : StreamFramer
  heap : FrameHeap

/-- Pop the STREAM frames of a packet with room for `maxLen` bytes. -/
def popStreamFrames (s : StreamFramer) (maxLen : ℕ) (visits : List StreamVisit)
    (heap : FrameHeap) : StreamFrames :=
  let fs := maybePopFramesForRetransmission maxLen s.retransmissionQueue 0 heap
  let r := maybePopNormalFrames (maxLen - fs.currentLen) visits 0 fs.heap
  { frames := fs.frames ++ r.frames
    streams := r.streams
    framer :=
      { retransmissionQueue := fs.retransmissionQueue
        blockedFrameQueue := s.blockedFrameQueue ++ r.blocked }
    heap := r.heap }

end StreamFramer

end MPQuic
