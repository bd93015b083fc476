import MPQuic.Wire.Frame

/-!
# Sent packets

What the sent packet handler keeps of a packet (`ackhandler/packet.go`), and which of its frames
are retransmitted (`ackhandler/retransmittable.go`) or copied to other paths.
-/

namespace MPQuic

/-- The encryption level of a packet. -/
inductive EncryptionLevel where
  | unspecified
  | unencrypted
  | secure
  | forwardSecure
  deriving DecidableEq

namespace Frame

/-- Whether the frame should be retransmitted. -/
def isFrameRetransmittable : Frame → Bool
  | stopWaiting _ => false
  | ack _ => false
  | _ => true

/-- Whether the frame is of a kind that is duplicated on other paths. -/
def isDuplicable : Frame → Bool
  | stream _ => true
  | rstStream _ => true
  | windowUpdate _ => true
  | blocked _ => true
  | ping => true
  | addAddress _ => true
  | paths _ => true
  | goaway _ => true
  | _ => false

/-- The STREAM frame that the frame is a reference to. -/
def streamRef? : Frame → Option FrameRef
  | stream ref => some ref
  | _ => none

end Frame

/-- The frames without those that are not retransmitted. -/
def stripNonRetransmittableFrames (fs : List Frame) : List Frame :=
  fs.filter Frame.isFrameRetransmittable

/-- The references to STREAM frames in a list of frames. -/
def streamRefs (fs : List Frame) : List FrameRef := fs.filterMap Frame.streamRef?

/-- A packet. -/
structure Packet where
  packetNumber : ℕ
  frames : List Frame
  length : ℕ
  encryptionLevel : EncryptionLevel
  sendTime : ℕ
  deriving DecidableEq

namespace Packet

/-- All the frames for retransmission. -/
def getFramesForRetransmission (p : Packet) : List Frame :=
  p.frames.filter Frame.isFrameRetransmittable

/-- Whether the packet holds a frame of a kind that is retransmitted. -/
def isRetransmittable (p : Packet) : Bool := p.frames.any Frame.isDuplicable

/-- The frames that can be duplicated, `none` if there are none. -/
def getCopyFrames (p : Packet) : Option (List Frame) :=
  let copyFrames := p.frames.filter Frame.isDuplicable
  if copyFrames.isEmpty then none else some copyFrames

/-- Whether all frames of the packet were duplicated, so that the packet can be dropped when a
duplicate is acknowledged. -/
def isDupDropable (p : Packet) : Bool := p.frames.all Frame.isDuplicable

end Packet

/-- STREAM frames are retransmitted and copied: no filter on frames loses one. -/
theorem streamRefs_filter {q : Frame → Bool} (hq : ∀ ref, q (.stream ref) = true)
    (fs : List Frame) : streamRefs (fs.filter q) = streamRefs fs := by
  induction fs with
  | nil => rfl
  | cons f fs ih =>
    rw [List.filter_cons]
    split_ifs with hf
    · rw [streamRefs, streamRefs, List.filterMap_cons, List.filterMap_cons]
      rw [streamRefs, streamRefs] at ih
      rw [ih]
    · -- a frame that is filtered out is not a STREAM frame
      cases f with
      | stream ref => exact absurd (hq ref) hf
      | _ => exact ih

/-- A packet keeps its STREAM frames when it is handed to the sent packet handler. -/
theorem streamRefs_strip (fs : List Frame) :
    streamRefs (stripNonRetransmittableFrames fs) = streamRefs fs :=
  streamRefs_filter (fun _ => rfl) fs

/-- All STREAM frames of a packet are copied. -/
theorem streamRefs_of_getCopyFrames {p : Packet} {fs : List Frame}
    (h : p.getCopyFrames = some fs) : streamRefs fs = streamRefs p.frames := by
  rw [Packet.getCopyFrames] at h
  split_ifs at h
  obtain rfl := Option.some.inj h
  exact streamRefs_filter (fun _ => rfl) p.frames

end MPQuic
