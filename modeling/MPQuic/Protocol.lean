import Mathlib.Algebra.Group.Nat.Defs
import Mathlib.Data.Nat.Basic
import Mathlib.Tactic.Common

/-!
# Protocol constants and number types

The limits of `internal/protocol`. The source's `ByteCount`, `PacketNumber` (`uint64`) and
`StreamID` (`uint32`) are naturals here, and so are times and durations, in nanoseconds. An
operation that can leave the 64-bit range on inputs the code accepts is written with `uint64Add`
or `uint64Sub`, and one that can leave the 32-bit range with `uint32Add` or `uint32Sub`.
-/

namespace MPQuic

/-- The identifier of a path. -/
abbrev PathID := UInt8

/-- Whether a session is that of a server or of a client. -/
inductive Perspective where
  | server
  | client
  deriving DecidableEq

/-- The other side of a connection. -/
def Perspective.peer : Perspective → Perspective
  | .server => .client
  | .client => .server

/-- The range of `uint64`. -/
def uint64Size : ℕ := 2 ^ 64

/-- `a + b` on `uint64`. -/
def uint64Add (a b : ℕ) : ℕ := (a + b) % uint64Size

/-- `a - b` on `uint64`. -/
def uint64Sub (a b : ℕ) : ℕ := (a + (uint64Size - b % uint64Size)) % uint64Size

/-- `a * b` on `uint64`. -/
def uint64Mul (a b : ℕ) : ℕ := (a * b) % uint64Size

theorem uint64Add_eq {a b : ℕ} (h : a + b < uint64Size) : uint64Add a b = a + b :=
  Nat.mod_eq_of_lt h

theorem uint64Sub_eq {a b : ℕ} (ha : a < uint64Size) (hb : b ≤ a) : uint64Sub a b = a - b := by
  unfold uint64Sub uint64Size at *
  omega

theorem uint64Mul_eq {a b : ℕ} (h : a * b < uint64Size) : uint64Mul a b = a * b :=
  Nat.mod_eq_of_lt h

/-- The range of `uint32`. -/
def uint32Size : ℕ := 2 ^ 32

/-- `a + b` on `uint32`. -/
def uint32Add (a b : ℕ) : ℕ := (a + b) % uint32Size

/-- `a - b` on `uint32`. -/
def uint32Sub (a b : ℕ) : ℕ := (a + (uint32Size - b % uint32Size)) % uint32Size

theorem uint32Add_eq {a b : ℕ} (h : a + b < uint32Size) : uint32Add a b = a + b :=
  Nat.mod_eq_of_lt h

theorem uint32Sub_eq {a b : ℕ} (ha : a < uint32Size) (hb : b ≤ a) : uint32Sub a b = a - b := by
  unfold uint32Sub uint32Size at *
  omega

/-- The identifier of the path the connection was opened on. -/
def initialPathID : PathID := 0

/-- The maximum value of a `ByteCount`. -/
def maxByteCount : ℕ := 2 ^ 64 - 1

/-- The default stream-level flow control window for sending data (16 kB). -/
def initialStreamFlowControlWindow : ℕ := 2 ^ 14

/-- The default connection-level flow control window for sending data (16 kB). -/
def initialConnectionFlowControlWindow : ℕ := 2 ^ 14

/-- The stream-level flow control window for receiving data (32 kB). -/
def receiveStreamFlowControlWindow : ℕ := 32 * 2 ^ 10

/-- The connection-level flow control window for receiving data (48 kB). -/
def receiveConnectionFlowControlWindow : ℕ := 48 * 2 ^ 10

/-- The maximum packet size, including the public header, used for sending packets. -/
def maxPacketSize : ℕ := 1350

/-- The default for the maximum congestion window, in packets. -/
def defaultMaxCongestionWindow : ℕ := 2500

/-- The number of sent packets saved for later retransmission. -/
def maxTrackedSentPackets : ℕ := 2 * defaultMaxCongestionWindow

/-- The number of skipped packet numbers the sent packet handler keeps track of. -/
def maxTrackedSkippedPackets : ℕ := 10

/-- The number of non-retransmittable packets that are sent in a row. -/
def maxNonRetransmittablePackets : ℕ := 19

/-- The number of ACK ranges the received packet history keeps track of. -/
def maxTrackedReceivedAckRanges : ℕ := defaultMaxCongestionWindow

/-- The maximum delay that can be applied to an ACK for a retransmittable packet (25 ms). -/
def ackSendDelay : ℕ := 25 * 10 ^ 6

/-- The number of packets that can be received before an ACK frame is sent. -/
def maxPacketsReceivedBeforeAckSend : ℕ := 20

/-- The number of retransmittable packets that an ACK is sent for. -/
def retransmittablePacketsBeforeAck : ℕ := 2

/-- The number of gaps between received STREAM frames a stream keeps track of. -/
def maxStreamFrameSorterGaps : ℕ := 2500

/-- The maximum value accepted for the number of streams per connection. -/
def maxStreamsPerConnection : ℕ := 100

/-- The maximum value accepted for the incoming number of dynamic streams per connection. -/
def maxIncomingDynamicStreamsPerConnection : ℕ := 100

/-- The slack the peer is allowed for the number of streams per connection. -/
def maxStreamsMinimumIncrement : ℕ := 10

/-- How far below the highest stream a stream may be opened. -/
def maxNewStreamIDDelta : ℕ := 4 * maxStreamsPerConnection

end MPQuic
