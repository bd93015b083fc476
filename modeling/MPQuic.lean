import MPQuic.Crypto.CertRoundTrip
import MPQuic.FlowControl.SendWindow
import MPQuic.FlowControl.HonestPeer
import MPQuic.Congestion.OliaOrder
import MPQuic.Congestion.OliaIncrease
import MPQuic.Congestion.CubicLoss
import MPQuic.Wire.Ufloat16
import MPQuic.AckHandler.AckPending
import MPQuic.Stream.Buffered
import MPQuic.AckHandler.Backoff
import MPQuic.Scheduler.HandlerCalls
import MPQuic.Handshake.ServerConfig
import MPQuic.Crypto.NullAEAD
import MPQuic.Handshake.Cookie
import MPQuic.Session.Negotiation
import MPQuic.Packer.SkippedNumbers
import MPQuic.Stream.Writer
import MPQuic.FlowControl.Sending
import MPQuic.Session.Unpack
import MPQuic.Packer.Conservation
import MPQuic.Packer.HeaderRoundTrip
import MPQuic.Scheduler.HeaderLength
import MPQuic.Session.HandleFrames
import MPQuic.Scheduler.RoundRobin
import MPQuic.Scheduler.LowLatency
import MPQuic.Scheduler.Requeue
import MPQuic.Scheduler.Decoding
import MPQuic.FlowControl.Credit
import MPQuic.Streams.Accept
import MPQuic.Streams.Fairness
