import Dquic.Basic
import Dquic.Lib.System
import Dquic.Lib.Deque
import Dquic.Lib.Paint
import Dquic.Lib.Sparse
import Dquic.Lib.Ledger
import Dquic.Lib.Parser
import Dquic.Frame.Stream
import Dquic.Frame.Errors
import Dquic.Send.BufMap
import Dquic.Send.Scan
import Dquic.Send.Acknowledge
import Dquic.Send.Loss
import Dquic.Send.Pick
import Dquic.Send.SendBuf
import Dquic.Send.Buffered
import Dquic.Send.ColorMachine
import Dquic.Send.Fresh
import Dquic.Send.Sender
import Dquic.Send.HandOut
import Dquic.Send.Tracked
import Dquic.Send.SenderRuns
import Dquic.Recv.RecvBuf
import Dquic.Recv.Reassembly
import Dquic.Recv.Arrivals
import Dquic.Recv.Recver
import Dquic.Recv.RecverRuns
import Dquic.Recv.Accounting
import Dquic.Link.Numbers
import Dquic.Link.Streams
import Dquic.Link.Transfer
import Dquic.Flow.Controller
import Dquic.Flow.Connection
import Dquic.Packet.Number
import Dquic.Packet.Sizes
import Dquic.Packet.Header
import Dquic.Packet.Reader
import Dquic.Packet.Assemble
import Dquic.Packet.Window
import Dquic.Packet.Encrypt
import Dquic.Frame.RoundTrip
import Dquic.Frame.Crypto
import Dquic.Packet.Tail
import Dquic.Send.Packages
import Dquic.Send.Reset
import Dquic.Send.Dumping
import Dquic.Space.Assemble
import Dquic.Space.Layout
import Dquic.Space.Lengthless
import Dquic.Journal.IndexDeque
import Dquic.Journal.Sent
import Dquic.Journal.Records
import Dquic.Journal.Kept
import Dquic.Journal.Fates
import Dquic.Journal.Steps
import Dquic.Journal.SentRuns
import Dquic.Journal.PeerAcks
import Dquic.Journal.RcvdRuns
import Dquic.Journal.RcvdAck
import Dquic.Journal.AckTruth
import Dquic.Journal.Truncation
import Dquic.Journal.AckExact
import Dquic.Tls.Record
import Dquic.Tls.Resumption
import Dquic.Tls.Connections
import Dquic.Tls.Identity
import Dquic.Tls.Client
import Dquic.Tls.Isolation
import Dquic.Lib.Labels
import Dquic.Keys.Short
import Dquic.Keys.Ring
import Dquic.Keys.Phase
import Dquic.Keys.Sealing
import Dquic.Path.Amplification
import Dquic.Congestion.Records
import Dquic.Congestion.Packets
import Dquic.Congestion.Accounting
import Dquic.Congestion.Runs
import Dquic.Streams.Sid
import Dquic.Streams.Limits
import Dquic.Streams.Strategies
import Dquic.Cid.Local
import Dquic.Recv.Delivery
import Dquic.Streams.DataStreams
import Dquic.Streams.Halves
import Dquic.Streams.Lifecycle
import Dquic.Streams.Invariant
import Dquic.Streams.DataRuns
import Dquic.Streams.Credit
import Dquic.Packet.Package
import Dquic.Path.Terminator
import Dquic.Path.Heartbeat
import Dquic.Lib.Table
import Dquic.Net.Addr
import Dquic.Punch.Scheduler
import Dquic.Punch.Predictor
import Dquic.Punch.QuotaRuns
import Dquic.Net.Pathway
import Dquic.Datagram.Stun
import Dquic.Datagram.Demux
import Dquic.Datagram.RoundTrip
import Dquic.Param.Parameters
import Dquic.Param.Codec
import Dquic.Param.Reading
import Dquic.Param.RoundTrip
import Dquic.Congestion.Timer
import Dquic.Congestion.TimerRuns
import Dquic.Congestion.Backoff
import Dquic.Space.FullSize
import Dquic.Packet.Seal
import Dquic.Space.Coalesce
import Dquic.Lib.Rotation
import Dquic.Streams.Fair
import Dquic.Lib.Window
import Dquic.Space.Progress
