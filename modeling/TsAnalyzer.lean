import TsAnalyzer.Sync.Chunking
import TsAnalyzer.Pipeline.ReusedBuffer
import TsAnalyzer.Pipeline.Timestamps
import TsAnalyzer.Snapshot.Commit
import TsAnalyzer.Shaper.WrapTransparency
import TsAnalyzer.Shaper.TransportBuffer
import TsAnalyzer.Queue.Spsc
import TsAnalyzer.Queue.Mpmc
import TsAnalyzer.Server.Scheduling
import TsAnalyzer.Alarm.Aggregation
import TsAnalyzer.Webhook.Delivery
import TsAnalyzer.Shaper.LeakyBucket
import TsAnalyzer.Monitor.Streams
import TsAnalyzer.Monitor.SignalLock
import TsAnalyzer.Shaper.Accounting
import TsAnalyzer.Shaper.ConstantRate
import TsAnalyzer.Shaper.Isolation
import TsAnalyzer.Shaper.MediaLoss
import TsAnalyzer.Shaper.PublicApi
import TsAnalyzer.Shaper.PsiPriority
import TsAnalyzer.Hls.Ingest
import TsAnalyzer.Failover.Marking
import TsAnalyzer.Monitor.ActivePids
import TsAnalyzer.Packet.Recovery
import TsAnalyzer.Pipeline.Feeding
import TsAnalyzer.Auth.Bearer
import TsAnalyzer.Auth.RateLimit
import TsAnalyzer.Stream.Balance
import TsAnalyzer.Nalu.Effort
import TsAnalyzer.Psi.Checksum
import TsAnalyzer.Psi.Reads
import TsAnalyzer.Essence.Pictures
import TsAnalyzer.Essence.Prediction
import TsAnalyzer.Essence.DecodeOnce
import TsAnalyzer.Essence.Packetisation
import TsAnalyzer.Clock.Regression
import TsAnalyzer.Clock.TimeAxis
import TsAnalyzer.Clock.RepetitionCount
import TsAnalyzer.Clock.Inspector
import TsAnalyzer.Clock.PcrClock
import TsAnalyzer.Monitor.PtsAlarm
import TsAnalyzer.Monitor.AlertMask
import TsAnalyzer.Monitor.ContinuityAlarm
import TsAnalyzer.Rate.Window
import TsAnalyzer.Server.Connections
import TsAnalyzer.Packet.PesHeader
import TsAnalyzer.Shaper.PcrRoundTrip
import TsAnalyzer.Shaper.Epoch
import TsAnalyzer.Failover.Hysteresis
import TsAnalyzer.Stream.Service
import TsAnalyzer.Shaper.PcrDeadline
import TsAnalyzer.Simd.Kernels
import TsAnalyzer.Util.MemPool
import TsAnalyzer.Util.Format
import TsAnalyzer.Pacer.Tsp
