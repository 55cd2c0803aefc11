import Ipfusch.Machine
import Ipfusch.Server
import Ipfusch.Handshake
import Ipfusch.Framing
import Ipfusch.UdpServer
import Ipfusch.Engine
import Ipfusch.Intervals
import Ipfusch.Ledger
import Ipfusch.TcpStream
import Ipfusch.Accumulators
import Ipfusch.EchoLoop
import Ipfusch.TcpSystem
import Ipfusch.StopAndWait
import Ipfusch.UdpSystem
import Ipfusch.QuicSystem
import Ipfusch.KeyedFold
import Ipfusch.Statistics
import Ipfusch.Benchmark
import Ipfusch.HeaderCodec
import Ipfusch.FrameFormat
import Ipfusch.UdpFormat
import Ipfusch.UdpStream
import Ipfusch.Reordering
import Ipfusch.Pacer
import Ipfusch.QuicStream
import Ipfusch.Pacing
import Ipfusch.OrderStat
import Ipfusch.Quantiles
import Ipfusch.Startup
import Ipfusch.LatencyBuckets
import Ipfusch.Ranking
import Ipfusch.Sweep
import Ipfusch.Arguments
import Ipfusch.Amplification
import Ipfusch.SessionEnd
import Ipfusch.Dashboard
import Ipfusch.Turnstile
import Ipfusch.Clients
import Ipfusch.Fleet
import Ipfusch.Pipe
import Ipfusch.RunSystem
import Ipfusch.StreamReports
import Ipfusch.TcpRun
import Ipfusch.QuicEcho
import Ipfusch.QuicRun
import Ipfusch.UdpExchange
import Ipfusch.UdpFleet
import Ipfusch.UdpRun
import Ipfusch.ReportRate
import Ipfusch.TcpProgress
import Ipfusch.DashboardRun
import Ipfusch.ProgressBar
import Ipfusch.RunReturns
import Ipfusch.TcpReturns
import Ipfusch.WaitReturns
import Ipfusch.Dialogue
import Ipfusch.HandshakeRun
import Ipfusch.SessionRun
