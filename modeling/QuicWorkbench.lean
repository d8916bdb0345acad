import QuicWorkbench.Config.Network
import QuicWorkbench.Config.Quinn
import QuicWorkbench.Lib.Along
import QuicWorkbench.Lib.InternetChecksum
import QuicWorkbench.Lib.Lockstep
import QuicWorkbench.Lib.Machine
import QuicWorkbench.Lib.MaxHeap
import QuicWorkbench.Lib.Progress
import QuicWorkbench.Lib.Rounds
import QuicWorkbench.Lib.SlidingWindow
import QuicWorkbench.Lib.StableSort
import QuicWorkbench.Lib.Switches
import QuicWorkbench.Lib.Tokens
import QuicWorkbench.Lib.Tracked
import QuicWorkbench.Lib.Travel
import QuicWorkbench.Network.Application
import QuicWorkbench.Network.Connectivity
import QuicWorkbench.Network.Initialize
import QuicWorkbench.Pcapng
import QuicWorkbench.Proofs.Anomalies
import QuicWorkbench.Proofs.Bandwidth
import QuicWorkbench.Proofs.BandwidthWindow
import QuicWorkbench.Proofs.Buffer
import QuicWorkbench.Proofs.BufferClear
import QuicWorkbench.Proofs.Cidr
import QuicWorkbench.Proofs.Connectivity
import QuicWorkbench.Proofs.Created
import QuicWorkbench.Proofs.Delivery
import QuicWorkbench.Proofs.EcnCc
import QuicWorkbench.Proofs.Fifo
import QuicWorkbench.Proofs.Handled
import QuicWorkbench.Proofs.Handouts
import QuicWorkbench.Proofs.Holdings
import QuicWorkbench.Proofs.Hops
import QuicWorkbench.Proofs.LinkDown
import QuicWorkbench.Proofs.LinkUp
import QuicWorkbench.Proofs.Metering
import QuicWorkbench.Proofs.NeverPanics
import QuicWorkbench.Proofs.NodeUp
import QuicWorkbench.Proofs.Occupancy
import QuicWorkbench.Proofs.Offline
import QuicWorkbench.Proofs.OnePlace
import QuicWorkbench.Proofs.Overtaking
import QuicWorkbench.Proofs.PcapBytes
import QuicWorkbench.Proofs.PcapPackets
import QuicWorkbench.Proofs.Ping
import QuicWorkbench.Proofs.RecvSlots
import QuicWorkbench.Proofs.Replay
import QuicWorkbench.Proofs.ReplayLog
import QuicWorkbench.Proofs.Replayable
import QuicWorkbench.Proofs.Reports
import QuicWorkbench.Proofs.Requests
import QuicWorkbench.Proofs.Rest
import QuicWorkbench.Proofs.Routes
import QuicWorkbench.Proofs.Secrets
import QuicWorkbench.Proofs.SecretsBlock
import QuicWorkbench.Proofs.Sends
import QuicWorkbench.Proofs.SetUp
import QuicWorkbench.Proofs.Statuses
import QuicWorkbench.Proofs.Tables
import QuicWorkbench.Proofs.Throughput
import QuicWorkbench.Proofs.ThroughputRuns
import QuicWorkbench.Proofs.Topology
import QuicWorkbench.Proofs.TransportConfig
import QuicWorkbench.Proofs.UdpChecksum
import QuicWorkbench.Proofs.Unroutable
import QuicWorkbench.Proofs.UpNotifiers
import QuicWorkbench.Proofs.Waiting
import QuicWorkbench.Proofs.Workload
import QuicWorkbench.Quic.Requests
import QuicWorkbench.Quic.Simulation
import QuicWorkbench.QuinnExtensions.EcnCc
import QuicWorkbench.QuinnExtensions.NoCc
import QuicWorkbench.QuinnInterop
import QuicWorkbench.Reports
import QuicWorkbench.Tracing.SimulationStepper
import QuicWorkbench.Tracing.Verifier
import QuicWorkbench.Udp.Ping
import QuicWorkbench.Udp.Throughput
