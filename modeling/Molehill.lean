import Molehill.Lib.Transition
import Molehill.Lib.Varint
import Molehill.Lib.SeqSpace
import Molehill.Lib.Bytes
import Molehill.Lib.SelectLoop
import Molehill.Lib.Dialogue
import Molehill.Lib.FrameStream
import Molehill.Lib.Packing
import Molehill.Lib.Smoothing
import Molehill.Lib.OnesComplement
import Molehill.Kcp.Engine
import Molehill.Kcp.Input
import Molehill.Kcp.Flush
import Molehill.Kcp.Codec
import Molehill.Kcp.Frame
import Molehill.Kcp.Numbered
import Molehill.Kcp.SendSide
import Molehill.Kcp.RecvSide
import Molehill.Kcp.Emission
import Molehill.Kcp.Delivery
import Molehill.Kcp.DeadLink
import Molehill.Kcp.RecvPipeline
import Molehill.Kcp.SendWindow
import Molehill.Kcp.ReadPath
import Molehill.Kcp.Drain
import Molehill.Kcp.Pump
import Molehill.Kcp.Segmentation
import Molehill.Kcp.Datagrams
import Molehill.Kcp.MtuBound
import Molehill.Kcp.RoundTrip
import Molehill.Kcp.Backoff
import Molehill.Kcp.Congestion
import Molehill.Kcp.Timers
import Molehill.Kcp.Runs
import Molehill.Kcp.Listener
import Molehill.Lib.Reorder
import Molehill.Stripe.Model
import Molehill.Stripe.Tracking
import Molehill.Stripe.RoundTrip
import Molehill.Stripe.Reassembly
import Molehill.Stripe.Groups
import Molehill.Stripe.Plan
import Molehill.Pool.Placement
import Molehill.Pool.Opens
import Molehill.Pool.Accounting
import Molehill.Lib.LockProgram
import Molehill.Pool.Locks
import Molehill.Mux.Connection
import Molehill.Mux.Moves
import Molehill.Mux.Arrivals
import Molehill.Mux.Streams
import Molehill.Mux.Runs
import Molehill.Mux.Accounts
import Molehill.Mux.Backlog
import Molehill.Mux.Delivery
import Molehill.Mux.Progress
import Molehill.Mux.Windows
import Molehill.Mux.Polls
import Molehill.Mux.Wakers
import Molehill.Mux.Atomic
import Molehill.Lib.Table
import Molehill.Lib.Tally
import Molehill.Lib.TableDiff
import Molehill.Client.Config
import Molehill.Client.Session
import Molehill.Client.Heartbeat
import Molehill.Client.Memory
import Molehill.Client.Encryption
import Molehill.Client.Credentials
import Molehill.Client.Placement
import Molehill.Client.StatusAsks
import Molehill.Server.Tunnel
import Molehill.Transparent.Drain
import Molehill.Transparent.Agreement
import Molehill.Session.Commands
import Molehill.Session.ControlStream
import Molehill.Session.Opening
import Molehill.Wire.UdpTraffic
import Molehill.Wire.IpFrames
import Molehill.Mux.FrameIo
import Molehill.Mux.OverBytes
import Molehill.Mux.Carried
import Molehill.Session.TunnelHealth
import Molehill.Transparent.Packet
import Molehill.Transparent.Checksum
import Molehill.Transparent.PacketForm
import Molehill.Transparent.Endpoint
import Molehill.Transparent.Classification
import Molehill.Transparent.Hub
import Molehill.Client.Pins
import Molehill.Client.Forwarders
import Molehill.Server.Valve
import Molehill.Server.Registration
import Molehill.Server.Routing
import Molehill.Config.Reload
import Molehill.Config.Process
import Molehill.Transparent.Lanes
import Molehill.Transparent.Flow
import Molehill.Transparent.Slots
import Molehill.Transparent.LaneEvidence
import Molehill.Transparent.FlowPlacement
import Molehill.Transparent.Stranded
import Molehill.Client.LaneBudget
import Molehill.Client.Lanes
import Molehill.Client.CarrierEvidence
import Molehill.Pool.Handover
import Molehill.Pool.Drained
import Molehill.Pool.FallThrough
import Molehill.Pool.CarrierChoice
import Molehill.Pool.Probe
import Molehill.Pool.CandidateOrder
import Molehill.Pool.ProbeWindow
import Molehill.Server.UdpPool
import Molehill.Server.UdpCeiling
import Molehill.Server.UdpRetirement
import Molehill.Server.UdpAffinity
import Molehill.Server.StripePairing
import Molehill.Session.Striping
import Molehill.Noise.Stream
