import Pinout.Foundation.Machine
import Pinout.Foundation.History
import Pinout.Foundation.InsertionMap
import Pinout.Foundation.Json
import Pinout.Errors
import Pinout.Halt.Coordinator
import Pinout.Halt.Latch
import Pinout.Halt.Subscribers
import Pinout.Policy.Engine
import Pinout.Policy.Safety
import Pinout.Policy.Reservations
import Pinout.Policy.RateLimits
import Pinout.Journal.Journal
import Pinout.Operation.Types
import Pinout.Operation.IdempotencyStore
import Pinout.Operation.Manager
import Pinout.Operation.Steps
import Pinout.Operation.Registry
import Pinout.Operation.Terminal
import Pinout.Operation.Waiters
import Pinout.Operation.Dedupe
import Pinout.Operation.Hydrate
import Pinout.Operation.Chronicle
import Pinout.Operation.Recovery
import Pinout.Operation.Invocations
import Pinout.Operation.Restart
import Pinout.Operation.Durability
import Pinout.Leasing.LeaseManager
import Pinout.Leasing.Steps
import Pinout.Leasing.Exclusion
import Pinout.Daemon.FailSafeMonitor
import Pinout.Daemon.LeaseExpiry
import Pinout.Daemon.Deadman
import Pinout.Foundation.Forest
import Pinout.Graph.DeviceGraph
import Pinout.Graph.Composition
import Pinout.Foundation.Utf8
import Pinout.Foundation.Lines
import Pinout.Protocol.LineReader
import Pinout.Protocol.Framing
import Pinout.Protocol.Messages
import Pinout.Protocol.RoundTrip
import Pinout.Protocol.Session
import Pinout.Protocol.Correlation
import Pinout.Protocol.Resilience
import Pinout.Runtime.Runtime
import Pinout.Daemon.Gating
import Pinout.Daemon.InvokeRoute
import Pinout.Daemon.Actuation
import Pinout.Foundation.Bytes
import Pinout.Foundation.Packets
import Pinout.Foundation.Mailbox
import Pinout.Rtde.Wire
import Pinout.Rtde.Client
import Pinout.Rtde.Stream
import Pinout.Mqtt.Wire
import Pinout.Mqtt.Client
import Pinout.Mqtt.Messages
import Pinout.Foundation.Bitmap
import Pinout.Modbus.Wire
import Pinout.Modbus.Simulator
import Pinout.Modbus.Readback
import Pinout.Modbus.Exchange
import Pinout.Modbus.RtuClient
import Pinout.Modbus.TcpClient
import Pinout.Modbus.Honesty
import Pinout.Modbus.Reassembly
import Pinout.Scpi.Parser
import Pinout.Scpi.Client
import Pinout.Foundation.Entries
import Pinout.Scpi.Correlation
import Pinout.Grbl.Client
import Pinout.Grbl.Correlation
import Pinout.Runtime.SafeState
import Pinout.Connectors.Pipeline
import Pinout.Connectors.Lifecycle
import Pinout.ModuleHost.Process
import Pinout.ModuleHost.Supervision
import Pinout.ModuleHost.Isolation
import Pinout.Foundation.FileTree
import Pinout.ModuleHost.Integrity
import Pinout.ModuleHost.TamperEvidence
import Pinout.Awareness.Registry
import Pinout.Awareness.Service
import Pinout.Awareness.Enrolment
import Pinout.Foundation.JsonText
import Pinout.ModuleHost.Canonical
import Pinout.Modules.Manifest
import Pinout.Registry.Publish
import Pinout.Registry.RoundTrip
import Pinout.Generator.CapabilitySafety
import Pinout.Generator.ConnectorTemplates
import Pinout.Generator.DeclarativePolicies
import Pinout.Runtime.ProtocolBackend
import Pinout.Runtime.ArmedState
import Pinout.Ur.Replies
import Pinout.Ur.DashboardClient
import Pinout.Ur.Correlation
import Pinout.Ur.Backend
import Pinout.Ur.StopFinal
import Pinout.Ur.MotionLimits
import Pinout.MicroPython.PinState
import Pinout.Esp32Bridge.PwmChannels
import Pinout.Ros2.Sidecar
import Pinout.Ros2.StopHonesty
import Pinout.Rap.PendingStore
import Pinout.Rap.Adapter
import Pinout.Rap.Coherence
import Pinout.Rap.Recovery
import Pinout.Libgpiod.Backend
import Pinout.Libgpiod.Sound
import Pinout.Libgpiod.SafeState
import Pinout.Policy.Scoping
import Pinout.Policy.Merging
import Pinout.Foundation.Recency
import Pinout.Operation.LeastRecent
import Pinout.Operation.Retention
import Pinout.Operation.Reachable
import Pinout.Operation.Deadlines
import Pinout.Operation.Tombstones
import Pinout.Daemon.FailSafeRetry
import Pinout.Foundation.Separator
import Pinout.Mcp.AgentTools
import Pinout.Mcp.Routing
import Pinout.Rap.Threads
import Pinout.Rap.ThreadLedger
import Pinout.Rap.Closing
import Pinout.Rap.ThreadSafety
import Pinout.Foundation.Fallible
import Pinout.PanTilt.Types
import Pinout.PanTilt.Agreement
import Pinout.Schema
import Pinout.Foundation.RigidMotion
import Pinout.Frames.Frames
import Pinout.Frames.Motion
import Pinout.Foundation.Route
import Pinout.Frames.Chains
import Pinout.Frames.Transport
import Pinout.Stream.Delivery
import Pinout.Stream.Readers
import Pinout.Runtime.Evidence
import Pinout.Daemon.RequestKeys
import Pinout.Journal.Secrets
import Pinout.Foundation.JsonReader
import Pinout.Foundation.Utf8Cut
import Pinout.Journal.FileStorage
import Pinout.Daemon.LeaseRequests
import Pinout.Foundation.CyclicCheck
import Pinout.Modbus.BurstErrors
import Pinout.Modbus.Truncation
import Pinout.Modbus.Transactions
import Pinout.Modbus.Chunks
import Pinout.Firmata.DigitalWrite
import Pinout.Mqtt.Stalling
import Pinout.Mqtt.Topics
import Pinout.Foundation.ByteScan
import Pinout.Scpi.Headers
import Pinout.Scpi.ProgramMessages
import Pinout.Foundation.NumberPrinting
import Pinout.Scpi.Mnemonics
import Pinout.Scpi.QuotedStrings
import Pinout.Grbl.NumberWords
import Pinout.Policy.ModulePolicies
import Pinout.Generator.Provenance
import Pinout.Registry.TrustVerdicts
import Pinout.CoffeeMachine.Brew
import Pinout.PanTilt.Overlap
import Pinout.Lamp.MaxOnTime
import Pinout.Registry.Install
import Pinout.Connectors.Uninstall
