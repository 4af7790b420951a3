import Wavr.Run
import Wavr.Dict
import Wavr.Text
import Wavr.Argmax
import Wavr.SlidingWindow
import Wavr.Debounce
import Wavr.Eviction
import Wavr.Nodes
import Wavr.NodeLifecycle
import Wavr.NodeCounters
import Wavr.IpAddress
import Wavr.ArpBlock
import Wavr.UrlSplit
import Wavr.CameraUrl
import Wavr.Ptz
import Wavr.Settings
import Wavr.Identity
import Wavr.SpaceStore
import Wavr.CoreRegistry
import Wavr.Setup
import Wavr.Events
import Wavr.SpatialFrames
import Wavr.Plane
import Wavr.ExactReal
import Wavr.FrameSafety
import Wavr.RadarPlacement
import Wavr.RigidFit
import Wavr.Maths
import Wavr.SpatialAlign
import Wavr.Pinhole
import Wavr.Fusion
import Wavr.FusionCoherence
import Wavr.FusionLatch
import Wavr.FusionRooms
import Wavr.FusionDwell
import Wavr.FusionTargets
import Wavr.FusionTraces
import Wavr.FusionConfidence
import Wavr.FusionOrder
import Wavr.OccupancyHours
import Wavr.OccupancyLog
import Wavr.Watch
import Wavr.WatchDebounce
import Wavr.CoreLeadership
import Wavr.TwoCores
import Wavr.People
import Wavr.Timebase
import Wavr.Devices
import Wavr.Auth
import Wavr.Json
import Wavr.Mmwave
import Wavr.NodeTelemetry
import Wavr.ProviderIngest
import Wavr.Pairing
import Wavr.PairRequests
import Wavr.PairCollecting
import Wavr.DeviceKeys
import Wavr.UwbBroker
import Wavr.MqttTopics
import Wavr.Flips
import Wavr.Rules
import Wavr.RulesEdges
import Wavr.RulesCoverage
import Wavr.Pass
import Wavr.Routines
import Wavr.RoutinesTick
import Wavr.RoutinesStillness
import Wavr.Snapshot
import Wavr.Experience
import Wavr.ExperienceSession
import Wavr.ExperienceScopes
import Wavr.Episode
import Wavr.FallDetect
import Wavr.Stillness
import Wavr.ProviderRuntime
import Wavr.SourceManager
import Wavr.SourceSwitching
import Wavr.DhcpMonitor
import Wavr.DhcpFlood
import Wavr.GatewayMonitor
import Wavr.DiscoveryInbox
import Wavr.NetInventory
import Wavr.ConfigExport
import Wavr.Signal
import Wavr.OccupancyRoutine
import Wavr.Connection
import Wavr.Validation
import Wavr.CalibStore
import Wavr.CalibRefine
import Wavr.FusionRows
import Wavr.FusionReading
import Wavr.FusionHiding
import Wavr.Trace
import Wavr.TraceReplay
import Wavr.TraceSanitize
import Wavr.Framing
import Wavr.MmwaveFraming
import Wavr.Backlog
import Wavr.MmwaveBacklog
import Wavr.Utf8
import Wavr.NativeJson
import Wavr.ClientView
import Wavr.MqttSubscriber
import Wavr.Frigate
import Wavr.Espresense
import Wavr.EspresenseRun
import Wavr.Transaction
import Wavr.DataErasure
import Wavr.Replace
import Wavr.NodeStateFile
import Wavr.PathTemplate
import Wavr.ClientCommands
import Wavr.Checks
import Wavr.HouseMap
import Wavr.HouseMapGate
import Wavr.HouseMapReaders
import Wavr.EvenOdd
import Wavr.RoomTiling
import Wavr.HouseMapUpsert
import Wavr.Decimal
import Wavr.Anchors
import Wavr.AnchorsHonest
import Wavr.AnchorExport
import Wavr.PathSearch
import Wavr.Topology
import Wavr.Segments
import Wavr.RoomGap
import Wavr.Movements
import Wavr.TokenBucket
import Wavr.RateLimiter
import Wavr.RuntimeStatus
import Wavr.Monocular
import Wavr.CalibSession
import Wavr.CalibMerge
import Wavr.LanGuard
import Wavr.ArpTarget
import Wavr.CameraRebind
import Wavr.Bytes
import Wavr.Netbios
import Wavr.Ber
import Wavr.Snmp
import Wavr.OptionList
import Wavr.CNumbers
import Wavr.HttpResponse
import Wavr.HttpChunks
import Wavr.Lines
import Wavr.LanReachability
import Wavr.NetshBlocks
import Wavr.NetshLayout
import Wavr.LanVerdict
import Wavr.Mdns
import Wavr.MdnsPacket
import Wavr.Assistant
import Wavr.AssistantTools
import Wavr.SpatialEvents
import Wavr.SensorRenaming
import Wavr.NodeLink
import Wavr.OtaBundle
import Wavr.Anonymity
import Wavr.Publishing
import Wavr.OtaActivation
