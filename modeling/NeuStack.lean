import NeuStack.GuardedRun
import NeuStack.SerialNumber
import NeuStack.Circular
import NeuStack.Table
import NeuStack.Growing
import NeuStack.TCPTypes
import NeuStack.StreamBuffer
import NeuStack.CongestionControl
import NeuStack.TCB
import NeuStack.Transmit
import NeuStack.Acknowledge
import NeuStack.ConnMoves
import NeuStack.Shape
import NeuStack.ConnectionManager
import NeuStack.WellFormed
import NeuStack.ManagerMoves
import NeuStack.MovesWellFormed
import NeuStack.ManagerPaths
import NeuStack.Listeners
import NeuStack.ManagerEvents
import NeuStack.ConnectionTable
import NeuStack.ActiveGauge
import NeuStack.OnesComplement
import NeuStack.Scan
import NeuStack.NetworkOrder
import NeuStack.Checksum
import NeuStack.IPv4
import NeuStack.TCPCodec
import NeuStack.CodecRoundTrip
import NeuStack.ICMP
import NeuStack.IPv4Layer
import NeuStack.Delivery
import NeuStack.PacketEvent
import NeuStack.PacketViews
import NeuStack.RateLimiter
import NeuStack.RuleEngine
import NeuStack.FirewallAI
import NeuStack.FirewallEngine
import NeuStack.FirewallRun
import NeuStack.PacketInspection
import NeuStack.Whitelist
import NeuStack.ShadowMode
import NeuStack.Deadlines
import NeuStack.TimeWaitMoves
import NeuStack.TimeWaitEffects
import NeuStack.TimeWait
import NeuStack.TimeWaitHeld
import NeuStack.Tiling
import NeuStack.SendStream
import NeuStack.SendSide
import NeuStack.SendFunctions
import NeuStack.SendKept
import NeuStack.SendManager
import NeuStack.SendTiling
import NeuStack.WrapRing
import NeuStack.SPSCQueue
import NeuStack.XdpRing
import NeuStack.LinuxAFXDPDevice
import NeuStack.UmemFrames
import NeuStack.IcmpErrors
import NeuStack.DNSMessages
import NeuStack.DNSClient
import NeuStack.DNSAnswers
import NeuStack.Delimited
import NeuStack.Resumable
import NeuStack.ByteStrings
import NeuStack.HttpTypes
import NeuStack.HttpParser
import NeuStack.HttpFraming
import NeuStack.HttpReceived
import NeuStack.StreamLayer
import NeuStack.HttpClient
import NeuStack.MessageParser
import NeuStack.HttpRequests
import NeuStack.HttpServer
import NeuStack.HttpDispatch
import NeuStack.Json
import NeuStack.MetricsRegistry
import NeuStack.JsonBuilder
import NeuStack.JsonExporter
import NeuStack.JsonExport
import NeuStack.NetworkAgent
import NeuStack.InstalledControllers
import NeuStack.AIActions
import NeuStack.TCBInvariants
import NeuStack.Retransmission
import NeuStack.Timeouts
import NeuStack.AdvertisedWindow
import NeuStack.ResetAcceptance
import NeuStack.Reassembly
import NeuStack.ReceiveStream
import NeuStack.OutOfOrderStorage
import NeuStack.EveryNth
import NeuStack.QuietMoves
import NeuStack.AckHistory
import NeuStack.FastRetransmit
import NeuStack.Decimal
import NeuStack.SixDigits
import NeuStack.Exposition
import NeuStack.PrometheusExporter
import NeuStack.PrometheusExport
import NeuStack.RenoWindow
import NeuStack.RttEstimator
import NeuStack.TokenBucket
import NeuStack.RateLimiterChecks
import NeuStack.DoublyLinked
import NeuStack.LruOrder
import NeuStack.EphemeralPorts
import NeuStack.AcceptCallbacks
import NeuStack.BytesInFlight
import NeuStack.SendWindow
import NeuStack.DeferredClose
import NeuStack.PeriodReports
import NeuStack.SecurityCollection
import NeuStack.RttSamples
import NeuStack.SendSteps
import NeuStack.Measurement
import NeuStack.KarnRule
import NeuStack.RulePriority
import NeuStack.FirewallAccounting
import NeuStack.DetectorStatistics
import NeuStack.Escalation
import NeuStack.AgentPolicy
import NeuStack.SlidingWindow
import NeuStack.FillWatermark
import NeuStack.UmemAddressing
import NeuStack.StreamQueue
import NeuStack.ChecksumLaws
import NeuStack.TimerSweep
import NeuStack.UnacceptableAcks
import NeuStack.UdpExchange
import NeuStack.DNSParsing
import NeuStack.DNSNames
import NeuStack.HttpRetained
import NeuStack.HttpSegmentation
import NeuStack.HttpMemory
import NeuStack.HttpDelivery
import NeuStack.HttpDelivered
import NeuStack.HttpClosing
import NeuStack.ChunkedCoding
import NeuStack.HttpStreaming
import NeuStack.HttpClientSending
import NeuStack.HttpProduced
import NeuStack.HttpHeaderLines
import NeuStack.HttpReparsing
import NeuStack.MemoryPool
import NeuStack.OwningMap
import NeuStack.RegistryReferences
import NeuStack.SampleExporter
import NeuStack.CounterReads
import NeuStack.HistogramSnapshots
import NeuStack.Percentiles
import NeuStack.CumulativeHistogram
import NeuStack.PercentileAgreement
import NeuStack.LexicalPath
import NeuStack.StaticFiles
import NeuStack.CubicWindow
import NeuStack.HttpResponses
import NeuStack.RequestLimits
import NeuStack.HeaderCase
import NeuStack.RecasedRequests
import NeuStack.FoldedConnections
import NeuStack.RecasedConnections
import NeuStack.CheckedSteps
import NeuStack.CheckedControllers
import NeuStack.CheckedConnections
import NeuStack.CheckedManager
import NeuStack.NonzeroDivisors
import NeuStack.CheckedRuns
import NeuStack.RecentSamples
import NeuStack.SampleHistory
import NeuStack.ConnectOutcome
import NeuStack.OneWayClose
import NeuStack.AnsweringAcks
import NeuStack.AnsweredSegments
import NeuStack.ConnHistories
import NeuStack.QuotedStream
import NeuStack.BypassedReceivers
import NeuStack.EndToEnd
import NeuStack.SynNumbers
import NeuStack.HeardStream
import NeuStack.SendProgress
import NeuStack.HttpExchange
