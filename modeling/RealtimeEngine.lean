import RealtimeEngine.Basic
import RealtimeEngine.UnorderedIndex
import RealtimeEngine.ResourceTrace
import RealtimeEngine.RoomRegistry
import RealtimeEngine.RoomRegistryRefinement
import RealtimeEngine.Protocol
import RealtimeEngine.ProtocolRouter
import RealtimeEngine.RouterAnswers
import RealtimeEngine.RouterIsolation
import RealtimeEngine.RouterPrivacy
import RealtimeEngine.Interleaving
import RealtimeEngine.FreeList
import RealtimeEngine.BigEndian
import RealtimeEngine.BitString
import RealtimeEngine.Base64
import RealtimeEngine.SecureHash
import RealtimeEngine.Utf8
import RealtimeEngine.Utf8Scan
import RealtimeEngine.TextSearch
import RealtimeEngine.TextSplit
import RealtimeEngine.AcceptKey
import RealtimeEngine.WebSocketKey
import RealtimeEngine.Sha1Standard
import RealtimeEngine.Handshake
import RealtimeEngine.HandshakeGrammar
import RealtimeEngine.Detection
import RealtimeEngine.WebSocketDecoder
import RealtimeEngine.WebSocketGrammar
import RealtimeEngine.WebSocketInvariant
import RealtimeEngine.StreamConsumer
import RealtimeEngine.WebSocketStream
import RealtimeEngine.RouterSteps
import RealtimeEngine.RouterDisconnect
import RealtimeEngine.Outbound
import RealtimeEngine.OutboundPipeline
import RealtimeEngine.OutboundProgress
import RealtimeEngine.OutboundStream
import RealtimeEngine.OutboundAccounting
import RealtimeEngine.Lifecycle
import RealtimeEngine.LifecycleOperations
import RealtimeEngine.LifecycleSessions
import RealtimeEngine.LifecycleConnections
import RealtimeEngine.LifecycleCallbacks
import RealtimeEngine.LifecycleShutdown
import RealtimeEngine.Framing
import RealtimeEngine.FramingStream
import RealtimeEngine.ServerItems
import RealtimeEngine.FrameRoundTrip
import RealtimeEngine.ServerSteps
import RealtimeEngine.ServerFrames
import RealtimeEngine.ServerOutbound
import RealtimeEngine.ServerReaders
import RealtimeEngine.ServerGreeting
import RealtimeEngine.ServerInbound
import RealtimeEngine.ServerState
import RealtimeEngine.ServerRetained
import RealtimeEngine.SessionInput
import RealtimeEngine.SessionStreams
import RealtimeEngine.SessionEnding
import RealtimeEngine.SessionDecision
import RealtimeEngine.Segmentation
import RealtimeEngine.MainOptions
import RealtimeEngine.MainServices
import RealtimeEngine.MessageLimit
import RealtimeEngine.EngineSettled
import RealtimeEngine.EngineSteps
import RealtimeEngine.EngineInput
import RealtimeEngine.PublishOrder
import RealtimeEngine.SocketOwnership
import RealtimeEngine.QueueBudget
import RealtimeEngine.WindowCounter
import RealtimeEngine.RateLimit
import RealtimeEngine.PongTimeout
import RealtimeEngine.CloseGrace
import RealtimeEngine.ObjectPool
import RealtimeEngine.NumericOptions
import RealtimeEngine.ServerQueued
import RealtimeEngine.ServerDelivery
import RealtimeEngine.ShutdownWait
import RealtimeEngine.ShutdownProgress
import RealtimeEngine.ShutdownEnd
import RealtimeEngine.SessionArrivals
import RealtimeEngine.RunHistory
import RealtimeEngine.RouterOrigins
import RealtimeEngine.EngineOrigins
import RealtimeEngine.EngineDelivery
import RealtimeEngine.EngineParts
import RealtimeEngine.ProgramParts
import RealtimeEngine.ServerOffers
import RealtimeEngine.SessionDeadlines
import RealtimeEngine.ShardSweep
import RealtimeEngine.SessionRegistry
import RealtimeEngine.ServerLifetime
