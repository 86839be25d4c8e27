import Rustgo.Bytes
import Rustgo.Bounded
import Rustgo.Checks
import Rustgo.Runs
import Rustgo.Sha256
import Rustgo.AeadTable
import Rustgo.PeerFrame
import Rustgo.PeerCipher
import Rustgo.ReplayWindow
import Rustgo.OrderedChannel
import Rustgo.Postcard
import Rustgo.ProtocolMessage
import Rustgo.MessageFormat
import Rustgo.FrameCodec
import Rustgo.Tables
import Rustgo.PeerBucket
import Rustgo.AuthLimiter
import Rustgo.AuthLimiterInvariant
import Rustgo.AuthLimiterReserve
import Rustgo.AuthLimiterResolve
import Rustgo.AuthLimiterRuns
import Rustgo.Calls
import Rustgo.MinHeap
import Rustgo.RendezvousMessage
import Rustgo.RendezvousState
import Rustgo.Coordinator
import Rustgo.CoordinatorCalls
import Rustgo.CoordinatorUpkeep
import Rustgo.CoordinatorSteps
import Rustgo.CoordinatorChanges
import Rustgo.CoordinatorRuns
import Rustgo.CoordinatorPlans
import Rustgo.CoordinatorSessions
import Rustgo.CoordinatorQuota
import Rustgo.CoordinatorCoherent
import Rustgo.CoordinatorAtomic
import Rustgo.SessionLog
import Rustgo.CoordinatorTracking
import Rustgo.CoordinatorHistory
import Rustgo.CoordinatorRelay
import Rustgo.CoordinatorGrants
import Rustgo.CoordinatorGrantRuns
import Rustgo.CoordinatorWatch
import Rustgo.CoordinatorUnobserved
import Rustgo.CoordinatorSilence
import Rustgo.LinkedTable
import Rustgo.SweepQueue
import Rustgo.FlowTable
import Rustgo.FlowTableInvariant
import Rustgo.ClientSessionTable
import Rustgo.FlowTableSweep
import Rustgo.ClientSessionSweep
import Rustgo.PathStatus
import Rustgo.PathRecord
import Rustgo.PathManager
import Rustgo.PathManagerRuns
import Rustgo.OrchestrationState
import Rustgo.Orchestration
import Rustgo.OrchestrationLoop
import Rustgo.CallRules
import Rustgo.OrchestrationChanges
import Rustgo.OrchestrationHandlers
import Rustgo.OrchestrationApply
import Rustgo.OrchestrationSteps
import Rustgo.OrchestrationPaths
import Rustgo.OrchestrationPathStatus
import Rustgo.OrchestrationDetachment
import Rustgo.OrchestrationRaces
import Rustgo.OrchestrationHandover
import Rustgo.OrchestrationNumbers
import Rustgo.SessionClose
import Rustgo.OrchestrationGrants
import Rustgo.OrchestrationBindings
import Rustgo.OrchestrationGenerations
import Rustgo.CallPairs
import Rustgo.OrchestrationPairs
import Rustgo.OrchestrationBuffering
import Rustgo.OrchestrationBacklog
import Rustgo.Delimited
import Rustgo.EnvelopeTranscript
import Rustgo.SigningTranscripts
import Rustgo.PeerSessionKeys
import Rustgo.FrameDomains
import Rustgo.Tickets
import Rustgo.PeerTcp
import Rustgo.PeerTcpRuns
import Rustgo.UdpPaths
import Rustgo.TcpPumps
import Rustgo.Languages
import Rustgo.HandshakeState
import Rustgo.TranscriptInput
import Rustgo.PostcardStreams
import Rustgo.PeerMessages
import Rustgo.Incremental
import Rustgo.ControlStream
import Rustgo.FrameDecoding
import Rustgo.PathTokens
import Rustgo.PathStage
import Rustgo.PathSteps
import Rustgo.PathRecheck
import Rustgo.Journal
import Rustgo.HistoryStore
import Rustgo.HistoryMaintenance
import Rustgo.HistoryCommit
import Rustgo.HistoryPrune
import Rustgo.HistorySeals
import Rustgo.HistoryAggregates
import Rustgo.HistoryFloor
import Rustgo.HistoryQueue
import Rustgo.HistoryQueueAccounts
import Rustgo.HistoryQueueRuns
import Rustgo.Projection
import Rustgo.ProjectionSessions
import Rustgo.ProjectionTotals
import Rustgo.RegistryGuards
import Rustgo.RegistryRuns
import Rustgo.ChannelBindings
import Rustgo.ChannelBindingsInvariant
import Rustgo.ChannelBindingsRuns
import Rustgo.RegistryActive
import Rustgo.BucketTable
import Rustgo.ObservationTokens
import Rustgo.ObservationTokensInvariant
import Rustgo.ObservationTokensRuns
import Rustgo.CoordinatorDepartures
import Rustgo.CoordinatorOwners
import Rustgo.CoordinatorDeparturesInvariant
import Rustgo.CoordinatorDeparturesRuns
import Rustgo.CoordinatorSections
import Rustgo.CoordinatorNotes
import Rustgo.CoordinatorWords
import Rustgo.CoordinatorAccounts
import Rustgo.CoordinatorPublishing
import Rustgo.UdpReplies
import Rustgo.LocalTasks
import Rustgo.LocalTasksRuns
import Rustgo.OperationLedger
import Rustgo.OperationRuns
import Rustgo.Json
import Rustgo.Rows
import Rustgo.ManagedConfiguration
import Rustgo.ManagedStore
import Rustgo.ManagedStoreRuns
import Rustgo.RejectedReport
import Rustgo.EnrollmentRows
import Rustgo.EnrollmentStore
import Rustgo.RegistrationApproval
import Rustgo.EnrollmentInvariant
import Rustgo.EnrollmentRuns
import Rustgo.EnrollmentRevisions
import Rustgo.EnrollmentReplay
import Rustgo.Authenticator
import Rustgo.StaticIdentities
import Rustgo.EnrollmentNames
import Rustgo.Revocation
import Rustgo.RevocationLogins
import Rustgo.RevocationRuns
import Rustgo.Base64
import Rustgo.Numerals
import Rustgo.Ipv6Text
import Rustgo.TextParts
import Rustgo.EnrollmentKeys
import Rustgo.RegistrationIntents
import Rustgo.RenameNotices
import Rustgo.DataChannelNames
import Rustgo.AttemptRace
import Rustgo.AttemptRaceRuns
import Rustgo.EnrollmentPolls
import Rustgo.EnrollmentCrashes
import Rustgo.EnrollmentResumption
import Rustgo.Durable
import Rustgo.LocalPorts
import Rustgo.TokenBuckets
import Rustgo.BucketTableRuns
import Rustgo.LoginLimiter
import Rustgo.SessionStore
import Rustgo.UdpForwards
import Rustgo.Interpolation
import Rustgo.LatestRows
import Rustgo.HistoryArchive
import Rustgo.HistoryLatest
import Rustgo.HistoryLatestRuns
import Rustgo.HistoryCap
