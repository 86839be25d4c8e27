import Rustgo.Bounded

namespace Rustgo.Protocol

def maxManagedConfigurationBytes : Nat := 65536
def maxClientNameBytes : Nat := 128
def maxFingerprintBytes : Nat := 64
def maxChallengeBytes : Nat := 64
def maxSessionIdBytes : Nat := 32
def maxPublicKeyBytes : Nat := 64
def maxSignatureBytes : Nat := 128
def maxBindingTokenBytes : Nat := 64
def maxTunnels : Nat := 64
def maxTunnelNameBytes : Nat := 128
def maxUdpPayloadBytes : Nat := 65507
def maxUdpSessionsPerTunnel : UInt32 := 1000000
def maxUdpQueueCapacity : UInt32 := 65536
def udpMetadataLen : Nat := 31
def maxErrorDetailBytes : Nat := 512
def maxRendezvousEnvelopeBytes : Nat := 16 * 1024
def maxPeerRelayFrameBytes : Nat := 65600
def maxObservationGrantBytes : Nat := 96
def maxServerNoticeBytes : Nat := 1024
def maxEnrollmentKeyBytes : Nat := 512
def maxEnrollmentRequestIdBytes : Nat := 128
def maxTelemetryReportBytes : Nat := 83

structure ProtocolVersion where
  major : UInt16
  minor : UInt16
  deriving DecidableEq

/-- The codes the type can hold: its field is private, and both the constants
and the deserializer stay within these values. -/
structure ProtocolErrorCode where
  value : UInt16
  known : (1 ≤ value ∧ value ≤ 12) ∨ value = 255
  deriving DecidableEq

structure TunnelProtocol where
  value : UInt8
  known : value = 1 ∨ value = 2
  deriving DecidableEq

def TunnelProtocol.TCP : TunnelProtocol := ⟨1, .inl rfl⟩
def TunnelProtocol.UDP : TunnelProtocol := ⟨2, .inr rfl⟩

structure DataChannelKind where
  value : UInt8
  known : value = 1 ∨ value = 2
  deriving DecidableEq

inductive SocketAddress
  | v4 (octets : Vector UInt8 4) (port : UInt16)
  | v6 (octets : Vector UInt8 16) (port : UInt16)
  deriving DecidableEq

structure ClientHello where
  clientName : BoundedString maxClientNameBytes
  fingerprint : BoundedBytes maxFingerprintBytes
  heartbeatIntervalSecs : UInt32
  deriving DecidableEq

structure ServerChallenge where
  challenge : BoundedBytes maxChallengeBytes
  sessionId : BoundedBytes maxSessionIdBytes
  deriving DecidableEq

structure ClientAuthenticate where
  publicKey : BoundedBytes maxPublicKeyBytes
  signature : BoundedBytes maxSignatureBytes
  deriving DecidableEq

structure AuthResult where
  accepted : Bool
  error : Option ProtocolErrorCode
  deriving DecidableEq

structure TunnelRegistration where
  tunnelId : UInt32
  name : BoundedString maxTunnelNameBytes
  protocol : TunnelProtocol
  remotePort : UInt16
  deriving DecidableEq

structure RegisterTunnels where
  tunnels : BoundedVec TunnelRegistration maxTunnels
  deriving DecidableEq

structure TunnelResult where
  tunnelId : UInt32
  accepted : Bool
  error : Option ProtocolErrorCode
  deriving DecidableEq

structure TunnelResults where
  results : BoundedVec TunnelResult maxTunnels
  deriving DecidableEq

structure OpenTcpStream where
  tunnelId : UInt32
  connectionId : UInt64
  peer : SocketAddress
  bindingToken : BoundedBytes maxBindingTokenBytes
  deriving DecidableEq

structure OpenUdpChannel where
  tunnelId : UInt32
  channelId : UInt64
  bindingToken : BoundedBytes maxBindingTokenBytes
  maxSessions : UInt32
  idleTimeoutMillis : UInt32
  maxPayloadBytes : UInt32
  queueCapacity : UInt32
  deriving DecidableEq

def OpenUdpChannel.hasValidLimits (c : OpenUdpChannel) : Bool :=
  decide (c.tunnelId > 0) && decide (c.channelId > 0) && decide (c.maxSessions > 0) &&
    decide (c.maxSessions ≤ maxUdpSessionsPerTunnel) && decide (c.idleTimeoutMillis > 0) &&
    decide (c.maxPayloadBytes > 0) && decide (c.maxPayloadBytes.toNat ≤ maxUdpPayloadBytes) &&
    decide (c.queueCapacity > 0) && decide (c.queueCapacity ≤ maxUdpQueueCapacity)

structure UdpSessionRetired where
  tunnelId : UInt32
  sessionId : UInt64
  deriving DecidableEq

structure DataChannelBind where
  clientName : BoundedString maxClientNameBytes
  sessionId : BoundedBytes maxSessionIdBytes
  kind : DataChannelKind
  tunnelId : UInt32
  targetId : UInt64
  bindingToken : BoundedBytes maxBindingTokenBytes
  deriving DecidableEq

structure TcpStreamReady where
  connectionId : UInt64
  accepted : Bool
  error : Option ProtocolErrorCode
  deriving DecidableEq

structure UdpDatagram where
  tunnelId : UInt32
  sessionId : UInt64
  source : SocketAddress
  payload : BoundedBytes maxUdpPayloadBytes
  deriving DecidableEq

structure Heartbeat where
  sequence : UInt64
  deriving DecidableEq

structure ErrorMessage where
  code : ProtocolErrorCode
  detail : BoundedString maxErrorDetailBytes
  deriving DecidableEq

structure ServerNotice where
  sessionId : Vector UInt8 32
  code : UInt16
  detail : BoundedString maxErrorDetailBytes
  peer : Option (BoundedString maxClientNameBytes)
  deriving DecidableEq

structure PunchGrant where
  sessionId : Vector UInt8 32
  generation : UInt64
  startUnixMillis : UInt64
  windowMillis : UInt16
  cadenceMillis : UInt16
  initiatorCandidatesSha256 : Vector UInt8 32
  responderCandidatesSha256 : Vector UInt8 32
  token : Vector UInt8 32
  deriving DecidableEq

structure PeerIdentityBinding where
  sessionId : Vector UInt8 32
  peer : BoundedString maxClientNameBytes
  publicKey : BoundedString maxPublicKeyBytes
  protocol : Option TunnelProtocol
  peerIsProvider : Bool
  expiresUnixSecs : UInt64
  deriving DecidableEq

structure PeerIdentityLookup where
  sessionId : Vector UInt8 32
  peer : BoundedString maxClientNameBytes
  deriving DecidableEq

structure TelemetryReport where
  sampledUnixMillis : UInt64
  sequence : UInt64
  cpuBasisPoints : UInt16
  memoryUsedBytes : UInt64
  memoryTotalBytes : UInt64
  diskUsedBytes : UInt64
  diskTotalBytes : UInt64
  txBytesPerSec : UInt64
  rxBytesPerSec : UInt64
  deriving DecidableEq

structure EnrollmentRequest where
  protocolVersion : UInt16
  enrollmentKey : BoundedString maxEnrollmentKeyBytes
  publicKey : BoundedBytes maxPublicKeyBytes
  requestId : BoundedString maxEnrollmentRequestIdBytes
  deriving DecidableEq

inductive EnrollmentErrorCode
  | invalidKey
  | expired
  | alreadyUsed
  | purposeMismatch
  | alreadyBound
  | disabled
  | publicKeyConflict
  | capacityReached
  | unavailable
  | unsupportedVersion
  | pendingApproval
  | approvalRejected
  | replacementApprovalPending
  deriving DecidableEq

structure EnrollmentResultMessage where
  protocolVersion : UInt16
  accepted : Bool
  clientId : Option (BoundedString maxClientNameBytes)
  revision : Option UInt64
  error : Option EnrollmentErrorCode
  deriving DecidableEq

structure ManagedConfigRequest where
  configuration : BoundedBytes maxManagedConfigurationBytes
  deriving DecidableEq

structure ManagedConfigSnapshot where
  revision : UInt64
  configuration : Option (BoundedBytes maxManagedConfigurationBytes)
  deriving DecidableEq

structure ManagedConfigReport where
  revision : UInt64
  results : BoundedBytes maxManagedConfigurationBytes
  deriving DecidableEq

structure ManagedConfigUpdate where
  expectedRevision : UInt64
  configuration : BoundedBytes maxManagedConfigurationBytes
  deriving DecidableEq

structure ManagedConfigUpdateResult where
  revision : UInt64
  error : Option (BoundedString 1024)
  deriving DecidableEq

abbrev OpaqueRendezvousMessage := BoundedBytes maxRendezvousEnvelopeBytes
abbrev OpaquePeerRelayFrame := BoundedBytes maxPeerRelayFrameBytes
abbrev OpaqueObservationGrant := BoundedBytes maxObservationGrantBytes

inductive Message
  | clientHello (value : ClientHello)
  | serverChallenge (value : ServerChallenge)
  | clientAuthenticate (value : ClientAuthenticate)
  | authResult (value : AuthResult)
  | registerTunnels (value : RegisterTunnels)
  | tunnelResults (value : TunnelResults)
  | openTcpStream (value : OpenTcpStream)
  | tcpStreamReady (value : TcpStreamReady)
  | udpDatagram (value : UdpDatagram)
  | heartbeat (value : Heartbeat)
  | error (value : ErrorMessage)
  | openUdpChannel (value : OpenUdpChannel)
  | dataChannelBind (value : DataChannelBind)
  | udpSessionRetired (value : UdpSessionRetired)
  | rendezvousRequest (value : OpaqueRendezvousMessage)
  | rendezvousProviderDecision (value : OpaqueRendezvousMessage)
  | rendezvousCandidateSet (value : OpaqueRendezvousMessage)
  | rendezvousCandidateSetV2 (value : OpaqueRendezvousMessage)
  | rendezvousConnectivityResult (value : OpaqueRendezvousMessage)
  | rendezvousRelayRequest (value : OpaqueRendezvousMessage)
  | rendezvousClose (value : OpaqueRendezvousMessage)
  | rendezvousError (value : OpaqueRendezvousMessage)
  | peerRelayFrame (value : OpaquePeerRelayFrame)
  | observationGrantRequest
  | observationGrant (value : OpaqueObservationGrant)
  | serverNotice (value : ServerNotice)
  | peerIdentityBinding (value : PeerIdentityBinding)
  | peerIdentityLookup (value : PeerIdentityLookup)
  | punchGrant (value : PunchGrant)
  | telemetryReport (value : TelemetryReport)
  | managedConfigRequest (value : ManagedConfigRequest)
  | managedConfigSnapshot (value : ManagedConfigSnapshot)
  | managedConfigReport (value : ManagedConfigReport)
  | managedConfigUpdate (value : ManagedConfigUpdate)
  | managedConfigUpdateResult (value : ManagedConfigUpdateResult)
  | enrollmentRequest (value : EnrollmentRequest)
  | enrollmentResult (value : EnrollmentResultMessage)
  deriving DecidableEq

inductive MessageId
  | clientHello
  | serverChallenge
  | clientAuthenticate
  | authResult
  | registerTunnels
  | tunnelResults
  | openTcpStream
  | tcpStreamReady
  | udpDatagram
  | heartbeat
  | error
  | openUdpChannel
  | dataChannelBind
  | udpSessionRetired
  | rendezvousRequest
  | rendezvousProviderDecision
  | rendezvousCandidateSet
  | rendezvousConnectivityResult
  | rendezvousRelayRequest
  | rendezvousClose
  | rendezvousError
  | peerRelayFrame
  | observationGrantRequest
  | observationGrant
  | serverNotice
  | peerIdentityBinding
  | peerIdentityLookup
  | rendezvousCandidateSetV2
  | punchGrant
  | telemetryReport
  | enrollmentRequest
  | enrollmentResult
  | managedConfigRequest
  | managedConfigSnapshot
  | managedConfigReport
  | managedConfigUpdate
  | managedConfigUpdateResult
  deriving DecidableEq

namespace MessageId

/-- In the order of their numbers, which start at one. -/
def all : List MessageId :=
  [clientHello, serverChallenge, clientAuthenticate, authResult, registerTunnels, tunnelResults,
    openTcpStream, tcpStreamReady, udpDatagram, heartbeat, error, openUdpChannel, dataChannelBind,
    udpSessionRetired, rendezvousRequest, rendezvousProviderDecision, rendezvousCandidateSet,
    rendezvousConnectivityResult, rendezvousRelayRequest, rendezvousClose, rendezvousError,
    peerRelayFrame, observationGrantRequest, observationGrant, serverNotice, peerIdentityBinding,
    peerIdentityLookup, rendezvousCandidateSetV2, punchGrant, telemetryReport, enrollmentRequest,
    enrollmentResult, managedConfigRequest, managedConfigSnapshot, managedConfigReport,
    managedConfigUpdate, managedConfigUpdateResult]

def asU16 : MessageId → UInt16
  | clientHello => 1
  | serverChallenge => 2
  | clientAuthenticate => 3
  | authResult => 4
  | registerTunnels => 5
  | tunnelResults => 6
  | openTcpStream => 7
  | tcpStreamReady => 8
  | udpDatagram => 9
  | heartbeat => 10
  | error => 11
  | openUdpChannel => 12
  | dataChannelBind => 13
  | udpSessionRetired => 14
  | rendezvousRequest => 15
  | rendezvousProviderDecision => 16
  | rendezvousCandidateSet => 17
  | rendezvousConnectivityResult => 18
  | rendezvousRelayRequest => 19
  | rendezvousClose => 20
  | rendezvousError => 21
  | peerRelayFrame => 22
  | observationGrantRequest => 23
  | observationGrant => 24
  | serverNotice => 25
  | peerIdentityBinding => 26
  | peerIdentityLookup => 27
  | rendezvousCandidateSetV2 => 28
  | punchGrant => 29
  | telemetryReport => 30
  | enrollmentRequest => 31
  | enrollmentResult => 32
  | managedConfigRequest => 33
  | managedConfigSnapshot => 34
  | managedConfigReport => 35
  | managedConfigUpdate => 36
  | managedConfigUpdateResult => 37

def tryFrom (value : UInt16) : Except UInt16 MessageId :=
  match all.find? fun id => id.asU16 = value with
  | some id => .ok id
  | none => .error value

def maxPayload : MessageId → Nat
  | clientHello => 256
  | serverChallenge => 128
  | clientAuthenticate => 256
  | authResult => 16
  | registerTunnels => 32 * 1024
  | tunnelResults => 8 * 1024
  | openTcpStream => 160
  | tcpStreamReady => 32
  | udpDatagram => udpMetadataLen + maxUdpPayloadBytes
  | heartbeat => 16
  | error => 1024
  | openUdpChannel => 96
  | dataChannelBind => 384
  | udpSessionRetired => 32
  | rendezvousRequest | rendezvousProviderDecision | rendezvousCandidateSet
  | rendezvousConnectivityResult | rendezvousRelayRequest | rendezvousClose | rendezvousError =>
      maxRendezvousEnvelopeBytes
  | peerRelayFrame => maxPeerRelayFrameBytes
  | observationGrantRequest => 0
  | observationGrant => maxObservationGrantBytes
  | serverNotice => maxServerNoticeBytes
  | peerIdentityBinding => 512
  | peerIdentityLookup => 256
  | rendezvousCandidateSetV2 => maxRendezvousEnvelopeBytes
  | punchGrant => 160
  | telemetryReport => maxTelemetryReportBytes
  | enrollmentRequest => 1024
  | enrollmentResult => 256
  | managedConfigRequest => maxManagedConfigurationBytes + 3
  | managedConfigSnapshot => maxManagedConfigurationBytes + 14
  | managedConfigReport => maxManagedConfigurationBytes + 13
  | managedConfigUpdate => maxManagedConfigurationBytes + 13
  | managedConfigUpdateResult => 1024 + 13

theorem tryFrom_asU16 (id : MessageId) : tryFrom id.asU16 = .ok id := by
  cases id <;> rfl

end MessageId

def Message.id : Message → MessageId
  | .clientHello _ => .clientHello
  | .serverChallenge _ => .serverChallenge
  | .clientAuthenticate _ => .clientAuthenticate
  | .authResult _ => .authResult
  | .registerTunnels _ => .registerTunnels
  | .tunnelResults _ => .tunnelResults
  | .openTcpStream _ => .openTcpStream
  | .tcpStreamReady _ => .tcpStreamReady
  | .udpDatagram _ => .udpDatagram
  | .heartbeat _ => .heartbeat
  | .error _ => .error
  | .openUdpChannel _ => .openUdpChannel
  | .dataChannelBind _ => .dataChannelBind
  | .udpSessionRetired _ => .udpSessionRetired
  | .rendezvousRequest _ => .rendezvousRequest
  | .rendezvousProviderDecision _ => .rendezvousProviderDecision
  | .rendezvousCandidateSet _ => .rendezvousCandidateSet
  | .rendezvousCandidateSetV2 _ => .rendezvousCandidateSetV2
  | .rendezvousConnectivityResult _ => .rendezvousConnectivityResult
  | .rendezvousRelayRequest _ => .rendezvousRelayRequest
  | .rendezvousClose _ => .rendezvousClose
  | .rendezvousError _ => .rendezvousError
  | .peerRelayFrame _ => .peerRelayFrame
  | .observationGrantRequest => .observationGrantRequest
  | .observationGrant _ => .observationGrant
  | .serverNotice _ => .serverNotice
  | .peerIdentityBinding _ => .peerIdentityBinding
  | .peerIdentityLookup _ => .peerIdentityLookup
  | .punchGrant _ => .punchGrant
  | .telemetryReport _ => .telemetryReport
  | .managedConfigRequest _ => .managedConfigRequest
  | .managedConfigSnapshot _ => .managedConfigSnapshot
  | .managedConfigReport _ => .managedConfigReport
  | .managedConfigUpdate _ => .managedConfigUpdate
  | .managedConfigUpdateResult _ => .managedConfigUpdateResult
  | .enrollmentRequest _ => .enrollmentRequest
  | .enrollmentResult _ => .enrollmentResult

end Rustgo.Protocol
