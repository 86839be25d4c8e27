import Rustgo.Coordinator
import Rustgo.PathStatus

namespace Rustgo.Orchestration

open Checks Coordinator Path Protocol Rendezvous Tables

inductive PeerRole
  | initiator
  | responder
  deriving DecidableEq

/-- The protocol of a configured tunnel or export. -/
inductive ConfigTunnelProtocol
  | tcp
  | udp
  deriving DecidableEq

namespace ConfigTunnelProtocol

def toWire : ConfigTunnelProtocol → TunnelProtocol
  | .tcp => .TCP
  | .udp => .UDP

def fromWire (value : TunnelProtocol) : ConfigTunnelProtocol := if value = .UDP then .udp else .tcp

end ConfigTunnelProtocol

structure DevicePublicKey where
  bytes : Vector UInt8 32
  deriving DecidableEq

structure EphemeralPeerKey where
  secret : Vector UInt8 32
  publicKey : Vector UInt8 32
  deriving DecidableEq

/-- Something this client made, and the number of the generation it was made
in. Generations are counted over all sessions, and no function reads the
number. -/
structure Stamped (α : Type) where
  value : α
  epoch : Nat
  deriving DecidableEq

/-- Something the peer sent, and the generation of the envelope it came in. -/
structure FromPeer (α : Type) where
  value : α
  generation : CandidateGeneration
  deriving DecidableEq

inductive IoError
  | invalid
  | closed
  | reconnecting
  | p2pDisabled
  | expiredGrant
  | relayQueueFull
  | serverRejected (code : UInt16)
  | exportRejected
  | sessionExpired
  | controlLost
  | graceExpired
  | system
  deriving DecidableEq

structure PeerTranscript where
  sessionId : SessionId
  generation : CandidateGeneration
  initiatorIdentity : DevicePublicKey
  responderIdentity : DevicePublicKey
  initiatorEphemeral : Vector UInt8 32
  responderEphemeral : Vector UInt8 32
  exportName : BoundedString maxExportNameBytes
  version : ProtocolVersion
  hash : Vector UInt8 32
  deriving DecidableEq

structure DirectAttempt where
  transport : CandidateTransport
  role : PeerRole
  localKey : EphemeralPeerKey
  transcript : PeerTranscript
  localAddress : SocketAddress
  remote : SocketAddress
  socket : Option SocketAddress
  punch : Option PunchGrant
  deriving DecidableEq

structure RelayWorker where
  role : PeerRole
  protocol : ConfigTunnelProtocol
  localKey : EphemeralPeerKey
  transcript : PeerTranscript
  controlGeneration : UInt64
  deriving DecidableEq

structure Session where
  authorityGeneration : UInt64
  peer : String
  exportName : String
  role : PeerRole
  expiry : UInt64
  protocol : Option ConfigTunnelProtocol
  providerDecisionAccepted : Bool
  nextStep : UInt64
  localEphemerals : Table CandidateTransport (Stamped EphemeralPeerKey)
  localEphemeralPublic : Table CandidateTransport (Stamped (Vector UInt8 32))
  peerEphemeralPublic : Table CandidateTransport (FromPeer (Vector UInt8 32))
  peerKey : Option DevicePublicKey
  bindingRequested : Bool
  peerRelayRequested : Bool
  localRelayRequested : Bool
  worker : Option RelayWorker
  reply : Option Nat
  cancelled : Bool
  resolveOnly : Bool
  pending : List RendezvousEnvelope
  peerCandidates : List (FromPeer Candidate)
  directStarted : Bool
  generation : CandidateGeneration
  epoch : Nat
  directAttempt : Option (Stamped DirectAttempt)
  recheckReply : Option Nat
  manager : Bool
  relayReady : Bool
  candidateSentGeneration : UInt64
  quicSocket : Option SocketAddress
  observedUdp : List (Stamped SocketAddress)
  cachedTcpObservedIp : Option (Stamped SocketAddress)
  punchGrant : Option PunchGrant
  localCandidatesDigest : Option (Stamped (Vector UInt8 32))
  peerCandidatesDigest : Option (FromPeer (Vector UInt8 32))
  selectedKind : Option PathKind

structure ObservedIpCacheEntry where
  address : SocketAddress
  expiresUnixSecs : UInt64
  deriving DecidableEq

/-- A running `observe_nat` task, with the generation in which it was started. -/
structure Observation where
  sessionId : SessionId
  epoch : Nat
  grantExpiresUnixSecs : UInt64
  socket : SocketAddress
  deriving DecidableEq

/-- What the actor hands to the control connection. -/
inductive PeerMessage
  | observationGrantRequest
  | peerIdentityLookup (lookup : PeerIdentityLookup)
  | envelope (value : RendezvousEnvelope)
  | relayFrame (frame : PeerRelayFrame)
  deriving DecidableEq

inductive Opened
  | protocol (value : ConfigTunnelProtocol)
  deriving DecidableEq

/-- What the actor does besides changing its state and sending. -/
inductive Effect
  | replied (reply : Nat) (result : Except IoError Opened)
  | rechecked (reply : Nat) (result : Except PathError DirectAttempt)
  | connecting (sessionId : SessionId) (direct : Option DirectAttempt)
  | relaying (sessionId : SessionId) (worker : RelayWorker)
  | relaySelected (sessionId : SessionId) (reply : Option Nat)
  | relayRejected (sessionId : SessionId)
  | carrying (sessionId : SessionId) (kind : PathKind) (reply : Option Nat)
  | delivered (frame : PeerRelayFrame)
  deriving DecidableEq

/-- A record of what happened, which no function reads. `requested` and
`granted` belong to the current control generation. -/
structure Trace where
  requested : List SessionId
  granted : List (Option SessionId)
  sent : List RendezvousEnvelope
  applied : List RendezvousEnvelope
  failed : List (SessionId × IoError)
  deriving DecidableEq

structure Actor where
  generation : UInt64
  version : ProtocolVersion
  /-- How many more messages the control connection takes before it is gone. -/
  room : Option Nat
  outbox : List PeerMessage
  sessions : Table SessionId Session
  observationWaiters : List SessionId
  observedIpCache : List ObservedIpCacheEntry
  controlAvailable : Bool
  detachedDeadline : Option Nat
  epochs : Nat
  observations : List Observation
  pathStatus : PathStatusStore
  effects : List Effect
  trace : Trace

namespace Actor

def new (generation : UInt64) (version : ProtocolVersion) : Actor where
  generation := generation
  version := version
  room := none
  outbox := []
  sessions := ∅
  observationWaiters := []
  observedIpCache := []
  controlAvailable := true
  detachedDeadline := none
  epochs := 0
  observations := []
  pathStatus := .new
  effects := []
  trace := ⟨[], [], [], [], []⟩

def put (s : Actor) (id : SessionId) (session : Session) : Actor := { s with sessions := s.sessions.insert id session }

def drop (s : Actor) (id : SessionId) : Actor := { s with sessions := s.sessions.erase id }

end Actor

structure P2pConfig where
  enabled : Bool
  preferDirect : Bool
  allowRelayFallback : Bool
  reconnectTimeoutSecs : Nat
  observationPrimaryAddr : Option String
  observationAlternateAddr : Option String
  deriving DecidableEq

structure LocalIp where
  isV4 : Bool
  isLoopback : Bool
  deriving DecidableEq

/-- The client's configuration and what the actor calls outside itself: its
identity, the exports, signatures, key agreement and the host's addresses. -/
structure Runtime where
  name : String
  p2p : Option P2pConfig
  identity : DevicePublicKey
  authorize : String → String → ConfigTunnelProtocol → Bool
  parseKey : String → Option DevicePublicKey
  sign : RendezvousEnvelope → Option (BoundedBytes maxSignatureBytes)
  verify : DevicePublicKey → RendezvousEnvelope → Bool
  derives : PeerRole → EphemeralPeerKey → PeerTranscript → Bool
  ephemeral : Nat → CandidateTransport → EphemeralPeerKey
  sha256 : Bytes → Vector UInt8 32
  localSocket : SessionId → CandidateTransport → Except IoError SocketAddress
  localIp : Except IoError LocalIp
  adoptsSocket : SocketAddress → Bool
  /-- The order in which a map of transports is iterated. -/
  transportOrder : List CandidateTransport

def transports : List CandidateTransport := [.quicUdp, .nativeTcp, .relay]

namespace Runtime

variable (runtime : Runtime)

def observationEndpoints : Option (String × String) := do
  let p2p ← runtime.p2p
  let primary ← p2p.observationPrimaryAddr
  let alternate ← p2p.observationAlternateAddr
  pure (primary, alternate)

/-- The private halves of `fresh_transport_keys`, for the generation they are made for. -/
def freshTransportKeys (epoch : Nat) : Table CandidateTransport (Stamped EphemeralPeerKey) :=
  transports.foldl (fun keys transport => keys.insert transport ⟨runtime.ephemeral epoch transport, epoch⟩) ∅

def freshTransportPublics (epoch : Nat) : Table CandidateTransport (Stamped (Vector UInt8 32)) :=
  transports.foldl (fun keys transport => keys.insert transport ⟨(runtime.ephemeral epoch transport).publicKey, epoch⟩) ∅

end Runtime

def sameAddressFamily : SocketAddress → SocketAddress → Bool
  | .v4 _ _, .v4 _ _ | .v6 _ _, .v6 _ _ => true
  | _, _ => false

def isV4 : SocketAddress → Bool
  | .v4 _ _ => true
  | .v6 _ _ => false

def cachedObservedIp (cache : List ObservedIpCacheEntry) (ip : LocalIp) (current : UInt64) : Option SocketAddress :=
  (cache.reverse.find? fun entry => current < entry.expiresUnixSecs ∧ isV4 entry.address = ip.isV4).map
    ObservedIpCacheEntry.address

def withPort : SocketAddress → UInt16 → SocketAddress
  | .v4 octets _, port => .v4 octets port
  | .v6 octets _, port => .v6 octets port

def port : SocketAddress → UInt16
  | .v4 _ port | .v6 _ port => port

/-- The bytes of a transport key, if there are as many as a key has. -/
def keyBytes (bytes : Bytes) : Option (Vector UInt8 32) :=
  if h : bytes.length = 32 then some ⟨bytes.toArray, by simpa using h⟩ else none

end Rustgo.Orchestration
