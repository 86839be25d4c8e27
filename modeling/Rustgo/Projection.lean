import Mathlib.Data.Finset.Sort
import Mathlib.Data.Prod.Lex
import Mathlib.Data.String.Basic
import Rustgo.Registry

namespace Rustgo.Observability

open Registry Rendezvous Tables

def MAX_EVENT_LABEL_BYTES : Nat := 128
def MAX_INVENTORY_ITEMS : Nat := 256
def MAX_TERMINAL_SESSIONS : Nat := 4096

abbrev BoundedLabel := BoundedString MAX_EVENT_LABEL_BYTES
abbrev BoundedInventory := BoundedVec BoundedLabel MAX_INVENTORY_ITEMS
abbrev ShortSessionId := String

structure HostMetrics where
  sampledUnixMillis : Nat
  cpuBasisPoints : Option UInt16
  processCpuBasisPoints : Option UInt16
  memoryUsedBytes : Option UInt64
  memoryTotalBytes : Option UInt64
  processMemoryBytes : Option UInt64
  diskUsedBytes : Option UInt64
  diskTotalBytes : Option UInt64
  diskReadBytesPerSec : Option UInt64
  diskWriteBytesPerSec : Option UInt64
  networkRxBytesPerSec : Option UInt64
  networkTxBytesPerSec : Option UInt64
  deriving DecidableEq

inductive SessionKind
  | tcp
  | udp
  | p2p
  deriving DecidableEq

inductive ObservationEvent
  | clientAuthenticated (client : AuthenticatedClientIdentity) (version : BoundedLabel) (authenticatedUnixMillis : Nat)
  | clientDisconnected (client : AuthenticatedClientIdentity) (disconnectedUnixMillis : Nat)
  | heartbeat (client : AuthenticatedClientIdentity) (receivedUnixMillis : Nat)
  | clientTelemetryAccepted (client : AuthenticatedClientIdentity) (sequence receivedUnixMillis : Nat) (metrics : HostMetrics)
  | tunnelInventory (client : AuthenticatedClientIdentity) (names : BoundedInventory)
  | exportInventory (client : AuthenticatedClientIdentity) (names : BoundedInventory)
  | forwardInventory (client : AuthenticatedClientIdentity) (names : BoundedInventory)
  | tcpSessionOpened (client : AuthenticatedClientIdentity) (sessionId : ShortSessionId) (tunnel : Option BoundedLabel)
      (openedUnixMillis : Nat)
  | tcpSessionClosed (client : AuthenticatedClientIdentity) (sessionId : ShortSessionId) (closedUnixMillis : Nat)
      (terminalReason : Option BoundedLabel)
  | udpSessionOpened (client : AuthenticatedClientIdentity) (sessionId : ShortSessionId) (tunnel : Option BoundedLabel)
      (openedUnixMillis : Nat)
  | udpSessionClosed (client : AuthenticatedClientIdentity) (sessionId : ShortSessionId) (closedUnixMillis : Nat)
      (terminalReason : Option BoundedLabel)
  | p2pSessionOpened (client : AuthenticatedClientIdentity) (sessionId : ShortSessionId) (peer : BoundedLabel)
      (exportName : Option BoundedLabel) (path : SessionPath) (openedUnixMillis : Nat)
  | p2pSessionClosed (client : AuthenticatedClientIdentity) (sessionId : ShortSessionId) (closedUnixMillis : Nat)
      (terminalReason : Option BoundedLabel)
  | byteCounterDelta (client : AuthenticatedClientIdentity) (sessionId : Option ShortSessionId) (counters : TrafficCounters)
  | serverSample (metrics : HostMetrics)

/-- The identity that an event carries. -/
def ObservationEvent.client : ObservationEvent → Option AuthenticatedClientIdentity
  | .clientAuthenticated client _ _ => some client
  | .clientDisconnected client _ => some client
  | .heartbeat client _ => some client
  | .clientTelemetryAccepted client _ _ _ => some client
  | .tunnelInventory client _ => some client
  | .exportInventory client _ => some client
  | .forwardInventory client _ => some client
  | .tcpSessionOpened client _ _ _ => some client
  | .tcpSessionClosed client _ _ _ => some client
  | .udpSessionOpened client _ _ _ => some client
  | .udpSessionClosed client _ _ _ => some client
  | .p2pSessionOpened client _ _ _ _ _ => some client
  | .p2pSessionClosed client _ _ _ => some client
  | .byteCounterDelta client _ _ => some client
  | .serverSample _ => none

structure SessionSnapshot where
  id : ShortSessionId
  client : BoundedLabel
  peer : Option BoundedLabel
  tunnel : Option BoundedLabel
  exportName : Option BoundedLabel
  kind : SessionKind
  path : SessionPath
  traffic : TrafficCounters
  openedUnixMillis : Nat
  closedUnixMillis : Option Nat
  terminalReason : Option BoundedLabel
  deriving DecidableEq

structure ClientSnapshot where
  name : BoundedLabel
  generation : UInt64
  version : BoundedLabel
  online : Bool
  authenticatedUnixMillis : Nat
  disconnectedUnixMillis : Option Nat
  lastHeartbeatUnixMillis : Option Nat
  telemetryReceivedUnixMillis : Option Nat
  telemetrySequence : Option Nat
  metrics : Option HostMetrics
  traffic : TrafficCounters
  tunnels : BoundedInventory
  exports : BoundedInventory
  forwards : BoundedInventory
  reconnects : UInt64
  deriving DecidableEq

def TrafficCounters.saturatingAdd (traffic delta : TrafficCounters) : TrafficCounters :=
  ⟨Rendezvous.saturatingAdd traffic.receivedBytes delta.receivedBytes, Rendezvous.saturatingAdd traffic.sentBytes delta.sentBytes⟩

theorem generationReplaced_bounded : "generation_replaced".utf8ByteSize ≤ MAX_EVENT_LABEL_BYTES := by decide

def replacementReason : BoundedLabel := ⟨"generation_replaced", generationReplaced_bounded⟩

/-- `terminalSessions` orders the closed sessions by the time of their close. -/
structure Projection where
  generatedUnixMillis : Nat
  serverMetrics : Option HostMetrics
  serverTraffic : TrafficCounters
  clients : Table String ClientSnapshot
  sessions : Table ShortSessionId SessionSnapshot
  terminalSessions : Finset (Nat ×ₗ ShortSessionId)

namespace Projection

def default : Projection := ⟨0, none, .default, ∅, ∅, ∅⟩

def currentClient (p : Projection) (client : AuthenticatedClientIdentity) : Option ClientSnapshot :=
  (p.clients.lookup client.name.str).filter (·.generation = client.generation)

def onlineClient (p : Projection) (client : AuthenticatedClientIdentity) : Option ClientSnapshot :=
  (p.currentClient client).filter (·.online)

def isCurrentClient (p : Projection) (client : AuthenticatedClientIdentity) : Bool :=
  (p.clients.lookup client.name.str).any (·.generation = client.generation)

def withClient (p : Projection) (client : AuthenticatedClientIdentity) (projected : ClientSnapshot) : Projection :=
  { p with clients := p.clients.insert client.name.str projected }

def withSession (p : Projection) (sessionId : ShortSessionId) (session : SessionSnapshot) : Projection :=
  { p with sessions := p.sessions.insert sessionId session }

def advance (p : Projection) (timestampUnixMillis : Nat) : Projection :=
  { p with generatedUnixMillis := max p.generatedUnixMillis timestampUnixMillis }

/-- Removes the oldest entry of the index, and its session where that is still
the session that was closed then. -/
def evictEntry (p : Projection) (entry : Nat ×ₗ ShortSessionId) : Projection :=
  { p with
    terminalSessions := p.terminalSessions.erase entry
    sessions :=
      if (p.sessions.lookup entry.2).any (·.closedUnixMillis = some entry.1) then p.sessions.erase entry.2
      else p.sessions }

def evict : Nat → Projection → Projection
  | 0, p => p
  | n + 1, p =>
      if MAX_TERMINAL_SESSIONS < p.terminalSessions.card then
        match first? p.terminalSessions with
        | none => p
        | some entry => evict n (p.evictEntry entry)
      else p

def recordTerminal (p : Projection) (sessionId : ShortSessionId) (closedUnixMillis : Nat) : Projection :=
  let p := { p with terminalSessions := insert (toLex (closedUnixMillis, sessionId)) p.terminalSessions }
  evict p.terminalSessions.card p

def terminate (session : SessionSnapshot) (closedUnixMillis : Nat) (terminalReason : Option BoundedLabel) : SessionSnapshot :=
  { session with closedUnixMillis := some closedUnixMillis, terminalReason := terminalReason }

def openOf (client : AuthenticatedClientIdentity) (session : SessionSnapshot) : Bool :=
  session.client.str = client.name.str ∧ session.closedUnixMillis = none

/-- Closes the sessions that a client has left open, in the order of their ids. -/
def terminalizeSessions (p : Projection) (client : AuthenticatedClientIdentity) (closedUnixMillis : Nat) : Projection :=
  let terminalized := (keep (fun _ session => openOf client session) p.sessions).keys.sort
  let p := { p with sessions := update (fun _ session =>
    if openOf client session then terminate session closedUnixMillis (some replacementReason) else session) p.sessions }
  terminalized.foldl (fun p sessionId => p.recordTerminal sessionId closedUnixMillis) p

def clientAuthenticated (p : Projection) (client : AuthenticatedClientIdentity) (version : BoundedLabel)
    (authenticatedUnixMillis : Nat) : Projection :=
  let previous := p.clients.lookup client.name.str
  if previous.any (client.generation ≤ ·.generation) then p
  else
    let p := if previous.isSome then p.terminalizeSessions client authenticatedUnixMillis else p
    let traffic := (previous.map ClientSnapshot.traffic).getD .default
    let reconnects := (previous.map fun previous => saturatingAdd previous.reconnects 1).getD 0
    (p.withClient client {
      name := client.name
      generation := client.generation
      version := version
      online := true
      authenticatedUnixMillis := authenticatedUnixMillis
      disconnectedUnixMillis := none
      lastHeartbeatUnixMillis := none
      telemetryReceivedUnixMillis := none
      telemetrySequence := none
      metrics := none
      traffic := traffic
      tunnels := ⟨[], Nat.zero_le _⟩
      exports := ⟨[], Nat.zero_le _⟩
      forwards := ⟨[], Nat.zero_le _⟩
      reconnects := reconnects }).advance authenticatedUnixMillis

/-- Takes the session that was closed under this id out of the index. -/
def forgetTerminal (p : Projection) (sessionId : ShortSessionId) : Projection :=
  match (p.sessions.lookup sessionId).bind SessionSnapshot.closedUnixMillis with
  | some closedUnixMillis => { p with terminalSessions := p.terminalSessions.erase (toLex (closedUnixMillis, sessionId)) }
  | none => p

def openSession (p : Projection) (client : AuthenticatedClientIdentity) (sessionId : ShortSessionId) (kind : SessionKind)
    (path : SessionPath) (peer tunnel exportName : Option BoundedLabel) (openedUnixMillis : Nat) : Projection :=
  if (p.onlineClient client).isNone then p
  else
    ((p.forgetTerminal sessionId).withSession sessionId {
      id := sessionId
      client := client.name
      peer := peer
      tunnel := tunnel
      exportName := exportName
      kind := kind
      path := path
      traffic := .default
      openedUnixMillis := openedUnixMillis
      closedUnixMillis := none
      terminalReason := none }).advance openedUnixMillis

def closeSession (p : Projection) (client : AuthenticatedClientIdentity) (sessionId : ShortSessionId) (expectedKind : SessionKind)
    (closedUnixMillis : Nat) (terminalReason : Option BoundedLabel) : Projection :=
  if p.isCurrentClient client then
    match (p.sessions.lookup sessionId).filter fun session => openOf client session && session.kind = expectedKind with
    | some session =>
        ((p.withSession sessionId (terminate session closedUnixMillis terminalReason)).recordTerminal sessionId
          closedUnixMillis).advance closedUnixMillis
    | none => p
  else p

def chargeSession (p : Projection) (client : AuthenticatedClientIdentity) (counters : TrafficCounters) (sessionId : ShortSessionId) :
    Projection :=
  match (p.sessions.lookup sessionId).filter (openOf client) with
  | some session => p.withSession sessionId { session with traffic := TrafficCounters.saturatingAdd session.traffic counters }
  | none => p

def addCounters (p : Projection) (client : AuthenticatedClientIdentity) (sessionId : Option ShortSessionId)
    (counters : TrafficCounters) : Projection :=
  match p.onlineClient client with
  | none => p
  | some projected =>
      let p := { p.withClient client { projected with traffic := TrafficCounters.saturatingAdd projected.traffic counters } with
        serverTraffic := TrafficCounters.saturatingAdd p.serverTraffic counters }
      match sessionId with
      | some sessionId => p.chargeSession client counters sessionId
      | none => p

def advanceIf (p : Projection) (applied : Bool) (timestampUnixMillis : Nat) : Projection :=
  if applied then p.advance timestampUnixMillis else p

/-- Rewrites the snapshot of a client, where the identity of the event is accepted. -/
def updateClient (p : Projection) (client : AuthenticatedClientIdentity) (accepted : Option ClientSnapshot)
    (f : ClientSnapshot → ClientSnapshot) : Projection :=
  match accepted with
  | some projected => p.withClient client (f projected)
  | none => p

def clientDisconnected (p : Projection) (client : AuthenticatedClientIdentity) (disconnectedUnixMillis : Nat) : Projection :=
  let accepted := p.currentClient client
  (p.updateClient client accepted fun projected =>
    { projected with online := false, disconnectedUnixMillis := some disconnectedUnixMillis }).advanceIf accepted.isSome
      disconnectedUnixMillis

def heartbeat (p : Projection) (client : AuthenticatedClientIdentity) (receivedUnixMillis : Nat) : Projection :=
  let accepted := p.onlineClient client
  (p.updateClient client accepted fun projected =>
    { projected with lastHeartbeatUnixMillis := some receivedUnixMillis }).advanceIf accepted.isSome receivedUnixMillis

def acceptedTelemetry (p : Projection) (client : AuthenticatedClientIdentity) (sequence : Nat) : Option ClientSnapshot :=
  (p.onlineClient client).filter (·.telemetrySequence.all (· < sequence))

def clientTelemetryAccepted (p : Projection) (client : AuthenticatedClientIdentity) (sequence receivedUnixMillis : Nat)
    (metrics : HostMetrics) : Projection :=
  let accepted := p.acceptedTelemetry client sequence
  (p.updateClient client accepted fun projected =>
    { projected with
      telemetrySequence := some sequence
      telemetryReceivedUnixMillis := some receivedUnixMillis
      metrics := some metrics }).advanceIf accepted.isSome receivedUnixMillis

def apply (p : Projection) : ObservationEvent → Projection
  | .clientAuthenticated client version authenticatedUnixMillis => p.clientAuthenticated client version authenticatedUnixMillis
  | .clientDisconnected client disconnectedUnixMillis => p.clientDisconnected client disconnectedUnixMillis
  | .heartbeat client receivedUnixMillis => p.heartbeat client receivedUnixMillis
  | .clientTelemetryAccepted client sequence receivedUnixMillis metrics =>
      p.clientTelemetryAccepted client sequence receivedUnixMillis metrics
  | .tunnelInventory client names => p.updateClient client (p.onlineClient client) fun projected => { projected with tunnels := names }
  | .exportInventory client names => p.updateClient client (p.onlineClient client) fun projected => { projected with exports := names }
  | .forwardInventory client names => p.updateClient client (p.onlineClient client) fun projected => { projected with forwards := names }
  | .tcpSessionOpened client sessionId tunnel openedUnixMillis =>
      p.openSession client sessionId .tcp .relay none tunnel none openedUnixMillis
  | .tcpSessionClosed client sessionId closedUnixMillis terminalReason =>
      p.closeSession client sessionId .tcp closedUnixMillis terminalReason
  | .udpSessionOpened client sessionId tunnel openedUnixMillis =>
      p.openSession client sessionId .udp .relay none tunnel none openedUnixMillis
  | .udpSessionClosed client sessionId closedUnixMillis terminalReason =>
      p.closeSession client sessionId .udp closedUnixMillis terminalReason
  | .p2pSessionOpened client sessionId peer exportName path openedUnixMillis =>
      p.openSession client sessionId .p2p path (some peer) none exportName openedUnixMillis
  | .p2pSessionClosed client sessionId closedUnixMillis terminalReason =>
      p.closeSession client sessionId .p2p closedUnixMillis terminalReason
  | .byteCounterDelta client sessionId counters => p.addCounters client sessionId counters
  | .serverSample metrics => { p.advance metrics.sampledUnixMillis with serverMetrics := some metrics }

/-- The projection after a sequence of events. -/
def replay (events : List ObservationEvent) : Projection := events.foldl apply default

end Projection

end Rustgo.Observability
