import Rustgo.ClientSessionSweep
import Rustgo.FrameCodec
import Rustgo.Runs

namespace Rustgo.Udp

open Tables LinkedTable SocketAddr Protocol Runs

namespace ClientSessionTable

/-- The lease that a session was created with, which also stands for its cancellation token. -/
def leaseOf (t : ClientSessionTable) (id : UInt64) : Option UInt64 := (t.sessions.lookup id).map ClientSession.lease

/-- The tokens that `remove` cancels. -/
def removeCancels (t : ClientSessionTable) (sessionId : UInt64) : List UInt64 := (t.leaseOf sessionId).toList

/-- The tokens that `sweepLoop` cancels. -/
def sweepCancels (now idleTimeout : Nat) (touches : Nat → List Touch) : Nat → ClientSessionTable → List UInt64
  | 0, _ => []
  | inspected + 1, t =>
      let t := t.touchAll (touches inspected)
      match t.sweepHead with
      | none => []
      | some sessionId =>
          if t.isExpired sessionId now idleTimeout then
            t.removeCancels sessionId ++ sweepCancels now idleTimeout touches inspected (t.remove sessionId).2
          else
            match t.rotateSweepHead sessionId with
            | (true, t') => sweepCancels now idleTimeout touches inspected t'
            | (false, _) => []

/-- The sessions met by following the links from the head of the sweep order. -/
def sweepOrder (t : ClientSessionTable) : List UInt64 := walk ClientSession.links t.sessions (len t.sessions + 1) t.sweepHead

/-- The list from the head goes through every live session once, with links that agree in both directions. -/
structure Consistent (t : ClientSessionTable) : Prop where
  once : t.sweepOrder.Nodup
  live : ∀ id, id ∈ t.sweepOrder ↔ id ∈ t.sessions
  linked : ∀ before id after, t.sweepOrder = before ++ id :: after →
    ∃ session, t.sessions.lookup id = some session ∧ session.previous = before.getLast? ∧ session.next = after.head?
  head : t.sweepHead = t.sweepOrder.head?
  tail : t.sweepTail = t.sweepOrder.getLast?

end ClientSessionTable

inductive LoopPhase
  | running
  /-- After a `break`, with the clean-up done. -/
  | cleaned
  /-- After an error that `?` returns. -/
  | returned
  deriving DecidableEq

/-- The loop of `relay_local_datagrams`. A local task is known by the session that it serves
and the lease that it got. -/
structure RelayLoop where
  relay : LocalRelay
  localTasks : List (UInt64 × UInt64)
  cancelled : List UInt64
  /-- Every session that was created, with the lease of its task. -/
  spawned : List (UInt64 × UInt64)
  phase : LoopPhase

structure RelayConfig where
  protocolVersion : ProtocolVersion
  tunnelId : UInt32
  limits : NegotiatedUdpLimits

inductive LoopEvent
  | shutdown
  | writerJoined
  | readFailed
  | sweep (now : Nat) (touches : Nat → List Touch)
  | joined (task : UInt64 × UInt64)
  | panicked (task : UInt64 × UInt64)
  | frame (frame : Frame) (now : Nat) (queue : QueueResult)
  | activity (touch : Touch)
  | drained (task : UInt64 × UInt64)

namespace RelayLoop

def start : RelayLoop := ⟨.new, [], [], [], .running⟩

/-- The clean-up after the loop. Every session's token is a child of `relay_shutdown`. -/
def finish (s : RelayLoop) : RelayLoop :=
  { s with
    relay := { s.relay with sessions := s.relay.sessions.clear }
    cancelled := s.cancelled ++ s.spawned.map Prod.snd
    phase := .cleaned }

/-- An error leaves the function at once: dropping the set of tasks aborts them. -/
def fail (s : RelayLoop) : RelayLoop := { s with localTasks := [], phase := .returned }

def remove (s : RelayLoop) (sessionId : UInt64) : RelayLoop :=
  { s with
    relay := { s.relay with sessions := (s.relay.sessions.remove sessionId).2 }
    cancelled := s.cancelled ++ s.relay.sessions.removeCancels sessionId }

def removeIfLease (s : RelayLoop) (sessionId lease : UInt64) : RelayLoop :=
  if s.relay.sessions.leaseOf sessionId = some lease then s.remove sessionId else s

def sweepExpired (limits : NegotiatedUdpLimits) (s : RelayLoop) (now : Nat) (touches : Nat → List Touch) : RelayLoop :=
  { s with
    relay := { s.relay with
      sessions := (s.relay.sessions.sweepExpired now limits.idleTimeout limits.sweepBatch touches).2 }
    cancelled := s.cancelled ++ ClientSessionTable.sweepCancels now limits.idleTimeout touches
      (min limits.sweepBatch (len s.relay.sessions.sessions)) s.relay.sessions }

def touch (s : RelayLoop) (c : Touch) : RelayLoop :=
  { s with relay := { s.relay with sessions := s.relay.sessions.touch c } }

/-- Hand a datagram to the local task of its session. -/
def deliver (s : RelayLoop) (sessionId : UInt64) (external : SocketAddr) (now : Nat) (queue : QueueResult) : RelayLoop :=
  match s.relay.sessions.sessions.lookup sessionId with
  | none => s
  | some session =>
      if session.external ≠ external then s
      else
        let s' := { s with relay := { s.relay with
          sessions := { s.relay.sessions with
            sessions := modify s.relay.sessions.sessions sessionId (ClientSession.touch now) } } }
        match queue with
        | .queued => s'
        | .full => s'
        | .closed => s'.remove sessionId

/-- The new session and its task, and the datagram that they are for. -/
def spawn (s : RelayLoop) (sessionId : UInt64) (external : SocketAddr) (now : Nat) (queue : QueueResult) : RelayLoop :=
  if 2 ^ 64 ≤ s.relay.nextLocalLease + 1 then s.fail
  else
    let lease := UInt64.ofNat (s.relay.nextLocalLease + 1)
    let session : ClientSession := ⟨lease, external, now, none, none⟩
    match s.relay.sessions.insert sessionId session with
    | (inserted, sessions) =>
        let s' :=
          { s with
            relay := ⟨sessions, s.relay.nextLocalLease + 1⟩
            localTasks := s.localTasks ++ [(sessionId, lease)]
            spawned := s.spawned ++ [(sessionId, lease)] }
        if inserted then s'.deliver sessionId external now queue else s'.finish

def datagram (limits : NegotiatedUdpLimits) (s : RelayLoop) (sessionId : UInt64) (external : SocketAddr) (now : Nat)
    (queue : QueueResult) : RelayLoop :=
  match s.relay.sessions.sessions.lookup sessionId with
  | some _ => s.deliver sessionId external now queue
  | none =>
      if limits.maxSessions ≤ len s.relay.sessions.sessions ∨ limits.maxSessions ≤ s.localTasks.length then s
      else s.spawn sessionId external now queue

def receive (config : RelayConfig) (s : RelayLoop) (frame : Frame) (now : Nat) (queue : QueueResult) : RelayLoop :=
  if frame.version ≠ config.protocolVersion then s.finish
  else
    match frame.message with
    | .udpDatagram datagram =>
        if datagram.tunnelId ≠ config.tunnelId ∨ datagram.sessionId = 0 then s.finish
        else if config.limits.maxPayload < datagram.payload.bytes.length then s
        else s.datagram config.limits datagram.sessionId (socketAddrFromWire datagram.source) now queue
    | .udpSessionRetired retired =>
        if retired.tunnelId ≠ config.tunnelId ∨ retired.sessionId = 0 then s.finish else s.remove retired.sessionId
    | _ => s.finish

def next (config : RelayConfig) (s : RelayLoop) (event : LoopEvent) : Option RelayLoop :=
  match s.phase, event with
  | .running, .shutdown => some s.finish
  | .running, .writerJoined => some s.finish
  | .running, .readFailed => some s.finish
  | .running, .sweep now touches => some (s.sweepExpired config.limits now touches)
  | .running, .joined task =>
      if task ∈ s.localTasks then
        some ({ s with localTasks := s.localTasks.erase task }.removeIfLease task.1 task.2)
      else none
  | .running, .panicked task => if task ∈ s.localTasks then some s.fail else none
  | .running, .frame frame now queue => some (s.receive config frame now queue)
  | .running, .activity c => some (s.touch c)
  | .cleaned, .drained task =>
      if task ∈ s.localTasks then some { s with localTasks := s.localTasks.erase task } else none
  | _, _ => none

def Step (config : RelayConfig) (s : RelayLoop) (event : LoopEvent) (t : RelayLoop) : Prop :=
  s.next config event = some t

def leaseOf (s : RelayLoop) (id : UInt64) : Option UInt64 := s.relay.sessions.leaseOf id

end RelayLoop

end Rustgo.Udp
