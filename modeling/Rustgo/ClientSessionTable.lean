import Rustgo.FlowTable

namespace Rustgo.Udp

open Tables LinkedTable Protocol

inductive UdpClientError
  | invalidNegotiatedLimits
  | invalidFrame
  | invalidRuntime
  deriving DecidableEq

structure NegotiatedUdpLimits where
  maxSessions : Nat
  idleTimeout : Nat
  maxPayload : Nat
  queueCapacity : Nat
  sessionQueueCapacity : Nat
  sweepInterval : Nat
  sweepBatch : Nat
  deriving DecidableEq

def NegotiatedUdpLimits.tryFrom (request : OpenUdpChannel) : Except UdpClientError NegotiatedUdpLimits :=
  if request.hasValidLimits = false then .error .invalidNegotiatedLimits
  else
    let maxSessions := request.maxSessions.toNat
    let queueCapacity := request.queueCapacity.toNat
    let idleTimeout := request.idleTimeoutMillis.toNat * 10 ^ 6
    let sweepInterval := min idleTimeout (10 ^ 9)
    match minimumSweepBatch maxSessions idleTimeout sweepInterval with
    | none => .error .invalidNegotiatedLimits
    | some sweepBatch =>
        .ok
          { maxSessions := maxSessions
            idleTimeout := idleTimeout
            maxPayload := request.maxPayloadBytes.toNat
            queueCapacity := queueCapacity
            sessionQueueCapacity := min queueCapacity 64
            sweepInterval := sweepInterval
            sweepBatch := sweepBatch }

structure ClientSession where
  lease : UInt64
  external : SocketAddr
  lastActivity : Nat
  previous : Option UInt64
  next : Option UInt64
  deriving DecidableEq

namespace ClientSession

def touch (now : Nat) (session : ClientSession) : ClientSession := { session with lastActivity := now }

def setPrevious (previous : Option UInt64) (session : ClientSession) : ClientSession :=
  { session with previous := previous }

def setNext (next : Option UInt64) (session : ClientSession) : ClientSession := { session with next := next }

def links : Links UInt64 ClientSession where
  previous := ClientSession.previous
  next := ClientSession.next
  setPrevious := setPrevious
  setNext := setNext
  previous_setPrevious _ _ := rfl
  next_setPrevious _ _ := rfl
  previous_setNext _ _ := rfl
  next_setNext _ _ := rfl

end ClientSession

/-- A local task marks the session of its lease as active. -/
structure Touch where
  sessionId : UInt64
  lease : UInt64
  now : Nat

structure ClientSessionTable where
  sessions : Table UInt64 ClientSession
  sweepHead : Option UInt64
  sweepTail : Option UInt64

namespace ClientSessionTable

def new : ClientSessionTable := ⟨∅, none, none⟩

def insert (t : ClientSessionTable) (sessionId : UInt64) (session : ClientSession) : Bool × ClientSessionTable :=
  match t.sessions.lookup sessionId with
  | some _ => (false, t)
  | none =>
      let session := (session.setPrevious t.sweepTail).setNext none
      match t.sweepTail with
      | some previous =>
          match t.sessions.lookup previous with
          | none => (false, t)
          | some _ =>
              (true,
                { t with
                  sessions :=
                    (modify t.sessions previous (ClientSession.setNext (some sessionId))).insert sessionId session
                  sweepTail := some sessionId })
      | none =>
          (true,
            { sessions := t.sessions.insert sessionId session
              sweepHead := some sessionId
              sweepTail := some sessionId })

def remove (t : ClientSessionTable) (sessionId : UInt64) : Bool × ClientSessionTable :=
  match t.sessions.lookup sessionId with
  | none => (false, t)
  | some session =>
      (true,
        { sessions :=
            modify? (modify? (t.sessions.erase sessionId) session.previous (ClientSession.setNext session.next))
              session.next (ClientSession.setPrevious session.previous)
          sweepHead := match session.previous with | some _ => t.sweepHead | none => session.next
          sweepTail := match session.next with | some _ => t.sweepTail | none => session.previous })

def removeIfLease (t : ClientSessionTable) (sessionId lease : UInt64) : Bool × ClientSessionTable :=
  match t.sessions.lookup sessionId with
  | none => (false, t)
  | some session => if session.lease = lease then t.remove sessionId else (false, t)

def rotateSweepHead (t : ClientSessionTable) (sessionId : UInt64) : Bool × ClientSessionTable :=
  if t.sweepHead ≠ some sessionId then (false, t)
  else if t.sweepTail = some sessionId then (true, t)
  else
    match (t.sessions.lookup sessionId).bind ClientSession.next, t.sweepTail with
    | none, _ => (false, t)
    | some _, none => (false, t)
    | some next, some tail =>
        match t.sessions.lookup next with
        | none => (false, t)
        | some _ =>
            let sessions := modify t.sessions next (ClientSession.setPrevious none)
            match sessions.lookup tail with
            | none => (false, { t with sessions := sessions })
            | some _ =>
                let sessions := modify sessions tail (ClientSession.setNext (some sessionId))
                match sessions.lookup sessionId with
                | none => (false, { t with sessions := sessions })
                | some _ =>
                    (true,
                      { sessions := modify sessions sessionId fun session =>
                          (session.setPrevious (some tail)).setNext none
                        sweepHead := some next
                        sweepTail := some sessionId })

def touch (t : ClientSessionTable) (c : Touch) : ClientSessionTable :=
  { t with
    sessions := modify t.sessions c.sessionId fun session =>
      if session.lease = c.lease then session.touch c.now else session }

def touchAll (t : ClientSessionTable) (touches : List Touch) : ClientSessionTable := touches.foldl touch t

def isExpired (t : ClientSessionTable) (sessionId : UInt64) (now idleTimeout : Nat) : Bool :=
  match t.sessions.lookup sessionId with
  | some session => idleTimeout ≤ now - session.lastActivity
  | none => false

/-- The local tasks run beside the sweep: `touches` are the activities they
record before each inspection. -/
def sweepLoop (now idleTimeout : Nat) (touches : Nat → List Touch) :
    Nat → ClientSessionTable → Nat → Nat × ClientSessionTable
  | 0, t, expired => (expired, t)
  | inspected + 1, t, expired =>
      let t := t.touchAll (touches inspected)
      match t.sweepHead with
      | none => (expired, t)
      | some sessionId =>
          if t.isExpired sessionId now idleTimeout then
            match t.remove sessionId with
            | (true, t') => sweepLoop now idleTimeout touches inspected t' (expired + 1)
            | (false, t') => sweepLoop now idleTimeout touches inspected t' expired
          else
            match t.rotateSweepHead sessionId with
            | (true, t') => sweepLoop now idleTimeout touches inspected t' expired
            | (false, t') => (expired, t')

/-- The sessions that the loop above looks at, each with the activity that is
read. -/
def sweepVisits (now idleTimeout : Nat) (touches : Nat → List Touch) :
    Nat → ClientSessionTable → List (UInt64 × Option Nat)
  | 0, _ => []
  | inspected + 1, t =>
      let t := t.touchAll (touches inspected)
      match t.sweepHead with
      | none => []
      | some sessionId =>
          let visit := (sessionId, (t.sessions.lookup sessionId).map ClientSession.lastActivity)
          if t.isExpired sessionId now idleTimeout then
            visit :: sweepVisits now idleTimeout touches inspected (t.remove sessionId).2
          else
            match t.rotateSweepHead sessionId with
            | (true, t') => visit :: sweepVisits now idleTimeout touches inspected t'
            | (false, _) => [visit]

def sweepExpired (t : ClientSessionTable) (now idleTimeout maximum : Nat) (touches : Nat → List Touch) :
    Nat × ClientSessionTable :=
  sweepLoop now idleTimeout touches (min maximum (len t.sessions)) t 0

def clear (_ : ClientSessionTable) : ClientSessionTable := ⟨∅, none, none⟩

end ClientSessionTable

inductive QueueResult
  | queued
  | full
  | closed
  deriving DecidableEq

/-- What the relay of one UDP channel keeps at the client. -/
structure LocalRelay where
  sessions : ClientSessionTable
  nextLocalLease : Nat

namespace LocalRelay

def new : LocalRelay := ⟨.new, 0⟩

def deliver (r : LocalRelay) (sessionId : UInt64) (external : SocketAddr) (now : Nat) (queue : QueueResult) : LocalRelay :=
  match r.sessions.sessions.lookup sessionId with
  | none => r
  | some session =>
      if session.external ≠ external then r
      else
        let sessions : ClientSessionTable :=
          { r.sessions with sessions := modify r.sessions.sessions sessionId (ClientSession.touch now) }
        match queue with
        | .closed => { r with sessions := (sessions.remove sessionId).2 }
        | .queued => { r with sessions := sessions }
        | .full => { r with sessions := sessions }

def receive (limits : NegotiatedUdpLimits) (r : LocalRelay) (sessionId : UInt64) (external : SocketAddr) (now localTasks : Nat)
    (queue : QueueResult) : Option UdpClientError × LocalRelay :=
  if sessionId = 0 then (some .invalidFrame, r)
  else
    match r.sessions.sessions.lookup sessionId with
    | some _ => (none, r.deliver sessionId external now queue)
    | none =>
        if limits.maxSessions ≤ len r.sessions.sessions ∨ limits.maxSessions ≤ localTasks then (none, r)
        else if 2 ^ 64 ≤ r.nextLocalLease + 1 then (some .invalidRuntime, r)
        else
          let lease := r.nextLocalLease + 1
          let session : ClientSession := ⟨UInt64.ofNat lease, external, now, none, none⟩
          match r.sessions.insert sessionId session with
          | (false, sessions) => (some .invalidRuntime, ⟨sessions, lease⟩)
          | (true, sessions) => (none, deliver ⟨sessions, lease⟩ sessionId external now queue)

inductive Op
  | datagram (sessionId : UInt64) (external : SocketAddr) (now localTasks : Nat) (queue : QueueResult)
  | retired (sessionId : UInt64)
  | finished (sessionId lease : UInt64)
  | activity (touch : Touch)
  | sweep (now : Nat) (touches : Nat → List Touch)
  | clear

/-- One event of the relay loop. -/
def perform (limits : NegotiatedUdpLimits) (r : LocalRelay) : Op → Option UdpClientError × LocalRelay
  | .datagram sessionId external now localTasks queue => receive limits r sessionId external now localTasks queue
  | .retired sessionId =>
      if sessionId = 0 then (some .invalidFrame, r) else (none, { r with sessions := (r.sessions.remove sessionId).2 })
  | .finished sessionId lease => (none, { r with sessions := (r.sessions.removeIfLease sessionId lease).2 })
  | .activity touch => (none, { r with sessions := r.sessions.touch touch })
  | .sweep now touches =>
      (none, { r with sessions := (r.sessions.sweepExpired now limits.idleTimeout limits.sweepBatch touches).2 })
  | .clear => (none, { r with sessions := r.sessions.clear })

def performAll (limits : NegotiatedUdpLimits) (r : LocalRelay) (ops : List Op) : LocalRelay :=
  ops.foldl (fun r op => (r.perform limits op).2) r

/-- The sessions that an event inspects, if it is a sweep. -/
def inspections (limits : NegotiatedUdpLimits) (r : LocalRelay) : Op → Option (List (UInt64 × Option Nat))
  | .sweep now touches =>
      some (r.sessions.sweepVisits now limits.idleTimeout touches (min limits.sweepBatch (len r.sessions.sessions)))
  | _ => none

end LocalRelay

end Rustgo.Udp
