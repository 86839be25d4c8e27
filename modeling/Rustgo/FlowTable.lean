import Rustgo.LinkedTable
import Rustgo.SocketAddr

namespace Rustgo.Udp

open Tables LinkedTable

def maxSessionIdAttempts : Nat := 16

inductive UdpRelayError
  | invalidLimits
  | sessionAllocation
  deriving DecidableEq

/-- How many sessions one sweep looks at so that all of them are looked at
within the idle timeout. Durations are in nanoseconds. -/
def minimumSweepBatch (capacity idleTimeout sweepInterval : Nat) : Option Nat :=
  if sweepInterval = 0 then none
  else
    let sweepsBeforeTimeout := max (idleTimeout / sweepInterval) 1
    let batch := (capacity + sweepsBeforeTimeout - 1) / sweepsBeforeTimeout
    if batch < 2 ^ 64 then some batch else none

structure UdpRuntimeLimits where
  queueCapacity : Nat
  idleTimeout : Nat
  sweepInterval : Nat
  sweepBatch : Nat
  deriving DecidableEq

namespace UdpRuntimeLimits

def default : UdpRuntimeLimits where
  queueCapacity := 1024
  idleTimeout := 60 * 10 ^ 9
  sweepInterval := 10 ^ 9
  sweepBatch := 64

def effectiveSweepBatch (limits : UdpRuntimeLimits) (capacity : Nat) : Except UdpRelayError Nat :=
  match minimumSweepBatch capacity limits.idleTimeout limits.sweepInterval with
  | some minimum => .ok (max limits.sweepBatch minimum)
  | none => .error .invalidLimits

end UdpRuntimeLimits

structure FlowKey where
  source : SocketAddr
  destination : SocketAddr
  deriving DecidableEq

structure ObservedUdpTraffic where
  sentBytes : Nat
  receivedBytes : Nat
  deriving DecidableEq

namespace ObservedUdpTraffic

def zero : ObservedUdpTraffic := ⟨0, 0⟩

def saturatingAdd (counter delta : Nat) : Nat := min (counter + delta) (2 ^ 64 - 1)

def recordSent (traffic : ObservedUdpTraffic) (bytes : Nat) : ObservedUdpTraffic :=
  { traffic with sentBytes := saturatingAdd traffic.sentBytes bytes }

def recordReceived (traffic : ObservedUdpTraffic) (bytes : Nat) : ObservedUdpTraffic :=
  { traffic with receivedBytes := saturatingAdd traffic.receivedBytes bytes }

end ObservedUdpTraffic

structure FlowEntry where
  key : FlowKey
  lastActivity : Nat
  previous : Option UInt64
  next : Option UInt64
  observedTraffic : Option ObservedUdpTraffic
  deriving DecidableEq

namespace FlowEntry

def touch (now : Nat) (entry : FlowEntry) : FlowEntry := { entry with lastActivity := now }

def setPrevious (previous : Option UInt64) (entry : FlowEntry) : FlowEntry := { entry with previous := previous }

def setNext (next : Option UInt64) (entry : FlowEntry) : FlowEntry := { entry with next := next }

def observe (f : ObservedUdpTraffic → ObservedUdpTraffic) (entry : FlowEntry) : FlowEntry :=
  { entry with observedTraffic := entry.observedTraffic.map f }

def links : Links UInt64 FlowEntry where
  previous := FlowEntry.previous
  next := FlowEntry.next
  setPrevious := setPrevious
  setNext := setNext
  previous_setPrevious _ _ := rfl
  next_setPrevious _ _ := rfl
  previous_setNext _ _ := rfl
  next_setNext _ _ := rfl

end FlowEntry

inductive FlowError
  | capacity
  | entropyUnavailable
  | inconsistent
  deriving DecidableEq

structure FlowTable where
  capacity : Nat
  observeTraffic : Bool
  byFlow : Table FlowKey UInt64
  byId : Table UInt64 FlowEntry
  sweepHead : Option UInt64
  sweepTail : Option UInt64

structure ExpiredFlow where
  sessionId : UInt64
  observedTraffic : Option ObservedUdpTraffic
  deriving DecidableEq

namespace FlowTable

def new (capacity : Nat) (observeTraffic : Bool) : FlowTable where
  capacity := capacity
  observeTraffic := observeTraffic
  byFlow := ∅
  byId := ∅
  sweepHead := none
  sweepTail := none

/-- Draws from the operating system until an unused nonzero id comes up. No
draw means that the entropy source failed. -/
def drawSessionId (t : FlowTable) (draw : Nat → Option UInt64) : Nat → Nat → Except FlowError UInt64
  | _, 0 => .error .entropyUnavailable
  | i, attempts + 1 =>
      match draw i with
      | none => .error .entropyUnavailable
      | some sessionId =>
          if sessionId ≠ 0 ∧ t.byId.lookup sessionId = none then .ok sessionId
          else t.drawSessionId draw (i + 1) attempts

def allocateSessionId (t : FlowTable) (draw : Nat → Option UInt64) : Except FlowError UInt64 :=
  t.drawSessionId draw 0 maxSessionIdAttempts

def sessionFor (t : FlowTable) (key : FlowKey) (now : Nat) (draw : Nat → Option UInt64) :
    Except FlowError (UInt64 × Bool) × FlowTable :=
  match t.byFlow.lookup key with
  | some sessionId =>
      match t.byId.lookup sessionId with
      | some _ => (.ok (sessionId, false), { t with byId := modify t.byId sessionId (FlowEntry.touch now) })
      | none => (.error .inconsistent, t)
  | none =>
      if t.capacity ≤ len t.byId then (.error .capacity, t)
      else
        match t.allocateSessionId draw with
        | .error e => (.error e, t)
        | .ok sessionId =>
            let entry : FlowEntry :=
              { key := key
                lastActivity := now
                previous := t.sweepTail
                next := none
                observedTraffic := if t.observeTraffic then some .zero else none }
            let inserted :=
              { t with byFlow := t.byFlow.insert key sessionId, byId := t.byId.insert sessionId entry }
            match t.sweepTail with
            | some previous =>
                match inserted.byId.lookup previous with
                | none => (.error .inconsistent, inserted)
                | some _ =>
                    (.ok (sessionId, true),
                      { inserted with
                        byId := modify inserted.byId previous (FlowEntry.setNext (some sessionId))
                        sweepTail := some sessionId })
            | none => (.ok (sessionId, true), { inserted with sweepHead := some sessionId, sweepTail := some sessionId })

def remove (t : FlowTable) (sessionId : UInt64) : Bool × FlowTable :=
  match t.byId.lookup sessionId with
  | none => (false, t)
  | some entry =>
      let byId := t.byId.erase sessionId
      (true,
        { t with
          byFlow := t.byFlow.erase entry.key
          byId :=
            modify? (modify? byId entry.previous (FlowEntry.setNext entry.next)) entry.next
              (FlowEntry.setPrevious entry.previous)
          sweepHead := match entry.previous with | some _ => t.sweepHead | none => entry.next
          sweepTail := match entry.next with | some _ => t.sweepTail | none => entry.previous })

def rotateSweepHead (t : FlowTable) (sessionId : UInt64) : Except FlowError Unit × FlowTable :=
  if t.sweepHead ≠ some sessionId then (.error .inconsistent, t)
  else if t.sweepTail = some sessionId then (.ok (), t)
  else
    match (t.byId.lookup sessionId).bind FlowEntry.next, t.sweepTail with
    | none, _ => (.error .inconsistent, t)
    | some _, none => (.error .inconsistent, t)
    | some next, some tail =>
        match t.byId.lookup next with
        | none => (.error .inconsistent, t)
        | some _ =>
            let byId := modify t.byId next (FlowEntry.setPrevious none)
            match byId.lookup tail with
            | none => (.error .inconsistent, { t with byId := byId })
            | some _ =>
                let byId := modify byId tail (FlowEntry.setNext (some sessionId))
                match byId.lookup sessionId with
                | none => (.error .inconsistent, { t with byId := byId })
                | some _ =>
                    (.ok (),
                      { t with
                        byId := modify byId sessionId fun entry =>
                          (entry.setPrevious (some tail)).setNext none
                        sweepHead := some next
                        sweepTail := some sessionId })

def validateReply (t : FlowTable) (sessionId : UInt64) (recipient destination : SocketAddr) (now : Nat) :
    Bool × FlowTable :=
  match t.byId.lookup sessionId with
  | none => (false, t)
  | some entry =>
      if entry.key.source ≠ recipient ∨ entry.key.destination ≠ destination then (false, t)
      else (true, { t with byId := modify t.byId sessionId (FlowEntry.touch now) })

def observedTraffic (t : FlowTable) (sessionId : UInt64) : Option ObservedUdpTraffic :=
  (t.byId.lookup sessionId).bind FlowEntry.observedTraffic

/-- The counters of a session are written through a shared handle. -/
def recordTraffic (t : FlowTable) (sessionId : UInt64) (f : ObservedUdpTraffic → ObservedUdpTraffic) : FlowTable :=
  { t with byId := modify t.byId sessionId (FlowEntry.observe f) }

def isExpired (t : FlowTable) (sessionId : UInt64) (now idleTimeout : Nat) : Bool :=
  match t.byId.lookup sessionId with
  | some entry => idleTimeout ≤ now - entry.lastActivity
  | none => false

def sweepLoop (now idleTimeout : Nat) :
    Nat → FlowTable → List ExpiredFlow → Except FlowError (List ExpiredFlow) × FlowTable
  | 0, t, expired => (.ok expired, t)
  | inspected + 1, t, expired =>
      match t.sweepHead with
      | none => (.ok expired, t)
      | some sessionId =>
          if t.isExpired sessionId now idleTimeout then
            match t.remove sessionId with
            | (true, t') => sweepLoop now idleTimeout inspected t' (expired ++ [⟨sessionId, t.observedTraffic sessionId⟩])
            | (false, t') => sweepLoop now idleTimeout inspected t' expired
          else
            match t.rotateSweepHead sessionId with
            | (.ok _, t') => sweepLoop now idleTimeout inspected t' expired
            | (.error e, t') => (.error e, t')

/-- The sessions that the loop above looks at. -/
def sweepVisits (now idleTimeout : Nat) : Nat → FlowTable → List UInt64
  | 0, _ => []
  | inspected + 1, t =>
      match t.sweepHead with
      | none => []
      | some sessionId =>
          if t.isExpired sessionId now idleTimeout then
            sessionId :: sweepVisits now idleTimeout inspected (t.remove sessionId).2
          else
            match t.rotateSweepHead sessionId with
            | (.ok _, t') => sessionId :: sweepVisits now idleTimeout inspected t'
            | (.error _, _) => [sessionId]

def sweepExpired (t : FlowTable) (now idleTimeout maximum : Nat) :
    Except FlowError (List ExpiredFlow) × FlowTable :=
  sweepLoop now idleTimeout (min maximum (len t.byId)) t []

def clear (t : FlowTable) : FlowTable :=
  { t with byFlow := ∅, byId := ∅, sweepHead := none, sweepTail := none }

inductive Op
  | sessionFor (key : FlowKey) (now : Nat) (draw : Nat → Option UInt64)
  | remove (sessionId : UInt64)
  | validateReply (sessionId : UInt64) (recipient destination : SocketAddr) (now : Nat)
  | recordTraffic (sessionId : UInt64) (f : ObservedUdpTraffic → ObservedUdpTraffic)
  | sweepExpired (now idleTimeout maximum : Nat)
  | clear

/-- One operation: the error it returns, if any, and the table it leaves. -/
def perform (t : FlowTable) : Op → Option FlowError × FlowTable
  | .sessionFor key now draw =>
      match t.sessionFor key now draw with
      | (.ok _, t') => (none, t')
      | (.error e, t') => (some e, t')
  | .remove sessionId => (none, (t.remove sessionId).2)
  | .validateReply sessionId recipient destination now => (none, (t.validateReply sessionId recipient destination now).2)
  | .recordTraffic sessionId f => (none, t.recordTraffic sessionId f)
  | .sweepExpired now idleTimeout maximum =>
      match t.sweepExpired now idleTimeout maximum with
      | (.ok _, t') => (none, t')
      | (.error e, t') => (some e, t')
  | .clear => (none, t.clear)

def Step (t : FlowTable) (op : Op) (t' : FlowTable) : Prop := (t.perform op).2 = t'

/-- The sessions that an operation inspects, if it is a sweep. -/
def inspections (t : FlowTable) : Op → Option (List UInt64)
  | .sweepExpired now idleTimeout maximum => some (sweepVisits now idleTimeout (min maximum (len t.byId)) t)
  | _ => none

end FlowTable

end Rustgo.Udp
