import Rustgo.PeerBucket
import Rustgo.Tables
import Mathlib.Data.Prod.Lex

namespace Rustgo.AuthLimiter

open PeerBucket Tables

def usizeMax : Nat := 2 ^ 64 - 1

def saturatingAdd (a b : Nat) : Nat := min (a + b) usizeMax

/-- A subtraction that panics, or wraps around, when the result is negative. -/
def checkedSub (a b : Nat) : Option Nat := if b ≤ a then some (a - b) else none

/-- Instants and durations count nanoseconds. -/
structure FailedAuthLimiter where
  maxAttempts : Nat
  window : Nat
  maxTrackedPeers : Nat
  maxAttemptRecords : Nat
  maxAttemptsPerWindow : Nat
  attempts_le : maxAttempts ≤ usizeMax
  records_le : maxAttemptRecords ≤ usizeMax

structure PeerAttempts where
  failures : List Nat
  pending : Nat
  deriving DecidableEq

structure AttemptBudgetShard where
  windowStarted : Option Nat
  used : Nat
  capacity : Nat
  deriving DecidableEq

/-- Opens a new window where none is open or the last one is over. -/
def AttemptBudgetShard.roll (shard : AttemptBudgetShard) (now : Nat) (window : Nat) : AttemptBudgetShard :=
  if shard.windowStarted.all fun started => window ≤ now - started then
    { shard with windowStarted := some now, used := 0 }
  else shard

/-- The keys of the idle indexes, in their derived order. -/
abbrev IdleKey := Nat ×ₗ PeerBucket

structure FailedAuthState where
  buckets : Table PeerBucket PeerAttempts
  evictableIdleFailures : Finset IdleKey
  protectedIdleFailures : Finset IdleKey
  attemptBudget : Fin attemptShards → AttemptBudgetShard
  overflowPendingByPeer : Table PeerBucket Nat
  totalFailureRecords : Nat
  totalPending : Nat
  totalOverflowPending : Nat

structure AuthAttemptReservation where
  peer : PeerBucket
  tracked : Bool
  resolved : Bool
  deriving DecidableEq

inductive ReservationOutcome
  | succeeded
  | failed
  | neutral
  deriving DecidableEq

def trimExpired (attempts : List Nat) (now : Nat) (window : Nat) : List Nat :=
  attempts.dropWhile fun attempt => window ≤ now - attempt

namespace FailedAuthState

def new (maxAttemptsPerWindow : Nat) : FailedAuthState where
  buckets := ∅
  evictableIdleFailures := ∅
  protectedIdleFailures := ∅
  attemptBudget shard :=
    ⟨none, 0, maxAttemptsPerWindow / attemptShards +
      if shard.val < maxAttemptsPerWindow % attemptShards then 1 else 0⟩
  overflowPendingByPeer := ∅
  totalFailureRecords := 0
  totalPending := 0
  totalOverflowPending := 0

def consumeAttemptBudget (s : FailedAuthState) (peer : PeerBucket) (now : Nat) (window : Nat) :
    Bool × FailedAuthState :=
  let shard := (s.attemptBudget peer.attemptShard).roll now window
  if shard.capacity ≤ shard.used then
    (false, { s with attemptBudget := Function.update s.attemptBudget peer.attemptShard shard })
  else
    (true, { s with
      attemptBudget := Function.update s.attemptBudget peer.attemptShard { shard with used := shard.used + 1 } })

def refundAttemptBudget (s : FailedAuthState) (peer : PeerBucket) : FailedAuthState :=
  let shard := s.attemptBudget peer.attemptShard
  { s with attemptBudget := Function.update s.attemptBudget peer.attemptShard { shard with used := shard.used - 1 } }

def overflowPendingFor (s : FailedAuthState) (peer : PeerBucket) : Nat :=
  (s.overflowPendingByPeer.lookup peer).getD 0

/-- The entry is created even when the reservation is refused. -/
def tryReserveOverflow (s : FailedAuthState) (peer : PeerBucket) (peerHeadroom : Nat) : Bool × FailedAuthState :=
  let pending := s.overflowPendingFor peer
  if peerHeadroom ≤ pending then
    (false, { s with overflowPendingByPeer := s.overflowPendingByPeer.insert peer pending })
  else
    (true, { s with
      overflowPendingByPeer := s.overflowPendingByPeer.insert peer (pending + 1)
      totalOverflowPending := s.totalOverflowPending + 1 })

def releaseOverflow (s : FailedAuthState) (peer : PeerBucket) : Option (Bool × FailedAuthState) :=
  match s.overflowPendingByPeer.lookup peer with
  | none => some (false, s)
  | some 0 => some (false, s)
  | some (pending + 1) => do
      let totalOverflowPending ← checkedSub s.totalOverflowPending 1
      let overflowPendingByPeer :=
        if pending = 0 then s.overflowPendingByPeer.erase peer else s.overflowPendingByPeer.insert peer pending
      pure (true, { s with overflowPendingByPeer, totalOverflowPending })

/-- Takes the key of an idle bucket out of both indexes. -/
def unindex (s : FailedAuthState) (peer : PeerBucket) (bucket : PeerAttempts) : FailedAuthState :=
  if bucket.pending = 0 then
    match bucket.failures.getLast? with
    | some lastFailure =>
        { s with
          evictableIdleFailures := s.evictableIdleFailures.erase (toLex (lastFailure, peer))
          protectedIdleFailures := s.protectedIdleFailures.erase (toLex (lastFailure, peer)) }
    | none => s
  else s

/-- Takes a bucket and its key out of the state. -/
def takeOut (s : FailedAuthState) (peer : PeerBucket) (bucket : PeerAttempts) : FailedAuthState :=
  unindex { s with buckets := s.buckets.erase peer } peer bucket

def clearPeerFailures (s : FailedAuthState) (peer : PeerBucket) : Option FailedAuthState :=
  match s.buckets.lookup peer with
  | none => some s
  | some bucket => do
      let s := s.takeOut peer bucket
      let totalFailureRecords ← checkedSub s.totalFailureRecords bucket.failures.length
      let s := { s with totalFailureRecords }
      if bucket.pending ≠ 0 then
        pure { s with buckets := s.buckets.insert peer ⟨[], bucket.pending⟩ }
      else pure s

def insertBucket (s : FailedAuthState) (peer : PeerBucket) (bucket : PeerAttempts) (maxAttempts : Nat) :
    FailedAuthState :=
  if bucket.pending = 0 then
    match bucket.failures.getLast? with
    | none => s
    | some lastFailure =>
        let s := { s with buckets := s.buckets.insert peer bucket }
        if maxAttempts ≤ bucket.failures.length then
          { s with protectedIdleFailures := insert (toLex (lastFailure, peer)) s.protectedIdleFailures }
        else
          { s with evictableIdleFailures := insert (toLex (lastFailure, peer)) s.evictableIdleFailures }
  else { s with buckets := s.buckets.insert peer bucket }

/-- Drops the records of a bucket whose key has left its index. -/
def dropBucket (s : FailedAuthState) (peer : PeerBucket) : Option (Bool × FailedAuthState) :=
  match s.buckets.lookup peer with
  | none => some (false, s)
  | some bucket => do
      let totalFailureRecords ← checkedSub s.totalFailureRecords bucket.failures.length
      pure (true, { s with buckets := s.buckets.erase peer, totalFailureRecords })

def evictOneLowValueIdle (s : FailedAuthState) : Option (Bool × FailedAuthState) :=
  match first? s.evictableIdleFailures with
  | none => some (false, s)
  | some key =>
      dropBucket { s with evictableIdleFailures := s.evictableIdleFailures.erase key } (ofLex key).2

def reclaimOneExpiredProtected (s : FailedAuthState) (now : Nat) (window : Nat) :
    Option (Bool × FailedAuthState) :=
  match first? s.protectedIdleFailures with
  | none => some (false, s)
  | some key =>
      if now - (ofLex key).1 < window then some (false, s)
      else dropBucket { s with protectedIdleFailures := s.protectedIdleFailures.erase key } (ofLex key).2

def indexSize (s : FailedAuthState) : Nat := s.evictableIdleFailures.card + s.protectedIdleFailures.card

/-- The second way is tried only when the first one freed nothing. -/
def freeOne (s : FailedAuthState) (now : Nat) (window : Nat) : Option (Bool × FailedAuthState) := do
  match ← s.evictOneLowValueIdle with
  | (true, s) => pure (true, s)
  | (false, s) => s.reclaimOneExpiredProtected now window

end FailedAuthState

namespace FailedAuthLimiter

open FailedAuthState

variable (limiter : FailedAuthLimiter)

/-- Takes the peer's bucket out of the state and drops its expired failures. -/
def checkOut (s : FailedAuthState) (peer : PeerBucket) (now : Nat) :
    Option (Option PeerAttempts × FailedAuthState) :=
  match s.buckets.lookup peer with
  | none => some (none, s)
  | some bucket => do
      let s := s.takeOut peer bucket
      let failures := trimExpired bucket.failures now limiter.window
      let totalFailureRecords ← checkedSub s.totalFailureRecords (bucket.failures.length - failures.length)
      pure (some ⟨failures, bucket.pending⟩, { s with totalFailureRecords })

def putBack (s : FailedAuthState) (peer : PeerBucket) : Option PeerAttempts → FailedAuthState
  | none => s
  | some bucket => s.insertBucket peer bucket limiter.maxAttempts

def trackedRecords (bucket : Option PeerAttempts) : Nat :=
  match bucket with
  | none => 0
  | some existing => saturatingAdd existing.failures.length existing.pending

def needsRoom (s : FailedAuthState) (isNewPeer : Bool) : Bool :=
  (isNewPeer && decide (limiter.maxTrackedPeers ≤ len s.buckets)) ||
    decide (limiter.maxAttemptRecords ≤ saturatingAdd s.totalFailureRecords s.totalPending)

/-- The eviction loop. Each turn takes a key out of an index, so one turn more
than there are keys is enough. The result says whether there is room. -/
def makeRoom (isNewPeer : Bool) (now : Nat) : Nat → FailedAuthState → Option (Bool × FailedAuthState)
  | 0, _ => none
  | turns + 1, s =>
      if limiter.needsRoom s isNewPeer then do
        match ← s.freeOne now limiter.window with
        | (true, s) => makeRoom isNewPeer now turns s
        | (false, s) => pure (false, s)
      else some (true, s)

def track (s : FailedAuthState) (peer : PeerBucket) (bucket : Option PeerAttempts) :
    AuthAttemptReservation × FailedAuthState :=
  let bucket := bucket.getD ⟨[], 0⟩
  (⟨peer, true, false⟩, { s with
    totalPending := s.totalPending + 1
    buckets := s.buckets.insert peer { bucket with pending := bucket.pending + 1 } })

/-- The reservation that no record can be kept for, when nothing is evictable. -/
def reserveUntracked (s : FailedAuthState) (peer : PeerBucket) (bucket : Option PeerAttempts) :
    Option AuthAttemptReservation × FailedAuthState :=
  if s.totalFailureRecords = 0 ∨
      limiter.maxAttemptRecords ≤ saturatingAdd s.totalPending s.totalOverflowPending then
    (none, (limiter.putBack s peer bucket).refundAttemptBudget peer)
  else
    match s.tryReserveOverflow peer (limiter.maxAttempts - trackedRecords bucket) with
    | (false, s) => (none, (limiter.putBack s peer bucket).refundAttemptBudget peer)
    | (true, s) => (some ⟨peer, false, false⟩, limiter.putBack s peer bucket)

def reserve (s : FailedAuthState) (address : IpAddr) (now : Nat) :
    Option (Option AuthAttemptReservation × FailedAuthState) := do
  let peer := ofIpAddr address
  let (bucket, s) ← limiter.checkOut s peer now
  if limiter.maxAttempts ≤ saturatingAdd (trackedRecords bucket) (s.overflowPendingFor peer) then
    pure (none, limiter.putBack s peer bucket)
  else if limiter.maxAttemptRecords ≤ saturatingAdd s.totalPending s.totalOverflowPending then
    pure (none, limiter.putBack s peer bucket)
  else
    match s.consumeAttemptBudget peer now limiter.window with
    | (false, s) => pure (none, limiter.putBack s peer bucket)
    | (true, s) => do
        match ← limiter.makeRoom bucket.isNone now (s.indexSize + 1) s with
        | (true, s) =>
            let (reservation, s) := track s peer bucket
            pure (some reservation, s)
        | (false, s) => pure (limiter.reserveUntracked s peer bucket)

/-- The failures and the record count that an outcome leaves. -/
def settle (failures : List Nat) (records : Nat) (recordAt : Nat) :
    ReservationOutcome → Option (List Nat × Nat)
  | .succeeded => do
      let records ← checkedSub records failures.length
      pure ([], records)
  | .failed => some (failures ++ [recordAt], records + 1)
  | .neutral => some (failures, records)

/-- The clock is read once to drop expired failures and once to record one. -/
def resolve (s : FailedAuthState) (peer : PeerBucket) (tracked : Bool) (outcome : ReservationOutcome)
    (trimAt recordAt : Nat) : Option FailedAuthState :=
  if tracked then
    match s.buckets.lookup peer with
    | none => some s
    | some bucket =>
        let s := { s with buckets := s.buckets.erase peer }
        if bucket.pending = 0 then some (s.insertBucket peer bucket limiter.maxAttempts)
        else do
          let totalPending ← checkedSub s.totalPending 1
          let failures := trimExpired bucket.failures trimAt limiter.window
          let records ← checkedSub s.totalFailureRecords (bucket.failures.length - failures.length)
          let (failures, totalFailureRecords) ← settle failures records recordAt outcome
          let s := { s with totalPending, totalFailureRecords }
          if bucket.pending - 1 ≠ 0 ∨ failures ≠ [] then
            pure (s.insertBucket peer ⟨failures, bucket.pending - 1⟩ limiter.maxAttempts)
          else pure s
  else do
    let (released, s) ← s.releaseOverflow peer
    if released ∧ outcome = .succeeded then s.clearPeerFailures peer else pure s

end FailedAuthLimiter

/-- What the budget of a shard let through, and in which of its windows. -/
structure Admission where
  shard : Fin attemptShards
  started : Nat
  time : Nat
  deriving DecidableEq

/-- The limiter with every reservation handed out so far. The clock is the last
reading, and the admissions are a history no operation reads. -/
structure System where
  state : FailedAuthState
  reservations : List AuthAttemptReservation
  clock : Nat
  admissions : List Admission

inductive Op
  | reserve (address : IpAddr) (now : Nat)
  | finish (index : Nat) (outcome : ReservationOutcome) (trimAt recordAt : Nat)

namespace System

def new (limiter : FailedAuthLimiter) (clock : Nat) : System :=
  ⟨FailedAuthState.new limiter.maxAttemptsPerWindow, [], clock, []⟩

def grant (sys : System) (now : Nat) (state : FailedAuthState) : Option AuthAttemptReservation → System
  | none => { sys with state, clock := now }
  | some r =>
      let shard := r.peer.attemptShard
      { state
        reservations := sys.reservations ++ [r]
        clock := now
        admissions := sys.admissions ++ [⟨shard, (state.attemptBudget shard).windowStarted.getD now, now⟩] }

/-- `succeed`, `fail` and the drop of a reservation all finish it, once. -/
def apply (limiter : FailedAuthLimiter) (sys : System) : Op → Option System
  | .reserve address now => do
      let (reservation, state) ← limiter.reserve sys.state address now
      pure (sys.grant now state reservation)
  | .finish index outcome trimAt recordAt =>
      match sys.reservations[index]? with
      | none => some { sys with clock := recordAt }
      | some r =>
          if r.resolved then some { sys with clock := recordAt }
          else do
            let state ← limiter.resolve sys.state r.peer r.tracked outcome trimAt recordAt
            pure { sys with
              state
              reservations := sys.reservations.set index { r with resolved := true }
              clock := recordAt }

end System

/-- The clock readings of an operation, in order. -/
def Op.Monotone (op : Op) (clock : Nat) : Prop :=
  match op with
  | .reserve _ now => clock ≤ now
  | .finish _ _ trimAt recordAt => clock ≤ trimAt ∧ trimAt ≤ recordAt

instance (op : Op) (clock : Nat) : Decidable (op.Monotone clock) :=
  match op with
  | .reserve _ now => inferInstanceAs (Decidable (clock ≤ now))
  | .finish _ _ trimAt recordAt => inferInstanceAs (Decidable (clock ≤ trimAt ∧ trimAt ≤ recordAt))

def Step (limiter : FailedAuthLimiter) (sys : System) (op : Op) (sys' : System) : Prop :=
  op.Monotone sys.clock ∧ sys.apply limiter op = some sys'

def next (limiter : FailedAuthLimiter) (sys : System) (op : Op) : Option System :=
  if op.Monotone sys.clock then sys.apply limiter op else none

theorem step_of_next {limiter : FailedAuthLimiter} (sys : System) (op : Op) (sys' : System)
    (h : next limiter sys op = some sys') : Step limiter sys op sys' := by
  by_cases hop : op.Monotone sys.clock
  · exact ⟨hop, by rwa [next, if_pos hop] at h⟩
  · rw [next, if_neg hop] at h
    exact absurd h (by simp)

end Rustgo.AuthLimiter
