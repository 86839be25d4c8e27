import Rustgo.HistoryStore

namespace Rustgo.HistoryQueue

open Checks History

def HISTORY_BATCH_QUEUE_CAPACITY : Nat := 1024
def MAX_HISTORY_QUEUE_BYTES : Nat := 64 * 1024 * 1024
def HISTORY_CONTROL_QUEUE_CAPACITY : Nat := 128
def MAX_BATCH_WRITE_ATTEMPTS : Nat := 3
def MAX_BATCHES_PER_TRANSACTION : Nat := 64
def MAX_TRANSACTION_BYTES : Nat := 4 * 1024 * 1024

/-- A batch, told apart from the others by the number of its publication. -/
structure QueuedBatch where
  batch : Nat
  ownedBytes : Nat
  deriving DecidableEq

inductive Command
  | batch (batch : QueuedBatch)
  | query
  | maintain
  | checkpoint
  deriving DecidableEq

inductive HistoryPublishError
  | closed
  | batchMemoryTooLarge
  deriving DecidableEq

inductive HistoryQueryError
  | closed
  | overloaded
  deriving DecidableEq

def Command.batch? : Command → Option QueuedBatch
  | .batch queued => some queued
  | _ => none

def Command.isBatch (command : Command) : Bool := command.batch?.isSome

def bytes (batches : List QueuedBatch) : Nat := (batches.map QueuedBatch.ownedBytes).sum

/-- The queue behind its lock. `exact` keeps whether every subtraction so far
had enough to subtract from. -/
structure QueueState where
  commands : List Command
  queuedBatches : Nat
  pendingBatches : Nat
  pendingControls : Nat
  pendingBatchBytes : Nat
  closed : Bool
  exact : Bool

namespace QueueState

def new : QueueState := ⟨[], 0, 0, 0, 0, false, true⟩

def batches (q : QueueState) : List QueuedBatch := q.commands.filterMap Command.batch?

/-- A command has been taken out, and the rest stays. -/
def take (q : QueueState) (command : Command) (rest : List Command) : QueueState :=
  if command.isBatch then
    { q with commands := rest, queuedBatches := q.queuedBatches - 1, exact := q.exact && decide (1 ≤ q.queuedBatches) }
  else
    { q with commands := rest, pendingControls := q.pendingControls - 1, exact := q.exact && decide (1 ≤ q.pendingControls) }

def forget (q : QueueState) (count ownedBytes : Nat) : QueueState :=
  { q with
    pendingBatches := q.pendingBatches - count
    pendingBatchBytes := q.pendingBatchBytes - ownedBytes
    exact := q.exact && decide (count ≤ q.pendingBatches) && decide (ownedBytes ≤ q.pendingBatchBytes) }

def evict (q : QueueState) (evicted : QueuedBatch) : QueueState :=
  (q.take (.batch evicted) (q.commands.eraseP Command.isBatch)).forget 1 evicted.ownedBytes

def full (q : QueueState) (batch : QueuedBatch) : Bool :=
  HISTORY_BATCH_QUEUE_CAPACITY ≤ q.pendingBatches || MAX_HISTORY_QUEUE_BYTES < saturatingAdd q.pendingBatchBytes batch.ownedBytes

def enqueue (q : QueueState) (batch : QueuedBatch) : QueueState :=
  { q with
    commands := q.commands ++ [.batch batch]
    queuedBatches := q.queuedBatches + 1
    pendingBatches := q.pendingBatches + 1
    pendingBatchBytes := saturatingAdd q.pendingBatchBytes batch.ownedBytes }

def pushControl (q : QueueState) (command : Command) : Except HistoryQueryError QueueState := do
  require (q.closed = false) .closed
  require (q.pendingControls < HISTORY_CONTROL_QUEUE_CAPACITY) .overloaded
  pure { q with commands := q.commands ++ [command], pendingControls := q.pendingControls + 1 }

def pop (q : QueueState) : Option Command × QueueState :=
  match q.commands with
  | [] => (none, q)
  | command :: rest => (some command, q.take command rest)

def popControl (q : QueueState) : Option Command × QueueState :=
  match q.commands with
  | [] => (none, q)
  | command :: rest => if command.isBatch then (none, q) else (some command, q.take command rest)

/-- Batches from the front join a transaction until it has enough of them. -/
def drain (q : QueueState) (batches : List QueuedBatch) (transactionBytes : Nat) :
    List Command → List QueuedBatch × QueueState
  | .batch next :: rest =>
      if batches.length < MAX_BATCHES_PER_TRANSACTION ∧
          ¬(batches ≠ [] ∧ MAX_TRANSACTION_BYTES < saturatingAdd transactionBytes next.ownedBytes) then
        (q.take (.batch next) rest).drain (batches ++ [next]) (saturatingAdd transactionBytes next.ownedBytes) rest
      else (batches, q)
  | _ => (batches, q)

def drainFollowingBatches (q : QueueState) (batches : List QueuedBatch) : List QueuedBatch × QueueState :=
  q.drain batches ((batches.map QueuedBatch.ownedBytes).foldl saturatingAdd 0) q.commands

def failPendingControls (q : QueueState) : QueueState :=
  { q with commands := q.commands.filter Command.isBatch, pendingControls := 0 }

def close (q : QueueState) : QueueState := { q with closed := true }

def releaseOwnedBatch (q : QueueState) (batch : QueuedBatch) : QueueState := q.forget 1 batch.ownedBytes

end QueueState

/-- What the handles and the worker share. `left` keeps the accepted batches
that left the accounting, `dropped` those of them that were counted as dropped,
and `refused` counts the batches dropped without having been accepted. -/
structure Shared where
  queue : QueueState
  droppedBatches : Nat
  droppedBatchBytes : Nat
  historyFailures : Nat
  left : List QueuedBatch
  dropped : List QueuedBatch
  refused : Nat

namespace Shared

def new : Shared := ⟨.new, 0, 0, 0, [], [], 0⟩

def countDropped (s : Shared) (count ownedBytes : Nat) : Shared :=
  { s with
    droppedBatches := (s.droppedBatches + count) % 2 ^ 64
    droppedBatchBytes := (s.droppedBatchBytes + ownedBytes) % 2 ^ 64 }

def refuse (s : Shared) (batch : QueuedBatch) : Shared :=
  { s.countDropped 1 batch.ownedBytes with refused := s.refused + 1 }

def evict (s : Shared) (evicted : QueuedBatch) : Shared :=
  { s.countDropped 1 evicted.ownedBytes with
    queue := s.queue.evict evicted
    left := s.left ++ [evicted]
    dropped := s.dropped ++ [evicted] }

/-- Evicts the queued batches, the oldest first, while the new one does not fit. -/
def makeRoom (s : Shared) (batch : QueuedBatch) : List QueuedBatch → Bool × Shared
  | [] => (!s.queue.full batch, s)
  | evicted :: later => if s.queue.full batch then (s.evict evicted).makeRoom batch later else (true, s)

def pushBatch (s : Shared) (batch : QueuedBatch) : Except HistoryPublishError Unit × Shared :=
  if s.queue.closed then (.error .closed, s)
  else
    match s.makeRoom batch s.queue.batches with
    | (false, s) => (.error .batchMemoryTooLarge, s.refuse batch)
    | (true, s) => (.ok (), { s with queue := s.queue.enqueue batch })

def discardBatchesWhenClosed (s : Shared) : Shared :=
  if s.queue.closed = false then s
  else
    let discardedBatches := s.queue.batches.length
    let discardedBytes := (s.queue.batches.map QueuedBatch.ownedBytes).foldl saturatingAdd 0
    { s.countDropped discardedBatches discardedBytes with
      queue := { s.queue.forget discardedBatches discardedBytes with commands := [], queuedBatches := 0, pendingControls := 0 }
      left := s.left ++ s.queue.batches
      dropped := s.dropped ++ s.queue.batches }

def releaseOwnedBatch (s : Shared) (batch : QueuedBatch) : Shared :=
  { s with queue := s.queue.releaseOwnedBatch batch, left := s.left ++ [batch] }

def recordDroppedBatch (s : Shared) (batch : QueuedBatch) : Shared :=
  { s.countDropped 1 batch.ownedBytes with dropped := s.dropped ++ [batch] }

def databaseFailed (s : Shared) : Shared := { s with historyFailures := (s.historyFailures + 1) % 2 ^ 64 }

end Shared

/-- Where the worker's loop stands between two uses of what it shares. -/
inductive Stage
  | top
  | closing
  | failing
  | discarding
  | returned
  | unconnected
  | opening
  | retrying
  | retry (batch : QueuedBatch) (attempts : Nat)
  | release (batches : List QueuedBatch) (retried : Bool)
  | abandon (batch : QueuedBatch) (closing : Bool)
  | record (batch : QueuedBatch) (closing : Bool)
  | background
  | taking
  | drain (batch : QueuedBatch)
  | persist (batches : List QueuedBatch)
  | serve (command : Command)
  deriving DecidableEq

/-- What a turn of the worker meets outside the queue: a transaction can fail
before or after it has committed. -/
inductive Outcome
  | go
  | again
  | ok
  | fail (committed : Bool)
  | take (controls : Bool)

structure System where
  shared : Shared
  stage : Stage
  retryBatches : List (QueuedBatch × Nat)
  connected : Bool
  maximumDatabaseBytes : Nat
  published : Nat
  accepted : List QueuedBatch
  persisted : List QueuedBatch

inductive Label
  | tryPublish (ownedBytes : Nat)
  | pushBatch (ownedBytes : Nat)
  | pushControl (command : Command)
  | close
  | work (outcome : Outcome)

namespace System

def new (maximumDatabaseBytes : Nat) : System := ⟨.new, .top, [], false, maximumDatabaseBytes, 0, [], []⟩

def goto (s : System) (stage : Stage) : System := { s with stage := stage }

/-- The connection is given up and the loop starts over. -/
def fail (s : System) : System := { s with shared := s.shared.databaseFailed, connected := false, stage := .top }

def withQueue (s : System) (queue : QueueState) : System := { s with shared := { s.shared with queue := queue } }

def pushBatch (s : System) (ownedBytes : Nat) : System :=
  let batch : QueuedBatch := ⟨s.published, ownedBytes⟩
  match s.shared.pushBatch batch with
  | (.ok (), shared) => { s with shared := shared, published := s.published + 1, accepted := s.accepted ++ [batch] }
  | (.error _, shared) => { s with shared := shared, published := s.published + 1 }

def tryPublish (s : System) (ownedBytes : Nat) : System :=
  if MAX_HISTORY_QUEUE_BYTES < ownedBytes ∨ s.maximumDatabaseBytes < ownedBytes then
    { s with shared := s.shared.refuse ⟨s.published, ownedBytes⟩, published := s.published + 1 }
  else s.pushBatch ownedBytes

/-- A batch whose write has failed is tried again, at most three times in all. -/
def retryFailed (s : System) (batch : QueuedBatch) (attempts : Nat) : System :=
  if attempts + 1 < MAX_BATCH_WRITE_ATTEMPTS then { s.fail with retryBatches := (batch, attempts + 1) :: s.retryBatches }
  else s.fail.goto (.abandon batch false)

def take (s : System) : Option Command × QueueState → System
  | (none, queue) => (s.withQueue queue).goto .top
  | (some (.batch batch), queue) => (s.withQueue queue).goto (.drain batch)
  | (some command, queue) => (s.withQueue queue).goto (.serve command)

/-- One turn of `run_blocking` between two uses of the queue or the database. -/
def work (s : System) (outcome : Outcome) : Option System :=
  match s.stage, outcome with
  | .top, .go =>
      some (s.goto (if s.shared.queue.closed then .closing else if s.connected then .retrying else .unconnected))
  | .closing, .go =>
      match s.retryBatches with
      | [] => some (s.goto .failing)
      | (batch, _) :: rest => some { s with retryBatches := rest, stage := .abandon batch true }
  | .failing, .go => some ((s.withQueue s.shared.queue.failPendingControls).goto .discarding)
  | .discarding, .go => some { s with shared := s.shared.discardBatchesWhenClosed, stage := .returned }
  | .unconnected, .go =>
      some ((if 0 < s.shared.historyFailures then s.withQueue s.shared.queue.failPendingControls else s).goto .opening)
  | .opening, .again => some (s.goto .top)
  | .opening, .ok => some { s with connected := true, stage := .retrying }
  | .opening, .fail _ => some s.fail
  | .retrying, .go =>
      match s.retryBatches with
      | [] => some (s.goto .background)
      | (batch, attempts) :: rest => some { s with retryBatches := rest, stage := .retry batch attempts }
  | .retry batch _, .ok => some { s with persisted := s.persisted ++ [batch], stage := .release [batch] true }
  | .retry batch attempts, .fail committed =>
      some ({ s with persisted := s.persisted ++ if committed then [batch] else [] }.retryFailed batch attempts)
  | .release [] retried, .go => some (s.goto (if retried then .background else .top))
  | .release (batch :: rest) retried, .go =>
      some { s with shared := s.shared.releaseOwnedBatch batch, stage := .release rest retried }
  | .abandon batch closing, .go => some { s with shared := s.shared.releaseOwnedBatch batch, stage := .record batch closing }
  | .record batch closing, .go =>
      some { s with shared := s.shared.recordDroppedBatch batch, stage := if closing then .closing else .top }
  | .background, .ok => some (s.goto .taking)
  | .background, .again => some (s.goto .top)
  | .background, .fail _ => some s.fail
  | .taking, .take controls => some (s.take (if controls then s.shared.queue.popControl else s.shared.queue.pop))
  | .drain batch, .go =>
      let (batches, queue) := s.shared.queue.drainFollowingBatches [batch]
      some ((s.withQueue queue).goto (.persist batches))
  | .persist batches, .ok => some { s with persisted := s.persisted ++ batches, stage := .release batches false }
  | .persist batches, .fail committed =>
      some { s.fail with
        persisted := s.persisted ++ if committed then batches else []
        retryBatches := s.retryBatches ++ batches.map fun batch => (batch, 1) }
  | .serve _, .ok => some (s.goto .top)
  | .serve _, .fail _ => some s.fail
  | _, _ => none

def next (s : System) : Label → Option System
  | .tryPublish ownedBytes => some (s.tryPublish ownedBytes)
  | .pushBatch ownedBytes => some (s.pushBatch ownedBytes)
  | .pushControl command =>
      if command.isBatch then none
      else
        match s.shared.queue.pushControl command with
        | .ok queue => some (s.withQueue queue)
        | .error _ => some s
  | .close => some (s.withQueue s.shared.queue.close)
  | .work outcome => s.work outcome

def Step (s : System) (l : Label) (t : System) : Prop := s.next l = some t

end System

end Rustgo.HistoryQueue
