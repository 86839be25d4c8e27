import Mathlib.Data.Prod.Lex
import Mathlib.Order.WithBot
import Rustgo.HistoryStore

namespace Rustgo.History

open Checks Tables

def RETENTION_DELETE_LIMIT : Nat := 256
def CAP_DELETE_LIMIT : Nat := 256
def MAINTENANCE_BUCKET_LIMIT : Nat := 64
def CAP_CANDIDATE_PAGE_LIMIT : Nat := 64
def DAY_MILLIS : Nat := 24 * 60 * 60 * 1000
def MIB : Nat := 1024 * 1024

structure HistoryConfig where
  historyDays : Nat
  databaseMaxMib : Nat

namespace HistoryConfig

def retentionMillis (config : HistoryConfig) : Nat := config.historyDays * DAY_MILLIS

def maximumBytes (config : HistoryConfig) : Nat := config.databaseMaxMib * MIB

end HistoryConfig

namespace HistoryScope

def client? : HistoryScope → WithBot String
  | .server => ⊥
  | .client name => name

theorem client?_injective : Function.Injective client? := by
  intro a b h
  cases a with
  | server =>
      cases b with
      | server => rfl
      | client => exact absurd h WithBot.bot_ne_coe
  | client name =>
      cases b with
      | server => exact absurd h WithBot.coe_ne_bot
      | client other => exact congrArg client (WithBot.coe_injective h)

/-- The server stands before the clients, which are in the order of their names. -/
instance : LinearOrder HistoryScope := LinearOrder.lift' client? client?_injective

end HistoryScope

/-- A timestamp and a scope that metric rows are deleted for. -/
abbrev MetricPruneCandidate := Nat ×ₗ HistoryScope

namespace Store

def tombstone (store : Store) (key : TombstoneKey) (deletedAt : Nat) : Store :=
  { store with tombstones := store.tombstones.insert key (max ((store.tombstones.lookup key).getD 0) deletedAt) }

/-- Raw rows leave a tombstone for each bucket they were counted in. -/
def tombstoneDeletedBucket (store : Store) (scope : HistoryScope) (resolution : Resolution) (timestamp deletedAt : Nat) : Store :=
  match resolution with
  | .raw =>
      (store.tombstone ⟨scope, .oneMinute, bucketStart timestamp MINUTE_BUCKET_MILLIS⟩ deletedAt).tombstone
        ⟨scope, .fiveMinutes, bucketStart timestamp FIVE_MINUTE_BUCKET_MILLIS⟩ deletedAt
  | .tier tier => store.tombstone ⟨scope, tier, timestamp⟩ deletedAt

def deleteRows (store : Store) (scope : HistoryScope) (resolution : Resolution) (timestamp : Nat) : Store :=
  { store with
    rows := keep (fun key _ => ¬(key.scope = scope ∧ key.resolution = resolution ∧ key.timestamp = timestamp)) store.rows }

def deleteCandidate (resolution : Resolution) (deletedAt : Nat) (store : Store) (candidate : MetricPruneCandidate) : Store :=
  (store.tombstoneDeletedBucket (ofLex candidate).2 resolution (ofLex candidate).1 deletedAt).deleteRows
    (ofLex candidate).2 resolution (ofLex candidate).1

/-- What a query over one of the two metric tables selects for deletion. -/
def candidates (store : Store) (clients : Bool) (resolution : Resolution) (selects : RowKey → Row → Bool) :
    Finset MetricPruneCandidate :=
  (store.rows.keys.filter fun key => key.resolution = resolution ∧ (clients = true ↔ key.scope ≠ .server) ∧
    (store.rows.lookup key).any (selects key) = true).image fun key => toLex (key.timestamp, key.scope)

def deleteMetricBucketChunk (store : Store) (resolution : Resolution) (cutoff deletedAt : Nat) :
    Except DatabaseError (Bool × Store) := do
  let cutoff ← sqliteInteger cutoff "retention cutoff"
  let buckets (clients : Bool) : List MetricPruneCandidate :=
    smallest MAINTENANCE_BUCKET_LIMIT (store.candidates clients resolution fun key _ => key.timestamp < cutoff)
  let deletedAt ← sqliteInteger deletedAt "metric deletion timestamp"
  let deleted := (buckets false ++ buckets true).foldl (deleteCandidate resolution deletedAt) store
  pure ((buckets false).length < MAINTENANCE_BUCKET_LIMIT && (buckets true).length < MAINTENANCE_BUCKET_LIMIT, deleted)

/-- The tombstones that may be retired, oldest deletion first. -/
def expired (store : Store) (tier : Tier) (deletedBefore cutoff : Nat) : Finset (Nat ×ₗ MetricPruneCandidate) :=
  (store.tombstones.keys.filter fun key => key.tier = tier ∧ (store.tombstones.lookup key).any (· < deletedBefore) = true ∧
    key.timestamp < cutoff).image fun key =>
      toLex ((store.tombstones.lookup key).getD 0, toLex (key.timestamp, key.scope))

def retire (store : Store) (retired : List TombstoneKey) : Store :=
  { store with tombstones := keep (fun key _ => key ∉ retired) store.tombstones }

/-- Tombstones are retired together with the evidence that samples older than
the cutoff are never admitted again. -/
def deleteExpiredTombstoneResolution (store : Store) (tier : Tier) (deletedBefore cutoff limit : Nat) :
    Except DatabaseError (Nat × Store) := do
  let deletedBefore ← sqliteInteger deletedBefore "tombstone age"
  let replayCutoff ← sqliteInteger cutoff "tombstone replay cutoff"
  let retired := (smallest limit (store.expired tier deletedBefore replayCutoff)).map fun entry =>
    TombstoneKey.mk (ofLex (ofLex entry).2).2 tier (ofLex (ofLex entry).2).1
  if 0 < retired.length then do
    let encoded ← encodeDurableRetirementFloor cutoff
    let evidence ← sqliteInteger encoded "durable raw retirement floor"
    pure (retired.length, { store.retire retired with lastMaintenance := max store.lastMaintenance evidence })
  else pure (0, store)

/-- Two transactions, of which the first stays when the second is interrupted or fails. -/
def deleteTombstonesBefore (store : Store) (oneMinuteBefore fiveMinutesBefore cutoff limit : Nat) (interrupted : Bool) :
    Except DatabaseError Nat × Store :=
  match store.deleteExpiredTombstoneResolution .oneMinute oneMinuteBefore cutoff limit with
  | .error e => (.error e, store)
  | .ok (oneMinuteDeleted, store) =>
      if oneMinuteDeleted = limit then (.ok oneMinuteDeleted, store)
      else if interrupted then (.error .interrupted, store)
      else
        match store.deleteExpiredTombstoneResolution .fiveMinutes fiveMinutesBefore cutoff (limit - oneMinuteDeleted) with
        | .error e => (.error e, store)
        | .ok (fiveMinutesDeleted, store) => (.ok (oneMinuteDeleted + fiveMinutesDeleted), store)

def deleteExpiredTombstones (store : Store) (now cutoff retention limit : Nat) (interrupted : Bool) :
    Except DatabaseError Nat × Store :=
  store.deleteTombstonesBefore (now - ONE_MINUTE_RETENTION_MILLIS) (now - retention) cutoff limit interrupted

end Store

inductive CapPruneResult
  | deleted
  | tombstonesDeleted
  | reclaimPending
  | scanning
  | exhausted
  deriving DecidableEq

structure CapPruneState where
  tier : Nat
  tombstoneScanComplete : Bool
  tombstoneReclaimPending : Bool

inductive CapPhase
  | measure
  | checkpoint
  | vacuum
  | vacuumCheckpoint
  | checkSize
  | prune

structure CapState where
  active : Bool
  phase : CapPhase
  prune : CapPruneState
  vacuumPending : Bool

def CapState.new : CapState := ⟨false, .measure, ⟨0, false, false⟩, false⟩

/-- What a turn finds around the metric tables: the worker's clock, the size of
the database, how its checkpoint and vacuum went, how many rows the lifecycle
and session tables let go, and whether the turn was cut short. -/
structure Surroundings where
  clock : Nat
  total : Nat
  checkpointed : Bool
  vacuumPending : Bool
  deletedElsewhere : Nat
  interrupted : Bool

namespace Store

def pruneMetricTierStep (store : Store) (resolution : Resolution) (clock : Nat) :
    Except DatabaseError (CapPruneResult × Store) := do
  let page (clients : Bool) : Finset MetricPruneCandidate :=
    (smallest CAP_CANDIDATE_PAGE_LIMIT (store.candidates clients resolution fun _ row => !row.isLatest)).toFinset
  match smallest (2 * CAP_CANDIDATE_PAGE_LIMIT) (page false ∪ page true) with
  | [] => pure (.exhausted, store)
  | first :: rest =>
      let safe := (first :: rest).take (max (CAP_DELETE_LIMIT / 13) 1)
      -- the deletion stops where the candidates change from one table to the other
      let chosen := safe.takeWhile fun candidate => ((ofLex candidate).2 = .server) = ((ofLex first).2 = .server)
      let deletedAt ← sqliteInteger clock "cap deletion timestamp"
      pure (.deleted, chosen.foldl (deleteCandidate resolution deletedAt) store)

def tierResolution : Nat → Resolution
  | 0 => .tier .fiveMinutes
  | 1 => .tier .oneMinute
  | _ => .raw

def pruneCapBatchStep (store : Store) (config : HistoryConfig) (around : Surroundings) (state : CapPruneState) :
    Except DatabaseError CapPruneResult × Store × CapPruneState :=
  if state.tombstoneScanComplete = false then
    match store.deleteExpiredTombstones around.clock (rawAdmissionCutoff around.clock) config.retentionMillis CAP_DELETE_LIMIT
        around.interrupted with
    | (.error e, store) => (.error e, store, state)
    | (.ok deleted, store) =>
        if 0 < deleted then (.ok .tombstonesDeleted, store, { state with tombstoneReclaimPending := true })
        else
          (.ok (if state.tombstoneReclaimPending then .reclaimPending else .scanning), store,
            { state with tombstoneScanComplete := true, tombstoneReclaimPending := false })
  else if state.tier < 3 then
    match store.pruneMetricTierStep (tierResolution state.tier) around.clock with
    | .error e => (.error e, store, state)
    | .ok (.exhausted, store) => (.ok .scanning, store, { state with tier := state.tier + 1 })
    | .ok (result, store) => (.ok result, store, state)
  else if state.tier < 5 then
    if 0 < around.deletedElsewhere then (.ok .deleted, store, state)
    else (.ok .scanning, store, { state with tier := state.tier + 1 })
  else (.ok .exhausted, store, state)

def enforceSizeCapStep (store : Store) (config : HistoryConfig) (around : Surroundings) (state : CapState) :
    Except DatabaseError Bool × Store × CapState :=
  match state.phase with
  | .measure =>
      if state.active = false ∧ around.total ≤ config.maximumBytes then (.ok true, store, state)
      else (.ok false, store, { state with active := true, phase := .checkpoint })
  | .checkpoint => (.ok false, store, if around.checkpointed then { state with phase := .vacuum } else state)
  | .vacuum => (.ok false, store, { state with vacuumPending := around.vacuumPending, phase := .vacuumCheckpoint })
  | .vacuumCheckpoint => (.ok false, store, if around.checkpointed then { state with phase := .checkSize } else state)
  | .checkSize =>
      if around.total ≤ config.maximumBytes then (.ok true, store, state)
      else (.ok false, store, { state with phase := if state.vacuumPending then .vacuum else .prune })
  | .prune =>
      match store.pruneCapBatchStep config around state.prune with
      | (.error e, store, prune) => (.error e, store, { state with prune := prune })
      | (.ok .deleted, store, prune) | (.ok .reclaimPending, store, prune) =>
          (.ok false, store, { state with prune := prune, phase := .checkpoint })
      | (.ok .tombstonesDeleted, store, prune) | (.ok .scanning, store, prune) =>
          (.ok false, store, { state with prune := prune })
      | (.ok .exhausted, store, prune) => (.ok true, store, { state with prune := prune })

end Store

inductive MaintenancePhase
  | raw
  | oneMinute
  | fiveMinutes
  | lifecycle
  | sessions
  | tombstones
  | recordCompletion
  | cap (state : CapState)
  | done

structure MaintenanceJob where
  now : Nat
  rawCutoff : Nat
  retirementCutoff : Nat
  phase : MaintenancePhase

/-- The worker's clock decides which raw rows go, the requested clock which
tombstones are retired. -/
def MaintenanceJob.new (clock now : Nat) : MaintenanceJob := ⟨now, rawAdmissionCutoff clock, rawAdmissionCutoff now, .raw⟩

namespace Store

/-- A chunk of a retention phase: the next phase follows when nothing is left. -/
def chunkTurn (store : Store) (job : MaintenanceJob) (next : MaintenancePhase) :
    Except DatabaseError (Bool × Store) → Except DatabaseError Bool × Store × MaintenanceJob
  | .error e => (.error e, store, job)
  | .ok (exhausted, deleted) => (.ok false, deleted, if exhausted then { job with phase := next } else job)

/-- A turn of a phase that deletes rows of another table. -/
def rowTurn (store : Store) (around : Surroundings) (job : MaintenanceJob) (next : MaintenancePhase) :
    Except DatabaseError Nat → Except DatabaseError Bool × Store × MaintenanceJob
  | .error e => (.error e, store, job)
  | .ok _ => (.ok false, store, if around.deletedElsewhere < RETENTION_DELETE_LIMIT then { job with phase := next } else job)

def tombstoneTurn (job : MaintenanceJob) : Except DatabaseError Nat × Store → Except DatabaseError Bool × Store × MaintenanceJob
  | (.error e, store) => (.error e, store, job)
  | (.ok deleted, store) =>
      (.ok false, store, if deleted < RETENTION_DELETE_LIMIT then { job with phase := .recordCompletion } else job)

def sizeTurn (job : MaintenanceJob) :
    Except DatabaseError Bool × Store × CapState → Except DatabaseError Bool × Store × MaintenanceJob
  | (.error e, store, state) => (.error e, store, { job with phase := .cap state })
  | (.ok true, store, _) => (.ok true, store, { job with phase := .done })
  | (.ok false, store, state) => (.ok false, store, { job with phase := .cap state })

def maintenanceStep (store : Store) (config : HistoryConfig) (around : Surroundings) (job : MaintenanceJob) :
    Except DatabaseError Bool × Store × MaintenanceJob :=
  match job.phase with
  | .raw => store.chunkTurn job .oneMinute (store.deleteMetricBucketChunk .raw job.rawCutoff job.now)
  | .oneMinute =>
      store.chunkTurn job .fiveMinutes
        (store.deleteMetricBucketChunk (.tier .oneMinute) (job.now - ONE_MINUTE_RETENTION_MILLIS) job.now)
  | .fiveMinutes =>
      store.chunkTurn job .lifecycle
        (store.deleteMetricBucketChunk (.tier .fiveMinutes) (job.now - config.retentionMillis) job.now)
  | .lifecycle =>
      store.rowTurn around job .sessions (sqliteInteger (job.now - config.retentionMillis) "lifecycle retention cutoff")
  | .sessions =>
      store.rowTurn around job .tombstones (sqliteInteger (job.now - config.retentionMillis) "session retention cutoff")
  | .tombstones =>
      tombstoneTurn job
        (store.deleteExpiredTombstones job.now job.retirementCutoff config.retentionMillis RETENTION_DELETE_LIMIT
          around.interrupted)
  | .recordCompletion => (.ok false, store, { job with phase := .cap .new })
  | .cap state => sizeTurn job (store.enforceSizeCapStep config around state)
  | .done => (.ok true, store, job)

end Store

/-- The buckets that a transaction has aggregated. -/
def Progress.aggregated (p : Progress) : List (HistoryScope × Tier × Nat) :=
  (p.minutes.map fun bucket => (bucket.1, .oneMinute, bucket.2)) ++
    p.fiveMinutes.map fun bucket => (bucket.1, .fiveMinutes, bucket.2)

/-- The store under its worker. `admitted` and `aggregated` keep the raw values
and the buckets that transactions have written. -/
structure Worker where
  config : HistoryConfig
  store : Store
  maintenance : Option MaintenanceJob
  cap : Option CapState
  admitted : List Admission
  aggregated : List (HistoryScope × Tier × Nat)

inductive Label
  | persist (clock : Nat) (batches : List HistoryBatch)
  | maintain (clock now : Nat)
  | cancelMaintenance
  | maintenanceTurn (around : Surroundings)
  | startCap
  | capTurn (around : Surroundings)

namespace Worker

def new (config : HistoryConfig) : Worker := ⟨config, .new, none, none, [], []⟩

/-- A transaction that fails leaves everything as it was. -/
def persist (h : Worker) (clock : Nat) (batches : List HistoryBatch) : Worker :=
  match h.store.persistBatches clock batches with
  | .error _ => h
  | .ok p =>
      { h with
        store := p.store
        cap := some (h.cap.getD .new)
        admitted := h.admitted ++ p.admitted
        aggregated := h.aggregated ++ p.aggregated }

/-- An interrupted turn is taken again; a job that failed is given up. -/
def maintenanceTurn (h : Worker) (around : Surroundings) (job : MaintenanceJob) : Worker :=
  match h.store.maintenanceStep h.config around job with
  | (.error .interrupted, store, job) | (.ok false, store, job) => { h with store := store, maintenance := some job }
  | (.error _, store, _) | (.ok true, store, _) => { h with store := store, maintenance := none }

def capTurn (h : Worker) (around : Surroundings) (state : CapState) : Worker :=
  match h.store.enforceSizeCapStep h.config around state with
  | (.ok true, store, _) => { h with store := store, cap := none }
  | (_, store, state) => { h with store := store, cap := some state }

def next (h : Worker) : Label → Option Worker
  | .persist clock batches => some (h.persist clock batches)
  | .maintain clock now => if h.maintenance.isSome then none else some { h with maintenance := some (.new clock now) }
  | .cancelMaintenance => some { h with maintenance := none }
  | .maintenanceTurn around => h.maintenance.map (h.maintenanceTurn around)
  | .startCap => some { h with cap := some (h.cap.getD .new) }
  | .capTurn around => h.cap.map (h.capTurn around)

def Step (h : Worker) (l : Label) (t : Worker) : Prop := h.next l = some t

end Worker

end Rustgo.History
