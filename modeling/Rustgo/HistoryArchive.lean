import Mathlib.Data.Prod.Lex
import Mathlib.Order.Lattice.Nat
import Rustgo.HistoryMaintenance
import Rustgo.LatestRows
import Rustgo.Runs

namespace Rustgo.History

open Checks Tables LatestRows Runs

inductive ClientLifecycleKind
  | authenticated
  | disconnected
  deriving DecidableEq

structure ClientLifecycleRecord where
  client : String
  generation : UInt64
  kind : ClientLifecycleKind
  timestamp : Nat
  version : Option String

inductive SessionKind
  | tcp
  | udp
  | p2p

inductive SessionPath
  | relay
  | p2pDirect
  | p2pFallback

structure SessionSnapshot where
  id : String
  client : String
  peer : Option String
  tunnel : Option String
  exportName : Option String
  kind : SessionKind
  path : SessionPath
  traffic : TrafficCounters
  opened : Nat
  closed : Option Nat
  terminalReason : Option String

structure Batch extends HistoryBatch where
  clientLifecycle : List ClientLifecycleRecord
  sessionSummaries : List SessionSnapshot

structure LifecycleRow where
  record : ClientLifecycleRecord
  isLatest : Bool

structure SessionKey where
  id : String
  opened : Nat
  deriving DecidableEq

structure SessionRow where
  session : SessionSnapshot
  isLatestClosed : Bool

/-- The metric rows of a scope and resolution go by their timestamps. -/
def metricRanking : Ranking RowKey Row (HistoryScope × Resolution) Nat where
  group key _ := some (key.scope, key.resolution)
  rank key _ := key.timestamp
  flag := Row.isLatest
  mark row latest := { row with isLatest := latest }
  flag_mark _ _ := rfl
  group_mark _ _ _ := rfl
  rank_mark _ _ _ := rfl

def lifecycleRanking : Ranking Nat LifecycleRow String (Nat ×ₗ Nat) where
  group _ row := some row.record.client
  rank id row := toLex (row.record.timestamp, id)
  flag := LifecycleRow.isLatest
  mark row latest := { row with isLatest := latest }
  flag_mark _ _ := rfl
  group_mark _ _ _ := rfl
  rank_mark _ _ _ := rfl

/-- Open sessions are not ranked. -/
def sessionRanking : Ranking SessionKey SessionRow Unit (Nat ×ₗ Nat ×ₗ String) where
  group _ row := row.session.closed.map fun _ => ()
  rank key row := toLex (row.session.closed.getD 0, toLex (key.opened, key.id))
  flag := SessionRow.isLatestClosed
  mark row latest := { row with isLatestClosed := latest }
  flag_mark _ _ := rfl
  group_mark _ _ _ := rfl
  rank_mark _ _ _ := rfl

/-- The tables of the database, the pages on its free list, and whether it is known that it cannot be made smaller. -/
structure Archive where
  metrics : Store
  lifecycle : Table Nat LifecycleRow
  sessions : Table SessionKey SessionRow
  freePages : Nat
  sizeFloorReached : Bool

/-- What a turn finds outside the tables, and the free pages that its transactions leave. -/
structure Conditions where
  clock : Nat
  total : Nat
  freePages : Nat
  checkpointed : Bool
  interrupted : Bool

def ClientLifecycleRecord.sameEvent (a b : ClientLifecycleRecord) : Bool :=
  a.client = b.client && a.generation = b.generation && a.kind = b.kind && a.timestamp = b.timestamp

/-- A row gets the id after the highest that is in use. -/
def insertClientLifecycle (lifecycle : Table Nat LifecycleRow) (record : ClientLifecycleRecord) :
    Except DatabaseError (Table Nat LifecycleRow) := do
  let timestamp ← sqliteInteger record.timestamp "client lifecycle timestamp"
  if ∃ id ∈ lifecycle.keys, (lifecycle.lookup id).any (fun row => row.record.sameEvent { record with timestamp := timestamp }) = true then
    pure lifecycle
  else pure (lifecycle.insert (lifecycle.keys.sup id + 1) ⟨{ record with timestamp := timestamp }, false⟩)

/-- An upsert that on conflict takes the row's flag. -/
def upsertSessionSummary (sessions : Table SessionKey SessionRow) (session : SessionSnapshot) :
    Except DatabaseError (Table SessionKey SessionRow) := do
  let opened ← sqliteInteger session.opened "session open timestamp"
  let closed ← session.closed.mapM fun closed => sqliteInteger closed "session close timestamp"
  pure (sessions.insert ⟨session.id, opened⟩ ⟨{ session with opened := opened, closed := closed }, false⟩)

def VACUUM_PAGE_LIMIT : Nat := 64

/-- Takes pages off the free list one by one; says whether some are left. -/
def incrementalVacuum : Nat → Nat → Bool × Nat
  | 0, freePages => (decide (0 < freePages), freePages)
  | limit + 1, freePages => if freePages = 0 then (false, freePages) else incrementalVacuum limit (freePages - 1)

namespace Conditions

def around (c : Conditions) (vacuumPending : Bool) (deletedElsewhere : Nat) : Surroundings :=
  ⟨c.clock, c.total, c.checkpointed, vacuumPending, deletedElsewhere, c.interrupted⟩

end Conditions

namespace Archive

def new : Archive := ⟨.new, ∅, ∅, 0, false⟩

def lifecycleClients (batches : List Batch) : List String :=
  ((batches.flatMap Batch.clientLifecycle).map ClientLifecycleRecord.client).dedup

/-- One transaction over the batches. The tables are independent of each other, so it makes no difference that each is
written for all batches at once. -/
def persistBatches (a : Archive) (c : Conditions) (maximum : Nat) (batches : List Batch) :
    Except DatabaseError (Progress × Archive) := do
  let p ← a.metrics.persistBatches c.clock (batches.map Batch.toHistoryBatch)
  let lifecycle ← (batches.flatMap Batch.clientLifecycle).foldlM insertClientLifecycle a.lifecycle
  let summaries := batches.flatMap Batch.sessionSummaries
  let sessions ← summaries.foldlM upsertSessionSummary a.sessions
  pure (p, {
    metrics := p.store
    lifecycle := (lifecycleClients batches).foldl lifecycleRanking.refresh lifecycle
    sessions := if summaries = [] then sessions else sessionRanking.refresh sessions ()
    freePages := c.freePages
    sizeFloorReached := if maximum < c.total then false else a.sizeFloorReached })

def pruneLifecycle (a : Archive) : Nat × Table Nat LifecycleRow :=
  lifecycleRanking.deleteOldest CAP_DELETE_LIMIT (fun _ row => !row.isLatest) a.lifecycle

def pruneSessions (a : Archive) : Nat × Table SessionKey SessionRow :=
  sessionRanking.deleteOldest CAP_DELETE_LIMIT (fun _ row => row.session.closed.isSome && !row.isLatestClosed) a.sessions

def pruneCapBatchStep (a : Archive) (config : HistoryConfig) (c : Conditions) (state : CapPruneState) :
    Except DatabaseError CapPruneResult × Archive × CapPruneState :=
  if state.tombstoneScanComplete = false ∨ state.tier < 3 then
    let turn := a.metrics.pruneCapBatchStep config (c.around false 0) state
    (turn.1, { a with metrics := turn.2.1, freePages := c.freePages }, turn.2.2)
  else if state.tier = 3 then
    if 0 < a.pruneLifecycle.1 then (.ok .deleted, { a with lifecycle := a.pruneLifecycle.2, freePages := c.freePages }, state)
    else (.ok .scanning, a, { state with tier := state.tier + 1 })
  else if state.tier = 4 then
    if 0 < a.pruneSessions.1 then (.ok .deleted, { a with sessions := a.pruneSessions.2, freePages := c.freePages }, state)
    else (.ok .scanning, a, { state with tier := state.tier + 1 })
  else (.ok .exhausted, a, state)

def enforceSizeCapStep (a : Archive) (config : HistoryConfig) (c : Conditions) (state : CapState) :
    Except DatabaseError Bool × Archive × CapState :=
  match state.phase with
  | .measure =>
      if state.active = false ∧ c.total ≤ config.maximumBytes then (.ok true, a, state)
      else
        (.ok false, { a with sizeFloorReached := if state.active then a.sizeFloorReached else false },
          { state with active := true, phase := .checkpoint })
  | .checkpoint => (.ok false, a, if c.checkpointed then { state with phase := .vacuum } else state)
  | .vacuum =>
      (.ok false, { a with freePages := (incrementalVacuum VACUUM_PAGE_LIMIT a.freePages).2 },
        { state with vacuumPending := (incrementalVacuum VACUUM_PAGE_LIMIT a.freePages).1, phase := .vacuumCheckpoint })
  | .vacuumCheckpoint => (.ok false, a, if c.checkpointed then { state with phase := .checkSize } else state)
  | .checkSize =>
      if c.total ≤ config.maximumBytes then (.ok true, a, state)
      else (.ok false, a, { state with phase := if state.vacuumPending then .vacuum else .prune })
  | .prune =>
      match a.pruneCapBatchStep config c state.prune with
      | (.error e, a, prune) => (.error e, a, { state with prune := prune })
      | (.ok .deleted, a, prune) | (.ok .reclaimPending, a, prune) =>
          (.ok false, a, { state with prune := prune, phase := .checkpoint })
      | (.ok .tombstonesDeleted, a, prune) | (.ok .scanning, a, prune) => (.ok false, a, { state with prune := prune })
      | (.ok .exhausted, a, prune) => (.ok true, { a with sizeFloorReached := true }, { state with prune := prune })

/-- The lifecycle rows and the closed sessions from before a cutoff. -/
def retireLifecycle (a : Archive) (cutoff : Nat) : Nat × Table Nat LifecycleRow :=
  lifecycleRanking.deleteOldest RETENTION_DELETE_LIMIT (fun _ row => row.record.timestamp < cutoff) a.lifecycle

def retireSessions (a : Archive) (cutoff : Nat) : Nat × Table SessionKey SessionRow :=
  sessionRanking.deleteOldest RETENTION_DELETE_LIMIT (fun _ row => row.session.closed.any (· < cutoff)) a.sessions

def maintenanceStep (a : Archive) (config : HistoryConfig) (c : Conditions) (job : MaintenanceJob) :
    Except DatabaseError Bool × Archive × MaintenanceJob :=
  match job.phase with
  | .lifecycle =>
      match sqliteInteger (job.now - config.retentionMillis) "lifecycle retention cutoff" with
      | .error e => (.error e, a, job)
      | .ok cutoff =>
          (.ok false, { a with lifecycle := (a.retireLifecycle cutoff).2, freePages := c.freePages },
            if (a.retireLifecycle cutoff).1 < RETENTION_DELETE_LIMIT then { job with phase := .sessions } else job)
  | .sessions =>
      match sqliteInteger (job.now - config.retentionMillis) "session retention cutoff" with
      | .error e => (.error e, a, job)
      | .ok cutoff =>
          (.ok false, { a with sessions := (a.retireSessions cutoff).2, freePages := c.freePages },
            if (a.retireSessions cutoff).1 < RETENTION_DELETE_LIMIT then { job with phase := .tombstones } else job)
  | .cap state =>
      match a.enforceSizeCapStep config c state with
      | (.error e, a, state) => (.error e, a, { job with phase := .cap state })
      | (.ok true, a, _) => (.ok true, a, { job with phase := .done })
      | (.ok false, a, state) => (.ok false, a, { job with phase := .cap state })
  | .raw | .oneMinute | .fiveMinutes | .tombstones | .recordCompletion | .done =>
      let turn := a.metrics.maintenanceStep config (c.around false 0) job
      (turn.1, { a with metrics := turn.2.1, freePages := c.freePages }, turn.2.2)

end Archive

/-- The database under its worker. -/
structure Keeper where
  config : HistoryConfig
  archive : Archive
  maintenance : Option MaintenanceJob
  cap : Option CapState

namespace Keeper

inductive Label
  | persist (c : Conditions) (batches : List Batch)
  | maintain (clock now : Nat)
  | cancelMaintenance
  | maintenanceTurn (c : Conditions)
  | startCap
  | capTurn (c : Conditions)

def new (config : HistoryConfig) : Keeper := ⟨config, .new, none, none⟩

def persist (h : Keeper) (c : Conditions) (batches : List Batch) : Keeper :=
  match h.archive.persistBatches c h.config.maximumBytes batches with
  | .error _ => h
  | .ok (_, archive) => { h with archive := archive, cap := some (h.cap.getD .new) }

def maintenanceTurn (h : Keeper) (c : Conditions) (job : MaintenanceJob) : Keeper :=
  match h.archive.maintenanceStep h.config c job with
  | (.error .interrupted, archive, job) | (.ok false, archive, job) => { h with archive := archive, maintenance := some job }
  | (.error _, archive, _) | (.ok true, archive, _) => { h with archive := archive, maintenance := none }

def capTurn (h : Keeper) (c : Conditions) (state : CapState) : Keeper :=
  match h.archive.enforceSizeCapStep h.config c state with
  | (.ok true, archive, _) => { h with archive := archive, cap := none }
  | (_, archive, state) => { h with archive := archive, cap := some state }

def next (h : Keeper) : Label → Option Keeper
  | .persist c batches => some (h.persist c batches)
  | .maintain clock now => if h.maintenance.isSome then none else some { h with maintenance := some (.new clock now) }
  | .cancelMaintenance => some { h with maintenance := none }
  | .maintenanceTurn c => h.maintenance.map (h.maintenanceTurn c)
  | .startCap => some { h with cap := some (h.cap.getD .new) }
  | .capTurn c => h.cap.map (h.capTurn c)

def Step (h : Keeper) (l : Label) (t : Keeper) : Prop := h.next l = some t

end Keeper

theorem Store.pruneCapBatchStep_congr {store : Store} {config : HistoryConfig} {state : CapPruneState} (x y : Surroundings)
    (hclock : x.clock = y.clock) (hinterrupted : x.interrupted = y.interrupted) (hdeleted : x.deletedElsewhere = y.deletedElsewhere) :
    store.pruneCapBatchStep config x state = store.pruneCapBatchStep config y state := by
  simp only [pruneCapBatchStep, hclock, hinterrupted, hdeleted]

namespace Archive

variable (a : Archive) (config : HistoryConfig) (c : Conditions)

/-- The metric tables are pruned as they are with the other tables' deletions counted outside. -/
theorem pruneCapBatchStep_metrics (state : CapPruneState) (vacuumPending : Bool) : ∃ deletedElsewhere,
    a.metrics.pruneCapBatchStep config (c.around vacuumPending deletedElsewhere) state =
      ((a.pruneCapBatchStep config c state).1, (a.pruneCapBatchStep config c state).2.1.metrics, (a.pruneCapBatchStep config c state).2.2) := by
  unfold pruneCapBatchStep
  split
  · refine ⟨0, ?_⟩
    rw [Store.pruneCapBatchStep_congr (c.around vacuumPending 0) (c.around false 0) rfl rfl rfl]
  · next hlate =>
    rw [not_or] at hlate
    obtain ⟨hscan, htier⟩ := hlate
    split
    · next hlifecycle =>
      refine ⟨a.pruneLifecycle.1, ?_⟩
      rw [Store.pruneCapBatchStep, if_neg hscan, if_neg htier, if_pos (by omega)]
      have haround : (c.around vacuumPending a.pruneLifecycle.1).deletedElsewhere = a.pruneLifecycle.1 := rfl
      rw [haround]
      split <;> rfl
    · split
      · next hsessions =>
        refine ⟨a.pruneSessions.1, ?_⟩
        rw [Store.pruneCapBatchStep, if_neg hscan, if_neg htier, if_pos (by omega)]
        have haround : (c.around vacuumPending a.pruneSessions.1).deletedElsewhere = a.pruneSessions.1 := rfl
        rw [haround]
        split <;> rfl
      · refine ⟨0, ?_⟩
        rw [Store.pruneCapBatchStep, if_neg hscan, if_neg htier, if_neg (by omega)]

theorem enforceSizeCapStep_metrics (state : CapState) : ∃ vacuumPending deletedElsewhere,
    a.metrics.enforceSizeCapStep config (c.around vacuumPending deletedElsewhere) state =
      ((a.enforceSizeCapStep config c state).1, (a.enforceSizeCapStep config c state).2.1.metrics, (a.enforceSizeCapStep config c state).2.2) := by
  refine ⟨(incrementalVacuum VACUUM_PAGE_LIMIT a.freePages).1, ?_⟩
  obtain ⟨deletedElsewhere, hprune⟩ := a.pruneCapBatchStep_metrics config c state.prune (incrementalVacuum VACUUM_PAGE_LIMIT a.freePages).1
  refine ⟨deletedElsewhere, ?_⟩
  obtain ⟨active, phase, prune, pending⟩ := state
  have htotal : (c.around (incrementalVacuum VACUUM_PAGE_LIMIT a.freePages).1 deletedElsewhere).total = c.total := rfl
  rw [Store.enforceSizeCapStep, enforceSizeCapStep, htotal]
  cases phase with
  | measure | checkSize =>
      dsimp only
      split <;> rfl
  | checkpoint | vacuum | vacuumCheckpoint => rfl
  | prune =>
      simp only [hprune]
      rcases a.pruneCapBatchStep config c prune with ⟨e | result, b, prune'⟩
      · rfl
      · cases result <;> rfl

theorem maintenanceStep_metrics (job : MaintenanceJob) : ∃ vacuumPending deletedElsewhere,
    a.metrics.maintenanceStep config (c.around vacuumPending deletedElsewhere) job =
      ((a.maintenanceStep config c job).1, (a.maintenanceStep config c job).2.1.metrics, (a.maintenanceStep config c job).2.2) := by
  cases hphase : job.phase with
  | raw | oneMinute | fiveMinutes | tombstones | recordCompletion | done =>
      refine ⟨false, 0, ?_⟩
      rw [maintenanceStep, hphase]
  | lifecycle =>
      cases hcutoff : sqliteInteger (job.now - config.retentionMillis) "lifecycle retention cutoff" with
      | error e =>
          refine ⟨false, 0, ?_⟩
          rw [maintenanceStep, Store.maintenanceStep, hphase, hcutoff]
          rfl
      | ok cutoff =>
          refine ⟨false, (a.retireLifecycle cutoff).1, ?_⟩
          rw [maintenanceStep, Store.maintenanceStep, hphase, hcutoff]
          rfl
  | sessions =>
      cases hcutoff : sqliteInteger (job.now - config.retentionMillis) "session retention cutoff" with
      | error e =>
          refine ⟨false, 0, ?_⟩
          rw [maintenanceStep, Store.maintenanceStep, hphase, hcutoff]
          rfl
      | ok cutoff =>
          refine ⟨false, (a.retireSessions cutoff).1, ?_⟩
          rw [maintenanceStep, Store.maintenanceStep, hphase, hcutoff]
          rfl
  | cap state =>
      obtain ⟨vacuumPending, deletedElsewhere, hcap⟩ := a.enforceSizeCapStep_metrics config c state
      refine ⟨vacuumPending, deletedElsewhere, ?_⟩
      rw [maintenanceStep, Store.maintenanceStep, hphase]
      simp only [hcap]
      rcases a.enforceSizeCapStep config c state with ⟨_ | (_ | _), b, state'⟩ <;> rfl

theorem persistBatches_metrics {a b : Archive} {maximum : Nat} {batches : List Batch} {p : Progress}
    (h : a.persistBatches c maximum batches = .ok (p, b)) :
    a.metrics.persistBatches c.clock (batches.map Batch.toHistoryBatch) = .ok p ∧ b.metrics = p.store := by
  simp only [persistBatches, bind_eq_ok, pure_eq_ok, Prod.mk.injEq] at h
  obtain ⟨q, hq, _, -, _, -, rfl, rfl⟩ := h
  exact ⟨hq, rfl⟩

end Archive

namespace Keeper

variable {h t : Keeper} {w : Worker} {l : Label} {labels : List Label} {config : HistoryConfig}

/-- The worker of the metric tables alone. -/
structure Refines (h : Keeper) (w : Worker) : Prop where
  config : w.config = h.config
  store : w.store = h.archive.metrics
  maintenance : w.maintenance = h.maintenance
  cap : w.cap = h.cap

/-- A step over all the tables is a step over the metric tables, or leaves them alone. -/
theorem Refines.step (hr : Refines h w) (hstep : Step h l t) : ∃ labels u, Run Worker.Step w labels u ∧ Refines t u := by
  have hone {l : History.Label} {u : Worker} (hu : Worker.Step w l u) (ht : Refines t u) : ∃ labels u, Run Worker.Step w labels u ∧
      Refines t u := ⟨_, u, (Run.refl w).snoc hu, ht⟩
  cases l with
  | persist c batches =>
      have ht : h.persist c batches = t := Option.some.inj hstep
      rw [persist] at ht
      cases hp : h.archive.persistBatches c h.config.maximumBytes batches with
      | error e =>
          rw [hp] at ht
          exact ⟨_, w, .refl w, ht ▸ hr⟩
      | ok turn =>
          obtain ⟨p, b⟩ := turn
          obtain ⟨hmetrics, hb⟩ := Archive.persistBatches_metrics c hp
          rw [hp] at ht
          subst ht
          have hu : Worker.Step w (.persist c.clock (batches.map Batch.toHistoryBatch)) (w.persist c.clock (batches.map Batch.toHistoryBatch)) := rfl
          rw [Worker.persist, hr.store, hmetrics] at hu
          exact hone hu ⟨hr.config, hb.symm, hr.maintenance, by simp only [hr.cap]⟩
  | maintain clock now =>
      simp only [Step, next] at hstep
      split at hstep
      · cases hstep
      · next hmaintenance =>
        obtain rfl := Option.some.inj hstep
        refine hone (l := .maintain clock now) (u := { w with maintenance := some (.new clock now) }) ?_ ⟨hr.config, hr.store, rfl, hr.cap⟩
        rw [Worker.Step, Worker.next, hr.maintenance, if_neg hmaintenance]
  | cancelMaintenance =>
      obtain rfl := Option.some.inj hstep
      exact hone (l := .cancelMaintenance) rfl ⟨hr.config, hr.store, rfl, hr.cap⟩
  | startCap =>
      obtain rfl := Option.some.inj hstep
      exact hone (l := .startCap) rfl ⟨hr.config, hr.store, hr.maintenance, by simp only [hr.cap]⟩
  | maintenanceTurn c =>
      obtain ⟨job, hjob, rfl⟩ := Option.map_eq_some_iff.mp hstep
      obtain ⟨vacuumPending, deletedElsewhere, hturn⟩ := h.archive.maintenanceStep_metrics h.config c job
      have hu : Worker.Step w (.maintenanceTurn (c.around vacuumPending deletedElsewhere))
          (w.maintenanceTurn (c.around vacuumPending deletedElsewhere) job) := by
        rw [Worker.Step, Worker.next, hr.maintenance, hjob]
        rfl
      refine hone hu ?_
      rw [Worker.maintenanceTurn, maintenanceTurn, hr.store, hr.config, hturn]
      rcases h.archive.maintenanceStep h.config c job with ⟨(_ | _) | (_ | _), b, job'⟩
      all_goals exact ⟨rfl, rfl, rfl, hr.cap⟩
  | capTurn c =>
      obtain ⟨state, hstate, rfl⟩ := Option.map_eq_some_iff.mp hstep
      obtain ⟨vacuumPending, deletedElsewhere, hturn⟩ := h.archive.enforceSizeCapStep_metrics h.config c state
      have hu : Worker.Step w (.capTurn (c.around vacuumPending deletedElsewhere))
          (w.capTurn (c.around vacuumPending deletedElsewhere) state) := by
        rw [Worker.Step, Worker.next, hr.cap, hstate]
        rfl
      refine hone hu ?_
      rw [Worker.capTurn, capTurn, hr.store, hr.config, hturn]
      rcases h.archive.enforceSizeCapStep h.config c state with ⟨_ | (_ | _), b, state'⟩
      all_goals exact ⟨rfl, rfl, hr.maintenance, rfl⟩

/-- Over any run the metric tables are those of a worker that has no other tables. -/
theorem run_refines (hrun : Run Step (new config) labels h) : ∃ labels w, Run Worker.Step (Worker.new config) labels w ∧ Refines h w := by
  induction hrun with
  | refl => exact ⟨[], _, .refl _, rfl, rfl, rfl, rfl⟩
  | snoc _ hstep ih =>
      obtain ⟨labels, w, hrun, hr⟩ := ih
      obtain ⟨more, u, hmore, hu⟩ := hr.step hstep
      exact ⟨_, u, hrun.trans hmore, hu⟩

/-- A client that comes while the server is sampled, before a round against the cap. -/
def arrival : Batch :=
  { clientPoints := []
    serverPoints := [⟨6600000, ⟨none, none, none, none, none, none, none, none, none, none, none⟩, ⟨1, 2⟩⟩]
    clientLifecycle := [⟨"a", 1, .authenticated, 6600000, none⟩]
    sessionSummaries := [] }

theorem run_refines_arrival : ∃ h, Run Step (new ⟨1, 16⟩)
    [.persist ⟨7200000, 0, 0, true, false⟩ [arrival], .startCap, .capTurn ⟨7200000, 0, 0, true, false⟩] h ∧
    (h.archive.lifecycle.lookup 1).isSome = true ∧ ∃ labels w, Run Worker.Step (Worker.new ⟨1, 16⟩) labels w ∧ Refines h w := by
  obtain ⟨h, hrun, hstored⟩ := run_of_exec_any (P := fun h : Keeper => (h.archive.lifecycle.lookup 1).isSome = true)
    (fun _ _ _ h => h) (show (exec next (new ⟨1, 16⟩)
      [.persist ⟨7200000, 0, 0, true, false⟩ [arrival], .startCap, .capTurn ⟨7200000, 0, 0, true, false⟩]).any _ = true by
        decide +kernel)
  exact ⟨h, hrun, hstored, run_refines hrun⟩

end Keeper

end Rustgo.History
