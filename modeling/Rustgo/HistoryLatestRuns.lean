import Rustgo.HistoryLatest
import Rustgo.HistorySeals

namespace Rustgo.History

open Checks Tables LatestRows Runs

namespace Archive

variable {a b : Archive} {key : RowKey} {rowId : Nat} {config : HistoryConfig} {c : Conditions} {maximum : Nat} {batches : List Batch}
  {p : Progress}

/-- No metric row of its scope and resolution is from later. -/
def NewestMetric (a : Archive) (key : RowKey) : Prop :=
  ∀ other ∈ a.metrics.rows, other.scope = key.scope → other.resolution = key.resolution → other.timestamp ≤ key.timestamp

/-- Rows of the same time are ordered by their ids. -/
def NewestLifecycle (a : Archive) (id : Nat) (row : LifecycleRow) : Prop :=
  ∀ id' row', a.lifecycle.lookup id' = some row' → row'.record.client = row.record.client →
    row'.record.timestamp < row.record.timestamp ∨ row'.record.timestamp = row.record.timestamp ∧ id' ≤ id

/-- Sessions closed at one time are ordered by when they were opened, and then by their ids. -/
def NewestClosed (a : Archive) (key : SessionKey) (row : SessionRow) : Prop :=
  ∃ closed, row.session.closed = some closed ∧ ∀ key' row' closed', a.sessions.lookup key' = some row' →
    row'.session.closed = some closed' → toLex (closed', toLex (key'.opened, key'.id)) ≤ toLex (closed, toLex (key.opened, key.id))

/-- The flags are on the newest rows, and on no others. -/
structure Latest (a : Archive) : Prop where
  metrics : ∀ key row, a.metrics.rows.lookup key = some row → (row.isLatest = true ↔ a.NewestMetric key)
  lifecycle : ∀ id row, a.lifecycle.lookup id = some row → (row.isLatest = true ↔ a.NewestLifecycle id row)
  sessions : ∀ key row, a.sessions.lookup key = some row → (row.isLatestClosed = true ↔ a.NewestClosed key row)

/-- The newest rows and the open sessions stay as they are. -/
structure Keeps (a b : Archive) : Prop where
  metrics : ∀ key row, a.metrics.rows.lookup key = some row → a.NewestMetric key → b.metrics.rows.lookup key = some row
  lifecycle : ∀ id row, a.lifecycle.lookup id = some row → a.NewestLifecycle id row → b.lifecycle.lookup id = some row
  closed : ∀ key row, a.sessions.lookup key = some row → a.NewestClosed key row → b.sessions.lookup key = some row
  opened : ∀ key row, a.sessions.lookup key = some row → row.session.closed = none → b.sessions.lookup key = some row

structure Marked (a : Archive) : Prop where
  metrics : metricRanking.Marked a.metrics.rows
  lifecycle : lifecycleRanking.Marked a.lifecycle
  sessions : sessionRanking.Marked a.sessions

theorem newestMetric_iff {row : Row} : a.NewestMetric key ↔ metricRanking.Newest a.metrics.rows (key.scope, key.resolution) key row := by
  constructor
  · intro h other row' hrow' hgroup
    obtain ⟨hscope, hresolution⟩ := Prod.mk.inj (Option.some.inj hgroup)
    exact h other (Finmap.mem_of_lookup_eq_some hrow') hscope hresolution
  · intro h other hother hscope hresolution
    obtain ⟨row', hrow'⟩ := Finmap.mem_iff.mp hother
    exact h other row' hrow' (by rw [← hscope, ← hresolution]; rfl)

theorem newestLifecycle_iff {row : LifecycleRow} :
    a.NewestLifecycle rowId row ↔ lifecycleRanking.Newest a.lifecycle row.record.client rowId row := by
  constructor
  · intro h id' row' hrow' hgroup
    exact Prod.Lex.toLex_le_toLex.mpr (h id' row' hrow' (Option.some.inj hgroup))
  · intro h id' row' hrow' hclient
    exact Prod.Lex.toLex_le_toLex.mp (h id' row' hrow' (congrArg some hclient))

theorem sessionRanking_group (key : SessionKey) {row : SessionRow} {closed : Nat} (h : row.session.closed = some closed) :
    sessionRanking.group key row = some () ∧ sessionRanking.rank key row = toLex (closed, toLex (key.opened, key.id)) := by
  simp [sessionRanking, h]

theorem newestClosed_iff {key : SessionKey} {row : SessionRow} {closed : Nat} (hclosed : row.session.closed = some closed) :
    a.NewestClosed key row ↔ sessionRanking.Newest a.sessions () key row := by
  obtain ⟨-, hrank⟩ := sessionRanking_group key hclosed
  constructor
  · rintro ⟨_, hclosed', h⟩ key' row' hrow' hgroup
    obtain rfl := Option.some.inj (hclosed.symm.trans hclosed')
    obtain ⟨closed', hclosed', -⟩ := Option.map_eq_some_iff.mp hgroup
    rw [hrank, (sessionRanking_group _ hclosed').2]
    exact h key' row' closed' hrow' hclosed'
  · intro h
    refine ⟨closed, hclosed, fun key' row' closed' hrow' hclosed' => ?_⟩
    obtain ⟨hgroup', hrank'⟩ := sessionRanking_group key' hclosed'
    rw [← hrank, ← hrank']
    exact h key' row' hrow' hgroup'

theorem Marked.latest (h : a.Marked) : a.Latest := by
  constructor
  case metrics => exact fun key row hrow => (h.metrics.grouped _ key row hrow rfl).trans newestMetric_iff.symm
  case lifecycle => exact fun id row hrow => (h.lifecycle.grouped _ id row hrow rfl).trans newestLifecycle_iff.symm
  case sessions =>
    intro key row hrow
    cases hclosed : row.session.closed with
    | none =>
        have hflag := h.sessions.ungrouped key row hrow (by simp [sessionRanking, hclosed])
        refine ⟨fun h => absurd (hflag.symm.trans h) Bool.false_ne_true, ?_⟩
        rintro ⟨closed, hsome, -⟩
        cases hclosed.symm.trans hsome
    | some closed =>
        exact (h.sessions.grouped () key row hrow (sessionRanking_group _ hclosed).1).trans (newestClosed_iff hclosed).symm

theorem Latest.marked (h : a.Latest) : a.Marked := by
  constructor
  case metrics =>
    refine ⟨fun group key row hrow hgroup => ?_, Store.metric_ungrouped⟩
    obtain rfl := Option.some.inj hgroup
    exact (h.metrics key row hrow).trans newestMetric_iff
  case lifecycle =>
    refine ⟨fun client rowId row hrow hgroup => ?_, fun _ _ _ hgroup => by cases hgroup⟩
    obtain rfl := Option.some.inj hgroup
    exact (h.lifecycle rowId row hrow).trans newestLifecycle_iff
  case sessions =>
    constructor
    case grouped =>
      intro _ key row hrow hgroup
      obtain ⟨closed, hclosed, -⟩ := Option.map_eq_some_iff.mp hgroup
      exact (h.sessions key row hrow).trans (newestClosed_iff hclosed)
    case ungrouped =>
      intro key row hrow hgroup
      by_contra hflag
      obtain ⟨closed, hclosed, -⟩ := (h.sessions key row hrow).mp (Bool.not_eq_false _ ▸ hflag)
      rw [(sessionRanking_group _ hclosed).1] at hgroup
      cases hgroup

section Persist

theorem insertClientLifecycle_other {lifecycle t : Table Nat LifecycleRow} {record : ClientLifecycleRecord}
    (h : insertClientLifecycle lifecycle record = .ok t) {row : LifecycleRow} (hclient : row.record.client ≠ record.client) :
    t.lookup rowId = some row ↔ lifecycle.lookup rowId = some row := by
  simp only [insertClientLifecycle, bind_eq_ok, Store.sqliteInteger_eq_ok] at h
  obtain ⟨_, ⟨-, rfl⟩, h⟩ := h
  split at h
  · rw [pure_eq_ok.mp h]
  · rw [← pure_eq_ok.mp h]
    by_cases hid : rowId = lifecycle.keys.sup id + 1
    · subst hid
      rw [Finmap.lookup_insert]
      constructor
      · intro h
        rw [← Option.some.inj h] at hclient
        exact absurd rfl hclient
      · intro h
        have hle : lifecycle.keys.sup id + 1 ≤ lifecycle.keys.sup id := Finset.le_sup (f := id) (Finmap.mem_keys.mpr (Finmap.mem_of_lookup_eq_some h))
        omega
    · rw [Finmap.lookup_insert_of_ne _ hid]

theorem lifecycle_marked {lifecycle t : Table Nat LifecycleRow} {records : List ClientLifecycleRecord} (h : lifecycleRanking.Marked lifecycle)
    (ht : records.foldlM insertClientLifecycle lifecycle = .ok t) :
    lifecycleRanking.Marked (((records.map ClientLifecycleRecord.client).dedup).foldl lifecycleRanking.refresh t) := by
  refine ⟨fun client => Ranking.markedIn_refreshes ?_, fun id row _ hgroup => by cases hgroup⟩
  by_cases hclient : client ∈ records.map ClientLifecycleRecord.client
  · exact .inl (List.mem_dedup.mpr hclient)
  · refine .inr ((h.grouped client).congr fun id row hgroup => ?_)
    refine foldlM_preserves (P := fun u : Table Nat LifecycleRow => u.lookup id = some row ↔ lifecycle.lookup id = some row)
      (fun u hu record hrecord v hv => ?_) Iff.rfl ht
    refine (insertClientLifecycle_other hv ?_).trans hu
    rintro heq
    obtain rfl := Option.some.inj hgroup
    exact hclient (heq ▸ List.mem_map_of_mem hrecord)

/-- What is upserted has no flag until the next refresh. -/
theorem upserts_ungrouped {sessions t : Table SessionKey SessionRow} {summaries : List SessionSnapshot}
    (h : ∀ key row, sessions.lookup key = some row → sessionRanking.group key row = none → sessionRanking.flag row = false)
    (ht : summaries.foldlM upsertSessionSummary sessions = .ok t) :
    ∀ key row, t.lookup key = some row → sessionRanking.group key row = none → sessionRanking.flag row = false := by
  refine foldlM_preserves (P := fun u : Table SessionKey SessionRow =>
    ∀ key row, u.lookup key = some row → sessionRanking.group key row = none → sessionRanking.flag row = false)
    (fun u hu session _ v hv key row hrow hgroup => ?_) h ht
  simp only [upsertSessionSummary, bind_eq_ok, pure_eq_ok] at hv
  obtain ⟨opened, -, closed, -, rfl⟩ := hv
  by_cases hkey : key = ⟨session.id, opened⟩
  · rw [hkey, Finmap.lookup_insert] at hrow
    rw [← Option.some.inj hrow]
    rfl
  · rw [Finmap.lookup_insert_of_ne _ hkey] at hrow
    exact hu key row hrow hgroup

theorem sessions_marked {sessions t : Table SessionKey SessionRow} {summaries : List SessionSnapshot} (h : sessionRanking.Marked sessions)
    (ht : summaries.foldlM upsertSessionSummary sessions = .ok t) :
    sessionRanking.Marked (if summaries = [] then t else sessionRanking.refresh t ()) := by
  split
  · next hnil =>
    subst hnil
    rw [List.foldlM_nil, pure_eq_ok] at ht
    exact ht ▸ h
  · refine ⟨fun _ => Ranking.markedIn_refresh, ?_⟩
    exact Ranking.ungrouped_refreshes [()] (upserts_ungrouped h.ungrouped ht)

theorem persistBatches_marked (h : a.Marked) (hp : a.persistBatches c maximum batches = .ok (p, b)) : b.Marked := by
  simp only [persistBatches, bind_eq_ok, pure_eq_ok, Prod.mk.injEq] at hp
  obtain ⟨q, hq, lifecycle, hlifecycle, sessions, hsessions, -, rfl⟩ := hp
  exact ⟨Store.persistBatches_marked h.metrics hq, lifecycle_marked h.lifecycle hlifecycle, sessions_marked h.sessions hsessions⟩

end Persist

section Prune

variable {state : CapPruneState}

theorem Keeps.refl (a : Archive) : a.Keeps a :=
  ⟨fun _ _ h _ => h, fun _ _ h _ => h, fun _ _ h _ => h, fun _ _ h _ => h⟩

theorem pruneLifecycle_marked (h : lifecycleRanking.Marked a.lifecycle) : lifecycleRanking.Marked a.pruneLifecycle.2 :=
  h.deleteOldest_unflagged fun _ row hrow => by simpa [lifecycleRanking] using hrow

theorem pruneSessions_marked (h : sessionRanking.Marked a.sessions) : sessionRanking.Marked a.pruneSessions.2 :=
  h.deleteOldest_unflagged fun _ row hrow => by simpa [sessionRanking] using (Bool.and_eq_true_iff.mp hrow).2

theorem retireLifecycle_marked (h : lifecycleRanking.Marked a.lifecycle) (cutoff : Nat) :
    lifecycleRanking.Marked (a.retireLifecycle cutoff).2 := by
  refine h.deleteOldest_down fun rowId row rowId' row' _ _ _ hrow hle => ?_
  have hle := Prod.Lex.monotone_fst _ _ hle
  exact decide_eq_true (lt_of_le_of_lt hle (of_decide_eq_true hrow))

theorem retireSessions_marked (h : sessionRanking.Marked a.sessions) (cutoff : Nat) :
    sessionRanking.Marked (a.retireSessions cutoff).2 := by
  refine h.deleteOldest_down fun key row key' row' _ hgroup hgroup' hrow hle => ?_
  obtain ⟨closed, hclosed, -⟩ := Option.map_eq_some_iff.mp hgroup
  obtain ⟨closed', hclosed', -⟩ := Option.map_eq_some_iff.mp hgroup'
  rw [(sessionRanking_group _ hclosed).2, (sessionRanking_group _ hclosed').2] at hle
  have hle : closed' ≤ closed := Prod.Lex.monotone_fst _ _ hle
  rw [hclosed, Option.any_some, decide_eq_true_eq] at hrow
  rw [hclosed', Option.any_some, decide_eq_true_eq]
  omega

/-- A turn of the pruning keeps the flags right, and keeps what they protect. -/
theorem pruneCapBatchStep_keeps (h : a.Marked) :
    (a.pruneCapBatchStep config c state).2.1.Marked ∧ a.Keeps (a.pruneCapBatchStep config c state).2.1 := by
  rw [pruneCapBatchStep]
  split
  · dsimp only
    rcases Store.pruneCapBatchStep_rows (s := a.metrics) with hrows | ⟨resolution, deletedAt, chosen, hstore, hunmarked⟩
    · refine ⟨⟨?_, h.lifecycle, h.sessions⟩, fun key row hrow _ => ?_, fun _ _ h _ => h, fun _ _ h _ => h, fun _ _ h _ => h⟩
      · rw [hrows]
        exact h.metrics
      · rw [hrows]
        exact hrow
    · rw [hstore]
      refine ⟨⟨Store.unmarked_deleted h.metrics hunmarked, h.lifecycle, h.sessions⟩, fun key row hrow hnewest => ?_, fun _ _ h _ => h,
        fun _ _ h _ => h, fun _ _ h _ => h⟩
      exact Store.newest_survives h.metrics hunmarked hrow (newestMetric_iff.mp hnewest)
  · split
    · split
      · refine ⟨⟨h.metrics, pruneLifecycle_marked h.lifecycle, h.sessions⟩, fun _ _ h _ => h, fun rowId row hrow hnewest => ?_,
          fun _ _ h _ => h, fun _ _ h _ => h⟩
        refine Ranking.lookup_deleteOldest.mpr ⟨hrow, fun hgone => ?_⟩
        have hflag := (h.latest.lifecycle rowId row hrow).mpr hnewest
        simp [hflag] at hgone
      · exact ⟨⟨h.metrics, h.lifecycle, h.sessions⟩, .refl a⟩
    · split
      · split
        · refine ⟨⟨h.metrics, h.lifecycle, pruneSessions_marked h.sessions⟩, fun _ _ h _ => h, fun _ _ h _ => h,
            fun key row hrow hnewest => ?_, fun key row hrow hopen => ?_⟩
          · refine Ranking.lookup_deleteOldest.mpr ⟨hrow, fun hgone => ?_⟩
            have hflag := (h.latest.sessions key row hrow).mpr hnewest
            simp [hflag] at hgone
          · refine Ranking.lookup_deleteOldest.mpr ⟨hrow, fun hgone => ?_⟩
            simp [hopen] at hgone
        · exact ⟨⟨h.metrics, h.lifecycle, h.sessions⟩, .refl a⟩
      · exact ⟨⟨h.metrics, h.lifecycle, h.sessions⟩, .refl a⟩

theorem enforceSizeCapStep_marked {state : CapState} (h : a.Marked) : (a.enforceSizeCapStep config c state).2.1.Marked := by
  have hprune : (a.pruneCapBatchStep config c state.prune).2.1.Marked := (pruneCapBatchStep_keeps h).1
  rw [enforceSizeCapStep]
  split
  case h_6 =>
    rcases hturn : a.pruneCapBatchStep config c state.prune with ⟨result, b, prune⟩
    rw [hturn] at hprune
    obtain e | result := result
    · exact hprune
    · cases result with
      | exhausted => exact ⟨hprune.metrics, hprune.lifecycle, hprune.sessions⟩
      | _ => exact hprune
  all_goals first | exact ⟨h.metrics, h.lifecycle, h.sessions⟩ | (split <;> exact ⟨h.metrics, h.lifecycle, h.sessions⟩)

end Prune

section Maintenance

variable {job : MaintenanceJob}

theorem maintenance_rows {around : Surroundings} (h : metricRanking.Marked a.metrics.rows) (hcap : ∀ state, job.phase ≠ .cap state) :
    metricRanking.Marked (a.metrics.maintenanceStep config around job).2.1.rows := by
  obtain ⟨now, rawCutoff, retirementCutoff, phase⟩ := job
  rw [Store.maintenanceStep]
  cases phase with
  | raw | oneMinute | fiveMinutes =>
      dsimp only
      exact Store.chunkTurn_marked h
  | lifecycle | sessions =>
      dsimp only
      cases sqliteInteger (now - config.retentionMillis) _ <;> exact h
  | tombstones =>
      dsimp only
      have hrows : (a.metrics.deleteExpiredTombstones now retirementCutoff config.retentionMillis RETENTION_DELETE_LIMIT
        around.interrupted).2.rows = a.metrics.rows := Store.deleteExpiredTombstones_rows
      rcases hturn : a.metrics.deleteExpiredTombstones now retirementCutoff config.retentionMillis RETENTION_DELETE_LIMIT
        around.interrupted with ⟨_ | deleted, t⟩
      all_goals
        rw [hturn] at hrows
        exact hrows ▸ h
  | recordCompletion | done => exact h
  | cap state => exact absurd rfl (hcap state)

theorem maintenanceStep_marked (h : a.Marked) : (a.maintenanceStep config c job).2.1.Marked := by
  rw [maintenanceStep]
  cases hphase : job.phase with
  | lifecycle =>
      cases sqliteInteger (job.now - config.retentionMillis) "lifecycle retention cutoff" with
      | error e => exact h
      | ok cutoff => exact ⟨h.metrics, retireLifecycle_marked h.lifecycle cutoff, h.sessions⟩
  | sessions =>
      cases sqliteInteger (job.now - config.retentionMillis) "session retention cutoff" with
      | error e => exact h
      | ok cutoff => exact ⟨h.metrics, h.lifecycle, retireSessions_marked h.sessions cutoff⟩
  | cap state =>
      have hcap : (a.enforceSizeCapStep config c state).2.1.Marked := enforceSizeCapStep_marked h
      rcases hturn : a.enforceSizeCapStep config c state with ⟨_ | (_ | _), b, state'⟩
      all_goals
        rw [hturn] at hcap
        simp only [hturn]
        exact hcap
  | raw | oneMinute | fiveMinutes | tombstones | recordCompletion | done =>
      have hcap : ∀ state, job.phase ≠ .cap state := by
        rintro state hstate
        cases hphase.symm.trans hstate
      exact ⟨maintenance_rows h.metrics hcap, h.lifecycle, h.sessions⟩

end Maintenance

end Archive

namespace Keeper

variable {h t : Keeper} {l : Label} {labels : List Label} {config : HistoryConfig}

theorem step_marked (hmarked : h.archive.Marked) (hstep : Step h l t) : t.archive.Marked := by
  cases l with
  | persist c batches =>
      obtain rfl := Option.some.inj hstep
      rw [persist]
      split
      · exact hmarked
      · next hp => exact Archive.persistBatches_marked hmarked hp
  | maintain clock now =>
      simp only [Step, next] at hstep
      split at hstep
      · cases hstep
      · exact Option.some.inj hstep ▸ hmarked
  | cancelMaintenance | startCap => exact Option.some.inj hstep ▸ hmarked
  | maintenanceTurn c =>
      obtain ⟨job, -, rfl⟩ := Option.map_eq_some_iff.mp hstep
      have hturn : (h.archive.maintenanceStep h.config c job).2.1.Marked := Archive.maintenanceStep_marked hmarked
      rw [maintenanceTurn]
      split <;> next heq => rw [heq] at hturn; exact hturn
  | capTurn c =>
      obtain ⟨state, -, rfl⟩ := Option.map_eq_some_iff.mp hstep
      have hturn : (h.archive.enforceSizeCapStep h.config c state).2.1.Marked := Archive.enforceSizeCapStep_marked hmarked
      rw [capTurn]
      split <;> next heq => rw [heq] at hturn; exact hturn

theorem new_marked (config : HistoryConfig) : (new config).archive.Marked := by
  refine ⟨⟨fun _ => ?_, ?_⟩, ⟨fun _ => ?_, ?_⟩, ⟨fun _ => ?_, ?_⟩⟩
  all_goals rintro _ _ ⟨⟩

theorem marked_of_run (hrun : Run Step (new config) labels h) : h.archive.Marked :=
  hrun.invariant (P := fun h => h.archive.Marked) (fun _ _ _ hs hstep => step_marked hs hstep) (new_marked config)

/-- In every state the flags are on the newest rows, and pruning keeps the newest rows and the open sessions. -/
theorem newest_kept (hrun : Run Step (new config) labels h) : h.archive.Latest ∧
    ∀ c state, h.archive.Keeps (h.archive.pruneCapBatchStep h.config c state).2.1 :=
  ⟨(marked_of_run hrun).latest, fun _ _ => (Archive.pruneCapBatchStep_keeps (marked_of_run hrun)).2⟩

/-- A client that comes and goes, and a session that it has closed. -/
def visit (timestamp : Nat) : List Batch := (Worker.serverAt timestamp).map fun points => { points with
  clientLifecycle := [⟨"a", 1, .authenticated, timestamp, none⟩, ⟨"a", 1, .disconnected, timestamp + 1, none⟩]
  sessionSummaries := [⟨"s", "a", none, none, none, .tcp, .relay, ⟨1, 2⟩, timestamp, some (timestamp + 1), none⟩] }

theorem newest_kept_visit : ∃ h, Run Step (new ⟨1, 16⟩) [.persist ⟨7200000, 0, 0, true, false⟩ (visit 6600000)] h ∧
    (h.archive.lifecycle.lookup 2).any LifecycleRow.isLatest = true ∧ h.archive.Latest ∧
      ∀ c state, h.archive.Keeps (h.archive.pruneCapBatchStep h.config c state).2.1 := by
  obtain ⟨h, hrun, hflag⟩ := run_of_exec_any (P := fun h : Keeper => (h.archive.lifecycle.lookup 2).any LifecycleRow.isLatest = true)
    (fun _ _ _ h => h) (show (exec next (new ⟨1, 16⟩) [.persist ⟨7200000, 0, 0, true, false⟩ (visit 6600000)]).any _ = true by
      decide +kernel)
  exact ⟨h, hrun, hflag, newest_kept hrun⟩

end Keeper

end Rustgo.History
