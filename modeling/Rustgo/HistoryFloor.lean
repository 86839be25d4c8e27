import Mathlib.Data.List.Infix
import Mathlib.Data.Set.Finite.Basic
import Rustgo.HistorySeals

namespace Rustgo.History

open Checks Tables Runs

namespace Store

variable {store s t : Store} {tier : Tier} {cutoff limit deletedBefore oneMinuteBefore fiveMinutesBefore bound : Nat}
  {interrupted : Bool}

/-- The tombstone transactions of a turn delete something. -/
def Retires (store : Store) (oneMinuteBefore fiveMinutesBefore cutoff : Nat) (interrupted : Bool) : Prop :=
  oneMinuteBefore < 2 ^ 63 ∧ DURABLE_RETIREMENT_FLOOR_TAG + cutoff < 2 ^ 63 ∧
    ((store.expired .oneMinute oneMinuteBefore cutoff).Nonempty ∨
      interrupted = false ∧ fiveMinutesBefore < 2 ^ 63 ∧ (store.expired .fiveMinutes fiveMinutesBefore cutoff).Nonempty)

theorem retirement_ok {count : Nat} (h : store.deleteExpiredTombstoneResolution tier deletedBefore cutoff limit = .ok (count, t)) :
    deletedBefore < 2 ^ 63 ∧
      ((count = 0 ∧ t = store ∧ (limit = 0 ∨ store.expired tier deletedBefore cutoff = ∅)) ∨
        (0 < count ∧ DURABLE_RETIREMENT_FLOOR_TAG + cutoff < 2 ^ 63 ∧ (store.expired tier deletedBefore cutoff).Nonempty ∧
          t.floor = max store.floor cutoff)) := by
  simp only [deleteExpiredTombstoneResolution, bind_eq_ok, sqliteInteger_eq_ok] at h
  obtain ⟨_, ⟨hbefore, rfl⟩, _, ⟨-, rfl⟩, h⟩ := h
  refine ⟨hbefore, ?_⟩
  split at h
  · next hsome =>
    simp only [encodeDurableRetirementFloor, bind_eq_ok, require_eq_ok, pure_eq_ok, sqliteInteger_eq_ok, Prod.mk.injEq] at h
    obtain ⟨_, ⟨_, hencoded, rfl⟩, _, ⟨-, rfl⟩, rfl, rfl⟩ := h
    refine .inr ⟨hsome, hencoded, ?_, floor_retire⟩
    rw [List.length_pos_iff, Ne, List.map_eq_nil_iff, smallest_eq_nil, not_or] at hsome
    exact Finset.nonempty_iff_ne_empty.mpr hsome.2
  · next hnone =>
    rw [pure_eq_ok, Prod.mk.injEq] at h
    rw [List.length_pos_iff, Ne, List.map_eq_nil_iff, smallest_eq_nil, not_not] at hnone
    exact .inl ⟨h.1.symm, h.2.symm, hnone⟩

theorem retirement_error {e : DatabaseError} (h : store.deleteExpiredTombstoneResolution tier deletedBefore cutoff limit = .error e) :
    ¬(deletedBefore < 2 ^ 63 ∧ DURABLE_RETIREMENT_FLOOR_TAG + cutoff < 2 ^ 63) := by
  rintro ⟨hbefore, hencoded⟩
  have hcutoff : cutoff < 2 ^ 63 := lt_of_le_of_lt (Nat.le_add_left _ _) hencoded
  rw [deleteExpiredTombstoneResolution, sqliteInteger_eq_ok.mpr ⟨hbefore, rfl⟩, ok_bind, sqliteInteger_eq_ok.mpr ⟨hcutoff, rfl⟩,
    ok_bind] at h
  dsimp only at h
  split at h
  · rw [encodeDurableRetirementFloor, require_of hencoded, ok_bind, pure_bind, sqliteInteger_eq_ok.mpr ⟨hencoded, rfl⟩,
      ok_bind] at h
    cases h
  · cases h

/-- The floor rises to the cutoff exactly when the turn retires something. -/
theorem deleteTombstonesBefore_floor (store : Store) (oneMinuteBefore fiveMinutesBefore cutoff bound : Nat) (interrupted : Bool)
    (hlimit : 0 < limit) :
    (store.deleteTombstonesBefore oneMinuteBefore fiveMinutesBefore cutoff limit interrupted).2.floor ≤ bound ↔
      store.floor ≤ bound ∧ ¬(bound < cutoff ∧ store.Retires oneMinuteBefore fiveMinutesBefore cutoff interrupted) := by
  have hraised (v : Store) (hfloor : v.floor = max store.floor cutoff)
      (hretires : store.Retires oneMinuteBefore fiveMinutesBefore cutoff interrupted) : v.floor ≤ bound ↔ store.floor ≤ bound ∧
        ¬(bound < cutoff ∧ store.Retires oneMinuteBefore fiveMinutesBefore cutoff interrupted) := by
    rw [hfloor, max_le_iff]
    simp [hretires]
  unfold deleteTombstonesBefore
  cases hone : store.deleteExpiredTombstoneResolution .oneMinute oneMinuteBefore cutoff limit with
  | error e =>
      have hretires : ¬store.Retires oneMinuteBefore fiveMinutesBefore cutoff interrupted := fun h =>
        retirement_error hone ⟨h.1, h.2.1⟩
      simp [hretires]
  | ok retired =>
      obtain ⟨deleted, u⟩ := retired
      obtain ⟨hbefore, ⟨rfl, hsame, hnone⟩ | ⟨hpos, hencoded, hsome, hfloor⟩⟩ := retirement_ok hone
      · have hempty : store.expired .oneMinute oneMinuteBefore cutoff = ∅ := hnone.resolve_left hlimit.ne'
        dsimp only
        rw [hsame, if_neg hlimit.ne]
        have hrest (h : ¬(interrupted = false ∧ fiveMinutesBefore < 2 ^ 63 ∧ DURABLE_RETIREMENT_FLOOR_TAG + cutoff < 2 ^ 63 ∧
            (store.expired .fiveMinutes fiveMinutesBefore cutoff).Nonempty)) :
            ¬store.Retires oneMinuteBefore fiveMinutesBefore cutoff interrupted := by
          rintro ⟨-, hencoded, hone | ⟨hturn, hfive, hsome⟩⟩
          · exact hone.ne_empty hempty
          · exact h ⟨hturn, hfive, hencoded, hsome⟩
        split
        · next hinterrupted => simp [hrest fun h => by simp [h.1] at hinterrupted]
        · next hinterrupted =>
          cases hfive : store.deleteExpiredTombstoneResolution .fiveMinutes fiveMinutesBefore cutoff (limit - 0) with
          | error e => simp [hrest fun h => retirement_error hfive ⟨h.2.1, h.2.2.1⟩]
          | ok retired =>
              obtain ⟨count, v⟩ := retired
              obtain ⟨hfiveBefore, ⟨-, hsame', hnone⟩ | ⟨-, hencoded, hsome, hfloor⟩⟩ := retirement_ok hfive
              · have hempty' := hnone.resolve_left hlimit.ne'
                simp [hsame', hrest fun h => h.2.2.2.ne_empty hempty']
              · exact hraised v hfloor ⟨hbefore, hencoded, .inr ⟨by simpa using hinterrupted, hfiveBefore, hsome⟩⟩
      · have hretires : store.Retires oneMinuteBefore fiveMinutesBefore cutoff interrupted := ⟨hbefore, hencoded, .inl hsome⟩
        dsimp only
        split_ifs
        · exact hraised u hfloor hretires
        · exact hraised u hfloor hretires
        · cases hfive : u.deleteExpiredTombstoneResolution .fiveMinutes fiveMinutesBefore cutoff (limit - deleted) with
          | error e => exact hraised u hfloor hretires
          | ok retired =>
              obtain ⟨count, v⟩ := retired
              refine hraised v ?_ hretires
              obtain ⟨-, ⟨-, rfl, -⟩ | ⟨-, -, -, hfloor'⟩⟩ := retirement_ok hfive
              · exact hfloor
              · rw [hfloor', hfloor, max_assoc, max_self]

/-- The tombstone transactions of a turn would raise the floor above a bound. -/
def RaisesAbove (store : Store) (bound now cutoff retention : Nat) (interrupted : Bool) : Prop :=
  bound < cutoff ∧ store.Retires (now - ONE_MINUTE_RETENTION_MILLIS) (now - retention) cutoff interrupted

theorem deleteExpiredTombstones_floor {now retention : Nat} {result : Except DatabaseError Nat} (hlimit : 0 < limit)
    (h : store.deleteExpiredTombstones now cutoff retention limit interrupted = (result, t)) :
    t.floor ≤ bound ↔ store.floor ≤ bound ∧ ¬store.RaisesAbove bound now cutoff retention interrupted := by
  have hfloor := deleteTombstonesBefore_floor store (now - ONE_MINUTE_RETENTION_MILLIS) (now - retention) cutoff bound interrupted
    hlimit
  rwa [← deleteExpiredTombstones, h] at hfloor

theorem deleteCandidates_floor (resolution : Resolution) (deletedAt : Nat) (candidates : List MetricPruneCandidate) :
    (candidates.foldl (deleteCandidate resolution deletedAt) store).floor = store.floor :=
  List.foldlRecOn (motive := fun s : Store => s.floor = store.floor) candidates _ rfl fun _ hs _ _ =>
    floor_deleteCandidate.trans hs

theorem deleteMetricBucketChunk_floor {resolution : Resolution} {deletedAt : Nat} {exhausted : Bool}
    (h : store.deleteMetricBucketChunk resolution cutoff deletedAt = .ok (exhausted, t)) : t.floor = store.floor := by
  simp only [deleteMetricBucketChunk, bind_eq_ok, pure_eq_ok, Prod.mk.injEq] at h
  obtain ⟨_, -, _, -, -, rfl⟩ := h
  exact deleteCandidates_floor _ _ _

theorem chunkTurn_floor {job job' : MaintenanceJob} {next : MaintenancePhase} {chunk : Except DatabaseError (Bool × Store)}
    {result : Except DatabaseError Bool} (h : store.chunkTurn job next chunk = (result, t, job'))
    (hchunk : ∀ exhausted t, chunk = .ok (exhausted, t) → t.floor = store.floor) : t.floor = store.floor := by
  cases chunk with
  | error e =>
      obtain ⟨-, rfl, -⟩ := h
      rfl
  | ok chunk =>
      obtain ⟨exhausted, u⟩ := chunk
      simp only [chunkTurn, Prod.mk.injEq] at h
      exact h.2.1 ▸ hchunk exhausted u rfl

theorem pruneMetricTierStep_floor {resolution : Resolution} {clock : Nat} {result : CapPruneResult}
    (h : store.pruneMetricTierStep resolution clock = .ok (result, t)) : t.floor = store.floor := by
  rw [pruneMetricTierStep] at h
  split at h
  · rw [pure_eq_ok, Prod.mk.injEq] at h
    rw [← h.2]
  · simp only [bind_eq_ok, pure_eq_ok, Prod.mk.injEq] at h
    obtain ⟨_, -, -, rfl⟩ := h
    exact deleteCandidates_floor _ _ _

/-- A size-cap turn would raise the floor above a bound. -/
def CapRaisesAbove (store : Store) (bound : Nat) (config : HistoryConfig) (around : Surroundings) (state : CapState) : Prop :=
  match state.phase with
  | .prune => state.prune.tombstoneScanComplete = false ∧
      store.RaisesAbove bound around.clock (rawAdmissionCutoff around.clock) config.retentionMillis around.interrupted
  | _ => False

/-- A maintenance turn would raise the floor above a bound. -/
def JobRaisesAbove (store : Store) (bound : Nat) (config : HistoryConfig) (around : Surroundings) (job : MaintenanceJob) :
    Prop :=
  match job.phase with
  | .tombstones => store.RaisesAbove bound job.now job.retirementCutoff config.retentionMillis around.interrupted
  | .cap state => store.CapRaisesAbove bound config around state
  | _ => False

theorem pruneCapBatchStep_floor (store : Store) (bound : Nat) (config : HistoryConfig) (around : Surroundings)
    (state : CapPruneState) :
    (store.pruneCapBatchStep config around state).2.1.floor ≤ bound ↔ store.floor ≤ bound ∧
      ¬(state.tombstoneScanComplete = false ∧
        store.RaisesAbove bound around.clock (rawAdmissionCutoff around.clock) config.retentionMillis around.interrupted) := by
  rw [pruneCapBatchStep]
  split
  · next hscan =>
    simp only [hscan, true_and]
    split
    case h_1 h => exact deleteExpiredTombstones_floor (by decide) h
    case h_2 h => split <;> exact deleteExpiredTombstones_floor (by decide) h
  · next hscan =>
    have hkept : ∀ t : Store, t.floor = store.floor → (t.floor ≤ bound ↔ store.floor ≤ bound ∧
        ¬(state.tombstoneScanComplete = false ∧ store.RaisesAbove bound around.clock (rawAdmissionCutoff around.clock)
          config.retentionMillis around.interrupted)) := fun t ht => by simp [ht, hscan]
    split
    · split
      · exact hkept store rfl
      case h_2 h => exact hkept _ (pruneMetricTierStep_floor h)
      case h_3 h => exact hkept _ (pruneMetricTierStep_floor h)
    · split
      · split <;> exact hkept store rfl
      · exact hkept store rfl

theorem enforceSizeCapStep_floor (store : Store) (bound : Nat) (config : HistoryConfig) (around : Surroundings) (state : CapState) :
    (store.enforceSizeCapStep config around state).2.1.floor ≤ bound ↔
      store.floor ≤ bound ∧ ¬store.CapRaisesAbove bound config around state := by
  obtain ⟨active, phase, prune, vacuumPending⟩ := state
  rw [enforceSizeCapStep]
  cases phase with
  | prune =>
      have hprune := pruneCapBatchStep_floor store bound config around prune
      rw [CapRaisesAbove, ← hprune]
      rcases store.pruneCapBatchStep config around prune with ⟨_ | _ | _, t, prune'⟩ <;> rfl
  | measure =>
      dsimp only
      split <;> exact (and_iff_left id).symm
  | checkSize =>
      dsimp only
      split <;> exact (and_iff_left id).symm
  | checkpoint | vacuum | vacuumCheckpoint => exact (and_iff_left id).symm

theorem maintenanceStep_floor {config : HistoryConfig} {around : Surroundings} {job job' : MaintenanceJob}
    {result : Except DatabaseError Bool} (h : store.maintenanceStep config around job = (result, t, job')) :
    t.floor ≤ bound ↔ store.floor ≤ bound ∧ ¬store.JobRaisesAbove bound config around job := by
  obtain ⟨now, rawCutoff, retirementCutoff, phase⟩ := job
  have hkept (ht : t.floor = store.floor) : t.floor ≤ bound ↔ store.floor ≤ bound ∧ ¬False := by
    rw [ht, not_false_eq_true, and_true]
  rw [maintenanceStep] at h
  cases phase with
  | raw => exact hkept (chunkTurn_floor h fun _ _ => deleteMetricBucketChunk_floor)
  | oneMinute => exact hkept (chunkTurn_floor h fun _ _ => deleteMetricBucketChunk_floor)
  | fiveMinutes => exact hkept (chunkTurn_floor h fun _ _ => deleteMetricBucketChunk_floor)
  | lifecycle | sessions => exact hkept (congrArg floor (rowTurn_keeps h).1)
  | tombstones =>
      rw [(tombstoneTurn_keeps h).1]
      exact deleteExpiredTombstones_floor (by decide) Prod.mk.eta.symm
  | cap state =>
      rw [(sizeTurn_keeps h).1]
      exact enforceSizeCapStep_floor store bound config around state
  | recordCompletion | done =>
      obtain ⟨-, rfl, rfl⟩ := h
      exact hkept rfl

end Store

namespace Worker

variable {h s t u : Worker} {l : Label} {labels before : List Label} {bound clock : Nat} {scope : HistoryScope} {timestamp : Nat}

/-- The step would retire tombstones under a floor above a bound. -/
def RaisesAbove (bound : Nat) (h : Worker) : Label → Prop
  | .maintenanceTurn around => ∃ job, h.maintenance = some job ∧ h.store.JobRaisesAbove bound h.config around job
  | .capTurn around => ∃ state, h.cap = some state ∧ h.store.CapRaisesAbove bound h.config around state
  | _ => False

theorem maintenanceTurn_store (h : Worker) (around : Surroundings) (job : MaintenanceJob) :
    (h.maintenanceTurn around job).store = (h.store.maintenanceStep h.config around job).2.1 := by
  rw [maintenanceTurn]
  rcases h.store.maintenanceStep h.config around job with ⟨(_ | _) | (_ | _), store, job'⟩ <;> rfl

theorem capTurn_store (h : Worker) (around : Surroundings) (state : CapState) :
    (h.capTurn around state).store = (h.store.enforceSizeCapStep h.config around state).2.1 := by
  rw [capTurn]
  rcases h.store.enforceSizeCapStep h.config around state with ⟨_ | (_ | _), store, state'⟩ <;> rfl

theorem persist_floor (h : Worker) (clock : Nat) (batches : List HistoryBatch) :
    (h.persist clock batches).store.floor = h.store.floor := by
  rw [persist]
  cases hp : h.store.persistBatches clock batches with
  | error e => rfl
  | ok p => exact congrArg decodeDurableRetirementFloor (Store.persistBatches_commits hp).seals.lastMaintenance

theorem step_floor (hstep : Step h l t) : t.store.floor ≤ bound ↔ h.store.floor ≤ bound ∧ ¬h.RaisesAbove bound l := by
  have hkept (ht : t.store.floor = h.store.floor) : t.store.floor ≤ bound ↔ h.store.floor ≤ bound ∧ ¬False := by
    rw [ht, not_false_eq_true, and_true]
  cases l with
  | persist clock batches => exact hkept (Option.some.inj hstep ▸ persist_floor h clock batches)
  | maintain clock now =>
      simp only [Step, next] at hstep
      split at hstep
      · cases hstep
      · exact hkept (Option.some.inj hstep ▸ rfl)
  | cancelMaintenance | startCap => exact hkept (Option.some.inj hstep ▸ rfl)
  | maintenanceTurn around =>
      obtain ⟨job, hjob, rfl⟩ := Option.map_eq_some_iff.mp hstep
      rw [maintenanceTurn_store, Store.maintenanceStep_floor Prod.mk.eta.symm]
      simp [RaisesAbove, hjob]
  | capTurn around =>
      obtain ⟨state, hstate, rfl⟩ := Option.map_eq_some_iff.mp hstep
      rw [capTurn_store, Store.enforceSizeCapStep_floor]
      simp [RaisesAbove, hstate]

theorem run_unique (ht : Run Step s labels t) (hu : Run Step s labels u) : t = u :=
  Option.some.inj ((exec_of_run (fun _ _ _ h => h) ht).symm.trans (exec_of_run (fun _ _ _ h => h) hu))

/-- The floor stays below a bound exactly when the run retires nothing above it. -/
theorem run_floor (hrun : Run Step s labels t) : t.store.floor ≤ bound ↔
    s.store.floor ≤ bound ∧ Run (Restricted Step fun h l => ¬h.RaisesAbove bound l) s labels t := by
  induction hrun with
  | refl => exact ⟨fun h => ⟨h, .refl s⟩, And.left⟩
  | @snoc t u labels l hrun hstep ih =>
      rw [step_floor hstep, ih, Run.snoc_iff, and_assoc]
      refine and_congr_right fun _ => ⟨fun ⟨hrun, hallowed⟩ => ⟨t, hrun, hstep, hallowed⟩, ?_⟩
      rintro ⟨t', hrun', -, hallowed⟩
      obtain rfl := run_unique hrun (hrun'.imp fun _ _ _ h => h.1)
      exact ⟨hrun', hallowed⟩

end Worker

theorem countP_eq_sum {α : Type} (p : α → Bool) (xs : List α) : xs.countP p = (xs.map fun x => (p x).toNat).sum := by
  induction xs with
  | nil => rfl
  | cons x xs ih =>
      rw [List.countP_cons, ih, List.map_cons, List.sum_cons, Nat.add_comm]
      cases p x <;> rfl

/-- The samples of a batch, in the order in which a transaction takes them. -/
def HistoryBatch.samples (batch : HistoryBatch) : List (HistoryScope × Nat) :=
  batch.serverPoints.map (fun sample => (.server, sample.timestamp)) ++
    batch.clientPoints.map fun sample => (.client sample.client, sample.timestamp)

namespace Progress

open Store

variable {store : Store} {p q : Progress} {clock : Nat} {excused : HistoryScope × Nat → Bool} {scope : HistoryScope}
  {timestamp : Nat} {values : List (HistoryMetric × ℚ)} {field : String}

theorem persistSample_dropped (h : p.Admits store clock) (hlate : store.Late clock scope timestamp → excused (scope, timestamp) = true)
    (hp : p.persistSample (max (rawAdmissionCutoff clock) store.floor) field scope timestamp values = .ok q) :
    q.droppedLatePoints ≤ p.droppedLatePoints + (excused (scope, timestamp)).toNat := by
  obtain ⟨hblocked, rfl⟩ | ⟨-, rfl⟩ := persistSample_cases hp
  · rw [Tombstoned, h.seals.tombstones, ← Tombstoned, ← late_iff] at hblocked
    rw [hlate hblocked]
    exact le_rfl
  · obtain ⟨written, hwritten⟩ := writes_eq p scope timestamp values
    rw [hwritten]
    exact Nat.le_add_right _ _

theorem persistServerSample_dropped {sample : ServerHistorySample} (h : p.Admits store clock)
    (hlate : store.Late clock .server sample.timestamp → excused (.server, sample.timestamp) = true)
    (hp : p.persistServerSample (max (rawAdmissionCutoff clock) store.floor) sample = .ok q) :
    q.Admits store clock ∧ q.droppedLatePoints ≤ p.droppedLatePoints + (excused (.server, sample.timestamp)).toNat := by
  rw [persistServerSample] at hp
  exact ⟨h.persistSample hp, persistSample_dropped h hlate hp⟩

theorem persistClientSample_dropped {sample : ClientHistorySample} (h : p.Admits store clock)
    (hlate : store.Late clock (.client sample.client) sample.timestamp → excused (.client sample.client, sample.timestamp) = true)
    (hp : p.persistClientSample (max (rawAdmissionCutoff clock) store.floor) sample = .ok q) : q.Admits store clock ∧
      q.droppedLatePoints ≤ p.droppedLatePoints + (excused (.client sample.client, sample.timestamp)).toNat := by
  rw [persistClientSample] at hp
  exact ⟨h.persistSample hp, persistSample_dropped h hlate hp⟩

theorem persistBatch_dropped {batch : HistoryBatch} (h : p.Admits store clock)
    (hlate : ∀ sample ∈ batch.samples, store.Late clock sample.1 sample.2 → excused sample = true)
    (hp : p.persistBatch (max (rawAdmissionCutoff clock) store.floor) batch = .ok q) :
    q.Admits store clock ∧ q.droppedLatePoints ≤ p.droppedLatePoints + batch.samples.countP excused := by
  refine ⟨h.persistBatch hp, ?_⟩
  simp only [persistBatch, bind_eq_ok] at hp
  obtain ⟨r, hserver, hclient⟩ := hp
  have hr : r.Admits store clock :=
    foldlM_preserves (P := (Admits · store clock)) (fun _ hb _ _ _ hc => hb.persistSample hc) h hserver
  have hserverDropped := foldlM_cost_le (P := (Admits · store clock)) droppedLatePoints (fun sample => (excused (.server, sample.timestamp)).toNat)
    (fun p hp sample hmem q => persistServerSample_dropped hp
      (hlate _ (List.mem_append_left _ (List.mem_map_of_mem hmem)))) h hserver
  have hclientDropped := foldlM_cost_le (P := (Admits · store clock)) droppedLatePoints
    (fun sample => (excused (.client sample.client, sample.timestamp)).toNat)
    (fun p hp sample hmem q => persistClientSample_dropped hp
      (hlate _ (List.mem_append_right _ (List.mem_map_of_mem hmem)))) hr hclient
  rw [HistoryBatch.samples, List.countP_append, List.countP_map, List.countP_map, countP_eq_sum, countP_eq_sum]
  simp only [Function.comp_apply]
  omega

end Progress

/-- The samples of a transaction. -/
def samples (batches : List HistoryBatch) : List (HistoryScope × Nat) := batches.flatMap HistoryBatch.samples

theorem Store.persistBatches_dropped {store : Store} {clock : Nat} {batches : List HistoryBatch} {p : Progress}
    {excused : HistoryScope × Nat → Bool}
    (hlate : ∀ sample ∈ samples batches, store.Late clock sample.1 sample.2 → excused sample = true)
    (hp : store.persistBatches clock batches = .ok p) : p.droppedLatePoints ≤ (samples batches).countP excused := by
  simp only [persistBatches, bind_eq_ok, pure_eq_ok] at hp
  obtain ⟨q, hq, _, -, _, -, rfl⟩ := hp
  have hdropped := foldlM_cost_le (P := (Progress.Admits · store clock)) Progress.droppedLatePoints (fun batch => batch.samples.countP excused)
    (fun p hp batch hmem q => Progress.persistBatch_dropped hp fun sample hsample =>
      hlate sample (List.mem_flatMap.mpr ⟨batch, hmem, hsample⟩)) (Progress.new_admits store clock) hq
  rw [samples, List.countP_flatMap]
  exact hdropped.trans_eq (Nat.zero_add _)

namespace Worker

variable {s t u : Worker} {labels before : List Label} {clock : Nat} {scope : HistoryScope} {timestamp : Nat}

/-- In no state of the run was a bucket of the timestamp tombstoned. -/
def NeverTombstoned (s : Worker) (labels : List Label) (scope : HistoryScope) (timestamp : Nat) : Prop :=
  ∀ before u, before <+: labels → Run Step s before u → ¬u.store.Tombstoned scope timestamp

/-- Whichever samples are dropped after the run, each is old by the worker's
clock or fell into a bucket that was once tombstoned. -/
def AdmitsFresh (s : Worker) (labels : List Label) (t : Worker) (clock : Nat) : Prop :=
  ∀ batches p (excused : HistoryScope × Nat → Bool), t.store.persistBatches clock batches = .ok p →
    (∀ sample ∈ samples batches, excused sample = false →
      rawAdmissionCutoff clock ≤ sample.2 ∧ NeverTombstoned s labels sample.1 sample.2) →
    p.droppedLatePoints ≤ (samples batches).countP excused

theorem admitsFresh_of_floor (hrun : Run Step s labels t) (hfloor : t.store.floor ≤ rawAdmissionCutoff clock) :
    AdmitsFresh s labels t clock := by
  intro batches p excused hp hfresh
  refine Store.persistBatches_dropped (fun sample hsample hlate => ?_) hp
  by_contra hexcused
  obtain ⟨hcutoff, hnever⟩ := hfresh sample hsample (Bool.eq_false_of_not_eq_true hexcused)
  obtain hold | hold | htombstoned := hlate
  · exact absurd hold (not_lt.mpr hcutoff)
  · exact absurd (hold.trans_le hfloor) (not_lt.mpr hcutoff)
  · exact hnever labels t (List.prefix_refl labels) hrun htombstoned

/-- A run tombstones buckets of finitely many scopes. -/
theorem tombstoned_scopes (s : Worker) (labels : List Label) : ∃ scopes : Finset HistoryScope,
    ∀ before u, before <+: labels → Run Step s before u → ∀ key ∈ u.store.tombstones, key.scope ∈ scopes := by
  induction labels using List.reverseRecOn with
  | nil =>
      refine ⟨s.store.tombstones.keys.image TombstoneKey.scope, fun before u hbefore hrun key hkey => ?_⟩
      obtain rfl := List.prefix_nil.mp hbefore
      obtain rfl := run_unique (.refl s) hrun
      exact Finset.mem_image_of_mem _ (Finmap.mem_keys.mpr hkey)
  | append_singleton labels l ih =>
      obtain ⟨scopes, hscopes⟩ := ih
      by_cases hend : ∃ u, Run Step s (labels ++ [l]) u
      · obtain ⟨t, ht⟩ := hend
        refine ⟨scopes ∪ t.store.tombstones.keys.image TombstoneKey.scope, fun before u hbefore hrun key hkey => ?_⟩
        obtain rfl | hbefore := List.prefix_concat_iff.mp hbefore
        · obtain rfl := run_unique ht hrun
          exact Finset.mem_union_right _ (Finset.mem_image_of_mem _ (Finmap.mem_keys.mpr hkey))
        · exact Finset.mem_union_left _ (hscopes before u hbefore hrun key hkey)
      · refine ⟨scopes, fun before u hbefore hrun => ?_⟩
        obtain rfl | hbefore := List.prefix_concat_iff.mp hbefore
        · exact absurd ⟨u, hrun⟩ hend
        · exact hscopes before u hbefore hrun

/-- A batch with one sample of a client. -/
def clientAt (name : String) (timestamp : Nat) : List HistoryBatch :=
  [⟨[], [⟨name, timestamp, ⟨none, none, none, none, none, none, none, none, none, none, none⟩, ⟨1, 2⟩⟩]⟩]

theorem persistBatches_of_untouched {store : Store} {batches : List HistoryBatch} {p : Progress}
    (hp : batches.foldlM (Progress.persistBatch (max (rawAdmissionCutoff clock) store.floor)) (.new store) = .ok p)
    (hminutes : p.minutes = []) (hfive : p.fiveMinutes = []) : store.persistBatches clock batches = .ok p := by
  simp only [Store.persistBatches, hp, ok_bind, hminutes, hfive, List.foldlM_nil, pure_bind, List.map_nil, List.dedup_nil,
    List.foldl_cons, List.foldl_nil]
  obtain ⟨_, minutes, fiveMinutes, _, _⟩ := p
  obtain rfl : minutes = [] := hminutes
  obtain rfl : fiveMinutes = [] := hfive
  rfl

theorem persistBatch_clientAt {store : Store} {name : String} {cutoff : Nat} (h : timestamp < cutoff) :
    (clientAt name timestamp).foldlM (Progress.persistBatch cutoff) (Progress.new store) = .ok (Progress.new store).drop := by
  simp only [clientAt, List.foldlM_cons, List.foldlM_nil, Progress.persistBatch, Progress.persistClientSample,
    Progress.persistSample, if_pos h, pure_bind]
  rfl

/-- A sample of a client that has no tombstones shows how high the floor is. -/
theorem floor_of_admitsFresh (h : AdmitsFresh s labels t clock) : t.store.floor ≤ rawAdmissionCutoff clock := by
  by_contra hfloor
  obtain ⟨scopes, hscopes⟩ := tombstoned_scopes s labels
  have hinjective : Function.Injective HistoryScope.client := fun _ _ h => HistoryScope.client.inj h
  obtain ⟨_, ⟨name, rfl⟩, hname⟩ := (Set.infinite_range_of_injective hinjective).exists_notMem_finset scopes
  have hlate : rawAdmissionCutoff clock < max (rawAdmissionCutoff clock) t.store.floor := lt_max_of_lt_right (not_le.mp hfloor)
  have hdropped := h (clientAt name _) _ (fun _ => false) (persistBatches_of_untouched (persistBatch_clientAt hlate) rfl rfl) fun sample hsample _ => by
    have hsample : sample = (.client name, rawAdmissionCutoff clock) := by
      simpa [samples, clientAt, HistoryBatch.samples] using hsample
    rw [hsample]
    dsimp only
    refine ⟨Nat.le_refl _, fun before u hbefore hrun => ?_⟩
    rintro ⟨tier, htombstone⟩
    exact hname (hscopes before u hbefore hrun _ htombstone)
  simp [Progress.drop, samples, clientAt, HistoryBatch.samples] at hdropped

/-- A run keeps fresh samples from being dropped exactly when it starts below
the worker's raw admission cutoff and retires no tombstone above it. -/
theorem admitsFresh_iff (hrun : Run Step s labels t) : AdmitsFresh s labels t clock ↔
    s.store.floor ≤ rawAdmissionCutoff clock ∧
      Run (Restricted Step fun h l => ¬h.RaisesAbove (rawAdmissionCutoff clock) l) s labels t := by
  rw [← run_floor hrun]
  exact ⟨floor_of_admitsFresh, admitsFresh_of_floor hrun⟩

/-- A job with the worker's own clock retires the tombstones of another. -/
theorem admitsFresh_after_retirement : ∃ s t, Run Step (new ⟨1, 16⟩) [.persist 7200000 (serverAt 6600000)] s ∧
    Run Step s (maintained 97200001 97200001 ++ maintained 183600002 183600002) t ∧ t.store.floor = 180300000 ∧
      AdmitsFresh s (maintained 97200001 97200001 ++ maintained 183600002 183600002) t 183600002 := by
  obtain ⟨s, hs, ht⟩ := run_of_exec_any
    (P := fun s : Worker => (exec next s (maintained 97200001 97200001 ++ maintained 183600002 183600002)).any
      (fun t => t.store.floor = 180300000) = true)
    (fun _ _ _ h => h)
    (show (exec next (new ⟨1, 16⟩) [.persist 7200000 (serverAt 6600000)]).any _ = true by decide +kernel)
  obtain ⟨t, ht, hfloor⟩ := run_of_exec_any (fun _ _ _ h => h) ht
  exact ⟨s, t, hs, ht, hfloor, (admitsFresh_iff ht).mpr ((run_floor ht).mp (hfloor.trans_le (by decide)))⟩

instance (store : Store) (scope : HistoryScope) (timestamp : Nat) : Decidable (store.Tombstoned scope timestamp) :=
  decidable_of_iff (∃ tier ∈ [Tier.oneMinute, .fiveMinutes], ⟨scope, tier, bucketStart timestamp tier.width⟩ ∈ store.tombstones)
    ⟨fun ⟨tier, _, h⟩ => ⟨tier, h⟩, fun ⟨tier, h⟩ => ⟨tier, by cases tier <;> decide, h⟩⟩

theorem neverTombstoned_of_exec (h : ∀ before ∈ labels.inits, (exec next s before).all (¬·.store.Tombstoned scope timestamp) = true) :
    NeverTombstoned s labels scope timestamp := by
  intro before u hbefore hrun
  have hall := h before ((List.mem_inits _ _).mpr hbefore)
  rw [exec_of_run (fun _ _ _ h => h) hrun, Option.all_some] at hall
  exact of_decide_eq_true hall

theorem not_admitsFresh {batches : List HistoryBatch}
    (hdropped : (t.store.persistBatches clock batches).toOption.any (0 < ·.droppedLatePoints) = true)
    (hfresh : ∀ sample ∈ samples batches, rawAdmissionCutoff clock ≤ sample.2 ∧ NeverTombstoned s labels sample.1 sample.2) :
    ¬AdmitsFresh s labels t clock := by
  intro h
  cases hp : t.store.persistBatches clock batches with
  | error e =>
      rw [hp] at hdropped
      cases hdropped
  | ok p =>
      rw [hp] at hdropped
      have hle := h batches p (fun _ => false) hp fun sample hsample _ => hfresh sample hsample
      rw [List.countP_false] at hle
      exact absurd (of_decide_eq_true hdropped) (not_lt.mpr hle)

/-- Two jobs whose clocks are one and two days ahead of the worker's: the second
retires what the first has tombstoned, under a floor two days ahead. -/
def injected : List Label := maintained 10800000 97200001 ++ maintained 10800000 183600002

/-- A sample stamped with the worker's own clock is dropped. -/
theorem injected_clock_drops_fresh : ∃ s t, Run Step (new ⟨1, 16⟩) [.persist 7200000 (serverAt 6600000)] s ∧
    Run Step s injected t ∧ ¬AdmitsFresh s injected t 10800000 := by
  obtain ⟨s, hs, ht, hnever⟩ := run_of_exec_any
    (P := fun s : Worker => (exec next s injected).any (fun t =>
        (t.store.persistBatches 10800000 (serverAt 10800000)).toOption.any (0 < ·.droppedLatePoints) = true) = true ∧
      ∀ before ∈ injected.inits, (exec next s before).all (¬·.store.Tombstoned .server 10800000) = true)
    (fun _ _ _ h => h)
    (show (exec next (new ⟨1, 16⟩) [.persist 7200000 (serverAt 6600000)]).any _ = true by decide +kernel)
  obtain ⟨t, ht, hdropped⟩ := run_of_exec_any (fun _ _ _ h => h) ht
  refine ⟨s, t, hs, ht, not_admitsFresh hdropped fun sample hsample => ?_⟩
  obtain rfl := List.mem_singleton.mp hsample
  exact ⟨by decide, neverTombstoned_of_exec hnever⟩

end Worker

end Rustgo.History
