import Mathlib.Logic.Relation
import Rustgo.HistoryCommit
import Rustgo.HistoryMaintenance

namespace Rustgo.History

open Checks Tables Relation

theorem Tier.width_pos (tier : Tier) : 0 < tier.width := by
  cases tier <;> decide

theorem Tier.width_dvd (tier : Tier) : tier.width ∣ FIVE_MINUTE_BUCKET_MILLIS := by
  cases tier <;> decide

theorem rawAdmissionCutoff_dvd (clock : Nat) : FIVE_MINUTE_BUCKET_MILLIS ∣ rawAdmissionCutoff clock := by
  rw [rawAdmissionCutoff]
  split
  · exact Nat.dvd_zero _
  · exact Nat.dvd_mul_left _ _

/-- A cutoff at the end of a bucket has the whole bucket on one side. -/
theorem lt_of_bucketStart_lt {timestamp width cutoff : Nat} (hwidth : 0 < width) (hcutoff : width ∣ cutoff)
    (h : bucketStart timestamp width < cutoff) : timestamp < cutoff := by
  obtain ⟨n, rfl⟩ := hcutoff
  rw [Nat.mul_comm width n] at h ⊢
  exact (Nat.div_lt_iff_lt_mul hwidth).mp (Nat.lt_of_mul_lt_mul_right h)

theorem bucketStart_fiveMinutes (tier : Tier) (timestamp : Nat) :
    bucketStart (bucketStart timestamp tier.width) FIVE_MINUTE_BUCKET_MILLIS =
      bucketStart timestamp FIVE_MINUTE_BUCKET_MILLIS := by
  cases tier <;> simp only [bucketStart, Tier.width, FIVE_MINUTE_BUCKET_MILLIS, MINUTE_BUCKET_MILLIS] <;> omega

namespace Store

variable {store s t u : Store} {scope : HistoryScope} {tier : Tier} {timestamp cutoff : Nat} {key : RowKey}

/-- One deletion of a transaction: rows go under new tombstones, or
tombstones go under a floor that has risen above their buckets. -/
inductive Prune : Store → Store → Prop
  | delete (s : Store) (resolution : Resolution) (deletedAt timestamp : Nat) (scope : HistoryScope) :
      Prune s (s.deleteCandidate resolution deletedAt (toLex (timestamp, scope)))
  | retire (s : Store) {retired : List TombstoneKey} {cutoff : Nat} (hcutoff : FIVE_MINUTE_BUCKET_MILLIS ∣ cutoff)
      (hretired : ∀ key ∈ retired, key.timestamp < cutoff) : Prune s
      { s.retire retired with lastMaintenance := max s.lastMaintenance (DURABLE_RETIREMENT_FLOOR_TAG + cutoff) }

abbrev Prunes : Store → Store → Prop := ReflTransGen Prune

/-- No transaction admits a sample to the bucket. -/
def Shut (store : Store) (scope : HistoryScope) (tier : Tier) (bucket : Nat) : Prop :=
  ∀ timestamp, bucketStart timestamp tier.width = bucket → store.Closed scope timestamp

/-- No transaction writes the row, nor one that is counted with it. -/
def Sealed (store : Store) (key : RowKey) : Prop :=
  match key.resolution with
  | .raw => store.Shut key.scope .fiveMinutes (bucketStart key.timestamp FIVE_MINUTE_BUCKET_MILLIS)
  | .tier tier => store.Shut key.scope tier key.timestamp

@[simp] theorem mem_tombstone {key other : TombstoneKey} {deletedAt : Nat} :
    other ∈ (store.tombstone key deletedAt).tombstones ↔ other = key ∨ other ∈ store.tombstones :=
  Finmap.mem_insert

theorem mem_deleteCandidate {resolution : Resolution} {deletedAt : Nat} {candidate : MetricPruneCandidate}
    {other : TombstoneKey} (h : other ∈ store.tombstones) : other ∈ (store.deleteCandidate resolution deletedAt candidate).tombstones := by
  cases resolution with
  | raw => exact mem_tombstone.mpr (.inr (mem_tombstone.mpr (.inr h)))
  | tier => exact mem_tombstone.mpr (.inr h)

theorem floor_deleteCandidate {resolution : Resolution} {deletedAt : Nat} {candidate : MetricPruneCandidate} :
    (store.deleteCandidate resolution deletedAt candidate).floor = store.floor := by
  cases resolution <;> exact congrArg decodeDurableRetirementFloor rfl

theorem floor_retire {retired : List TombstoneKey} : floor { store.retire retired with
    lastMaintenance := max store.lastMaintenance (DURABLE_RETIREMENT_FLOOR_TAG + cutoff) } = max store.floor cutoff := by
  simp only [floor, decodeDurableRetirementFloor]
  omega

/-- What a retired tombstone kept out stays out below the floor. -/
theorem Prune.closed (h : Prune s t) (hclosed : s.Closed scope timestamp) : t.Closed scope timestamp := by
  cases h with
  | delete resolution deletedAt timestamp scope =>
      obtain hfloor | ⟨tier, htier⟩ := hclosed
      · refine .inl ?_
        rwa [floor_deleteCandidate]
      · exact .inr ⟨tier, mem_deleteCandidate htier⟩
  | @retire retired cutoff hcutoff hretired =>
      obtain hfloor | ⟨tier, htier⟩ := hclosed
      · left
        rw [floor_retire]
        exact lt_of_lt_of_le hfloor (le_max_left _ _)
      · by_cases hmem : ⟨scope, tier, bucketStart timestamp tier.width⟩ ∈ retired
        · left
          rw [floor_retire]
          exact lt_of_lt_of_le (lt_of_bucketStart_lt tier.width_pos (tier.width_dvd.trans hcutoff) (hretired _ hmem))
            (le_max_right _ _)
        · refine .inr ⟨tier, ?_⟩
          obtain ⟨deletedAt, hlookup⟩ := Finmap.mem_iff.mp htier
          exact Finmap.mem_of_lookup_eq_some (lookup_keep_eq_some.mpr ⟨hlookup, by simpa using hmem⟩)

theorem Prune.shut {bucket : Nat} (h : Prune s t) (hshut : s.Shut scope tier bucket) : t.Shut scope tier bucket :=
  fun timestamp htimestamp => h.closed (hshut timestamp htimestamp)

theorem Sealed.mono (h : s.Sealed key)
    (hshut : ∀ tier bucket, s.Shut key.scope tier bucket → t.Shut key.scope tier bucket) : t.Sealed key := by
  obtain ⟨scope, _ | tier, timestamp, metric⟩ := key
  · exact hshut _ _ h
  · exact hshut _ _ h

theorem deleteCandidate_sealed (resolution : Resolution) (deletedAt timestamp : Nat) (scope : HistoryScope)
    (metric : HistoryMetric) : (store.deleteCandidate resolution deletedAt (toLex (timestamp, scope))).Sealed ⟨scope, resolution, timestamp, metric⟩ := by
  cases resolution with
  | raw =>
      intro other hother
      refine .inr ⟨.fiveMinutes, mem_tombstone.mpr (.inl ?_)⟩
      rw [hother]
      rfl
  | tier tier =>
      intro other hother
      refine .inr ⟨tier, mem_tombstone.mpr (.inl ?_)⟩
      rw [hother]
      rfl

/-- The row and those beside it are gone, and nothing brings them back. -/
structure Gone (store : Store) (key : RowKey) : Prop where
  sealed : store.Sealed key
  absent : ∀ metric, store.rows.lookup { key with metric := metric } = none

theorem lookup_deleteCandidate {resolution : Resolution} {deletedAt : Nat} :
    (store.deleteCandidate resolution deletedAt (toLex (timestamp, scope))).rows.lookup key =
      if key.scope = scope ∧ key.resolution = resolution ∧ key.timestamp = timestamp then none else store.rows.lookup key := by
  have hrows : (store.tombstoneDeletedBucket scope resolution timestamp deletedAt).rows = store.rows := by
    cases resolution <;> rfl
  rw [deleteCandidate, deleteRows, lookup_keep]
  simp only [ofLex_toLex, hrows]
  cases store.rows.lookup key <;> split <;> simp_all

/-- A row that a deletion takes is gone. -/
theorem Prune.lookup (h : Prune s t) (key : RowKey) : t.rows.lookup key = s.rows.lookup key ∨ t.Gone key := by
  cases h with
  | delete resolution deletedAt timestamp scope =>
      by_cases hkey : key.scope = scope ∧ key.resolution = resolution ∧ key.timestamp = timestamp
      · obtain ⟨keyScope, keyResolution, keyTimestamp, metric⟩ := key
        obtain ⟨rfl, rfl, rfl⟩ := hkey
        refine .inr ⟨deleteCandidate_sealed _ _ _ _ _, fun metric => ?_⟩
        rw [lookup_deleteCandidate, if_pos ⟨rfl, rfl, rfl⟩]
      · exact .inl (lookup_deleteCandidate.trans (if_neg hkey))
  | retire => exact .inl rfl

theorem Prune.gone (h : Prune s t) (hgone : s.Gone key) : t.Gone key := by
  refine ⟨hgone.sealed.mono fun _ _ hshut => h.shut hshut, fun metric => ?_⟩
  obtain hsame | hgone' := h.lookup { key with metric := metric }
  · exact hsame.trans (hgone.absent metric)
  · exact hgone'.absent metric

theorem Prunes.shut {bucket : Nat} (h : Prunes s t) (hshut : s.Shut scope tier bucket) : t.Shut scope tier bucket := by
  induction h with
  | refl => exact hshut
  | tail _ hstep ih => exact hstep.shut ih

theorem Prunes.gone (h : Prunes s t) (hgone : s.Gone key) : t.Gone key := by
  induction h with
  | refl => exact hgone
  | tail _ hstep ih => exact hstep.gone ih

theorem Prunes.lookup (h : Prunes s t) (key : RowKey) : t.rows.lookup key = s.rows.lookup key ∨ t.Gone key := by
  induction h with
  | refl => exact .inl rfl
  | tail _ hstep ih =>
      obtain hsame | hgone := ih
      · exact (hstep.lookup key).imp_left fun h => h.trans hsame
      · exact .inr (hstep.gone hgone)

theorem deleteCandidates_prunes (resolution : Resolution) (deletedAt : Nat) (candidates : List MetricPruneCandidate) :
    Prunes store (candidates.foldl (deleteCandidate resolution deletedAt) store) :=
  List.foldlRecOn candidates _ .refl fun _ hs candidate _ => hs.tail (.delete _ resolution deletedAt _ _)

theorem deleteMetricBucketChunk_prunes {resolution : Resolution} {deletedAt : Nat} {exhausted : Bool}
    (h : store.deleteMetricBucketChunk resolution cutoff deletedAt = .ok (exhausted, t)) : Prunes store t := by
  simp only [deleteMetricBucketChunk, bind_eq_ok, pure_eq_ok, Prod.mk.injEq] at h
  obtain ⟨_, -, _, -, -, rfl⟩ := h
  exact deleteCandidates_prunes _ _ _

theorem mem_expired {deletedBefore : Nat} {entry : Nat ×ₗ MetricPruneCandidate} (h : entry ∈ store.expired tier deletedBefore cutoff) :
    (ofLex (ofLex entry).2).1 < cutoff := by
  rw [expired, Finset.mem_image] at h
  obtain ⟨key, hkey, rfl⟩ := h
  exact (Finset.mem_filter.mp hkey).2.2.2

theorem deleteExpiredTombstoneResolution_prunes {deletedBefore limit count : Nat} (hcutoff : FIVE_MINUTE_BUCKET_MILLIS ∣ cutoff)
    (h : store.deleteExpiredTombstoneResolution tier deletedBefore cutoff limit = .ok (count, t)) : Prunes store t := by
  simp only [deleteExpiredTombstoneResolution, bind_eq_ok, sqliteInteger_eq_ok] at h
  obtain ⟨_, ⟨-, rfl⟩, _, ⟨-, rfl⟩, h⟩ := h
  split at h
  · simp only [encodeDurableRetirementFloor, bind_eq_ok, require_eq_ok, pure_eq_ok, sqliteInteger_eq_ok, Prod.mk.injEq] at h
    obtain ⟨_, ⟨_, -, rfl⟩, _, ⟨-, rfl⟩, -, rfl⟩ := h
    refine .single (.retire store hcutoff fun key hkey => ?_)
    obtain ⟨entry, hentry, rfl⟩ := List.mem_map.mp hkey
    exact mem_expired (mem_of_mem_smallest hentry)
  · rw [pure_eq_ok, Prod.mk.injEq] at h
    rw [← h.2]

theorem deleteTombstonesBefore_prunes (store : Store) (oneMinuteBefore fiveMinutesBefore limit : Nat) (interrupted : Bool)
    (hcutoff : FIVE_MINUTE_BUCKET_MILLIS ∣ cutoff) :
    Prunes store (store.deleteTombstonesBefore oneMinuteBefore fiveMinutesBefore cutoff limit interrupted).2 := by
  unfold deleteTombstonesBefore
  cases hone : store.deleteExpiredTombstoneResolution .oneMinute oneMinuteBefore cutoff limit with
  | error e => exact .refl
  | ok retired =>
      obtain ⟨deleted, u⟩ := retired
      have hu := deleteExpiredTombstoneResolution_prunes hcutoff hone
      dsimp only
      split_ifs
      · exact hu
      · exact hu
      · cases hfive : u.deleteExpiredTombstoneResolution .fiveMinutes fiveMinutesBefore cutoff (limit - deleted) with
        | error e => exact hu
        | ok retired => exact hu.trans (deleteExpiredTombstoneResolution_prunes hcutoff hfive)

theorem deleteExpiredTombstones_prunes {now retention limit : Nat} {interrupted : Bool} {result : Except DatabaseError Nat}
    (hcutoff : FIVE_MINUTE_BUCKET_MILLIS ∣ cutoff)
    (h : store.deleteExpiredTombstones now cutoff retention limit interrupted = (result, t)) : Prunes store t := by
  have hprunes := deleteTombstonesBefore_prunes store (now - ONE_MINUTE_RETENTION_MILLIS) (now - retention) limit interrupted
    hcutoff
  rwa [← deleteExpiredTombstones, h] at hprunes

theorem pruneMetricTierStep_prunes {resolution : Resolution} {clock : Nat} {result : CapPruneResult}
    (h : store.pruneMetricTierStep resolution clock = .ok (result, t)) : Prunes store t := by
  rw [pruneMetricTierStep] at h
  split at h
  · rw [pure_eq_ok, Prod.mk.injEq] at h
    rw [← h.2]
  · simp only [bind_eq_ok, pure_eq_ok, Prod.mk.injEq] at h
    obtain ⟨_, -, -, rfl⟩ := h
    exact deleteCandidates_prunes _ _ _

theorem pruneCapBatchStep_prunes (store : Store) (config : HistoryConfig) (around : Surroundings) (state : CapPruneState) :
    Prunes store (store.pruneCapBatchStep config around state).2.1 := by
  rw [pruneCapBatchStep]
  split
  · split
    case h_1 h => exact deleteExpiredTombstones_prunes (rawAdmissionCutoff_dvd around.clock) h
    case h_2 h => split <;> exact deleteExpiredTombstones_prunes (rawAdmissionCutoff_dvd around.clock) h
  · split
    · split
      · exact .refl
      case h_2 h => exact pruneMetricTierStep_prunes h
      case h_3 h => exact pruneMetricTierStep_prunes h
    · split
      · split <;> exact .refl
      · exact .refl

theorem enforceSizeCapStep_prunes (store : Store) (config : HistoryConfig) (around : Surroundings) (state : CapState) :
    Prunes store (store.enforceSizeCapStep config around state).2.1 := by
  have hprune := pruneCapBatchStep_prunes store config around state.prune
  rw [enforceSizeCapStep]
  split
  case h_6 => split <;> simp_all
  all_goals first | exact .refl | (split <;> exact .refl)

theorem chunkTurn_prunes {job job' : MaintenanceJob} {next : MaintenancePhase} {chunk : Except DatabaseError (Bool × Store)}
    {result : Except DatabaseError Bool} (hchunk : ∀ exhausted t, chunk = .ok (exhausted, t) → Prunes store t)
    (h : store.chunkTurn job next chunk = (result, t, job')) :
    Prunes store t ∧ job'.retirementCutoff = job.retirementCutoff := by
  cases chunk with
  | error e =>
      obtain ⟨-, rfl, rfl⟩ := h
      exact ⟨.refl, rfl⟩
  | ok chunk =>
      obtain ⟨exhausted, u⟩ := chunk
      simp only [chunkTurn, Prod.mk.injEq] at h
      obtain ⟨-, rfl, rfl⟩ := h
      exact ⟨hchunk exhausted _ rfl, by cases exhausted <;> rfl⟩

theorem rowTurn_keeps {around : Surroundings} {job job' : MaintenanceJob} {next : MaintenancePhase}
    {check : Except DatabaseError Nat} {result : Except DatabaseError Bool}
    (h : store.rowTurn around job next check = (result, t, job')) :
    t = store ∧ job'.retirementCutoff = job.retirementCutoff := by
  cases check with
  | error e =>
      simp only [rowTurn, Prod.mk.injEq] at h
      obtain ⟨-, rfl, rfl⟩ := h
      exact ⟨rfl, rfl⟩
  | ok _ =>
      simp only [rowTurn, Prod.mk.injEq] at h
      obtain ⟨-, rfl, rfl⟩ := h
      exact ⟨rfl, by split <;> rfl⟩

theorem tombstoneTurn_keeps {job job' : MaintenanceJob} {deletion : Except DatabaseError Nat × Store}
    {result : Except DatabaseError Bool} (h : tombstoneTurn job deletion = (result, t, job')) :
    t = deletion.2 ∧ job'.retirementCutoff = job.retirementCutoff := by
  obtain ⟨_ | deleted, u⟩ := deletion
  · simp only [tombstoneTurn, Prod.mk.injEq] at h
    obtain ⟨-, rfl, rfl⟩ := h
    exact ⟨rfl, rfl⟩
  · simp only [tombstoneTurn, Prod.mk.injEq] at h
    obtain ⟨-, rfl, rfl⟩ := h
    exact ⟨rfl, by split <;> rfl⟩

theorem sizeTurn_keeps {job job' : MaintenanceJob} {turn : Except DatabaseError Bool × Store × CapState}
    {result : Except DatabaseError Bool} (h : sizeTurn job turn = (result, t, job')) :
    t = turn.2.1 ∧ job'.retirementCutoff = job.retirementCutoff := by
  obtain ⟨_ | _ | _, u, state⟩ := turn <;>
  · simp only [sizeTurn, Prod.mk.injEq] at h
    obtain ⟨-, rfl, rfl⟩ := h
    exact ⟨rfl, rfl⟩

theorem maintenanceStep_prunes {config : HistoryConfig} {around : Surroundings} {job job' : MaintenanceJob}
    {result : Except DatabaseError Bool} (hcutoff : FIVE_MINUTE_BUCKET_MILLIS ∣ job.retirementCutoff)
    (h : store.maintenanceStep config around job = (result, t, job')) :
    Prunes store t ∧ job'.retirementCutoff = job.retirementCutoff := by
  obtain ⟨now, rawCutoff, retirementCutoff, phase⟩ := job
  rw [maintenanceStep] at h
  cases phase with
  | raw => exact chunkTurn_prunes (fun _ _ => deleteMetricBucketChunk_prunes) h
  | oneMinute => exact chunkTurn_prunes (fun _ _ => deleteMetricBucketChunk_prunes) h
  | fiveMinutes => exact chunkTurn_prunes (fun _ _ => deleteMetricBucketChunk_prunes) h
  | lifecycle | sessions =>
      obtain ⟨rfl, hjob⟩ := rowTurn_keeps h
      exact ⟨.refl, hjob⟩
  | tombstones =>
      obtain ⟨ht, hjob⟩ := tombstoneTurn_keeps h
      rw [ht]
      exact ⟨deleteExpiredTombstones_prunes hcutoff Prod.mk.eta.symm, hjob⟩
  | cap state =>
      obtain ⟨rfl, hjob⟩ := sizeTurn_keeps h
      exact ⟨enforceSizeCapStep_prunes store config around state, hjob⟩
  | recordCompletion | done =>
      obtain ⟨-, rfl, rfl⟩ := h
      exact ⟨.refl, rfl⟩

end Store

end Rustgo.History
