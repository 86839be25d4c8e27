import Rustgo.HistoryPrune
import Rustgo.Runs

namespace Rustgo.History

open Checks Tables Journal Runs Store

namespace Store

variable {s t : Store} {scope : HistoryScope} {tier : Tier} {key : RowKey} {timestamp bucket clock : Nat} {p : Progress}

theorem SameSeals.closed (h : SameSeals s t) (hclosed : s.Closed scope timestamp) : t.Closed scope timestamp := by
  rw [Closed, Tombstoned, floor] at hclosed ⊢
  rwa [h.tombstones, h.lastMaintenance]

theorem SameSeals.shut (h : SameSeals s t) (hshut : s.Shut scope tier bucket) : t.Shut scope tier bucket :=
  fun timestamp htimestamp => h.closed (hshut timestamp htimestamp)

theorem content_eq_none : s.content key = none ↔ s.rows.lookup key = none := Option.map_eq_none_iff

/-- A transaction writes no row that is gone. -/
theorem Commits.gone (h : s.Commits clock p) (hgone : s.Gone key) : p.store.Gone key := by
  refine ⟨hgone.sealed.mono fun _ _ => h.seals.shut, fun metric => content_eq_none.mp ?_⟩
  have hold : s.content { key with metric := metric } = none := content_eq_none.mpr (hgone.absent metric)
  have hsealed := hgone.sealed
  obtain ⟨scope, resolution, timestamp, own⟩ := key
  cases resolution with
  | raw =>
      have hnew : lastAdmitted p.admitted ⟨scope, .raw, timestamp, metric⟩ = none := by
        refine latest_eq_none.mpr fun a ha hkey => h.admits a ha (.inr ?_)
        obtain ⟨rfl, rfl⟩ : a.scope = scope ∧ a.timestamp = timestamp :=
          ⟨congrArg RowKey.scope hkey, congrArg RowKey.timestamp hkey⟩
        exact hsealed a.timestamp rfl
      rw [h.raw _ rfl, hold, hnew]
      rfl
  | tier tier =>
      rw [h.tier tier _ rfl, hold, if_neg]
      intro hbucket
      obtain ⟨other, hopen, hother⟩ := h.touched tier _ hbucket
      exact hopen (.inr (hsealed other hother))

/-- A transaction deletes no row. -/
theorem Commits.mem (h : s.Commits clock p) (hkey : key ∈ s.rows) : key ∈ p.store.rows := by
  rw [← content_isSome] at hkey ⊢
  obtain ⟨c, hc⟩ := Option.isSome_iff_exists.mp hkey
  cases hresolution : key.resolution with
  | raw =>
      rw [h.raw key hresolution, hc]
      cases lastAdmitted p.admitted key <;> rfl
  | tier tier =>
      rw [h.tier tier key hresolution, hc]
      split
      · cases p.store.rollup tier key <;> rfl
      · rfl

end Store

namespace Worker

variable {h t u v w : Worker} {l : Label} {key : RowKey} {labels before after later : List Label} {config : HistoryConfig}

/-- What a step does to the metric tables: it commits a transaction or deletes. -/
inductive Change (h t : Worker) : Prop
  | commit (clock : Nat) (p : Progress) (hp : h.store.Commits clock p) (hstore : t.store = p.store)
      (hadmitted : t.admitted = h.admitted ++ p.admitted) (haggregated : t.aggregated = h.aggregated ++ p.aggregated)
  | prune (hstore : h.store.Prunes t.store) (hadmitted : t.admitted = h.admitted) (haggregated : t.aggregated = h.aggregated)

/-- The job retires tombstones up to the end of a bucket. -/
def Aligned (h : Worker) : Prop := ∀ job, h.maintenance = some job → FIVE_MINUTE_BUCKET_MILLIS ∣ job.retirementCutoff

theorem persist_change (h : Worker) (clock : Nat) (batches : List HistoryBatch) :
    Change h (h.persist clock batches) ∧ (h.persist clock batches).maintenance = h.maintenance := by
  rw [persist]
  cases hp : h.store.persistBatches clock batches with
  | error e => exact ⟨.prune .refl rfl rfl, rfl⟩
  | ok p => exact ⟨.commit clock p (persistBatches_commits hp) rfl rfl rfl, rfl⟩

theorem maintenanceTurn_change {around : Surroundings} {job : MaintenanceJob}
    (haligned : FIVE_MINUTE_BUCKET_MILLIS ∣ job.retirementCutoff) :
    Change h (h.maintenanceTurn around job) ∧ (h.maintenanceTurn around job).Aligned := by
  rw [maintenanceTurn]
  rcases hturn : h.store.maintenanceStep h.config around job with ⟨result, store, job'⟩
  obtain ⟨hprunes, hcutoff⟩ := maintenanceStep_prunes haligned hturn
  rw [← hcutoff] at haligned
  have hkept : Aligned { h with store := store, maintenance := some job' } := by
    rintro _ ⟨⟩
    exact haligned
  have hgiven : Aligned { h with store := store, maintenance := none } := by
    rintro _ ⟨⟩
  obtain (_ | _) | (_ | _) := result
  · exact ⟨.prune hprunes rfl rfl, hkept⟩
  · exact ⟨.prune hprunes rfl rfl, hgiven⟩
  · exact ⟨.prune hprunes rfl rfl, hkept⟩
  · exact ⟨.prune hprunes rfl rfl, hgiven⟩

theorem capTurn_change (h : Worker) (around : Surroundings) (state : CapState) :
    Change h (h.capTurn around state) ∧ (h.capTurn around state).maintenance = h.maintenance := by
  rw [capTurn]
  have hprunes := enforceSizeCapStep_prunes h.store h.config around state
  rcases hturn : h.store.enforceSizeCapStep h.config around state with ⟨result, store, state'⟩
  rw [hturn] at hprunes
  obtain _ | (_ | _) := result
  · exact ⟨.prune hprunes rfl rfl, rfl⟩
  · exact ⟨.prune hprunes rfl rfl, rfl⟩
  · exact ⟨.prune hprunes rfl rfl, rfl⟩

theorem step_change (haligned : h.Aligned) (hstep : Step h l t) : Change h t ∧ t.Aligned := by
  cases l with
  | persist clock batches =>
      obtain rfl := Option.some.inj hstep
      obtain ⟨hchange, hmaintenance⟩ := persist_change h clock batches
      exact ⟨hchange, fun job hjob => haligned job (hmaintenance ▸ hjob)⟩
  | maintain clock now =>
      simp only [Step, next] at hstep
      split at hstep
      · cases hstep
      · rw [← Option.some.inj hstep]
        refine ⟨.prune .refl rfl rfl, fun job hjob => ?_⟩
        rw [← Option.some.inj hjob]
        dsimp only [MaintenanceJob.new]
        exact rawAdmissionCutoff_dvd now
  | cancelMaintenance =>
      obtain rfl := Option.some.inj hstep
      refine ⟨.prune .refl rfl rfl, ?_⟩
      rintro _ ⟨⟩
  | maintenanceTurn around =>
      obtain ⟨job, hjob, rfl⟩ := Option.map_eq_some_iff.mp hstep
      exact maintenanceTurn_change (haligned job hjob)
  | startCap =>
      obtain rfl := Option.some.inj hstep
      exact ⟨.prune .refl rfl rfl, haligned⟩
  | capTurn around =>
      obtain ⟨state, -, rfl⟩ := Option.map_eq_some_iff.mp hstep
      obtain ⟨hchange, hmaintenance⟩ := capTurn_change h around state
      exact ⟨hchange, fun job hjob => haligned job (hmaintenance ▸ hjob)⟩

theorem Change.gone (hchange : Change h t) (hgone : h.store.Gone key) : t.store.Gone key := by
  cases hchange with
  | commit clock p hp hstore =>
      rw [hstore]
      exact hp.gone hgone
  | prune hstore => exact hstore.gone hgone

theorem Change.mem_or_gone (hchange : Change h t) (hkey : key ∈ h.store.rows) : key ∈ t.store.rows ∨ t.store.Gone key := by
  cases hchange with
  | commit clock p hp hstore =>
      rw [hstore]
      exact .inl (hp.mem hkey)
  | prune hstore =>
      refine (hstore.lookup key).imp_left fun hsame => ?_
      rwa [← Finmap.lookup_isSome, hsame, Finmap.lookup_isSome]

theorem aligned_of_run (hrun : Run Step (new config) labels u) : u.Aligned := by
  refine hrun.invariant (P := Aligned) (fun _ _ _ hs hstep => (step_change hs hstep).2) ?_
  rintro _ ⟨⟩

theorem run_gone (hu : u.Aligned) (hrun : Run Step u labels v) (hgone : u.store.Gone key) : v.store.Gone key := by
  have hv : v.Aligned ∧ v.store.Gone key := by
    refine hrun.invariant (P := fun v => v.Aligned ∧ v.store.Gone key) (fun s l t hs hstep => ?_) ⟨hu, hgone⟩
    obtain ⟨hchange, haligned⟩ := step_change hs.1 hstep
    exact ⟨haligned, hchange.gone hs.2⟩
  exact hv.2

theorem run_mem_or_gone (hu : u.Aligned) (hrun : Run Step u labels v) (hkey : key ∈ u.store.rows) :
    key ∈ v.store.rows ∨ v.store.Gone key := by
  have hv : v.Aligned ∧ (key ∈ v.store.rows ∨ v.store.Gone key) := by
    refine hrun.invariant (P := fun v => v.Aligned ∧ (key ∈ v.store.rows ∨ v.store.Gone key)) (fun s l t hs hstep => ?_)
      ⟨hu, .inl hkey⟩
    obtain ⟨hchange, haligned⟩ := step_change hs.1 hstep
    exact ⟨haligned, hs.2.elim hchange.mem_or_gone fun hgone => .inr (hchange.gone hgone)⟩
  exact hv.2

/-- Once a metric row has been deleted, no row of its scope, resolution and
timestamp is there ever again. -/
theorem deleted_rows_stay_deleted (hu : Run Step (new config) before u) (hv : Run Step u labels v) (hw : Run Step v after w)
    (hrow : key ∈ u.store.rows) (hdeleted : key ∉ v.store.rows) (metric : HistoryMetric) :
    { key with metric := metric } ∉ w.store.rows := by
  have haligned := aligned_of_run hu
  obtain hkept | hgone := run_mem_or_gone haligned hv hrow
  · exact absurd hkept hdeleted
  · have hgone' := run_gone (aligned_of_run (hu.trans hv)) hw hgone
    exact Finmap.lookup_eq_none.mp (hgone'.absent metric)

/-- A batch with one sample of the server. -/
def serverAt (timestamp : Nat) : List HistoryBatch :=
  [⟨[⟨timestamp, ⟨none, none, none, none, none, none, none, none, none, none, none⟩, ⟨1, 2⟩⟩], []⟩]

/-- A maintenance job and all its turns, in a database far below its cap. -/
def maintained (clock now : Nat) : List Label :=
  .maintain clock now :: List.replicate 8 (.maintenanceTurn ⟨clock, 0, true, false, 0, false⟩)

/-- The tombstones of the row are retired, the clock is set back, and the sample
comes again. -/
theorem deleted_rows_stay_deleted_after_retirement : ∃ u v w,
    Run Step (new ⟨1, 16⟩) [.persist 7200000 (serverAt 6600000)] u ∧ Run Step u (maintained 10800000 97200001) v ∧
      Run Step v (maintained 10800000 183600002 ++ [.persist 7200000 (serverAt 6600000)]) w ∧ w.store.tombstones = ∅ ∧
      ∀ metric, ⟨.server, .raw, 6600000, metric⟩ ∉ w.store.rows := by
  obtain ⟨u, hu, hrow, hv⟩ := run_of_exec_any
    (P := fun u : Worker => ⟨.server, .raw, 6600000, .trafficSentBytes⟩ ∈ u.store.rows ∧
      (exec next u (maintained 10800000 97200001)).any (fun v => ⟨.server, .raw, 6600000, .trafficSentBytes⟩ ∉ v.store.rows ∧
        (exec next v (maintained 10800000 183600002 ++ [.persist 7200000 (serverAt 6600000)])).any
          (fun w => w.store.tombstones = ∅) = true) = true)
    (fun _ _ _ h => h)
    (show (exec next (new ⟨1, 16⟩) [.persist 7200000 (serverAt 6600000)]).any _ = true by decide +kernel)
  obtain ⟨v, hv, hdeleted, hw⟩ := run_of_exec_any (fun _ _ _ h => h) hv
  obtain ⟨w, hw, htombstones⟩ := run_of_exec_any (fun _ _ _ h => h) hw
  exact ⟨u, v, w, hu, hv, hw, htombstones, deleted_rows_stay_deleted hu hv hw hrow hdeleted⟩

end Worker

end Rustgo.History
