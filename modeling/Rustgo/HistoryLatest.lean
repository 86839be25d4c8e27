import Rustgo.HistoryArchive
import Rustgo.HistoryPrune

namespace Rustgo.History

open Checks Tables LatestRows Runs

namespace Store

variable {store s t : Store} {scope : HistoryScope} {resolution : Resolution} {tier : Tier} {key : RowKey} {row : Row}
  {timestamp cutoff clock : Nat} {scopes : List HistoryScope}

theorem refreshLatest_rows : (s.refreshLatest scope resolution).rows = metricRanking.refresh s.rows (scope, resolution) := by
  have htimestamps : (s.rows.keys.filter fun key => key.scope = scope ∧ key.resolution = resolution).image RowKey.timestamp =
      metricRanking.ranks s.rows fun key row => metricRanking.group key row = some (scope, resolution) := by
    ext timestamp
    simp only [Finset.mem_image, Finset.mem_filter, Finmap.mem_keys, Finmap.mem_iff, Ranking.mem_ranks, metricRanking,
      Option.some.injEq, Prod.mk.injEq, decide_eq_true_eq]
    constructor
    · rintro ⟨key, ⟨⟨row, hrow⟩, hgroup⟩, htimestamp⟩
      exact ⟨key, row, hrow, hgroup, htimestamp⟩
    · rintro ⟨key, row, hrow, hgroup, htimestamp⟩
      exact ⟨key, ⟨⟨row, hrow⟩, hgroup⟩, htimestamp⟩
  simp only [refreshLatest, Ranking.refresh, htimestamps]
  congr 1
  funext key row
  have hgroup : metricRanking.group key row = some (scope, resolution) ↔ key.scope = scope ∧ key.resolution = resolution := by
    simp only [metricRanking, Option.some.injEq, Prod.mk.injEq]
  exact if_congr (by rw [hgroup, and_assoc]; rfl) rfl rfl

theorem refreshScopes_rows : (scopes.foldl (fun store scope => store.refreshLatest scope resolution) s).rows =
    (scopes.map fun scope => (scope, resolution)).foldl metricRanking.refresh s.rows := by
  induction scopes generalizing s with
  | nil => rfl
  | cons scope scopes ih => rw [List.foldl_cons, ih, refreshLatest_rows, List.map_cons, List.foldl_cons]

/-- Once the scopes have been refreshed at the resolutions, their newest rows have the flag. -/
theorem markedIn_refreshed {resolutions : List Resolution}
    (h : scope ∈ scopes ∧ resolution ∈ resolutions ∨ metricRanking.MarkedIn s.rows (scope, resolution)) :
    metricRanking.MarkedIn (resolutions.foldl (fun store resolution =>
      scopes.foldl (fun store scope => store.refreshLatest scope resolution) store) s).rows (scope, resolution) := by
  induction resolutions generalizing s with
  | nil => exact h.resolve_left fun h => List.not_mem_nil h.2
  | cons head resolutions ih =>
      rw [List.foldl_cons]
      refine ih ?_
      rw [refreshScopes_rows]
      rcases h with ⟨hscope, hresolution⟩ | h
      · rcases List.mem_cons.mp hresolution with rfl | hresolution
        · exact .inr (Ranking.markedIn_refreshes (.inl (List.mem_map_of_mem hscope)))
        · exact .inl ⟨hscope, hresolution⟩
      · exact .inr (Ranking.markedIn_refreshes (.inr h))

/-- The stores have the same rows outside the scopes. -/
def SameOutside (scopes : List HistoryScope) (s t : Store) : Prop := ∀ key : RowKey, key.scope ∉ scopes → t.rows.lookup key = s.rows.lookup key

theorem SameOutside.trans {u : Store} (h : SameOutside scopes s t) (h' : SameOutside scopes t u) : SameOutside scopes s u :=
  fun key hkey => (h' key hkey).trans (h key hkey)

theorem upsert_sameOutside {value : ℚ} {sampleCount : Nat} (h : key.scope ∈ scopes) : SameOutside scopes s (s.upsert key value sampleCount) := by
  intro other hother
  have hne : other ≠ key := by
    rintro rfl
    exact hother h
  exact Finmap.lookup_insert_of_ne _ hne

theorem aggregateBucket_sameOutside {startField stopField : String} {bucket : Nat} (hscope : scope ∈ scopes)
    (h : s.aggregateBucket startField stopField scope tier bucket = .ok t) : SameOutside scopes s t := by
  simp only [aggregateBucket, bind_eq_ok, pure_eq_ok] at h
  obtain ⟨start, -, stop, -, rfl⟩ := h
  refine List.foldlRecOn HistoryMetric.all _ (fun _ _ => rfl) fun u hu metric _ => hu.trans ?_
  rw [aggregateMetric]
  split
  · exact fun _ _ => rfl
  · exact upsert_sameOutside hscope

theorem aggregateIn_sameOutside {bucket : HistoryScope × Nat} (hscope : bucket.1 ∈ scopes) (h : s.aggregateIn tier bucket = .ok t) :
    SameOutside scopes s t := by
  obtain ⟨_ | client, bucket⟩ := bucket
  · exact aggregateBucket_sameOutside hscope h
  · exact aggregateBucket_sameOutside hscope h

theorem aggregates_sameOutside {buckets : List (HistoryScope × Nat)} (hscopes : ∀ bucket ∈ buckets, bucket.1 ∈ scopes)
    (h : buckets.foldlM (aggregateIn tier) s = .ok t) : SameOutside scopes s t := by
  refine foldlM_preserves (P := SameOutside scopes s) (fun u hu bucket hbucket v hv => ?_) (fun _ _ => rfl) h
  exact hu.trans (aggregateIn_sameOutside (hscopes bucket hbucket) hv)

end Store

namespace Progress

open Store

variable {p q : Progress} {store : Store} {scope : HistoryScope} {timestamp cutoff : Nat} {values : List (HistoryMetric × ℚ)}
  {field : String}

def scopes (p : Progress) : List HistoryScope := p.minutes.map Prod.fst

/-- The transaction has changed rows of the scopes it has noted, and no others. -/
structure Noted (store : Store) (p : Progress) : Prop where
  same : SameOutside p.scopes store p.store
  fiveMinutes : ∀ bucket ∈ p.fiveMinutes, bucket.1 ∈ p.scopes

theorem writes_sameOutside (scope : HistoryScope) (timestamp : Nat) :
    SameOutside [scope] p.store (values.foldl (write scope timestamp) p).store :=
  List.foldlRecOn (motive := fun (q : Progress) => SameOutside [scope] p.store q.store) values _ (fun _ _ => rfl) fun _ hq _ _ =>
    hq.trans (upsert_sameOutside List.mem_cons_self)

theorem mem_scopes_touch {other : HistoryScope} : other ∈ (p.touch scope timestamp).scopes ↔ other = scope ∨ other ∈ p.scopes := by
  rw [scopes, touch]
  simp only [List.mem_map, List.mem_insert_iff]
  constructor
  · rintro ⟨bucket, rfl | hbucket, rfl⟩
    · exact .inl rfl
    · exact .inr (List.mem_map_of_mem hbucket)
  · rintro (rfl | hother)
    · exact ⟨_, .inl rfl, rfl⟩
    · obtain ⟨bucket, hbucket, rfl⟩ := List.mem_map.mp hother
      exact ⟨bucket, .inr hbucket, rfl⟩

theorem Noted.persistSample (h : Noted store p) (hp : p.persistSample cutoff field scope timestamp values = .ok q) : Noted store q := by
  obtain ⟨-, rfl⟩ | ⟨-, rfl⟩ := persistSample_cases hp
  · exact ⟨h.same, h.fiveMinutes⟩
  · have hwrites : SameOutside [scope] p.store (values.foldl (write scope timestamp) p).store := writes_sameOutside scope timestamp
    obtain ⟨written, hwritten⟩ := writes_eq p scope timestamp values
    rw [hwritten] at hwrites ⊢
    constructor
    case same =>
      intro key hkey
      rw [mem_scopes_touch, not_or] at hkey
      exact (hwrites key fun hmem => hkey.1 (List.mem_singleton.mp hmem)).trans (h.same key hkey.2)
    case fiveMinutes =>
      intro bucket hbucket
      rw [mem_scopes_touch]
      rcases List.mem_insert_iff.mp hbucket with rfl | hbucket
      · exact .inl rfl
      · exact .inr (h.fiveMinutes bucket hbucket)

theorem Noted.persistBatch {batch : HistoryBatch} (h : Noted store p) (hp : p.persistBatch cutoff batch = .ok q) : Noted store q := by
  simp only [Progress.persistBatch, bind_eq_ok] at hp
  obtain ⟨r, hserver, hclient⟩ := hp
  have hr : Noted store r := foldlM_preserves (P := Noted store) (fun _ hb _ _ _ hc => hb.persistSample hc) h hserver
  refine foldlM_preserves (P := Noted store) (fun _ hb sample _ _ hc => ?_) hr hclient
  rw [persistClientSample] at hc
  exact hb.persistSample hc

end Progress

namespace Store

variable {s t : Store} {scope : HistoryScope} {resolution : Resolution} {clock cutoff : Nat} {p : Progress} {batches : List HistoryBatch}

theorem metric_ungrouped {rows : Table RowKey Row} : ∀ key row, rows.lookup key = some row → metricRanking.group key row = none →
    metricRanking.flag row = false := by
  rintro key row - ⟨⟩

/-- A transaction leaves the flags right: it refreshes the scopes it has written to, at every resolution. -/
theorem persistBatches_marked (h : metricRanking.Marked s.rows) (hp : s.persistBatches clock batches = .ok p) :
    metricRanking.Marked p.store.rows := by
  simp only [persistBatches, bind_eq_ok, pure_eq_ok] at hp
  obtain ⟨q, hq, t, ht, u, hu, rfl⟩ := hp
  have hnoted : Progress.Noted s q := by
    refine foldlM_preserves (P := Progress.Noted s) (fun _ hb _ _ _ hc => hb.persistBatch hc) ⟨fun _ _ => rfl, ?_⟩ hq
    rintro bucket ⟨⟩
  have hsame : SameOutside q.scopes s u := by
    refine hnoted.same.trans ((aggregates_sameOutside (fun bucket hbucket => ?_) ht).trans (aggregates_sameOutside hnoted.fiveMinutes hu))
    exact List.mem_map_of_mem hbucket
  refine ⟨fun group => ?_, metric_ungrouped⟩
  obtain ⟨scope, resolution⟩ := group
  refine markedIn_refreshed ?_
  by_cases hscope : scope ∈ q.scopes
  · refine .inl ⟨List.mem_dedup.mpr hscope, ?_⟩
    obtain _ | (_ | _) := resolution <;> simp
  · refine .inr ((h.grouped (scope, resolution)).congr fun key row hgroup => ?_)
    obtain ⟨rfl, rfl⟩ := Prod.mk.inj (Option.some.inj hgroup)
    rw [hsame key hscope]

section Delete

variable {candidates : List MetricPruneCandidate} {deletedAt : Nat} {key : RowKey} {row : Row} {clients : Bool}
  {selects : RowKey → Row → Bool} {c : MetricPruneCandidate}

theorem lookup_deleteCandidates : (candidates.foldl (deleteCandidate resolution deletedAt) s).rows.lookup key = some row ↔
    s.rows.lookup key = some row ∧ ¬(key.resolution = resolution ∧ toLex (key.timestamp, key.scope) ∈ candidates) := by
  induction candidates generalizing s with
  | nil => simp
  | cons candidate candidates ih =>
      obtain ⟨timestamp, scope, rfl⟩ : ∃ timestamp scope, candidate = toLex (timestamp, scope) := ⟨_, _, rfl⟩
      rw [List.foldl_cons, ih, lookup_deleteCandidate]
      simp only [List.mem_cons, toLex_inj, Prod.mk.injEq]
      split
      · next hkey => simp [hkey]
      · next hkey =>
        have hiff : (key.resolution = resolution ∧ (key.timestamp = timestamp ∧ key.scope = scope ∨
            toLex (key.timestamp, key.scope) ∈ candidates)) ↔
            key.resolution = resolution ∧ toLex (key.timestamp, key.scope) ∈ candidates := by
          refine and_congr_right fun hresolution => or_iff_right fun h => hkey ⟨h.2, hresolution, h.1⟩
        rw [hiff]

theorem rows_deleteCandidates : (candidates.foldl (deleteCandidate resolution deletedAt) s).rows =
    keep (fun key _ => !(key.resolution = resolution && toLex (key.timestamp, key.scope) ∈ candidates)) s.rows := by
  apply Finmap.ext_lookup
  intro key
  apply Option.ext
  intro row
  rw [lookup_deleteCandidates, lookup_keep_eq_some, Bool.not_eq_true', Bool.eq_false_iff, ne_eq, Bool.and_eq_true,
    decide_eq_true_eq, decide_eq_true_eq]

theorem mem_candidates : c ∈ s.candidates clients resolution selects ↔ ∃ key row, s.rows.lookup key = some row ∧
    key.resolution = resolution ∧ (clients = true ↔ key.scope ≠ .server) ∧ selects key row = true ∧
      c = toLex (key.timestamp, key.scope) := by
  simp only [Store.candidates, Finset.mem_image, Finset.mem_filter, Finmap.mem_keys]
  constructor
  · rintro ⟨key, ⟨-, hresolution, hclients, hselects⟩, rfl⟩
    obtain ⟨row, hrow, hrow'⟩ := (Option.any_eq_true _ _).mp hselects
    exact ⟨key, row, hrow, hresolution, hclients, hrow', rfl⟩
  · rintro ⟨key, row, hrow, hresolution, hclients, hselects, rfl⟩
    refine ⟨key, ⟨Finmap.mem_of_lookup_eq_some hrow, hresolution, hclients, ?_⟩, rfl⟩
    rw [hrow]
    exact hselects

/-- Retention deletes the oldest timestamps of a scope first. -/
theorem deleteMetricBucketChunk_marked {exhausted : Bool} (h : metricRanking.Marked s.rows)
    (ht : s.deleteMetricBucketChunk resolution cutoff deletedAt = .ok (exhausted, t)) : metricRanking.Marked t.rows := by
  simp only [deleteMetricBucketChunk, bind_eq_ok, pure_eq_ok, Prod.mk.injEq, sqliteInteger_eq_ok] at ht
  obtain ⟨_, ⟨-, rfl⟩, deletedAt, -, -, rfl⟩ := ht
  rw [rows_deleteCandidates]
  refine h.keep fun key row group hrow hgroup hgone => .inl fun key' row' hrow' hgroup' hkept => ?_
  simp only [Bool.not_eq_eq_eq_not, Bool.not_true, Bool.not_false, Bool.and_eq_true, Bool.and_eq_false_imp, decide_eq_true_eq,
    decide_eq_false_iff_not, List.mem_append, not_or] at hgone hkept
  obtain ⟨hresolution, hmem⟩ := hgone
  obtain rfl := Option.some.inj hgroup
  obtain ⟨hscope', hresolution'⟩ := Prod.mk.inj (Option.some.inj hgroup')
  by_contra hlt
  have hlt : key'.timestamp < key.timestamp := lt_of_not_ge hlt
  have hle : toLex (key'.timestamp, key'.scope) ≤ toLex (key.timestamp, key.scope) := Prod.Lex.toLex_le_toLex.mpr (.inl hlt)
  have hnot := hkept (hresolution'.trans hresolution)
  have hdown (clients : Bool) (hclients : toLex (key.timestamp, key.scope) ∈ smallest MAINTENANCE_BUCKET_LIMIT
      (s.candidates clients resolution fun key _ => key.timestamp < cutoff)) : toLex (key'.timestamp, key'.scope) ∈
        smallest MAINTENANCE_BUCKET_LIMIT (s.candidates clients resolution fun key _ => key.timestamp < cutoff) := by
    refine mem_smallest_of_le hclients (mem_candidates.mpr ⟨key', row', hrow', hresolution'.trans hresolution, ?_, ?_, rfl⟩) hle
    · obtain ⟨other, _, -, -, hother, -, heq⟩ := mem_candidates.mp (mem_of_mem_smallest hclients)
      rw [hscope', (Prod.mk.inj (toLex_inj.mp heq)).2]
      exact hother
    · obtain ⟨other, _, -, -, -, hcutoff, heq⟩ := mem_candidates.mp (mem_of_mem_smallest hclients)
      rw [← (Prod.mk.inj (toLex_inj.mp heq)).1, decide_eq_true_eq] at hcutoff
      exact decide_eq_true (hlt.trans hcutoff)
  exact hmem.elim (fun hserver => hnot.1 (hdown false hserver)) fun hclient => hnot.2 (hdown true hclient)

/-- The candidates of a tier have a row that is not marked. -/
def Unmarked (s : Store) (resolution : Resolution) (c : MetricPruneCandidate) : Prop :=
  ∃ key row, s.rows.lookup key = some row ∧ key.resolution = resolution ∧ row.isLatest = false ∧ c = toLex (key.timestamp, key.scope)

theorem pruneMetricTierStep_cases {result : CapPruneResult} (h : s.pruneMetricTierStep resolution clock = .ok (result, t)) :
    (result = .exhausted ∧ t = s ∧ ∀ key row, s.rows.lookup key = some row → key.resolution = resolution → row.isLatest = true) ∨
      ∃ first chosen, result = .deleted ∧ t = (first :: chosen).foldl (deleteCandidate resolution clock) s ∧
        ∀ c ∈ first :: chosen, s.Unmarked resolution c := by
  simp only [pruneMetricTierStep] at h
  split at h
  · next hnil =>
    obtain ⟨rfl, rfl⟩ := Prod.mk.inj (pure_eq_ok.mp h)
    refine .inl ⟨rfl, rfl, fun key row hrow hresolution => ?_⟩
    rw [smallest_eq_nil, or_iff_right (by decide), Finset.union_eq_empty, List.toFinset_eq_empty_iff, List.toFinset_eq_empty_iff,
      smallest_eq_nil, smallest_eq_nil, or_iff_right (by decide), or_iff_right (by decide)] at hnil
    by_contra hflag
    have hmem (clients : Bool) (hclients : clients = true ↔ key.scope ≠ .server) : toLex (key.timestamp, key.scope) ∈
        s.candidates clients resolution fun _ row => !row.isLatest :=
      mem_candidates.mpr ⟨key, row, hrow, hresolution, hclients, by rw [Bool.not_eq_true] at hflag; rw [hflag]; rfl, rfl⟩
    by_cases hserver : key.scope = .server
    · exact Finset.notMem_empty _ (hnil.1 ▸ hmem false (by simp [hserver]))
    · exact Finset.notMem_empty _ (hnil.2 ▸ hmem true (by simp [hserver]))
  · next first rest hcons =>
    simp only [bind_eq_ok, pure_eq_ok, Prod.mk.injEq, sqliteInteger_eq_ok] at h
    obtain ⟨_, ⟨-, rfl⟩, rfl, rfl⟩ := h
    have hunmarked : ∀ c ∈ first :: rest, s.Unmarked resolution c := by
      intro c hc
      rw [← hcons] at hc
      rcases Finset.mem_union.mp (mem_of_mem_smallest hc) with hc | hc
      all_goals
        obtain ⟨key, row, hrow, hresolution, -, hflag, rfl⟩ := mem_candidates.mp (mem_of_mem_smallest (List.mem_toFinset.mp hc))
        exact ⟨key, row, hrow, hresolution, by simpa using hflag, rfl⟩
    have hlimit : max (CAP_DELETE_LIMIT / 13) 1 = 18 + 1 := by decide
    refine .inr ⟨first, (rest.take 18).takeWhile fun candidate => ((ofLex candidate).2 = .server) = ((ofLex first).2 = .server), rfl,
      ?_, fun c hc => hunmarked c ?_⟩
    · rw [hlimit, List.take_succ_cons, List.takeWhile_cons, if_pos (by simp)]
    · rcases List.mem_cons.mp hc with rfl | hc
      · exact List.mem_cons_self
      · exact List.mem_cons_of_mem _ (List.mem_of_mem_take (List.takeWhile_subset _ hc))

theorem Unmarked.not_newest (hc : s.Unmarked resolution (toLex (key.timestamp, key.scope))) (h : metricRanking.Marked s.rows)
    (hresolution : key.resolution = resolution) :
    ¬metricRanking.Newest s.rows (key.scope, key.resolution) key row := by
  obtain ⟨other, row', hrow', hresolution', hflag, heq⟩ := hc
  obtain ⟨htimestamp, hscope⟩ := Prod.mk.inj (toLex_inj.mp heq)
  intro hnewest
  have hother : metricRanking.Newest s.rows (key.scope, key.resolution) other row' := by
    intro k v hk hg
    exact (hnewest k v hk hg).trans htimestamp.le
  have hgroup : metricRanking.group other row' = some (key.scope, key.resolution) := by
    rw [hscope, hresolution, ← hresolution']
    rfl
  exact absurd (hflag.symm.trans ((h.grouped _ other row' hrow' hgroup).mpr hother)) Bool.false_ne_true

theorem unmarked_deleted (h : metricRanking.Marked s.rows) (hc : ∀ c ∈ candidates, s.Unmarked resolution c) :
    metricRanking.Marked (candidates.foldl (deleteCandidate resolution deletedAt) s).rows := by
  rw [rows_deleteCandidates]
  refine h.keep fun key row group hrow hgroup hgone => .inr ?_
  simp only [Bool.not_eq_eq_eq_not, Bool.not_false, Bool.and_eq_true, decide_eq_true_eq] at hgone
  obtain rfl := Option.some.inj hgroup
  exact (hc _ hgone.2).not_newest h hgone.1

theorem newest_survives (h : metricRanking.Marked s.rows) (hc : ∀ c ∈ candidates, s.Unmarked resolution c)
    (hrow : s.rows.lookup key = some row) (hnewest : metricRanking.Newest s.rows (key.scope, key.resolution) key row) :
    (candidates.foldl (deleteCandidate resolution deletedAt) s).rows.lookup key = some row :=
  lookup_deleteCandidates.mpr ⟨hrow, fun hgone => (hc _ hgone.2).not_newest h hgone.1 hnewest⟩

end Delete

section Tombstones

variable {limit deletedBefore count oneMinuteBefore fiveMinutesBefore now retention : Nat} {tier : Tier} {interrupted : Bool}

theorem deleteExpiredTombstoneResolution_rows
    (h : s.deleteExpiredTombstoneResolution tier deletedBefore cutoff limit = .ok (count, t)) : t.rows = s.rows := by
  simp only [deleteExpiredTombstoneResolution, bind_eq_ok] at h
  obtain ⟨_, -, _, -, h⟩ := h
  split at h
  · simp only [bind_eq_ok, pure_eq_ok, Prod.mk.injEq] at h
    obtain ⟨_, -, _, -, -, rfl⟩ := h
    rfl
  · rw [pure_eq_ok, Prod.mk.injEq] at h
    rw [h.2]

theorem deleteExpiredTombstones_rows : (s.deleteExpiredTombstones now cutoff retention limit interrupted).2.rows = s.rows := by
  rw [deleteExpiredTombstones, deleteTombstonesBefore]
  cases hone : s.deleteExpiredTombstoneResolution .oneMinute (now - ONE_MINUTE_RETENTION_MILLIS) cutoff limit with
  | error e => rfl
  | ok retired =>
      obtain ⟨deleted, u⟩ := retired
      have hu := deleteExpiredTombstoneResolution_rows hone
      dsimp only
      split_ifs
      · exact hu
      · exact hu
      · cases hfive : u.deleteExpiredTombstoneResolution .fiveMinutes (now - retention) cutoff (limit - deleted) with
        | error e => exact hu
        | ok retired => exact (deleteExpiredTombstoneResolution_rows hfive).trans hu

end Tombstones

/-- The scan for tombstones deletes no row, and a tier loses rows that are not marked only. -/
theorem pruneCapBatchStep_rows {config : HistoryConfig} {around : Surroundings} {state : CapPruneState} :
    (s.pruneCapBatchStep config around state).2.1.rows = s.rows ∨ ∃ resolution deletedAt, ∃ chosen : List MetricPruneCandidate,
      (s.pruneCapBatchStep config around state).2.1 = chosen.foldl (deleteCandidate resolution deletedAt) s ∧
        ∀ c ∈ chosen, s.Unmarked resolution c := by
  rw [pruneCapBatchStep]
  split
  · left
    have hrows : (s.deleteExpiredTombstones around.clock (rawAdmissionCutoff around.clock) config.retentionMillis CAP_DELETE_LIMIT
        around.interrupted).2.rows = s.rows := deleteExpiredTombstones_rows
    split
    case h_1 h =>
      rw [h] at hrows
      exact hrows
    case h_2 h =>
      rw [h] at hrows
      split <;> exact hrows
  · split
    · cases hstep : s.pruneMetricTierStep (tierResolution state.tier) around.clock with
      | error e => exact .inl rfl
      | ok turn =>
          obtain ⟨result, t⟩ := turn
          rcases pruneMetricTierStep_cases hstep with ⟨rfl, rfl, -⟩ | ⟨first, chosen, rfl, rfl, hunmarked⟩
          · exact .inl rfl
          · exact .inr ⟨_, _, first :: chosen, rfl, hunmarked⟩
    · split
      · split <;> exact .inl rfl
      · exact .inl rfl

theorem chunkTurn_marked {job : MaintenanceJob} {next : MaintenancePhase} {deletedAt : Nat} (h : metricRanking.Marked s.rows) :
    metricRanking.Marked (s.chunkTurn job next (s.deleteMetricBucketChunk resolution cutoff deletedAt)).2.1.rows := by
  cases hchunk : s.deleteMetricBucketChunk resolution cutoff deletedAt with
  | error e => exact h
  | ok turn => exact deleteMetricBucketChunk_marked h hchunk

end Store

end Rustgo.History
