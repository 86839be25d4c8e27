import Mathlib.Algebra.BigOperators.Group.Finset.Basic
import Rustgo.HistoryStore
import Rustgo.Journal

namespace Rustgo.History

open Checks Tables Journal

def Admission.key (a : Admission) : RowKey := ⟨a.scope, .raw, a.timestamp, a.metric⟩

/-- The value of the last admission for a raw row. -/
def lastAdmitted : List Admission → RowKey → Option ℚ := latest Admission.key Admission.value

namespace Store

variable {store source s t u : Store} {scope : HistoryScope} {tier : Tier} {key : RowKey} {metric : HistoryMetric}
  {start stop timestamp bucket clock : Nat}

/-- The value and the sample count of a row, whatever its latest flag. -/
def content (store : Store) (key : RowKey) : Option (ℚ × Nat) :=
  (store.rows.lookup key).map fun row => (row.value, row.sampleCount)

theorem content_isSome : (store.content key).isSome = true ↔ key ∈ store.rows := by
  rw [content, Option.isSome_map, Finmap.lookup_isSome]

@[simp] theorem content_upsert (key other : RowKey) (value : ℚ) (sampleCount : Nat) :
    (store.upsert key value sampleCount).content other =
      if other = key then some (value, sampleCount) else store.content other := by
  by_cases h : other = key
  · rw [if_pos h, h, content, upsert, Finmap.lookup_insert]
    rfl
  · rw [if_neg h, content, upsert, Finmap.lookup_insert_of_ne _ h]
    rfl

@[simp] theorem content_refreshLatest (scope : HistoryScope) (resolution : Resolution) (key : RowKey) :
    (store.refreshLatest scope resolution).content key = store.content key := by
  rw [content, content, refreshLatest, lookup_update, Option.map_map]
  congr 1
  funext row
  simp only [Function.comp_apply]
  split <;> rfl

/-- Nothing that decides which samples are admitted has changed. -/
structure SameSeals (s t : Store) : Prop where
  tombstones : t.tombstones = s.tombstones
  lastMaintenance : t.lastMaintenance = s.lastMaintenance

theorem SameSeals.refl (s : Store) : SameSeals s s := ⟨rfl, rfl⟩

theorem SameSeals.symm (h : SameSeals s t) : SameSeals t s := ⟨h.tombstones.symm, h.lastMaintenance.symm⟩

theorem SameSeals.trans (h : SameSeals s t) (h' : SameSeals t u) : SameSeals s u :=
  ⟨h'.tombstones.trans h.tombstones, h'.lastMaintenance.trans h.lastMaintenance⟩

def Tombstoned (store : Store) (scope : HistoryScope) (timestamp : Nat) : Prop :=
  ∃ tier : Tier, ⟨scope, tier, bucketStart timestamp tier.width⟩ ∈ store.tombstones

/-- No transaction, whatever its clock, admits a sample here. -/
def Closed (store : Store) (scope : HistoryScope) (timestamp : Nat) : Prop :=
  timestamp < store.floor ∨ store.Tombstoned scope timestamp

/-- What a transaction at the clock drops. -/
def Late (store : Store) (clock : Nat) (scope : HistoryScope) (timestamp : Nat) : Prop :=
  timestamp < rawAdmissionCutoff clock ∨ store.Closed scope timestamp

theorem sqliteInteger_eq_ok {value n : Nat} {field : String} :
    sqliteInteger value field = .ok n ↔ value < 2 ^ 63 ∧ value = n := by
  simp only [sqliteInteger, bind_eq_ok, require_eq_ok, pure_eq_ok, exists_const]

theorem sampleIntersectsTombstone_eq_ok {blocked : Bool}
    (h : store.sampleIntersectsTombstone scope timestamp = .ok blocked) : blocked = true ↔ store.Tombstoned scope timestamp := by
  simp only [sampleIntersectsTombstone, bind_eq_ok, pure_eq_ok, sqliteInteger_eq_ok] at h
  obtain ⟨_, ⟨-, rfl⟩, _, ⟨-, rfl⟩, rfl⟩ := h
  rw [Bool.or_eq_true, Finmap.lookup_isSome, Finmap.lookup_isSome]
  constructor
  · rintro (hminute | hfive)
    · exact ⟨.oneMinute, hminute⟩
    · exact ⟨.fiveMinutes, hfive⟩
  · rintro ⟨_ | _, htier⟩
    · exact .inl htier
    · exact .inr htier

theorem late_iff : store.Late clock scope timestamp ↔
    timestamp < max (rawAdmissionCutoff clock) store.floor ∨ store.Tombstoned scope timestamp := by
  rw [lt_max_iff, or_assoc]
  rfl

theorem mem_group : key ∈ store.group scope start stop metric ↔ (store.content key).isSome = true ∧
    key.scope = scope ∧ key.resolution = .raw ∧ start ≤ key.timestamp ∧ key.timestamp < stop ∧ key.metric = metric := by
  rw [group, Finset.mem_filter, Finmap.mem_keys, content_isSome]

theorem weight_eq : store.weight key = (store.content key).elim 0 Prod.snd := by
  rw [weight, content]
  cases store.rows.lookup key <;> rfl

theorem amount_eq : store.amount key = (store.content key).elim 0 fun c => c.1 * c.2 := by
  rw [amount, content]
  cases store.rows.lookup key <;> rfl

/-- The value and the sample count that a metric's raw rows in a bucket make. -/
def aggregate (store : Store) (scope : HistoryScope) (start stop : Nat) (metric : HistoryMetric) : Option (ℚ × Nat) :=
  if store.group scope start stop metric = ∅ then none
  else
    some ((∑ key ∈ store.group scope start stop metric, store.amount key) /
      ((∑ key ∈ store.group scope start stop metric, store.weight key : Nat) : ℚ),
      ∑ key ∈ store.group scope start stop metric, store.weight key)

def SameRaw (s t : Store) : Prop := ∀ key : RowKey, key.resolution = .raw → t.content key = s.content key

theorem SameRaw.aggregate_eq (h : SameRaw s t) :
    t.aggregate scope start stop metric = s.aggregate scope start stop metric := by
  have hgroup : t.group scope start stop metric = s.group scope start stop metric := by
    ext key
    rw [mem_group, mem_group]
    constructor
    · rintro ⟨hsome, hscope, hraw, hrest⟩
      exact ⟨h key hraw ▸ hsome, hscope, hraw, hrest⟩
    · rintro ⟨hsome, hscope, hraw, hrest⟩
      exact ⟨(h key hraw).symm ▸ hsome, hscope, hraw, hrest⟩
  have hcontent : ∀ key ∈ s.group scope start stop metric, t.content key = s.content key := fun key hkey =>
    h key (mem_group.mp hkey).2.2.1
  have hweight : ∑ key ∈ s.group scope start stop metric, t.weight key =
      ∑ key ∈ s.group scope start stop metric, s.weight key :=
    Finset.sum_congr rfl fun key hkey => by rw [weight_eq, weight_eq, hcontent key hkey]
  have hamount : ∑ key ∈ s.group scope start stop metric, t.amount key =
      ∑ key ∈ s.group scope start stop metric, s.amount key :=
    Finset.sum_congr rfl fun key hkey => by rw [amount_eq, amount_eq, hcontent key hkey]
  rw [aggregate, aggregate, hgroup, hweight, hamount]

theorem aggregateMetric_content : (source.aggregateMetric scope tier start stop store metric).content key =
    if key = ⟨scope, .tier tier, start, metric⟩ then (source.aggregate scope start stop metric).or (store.content key)
    else store.content key := by
  rw [aggregateMetric, aggregate]
  split
  · next hempty => simp
  · next hempty =>
    rw [content_upsert]
    rfl

theorem aggregateMetrics_content (metrics : List HistoryMetric) :
    (metrics.foldl (source.aggregateMetric scope tier start stop) store).content key =
      if key.scope = scope ∧ key.resolution = .tier tier ∧ key.timestamp = start ∧ key.metric ∈ metrics then
        (source.aggregate scope start stop key.metric).or (store.content key)
      else store.content key := by
  induction metrics generalizing store with
  | nil => simp
  | cons metric metrics ih =>
      rw [List.foldl_cons, ih, aggregateMetric_content]
      obtain ⟨keyScope, resolution, timestamp, keyMetric⟩ := key
      simp only [RowKey.mk.injEq, List.mem_cons]
      by_cases hbucket : keyScope = scope ∧ resolution = .tier tier ∧ timestamp = start
      · obtain ⟨rfl, rfl, rfl⟩ := hbucket
        by_cases hmetric : keyMetric = metric
        · subst hmetric
          by_cases hmem : keyMetric ∈ metrics <;> simp [hmem, ← Option.or_assoc]
        · simp [hmetric]
      · have hother : ¬(keyScope = scope ∧ resolution = .tier tier ∧ timestamp = start ∧ keyMetric = metric) := fun h =>
          hbucket ⟨h.1, h.2.1, h.2.2.1⟩
        have hrest (P : Prop) : ¬(keyScope = scope ∧ resolution = .tier tier ∧ timestamp = start ∧ P) := fun h =>
          hbucket ⟨h.1, h.2.1, h.2.2.1⟩
        rw [if_neg hother, if_neg (hrest _), if_neg (hrest _)]

theorem aggregateMetric_seals : SameSeals store (source.aggregateMetric scope tier start stop store metric) := by
  rw [aggregateMetric]
  split <;> exact ⟨rfl, rfl⟩

theorem aggregateMetrics_seals (metrics : List HistoryMetric) :
    SameSeals store (metrics.foldl (source.aggregateMetric scope tier start stop) store) := by
  induction metrics generalizing store with
  | nil => exact .refl store
  | cons metric metrics ih => exact aggregateMetric_seals.trans ih

/-- The aggregate of the bucket that a tier's row stands for. -/
def rollup (store : Store) (tier : Tier) (key : RowKey) : Option (ℚ × Nat) :=
  store.aggregate key.scope key.timestamp (key.timestamp + tier.width) key.metric

theorem aggregateBucket_ok {startField stopField : String}
    (h : store.aggregateBucket startField stopField scope tier bucket = .ok t) :
    SameSeals store t ∧ ∀ key, t.content key =
      if key.resolution = .tier tier ∧ (key.scope, key.timestamp) = (scope, bucket) then
        (store.rollup tier key).or (store.content key)
      else store.content key := by
  simp only [aggregateBucket, bind_eq_ok, pure_eq_ok, sqliteInteger_eq_ok] at h
  obtain ⟨_, ⟨-, rfl⟩, _, ⟨hstop, rfl⟩, rfl⟩ := h
  have hend : saturatingAdd bucket tier.width = bucket + tier.width := by
    rw [saturatingAdd] at hstop ⊢
    omega
  refine ⟨aggregateMetrics_seals _, fun key => ?_⟩
  rw [aggregateMetrics_content, hend]
  simp only [HistoryMetric.mem_all, and_true, Prod.mk.injEq]
  by_cases hkey : key.resolution = .tier tier ∧ key.scope = scope ∧ key.timestamp = bucket
  · obtain ⟨hresolution, rfl, rfl⟩ := hkey
    rw [if_pos ⟨rfl, hresolution, rfl⟩, if_pos ⟨hresolution, rfl, rfl⟩, rollup]
  · rw [if_neg hkey, if_neg fun h => hkey ⟨h.2.1, h.1, h.2.2⟩]

theorem aggregateIn_ok {target : HistoryScope × Nat} (h : store.aggregateIn tier target = .ok t) :
    SameSeals store t ∧ ∀ key, t.content key =
      if key.resolution = .tier tier ∧ (key.scope, key.timestamp) = target then
        (store.rollup tier key).or (store.content key)
      else store.content key := by
  obtain ⟨_ | client, bucket⟩ := target
  · exact aggregateBucket_ok h
  · exact aggregateBucket_ok h

/-- Aggregating reads raw rows only, so that no bucket depends on another. -/
theorem aggregateBuckets_ok {buckets : List (HistoryScope × Nat)} (h : buckets.foldlM (aggregateIn tier) store = .ok t) :
    SameSeals store t ∧ ∀ key, t.content key =
      if key.resolution = .tier tier ∧ (key.scope, key.timestamp) ∈ buckets then
        (store.rollup tier key).or (store.content key)
      else store.content key := by
  induction buckets generalizing store with
  | nil =>
      rw [List.foldlM_nil, pure_eq_ok] at h
      subst h
      exact ⟨.refl _, fun key => by simp⟩
  | cons bucket buckets ih =>
      rw [List.foldlM_cons, bind_eq_ok] at h
      obtain ⟨u, hu, hrest⟩ := h
      obtain ⟨hseals, hcontent⟩ := aggregateIn_ok hu
      obtain ⟨hseals', hcontent'⟩ := ih hrest
      refine ⟨hseals.trans hseals', fun key => ?_⟩
      have hraw : SameRaw store u := by
        intro key hkey
        rw [hcontent, if_neg]
        rintro ⟨htier, -⟩
        cases hkey.symm.trans htier
      rw [hcontent', hcontent, rollup, hraw.aggregate_eq, ← rollup]
      by_cases hresolution : key.resolution = .tier tier
      · by_cases hbucket : (key.scope, key.timestamp) = bucket
        · simp [hresolution, hbucket, ← Option.or_assoc]
        · simp [hresolution, hbucket]
      · simp [hresolution]

end Store

namespace Progress

open Store

variable {store : Store} {p q : Progress} {scope : HistoryScope} {timestamp clock cutoff : Nat}
  {values : List (HistoryMetric × ℚ)} {field : String}

def buckets (p : Progress) : Tier → List (HistoryScope × Nat)
  | .oneMinute => p.minutes
  | .fiveMinutes => p.fiveMinutes

/-- The transaction has written to the store what it admitted, and nothing else. -/
structure Wrote (store : Store) (p : Progress) : Prop where
  seals : SameSeals store p.store
  content : ∀ key, p.store.content key = ((lastAdmitted p.admitted key).map fun value => (value, 1)).or (store.content key)

theorem Wrote.write (h : Wrote store p) (point : HistoryMetric × ℚ) : Wrote store (p.write scope timestamp point) := by
  refine ⟨h.seals.trans ⟨rfl, rfl⟩, fun key => ?_⟩
  rw [Progress.write, content_upsert, lastAdmitted, latest_snoc, ← lastAdmitted, Admission.key, h.content]
  by_cases hkey : key = ⟨scope, .raw, timestamp, point.1⟩
  · rw [if_pos hkey, if_pos hkey.symm]
    rfl
  · rw [if_neg hkey, if_neg (Ne.symm hkey)]

theorem Wrote.writes (h : Wrote store p) (scope : HistoryScope) (timestamp : Nat) (values : List (HistoryMetric × ℚ)) :
    Wrote store (values.foldl (Progress.write scope timestamp) p) := by
  induction values generalizing p with
  | nil => exact h
  | cons point values ih => exact ih (h.write point)

theorem writes_eq (p : Progress) (scope : HistoryScope) (timestamp : Nat) (values : List (HistoryMetric × ℚ)) :
    ∃ store, values.foldl (write scope timestamp) p = { p with
      store := store
      admitted := p.admitted ++ values.map fun point => ⟨scope, timestamp, point.1, point.2⟩ } := by
  induction values generalizing p with
  | nil => exact ⟨p.store, by simp⟩
  | cons point values ih =>
      obtain ⟨store, hstore⟩ := ih (p.write scope timestamp point)
      rw [List.foldl_cons, hstore]
      exact ⟨store, by simp [write]⟩

theorem persistSample_cases (h : p.persistSample cutoff field scope timestamp values = .ok q) :
    ((timestamp < cutoff ∨ p.store.Tombstoned scope timestamp) ∧ q = p.drop) ∨
      (¬(timestamp < cutoff ∨ p.store.Tombstoned scope timestamp) ∧
        q = (values.foldl (write scope timestamp) p).touch scope timestamp) := by
  unfold persistSample at h
  split at h
  case isTrue hlate => exact .inl ⟨.inl hlate, (pure_eq_ok.mp h).symm⟩
  case isFalse hlate =>
    obtain ⟨blocked, hblocked, h⟩ := bind_eq_ok.mp h
    have hiff := sampleIntersectsTombstone_eq_ok hblocked
    cases blocked with
    | true => exact .inl ⟨.inr (hiff.mp rfl), (pure_eq_ok.mp h).symm⟩
    | false =>
        simp only [Bool.false_eq_true, if_false, insertSample, bind_eq_ok, pure_eq_ok, sqliteInteger_eq_ok] at h
        obtain ⟨_, ⟨_, ⟨-, rfl⟩, rfl⟩, rfl⟩ := h
        refine .inr ⟨?_, rfl⟩
        rintro (h | h)
        · exact hlate h
        · cases hiff.mpr h

/-- What a transaction has done to the store, short of aggregating it. -/
structure Admits (p : Progress) (store : Store) (clock : Nat) : Prop extends Wrote store p where
  admits : ∀ a ∈ p.admitted, ¬store.Late clock a.scope a.timestamp
  touches : ∀ a ∈ p.admitted, ∀ tier, (a.scope, bucketStart a.timestamp tier.width) ∈ p.buckets tier
  touched : ∀ tier, ∀ bucket ∈ p.buckets tier,
    ∃ timestamp, ¬store.Late clock bucket.1 timestamp ∧ bucketStart timestamp tier.width = bucket.2

theorem buckets_touch (tier : Tier) : (p.touch scope timestamp).buckets tier =
    (p.buckets tier).insert (scope, bucketStart timestamp tier.width) := by
  cases tier <;> rfl

theorem new_admits (store : Store) (clock : Nat) : (new store).Admits store clock := by
  refine ⟨⟨.refl store, fun _ => rfl⟩, ?_, ?_, ?_⟩
  · rintro a ⟨⟩
  · rintro a ⟨⟩
  · rintro (_ | _) bucket ⟨⟩

theorem Admits.persistSample (h : p.Admits store clock)
    (hp : p.persistSample (max (rawAdmissionCutoff clock) store.floor) field scope timestamp values = .ok q) :
    q.Admits store clock := by
  have hlate : (timestamp < max (rawAdmissionCutoff clock) store.floor ∨ p.store.Tombstoned scope timestamp) ↔
      store.Late clock scope timestamp := by
    rw [late_iff, Tombstoned, Tombstoned, h.seals.tombstones]
  obtain ⟨-, rfl⟩ | ⟨hopen, rfl⟩ := persistSample_cases hp
  · exact ⟨⟨h.seals, h.content⟩, h.admits, h.touches, h.touched⟩
  · rw [hlate] at hopen
    have hwrote := h.toWrote.writes scope timestamp values
    obtain ⟨written, hwritten⟩ := writes_eq p scope timestamp values
    rw [hwritten] at hwrote ⊢
    refine ⟨⟨hwrote.seals, hwrote.content⟩, ?_, ?_, ?_⟩
    · intro a ha
      obtain ha | ha := List.mem_append.mp ha
      · exact h.admits a ha
      · obtain ⟨point, -, rfl⟩ := List.mem_map.mp ha
        exact hopen
    · intro a ha tier
      rw [buckets_touch]
      obtain ha | ha := List.mem_append.mp ha
      · exact List.mem_insert_of_mem (h.touches a ha tier)
      · obtain ⟨point, -, rfl⟩ := List.mem_map.mp ha
        exact List.mem_insert_self
    · intro tier bucket hbucket
      rw [buckets_touch] at hbucket
      obtain rfl | hbucket := List.mem_insert_iff.mp hbucket
      · exact ⟨timestamp, hopen, rfl⟩
      · exact h.touched tier bucket hbucket

theorem Admits.persistBatch {batch : HistoryBatch} (h : p.Admits store clock)
    (hp : p.persistBatch (max (rawAdmissionCutoff clock) store.floor) batch = .ok q) : q.Admits store clock := by
  simp only [Progress.persistBatch, bind_eq_ok] at hp
  obtain ⟨r, hserver, hclient⟩ := hp
  have hr : r.Admits store clock :=
    foldlM_preserves (P := (Progress.Admits · store clock)) (fun _ hb _ _ _ hc => hb.persistSample hc) h hserver
  refine foldlM_preserves (P := (Progress.Admits · store clock)) (fun _ hb sample _ _ hc => ?_) hr hclient
  rw [persistClientSample] at hc
  exact hb.persistSample hc

end Progress

namespace Store

variable {store s t u : Store} {clock : Nat} {key : RowKey} {batches : List HistoryBatch} {p : Progress}

/-- The stores differ in latest flags at most. -/
structure SameContent (s t : Store) : Prop extends SameSeals s t where
  content : ∀ key, t.content key = s.content key

theorem refresh_sameContent (resolutions : List Resolution) (scopes : List HistoryScope) : SameContent store
    (resolutions.foldl (fun store resolution => scopes.foldl (fun store scope => store.refreshLatest scope resolution) store)
      store) := by
  refine List.foldlRecOn resolutions _ ⟨.refl store, fun _ => rfl⟩ fun s hs resolution _ => ?_
  refine List.foldlRecOn scopes _ hs fun t ht scope _ => ?_
  exact ⟨ht.toSameSeals.trans ⟨rfl, rfl⟩, fun key => (content_refreshLatest scope resolution key).trans (ht.content key)⟩

theorem lastAdmitted_tier {log : List Admission} {tier : Tier} (h : key.resolution = .tier tier) :
    lastAdmitted log key = none := by
  refine latest_eq_none.mpr fun a _ hkey => ?_
  subst hkey
  cases h

/-- A transaction that commits has admitted what was not late, and has
aggregated every bucket that it admitted something to, and no other. -/
structure Commits (store : Store) (clock : Nat) (p : Progress) : Prop where
  seals : SameSeals store p.store
  admits : ∀ a ∈ p.admitted, ¬store.Late clock a.scope a.timestamp
  touches : ∀ a ∈ p.admitted, ∀ tier, (a.scope, bucketStart a.timestamp tier.width) ∈ p.buckets tier
  touched : ∀ tier, ∀ bucket ∈ p.buckets tier,
    ∃ timestamp, ¬store.Late clock bucket.1 timestamp ∧ bucketStart timestamp tier.width = bucket.2
  raw : ∀ key, key.resolution = .raw →
    p.store.content key = ((lastAdmitted p.admitted key).map fun value => (value, 1)).or (store.content key)
  tier : ∀ tier key, key.resolution = .tier tier → p.store.content key =
    if (key.scope, key.timestamp) ∈ p.buckets tier then (p.store.rollup tier key).or (store.content key)
    else store.content key

theorem commits_of_aggregated {q : Progress} (hq : q.Admits store clock)
    (hminutes : q.minutes.foldlM (aggregateIn .oneMinute) q.store = .ok s)
    (hfive : q.fiveMinutes.foldlM (aggregateIn .fiveMinutes) s = .ok t) (hu : SameContent t u) :
    Commits store clock { q with store := u } := by
  obtain ⟨hseals, hcontent⟩ := aggregateBuckets_ok hminutes
  obtain ⟨hseals', hcontent'⟩ := aggregateBuckets_ok hfive
  have hs : SameRaw q.store s := fun key hkey => by simp [hcontent, hkey]
  have hraw : SameRaw q.store u := fun key hkey => by simp [hu.content, hcontent', hcontent, hkey]
  constructor
  case seals => exact hq.seals.trans (hseals.trans (hseals'.trans hu.toSameSeals))
  case admits => exact hq.admits
  case touches => exact hq.touches
  case touched => exact hq.touched
  case raw =>
    intro key hkey
    exact (hraw key hkey).trans (hq.content key)
  case tier =>
    intro tier key hkey
    have hold : q.store.content key = store.content key := by
      rw [hq.content, lastAdmitted_tier hkey]
      rfl
    have hrollup : u.rollup tier key = q.store.rollup tier key := hraw.aggregate_eq
    have hrollup' : s.rollup tier key = q.store.rollup tier key := hs.aggregate_eq
    change u.content key = _
    rw [hu.content, hcontent', hcontent, hrollup, hold]
    cases tier with
    | oneMinute =>
        have hbuckets : Progress.buckets { q with store := u } .oneMinute = q.minutes := rfl
        by_cases hmem : (key.scope, key.timestamp) ∈ q.minutes <;> simp [hkey, hbuckets, hmem]
    | fiveMinutes =>
        have hbuckets : Progress.buckets { q with store := u } .fiveMinutes = q.fiveMinutes := rfl
        by_cases hmem : (key.scope, key.timestamp) ∈ q.fiveMinutes <;> simp [hkey, hbuckets, hrollup', hmem]

theorem persistBatches_commits (h : store.persistBatches clock batches = .ok p) : Commits store clock p := by
  simp only [persistBatches, bind_eq_ok, pure_eq_ok] at h
  obtain ⟨q, hq, s, hs, t, ht, rfl⟩ := h
  have hadmits : q.Admits store clock :=
    foldlM_preserves (P := (Progress.Admits · store clock)) (fun _ hb _ _ _ hc => hb.persistBatch hc)
      (Progress.new_admits store clock) hq
  exact commits_of_aggregated hadmits hs ht (refresh_sameContent _ _)

end Store

end Rustgo.History
