import Mathlib.Algebra.BigOperators.Ring.Finset
import Rustgo.HistorySeals

namespace Rustgo.History

open Checks Tables Journal Runs Store

variable {log later : List Admission} {tier : Tier} {key : RowKey} {store : Store} {value : ℚ} {sampleCount timestamp : Nat}

/-- The raw row of an aggregate's metric at a timestamp. -/
def RowKey.rawAt (key : RowKey) (timestamp : Nat) : RowKey := ⟨key.scope, .raw, timestamp, key.metric⟩

/-- The timestamps in an aggregate's bucket at which its metric was ever admitted. -/
def admittedTimes (log : List Admission) (tier : Tier) (key : RowKey) : Finset Nat :=
  ((log.filter fun a => a.scope = key.scope ∧ a.metric = key.metric ∧ bucketStart a.timestamp tier.width = key.timestamp).map
    Admission.timestamp).toFinset

def valueAt (log : List Admission) (key : RowKey) (timestamp : Nat) : ℚ := (lastAdmitted log (key.rawAt timestamp)).getD 0

/-- An aggregate of everything ever admitted to its bucket: each timestamp
counts once, with the value last admitted there. -/
structure Exact (log : List Admission) (tier : Tier) (key : RowKey) (value : ℚ) (sampleCount : Nat) : Prop where
  counted : 0 < sampleCount
  sampleCount_eq : sampleCount = (admittedTimes log tier key).card
  value_eq : value = (∑ timestamp ∈ admittedTimes log tier key, valueAt log key timestamp) / sampleCount

theorem rawAt_injective (key : RowKey) : Function.Injective key.rawAt := fun _ _ h => congrArg RowKey.timestamp h

theorem mem_admittedTimes : timestamp ∈ admittedTimes log tier key ↔
    bucketStart timestamp tier.width = key.timestamp ∧ (lastAdmitted log (key.rawAt timestamp)).isSome = true := by
  rw [admittedTimes, lastAdmitted, latest_isSome, List.mem_toFinset, List.mem_map]
  constructor
  · rintro ⟨a, ha, rfl⟩
    obtain ⟨hmem, hmatch⟩ := List.mem_filter.mp ha
    obtain ⟨hscope, hmetric, hbucket⟩ := of_decide_eq_true hmatch
    refine ⟨hbucket, a, hmem, ?_⟩
    rw [Admission.key, RowKey.rawAt, hscope, hmetric]
  · rintro ⟨hbucket, a, hmem, hkey⟩
    obtain ⟨scope, at', metric, v⟩ := a
    obtain ⟨rfl, -, rfl, rfl⟩ := RowKey.mk.injEq .. ▸ hkey
    exact ⟨_, List.mem_filter.mpr ⟨hmem, decide_eq_true ⟨rfl, rfl, hbucket⟩⟩, rfl⟩

theorem admittedTimes_subset : admittedTimes log tier key ⊆ admittedTimes (log ++ later) tier key := by
  intro timestamp hmem
  obtain ⟨hbucket, hsome⟩ := mem_admittedTimes.mp hmem
  refine mem_admittedTimes.mpr ⟨hbucket, ?_⟩
  rw [lastAdmitted, latest_isSome] at hsome ⊢
  obtain ⟨a, ha, hkey⟩ := hsome
  exact ⟨a, List.mem_append_left _ ha, hkey⟩

/-- Only what was last admitted in the bucket matters. -/
theorem Exact.congr {log' : List Admission} (h : Exact log tier key value sampleCount)
    (hlog : ∀ timestamp, bucketStart timestamp tier.width = key.timestamp →
      lastAdmitted log' (key.rawAt timestamp) = lastAdmitted log (key.rawAt timestamp)) :
    Exact log' tier key value sampleCount := by
  have htimes : admittedTimes log' tier key = admittedTimes log tier key := by
    ext timestamp
    rw [mem_admittedTimes, mem_admittedTimes]
    exact and_congr_right fun hbucket => by rw [hlog timestamp hbucket]
  refine ⟨h.counted, by rw [htimes, h.sampleCount_eq], ?_⟩
  rw [htimes, h.value_eq]
  congr 1
  exact Finset.sum_congr rfl fun timestamp hmem => by rw [valueAt, valueAt, hlog timestamp (mem_admittedTimes.mp hmem).1]

theorem bucketStart_eq_iff {start width : Nat} (hwidth : 0 < width) (hstart : width ∣ start) :
    bucketStart timestamp width = start ↔ start ≤ timestamp ∧ timestamp < start + width := by
  obtain ⟨n, rfl⟩ := hstart
  rw [bucketStart, Nat.mul_comm width n, Nat.mul_right_cancel_iff hwidth, Nat.div_eq_iff hwidth]
  omega

section Rollup

variable (haligned : tier.width ∣ key.timestamp)
  (hraw : ∀ timestamp, bucketStart timestamp tier.width = key.timestamp →
    store.content (key.rawAt timestamp) = (lastAdmitted log (key.rawAt timestamp)).map fun value => (value, 1))

include haligned hraw

theorem group_eq : store.group key.scope key.timestamp (key.timestamp + tier.width) key.metric =
    (admittedTimes log tier key).image key.rawAt := by
  ext other
  rw [mem_group, Finset.mem_image]
  constructor
  · rintro ⟨hsome, hscope, hresolution, hstart, hstop, hmetric⟩
    obtain ⟨scope, resolution, timestamp, metric⟩ := other
    obtain ⟨rfl, rfl, rfl⟩ : scope = key.scope ∧ resolution = .raw ∧ metric = key.metric := ⟨hscope, hresolution, hmetric⟩
    have hbucket := (bucketStart_eq_iff tier.width_pos haligned).mpr ⟨hstart, hstop⟩
    refine ⟨timestamp, mem_admittedTimes.mpr ⟨hbucket, ?_⟩, rfl⟩
    rw [← Option.isSome_map, ← hraw timestamp hbucket]
    exact hsome
  · rintro ⟨timestamp, hmem, rfl⟩
    obtain ⟨hbucket, hsome⟩ := mem_admittedTimes.mp hmem
    obtain ⟨hstart, hstop⟩ := (bucketStart_eq_iff tier.width_pos haligned).mp hbucket
    refine ⟨?_, rfl, rfl, hstart, hstop, rfl⟩
    rw [hraw timestamp hbucket, Option.isSome_map]
    exact hsome

theorem weight_sum : ∑ key ∈ (admittedTimes log tier key).image key.rawAt, store.weight key = (admittedTimes log tier key).card := by
  rw [Finset.sum_image (rawAt_injective key).injOn, Finset.card_eq_sum_ones]
  refine Finset.sum_congr rfl fun timestamp hmem => ?_
  obtain ⟨hbucket, hsome⟩ := mem_admittedTimes.mp hmem
  obtain ⟨value, hvalue⟩ := Option.isSome_iff_exists.mp hsome
  rw [weight_eq, hraw timestamp hbucket, hvalue]
  rfl

theorem amount_sum : ∑ key ∈ (admittedTimes log tier key).image key.rawAt, store.amount key =
    ∑ timestamp ∈ admittedTimes log tier key, valueAt log key timestamp := by
  rw [Finset.sum_image (rawAt_injective key).injOn]
  refine Finset.sum_congr rfl fun timestamp hmem => ?_
  obtain ⟨hbucket, hsome⟩ := mem_admittedTimes.mp hmem
  obtain ⟨value, hvalue⟩ := Option.isSome_iff_exists.mp hsome
  rw [amount_eq, hraw timestamp hbucket, valueAt, hvalue]
  simp

theorem rollup_eq : store.rollup tier key = if admittedTimes log tier key = ∅ then none else
    some ((∑ timestamp ∈ admittedTimes log tier key, valueAt log key timestamp) / (admittedTimes log tier key).card,
      (admittedTimes log tier key).card) := by
  rw [rollup, aggregate, group_eq haligned hraw, weight_sum haligned hraw, amount_sum haligned hraw]
  simp only [Finset.image_eq_empty]

end Rollup

/-- Raw rows hold what was last admitted until they are gone for good, and
every aggregate is exact. -/
structure Faithful (log : List Admission) (store : Store) : Prop where
  raw : ∀ key : RowKey, key.resolution = .raw →
    store.content key = ((lastAdmitted log key).map fun value => (value, 1)) ∨ store.Gone key
  exact : ∀ tier (key : RowKey) value sampleCount, key.resolution = .tier tier →
    store.content key = some (value, sampleCount) → Exact log tier key value sampleCount

section Commit

variable {s : Store} {p : Progress} {clock : Nat}

theorem Store.Commits.raw_or_gone (hp : s.Commits clock p) (h : Faithful log s) (hkey : key.resolution = .raw) :
    p.store.content key = ((lastAdmitted (log ++ p.admitted) key).map fun value => (value, 1)) ∨ p.store.Gone key := by
  obtain hold | hgone := h.raw key hkey
  · left
    rw [hp.raw key hkey, hold, lastAdmitted, latest_append]
    exact Option.map_or.symm
  · exact .inr (hp.gone hgone)

/-- A bucket that a transaction admits to has lost no raw row. -/
theorem Store.Commits.raw_of_touched (hp : s.Commits clock p) (h : Faithful log s) (hbucket : (key.scope, key.timestamp) ∈ p.buckets tier)
    (htimestamp : bucketStart timestamp tier.width = key.timestamp) : p.store.content (key.rawAt timestamp) =
      (lastAdmitted (log ++ p.admitted) (key.rawAt timestamp)).map fun value => (value, 1) := by
  obtain hsame | hgone := hp.raw_or_gone h (rfl : (key.rawAt timestamp).resolution = .raw)
  · exact hsame
  · obtain ⟨other, hopen, hother⟩ := hp.touched tier _ hbucket
    have hfive : bucketStart other FIVE_MINUTE_BUCKET_MILLIS = bucketStart timestamp FIVE_MINUTE_BUCKET_MILLIS := by
      rw [← bucketStart_fiveMinutes tier other, ← bucketStart_fiveMinutes tier timestamp, hother, htimestamp]
    have hclosed : p.store.Closed key.scope other := hgone.sealed other hfive
    exact absurd (.inr (hp.seals.symm.closed hclosed)) hopen

theorem Store.Commits.lastAdmitted_of_untouched (hp : s.Commits clock p) (hbucket : (key.scope, key.timestamp) ∉ p.buckets tier)
    (htimestamp : bucketStart timestamp tier.width = key.timestamp) :
    lastAdmitted (log ++ p.admitted) (key.rawAt timestamp) = lastAdmitted log (key.rawAt timestamp) := by
  have hnone : lastAdmitted p.admitted (key.rawAt timestamp) = none := by
    refine latest_eq_none.mpr fun a ha hkey => hbucket ?_
    have hscope : a.scope = key.scope := congrArg RowKey.scope hkey
    have hat : a.timestamp = timestamp := congrArg RowKey.timestamp hkey
    have htouched := hp.touches a ha tier
    rwa [hscope, hat, htimestamp] at htouched
  rw [lastAdmitted, latest_append, ← lastAdmitted, hnone]
  rfl

theorem Store.Commits.faithful (hp : s.Commits clock p) (h : Faithful log s) : Faithful (log ++ p.admitted) p.store := by
  refine ⟨fun key hkey => hp.raw_or_gone h hkey, fun tier key value sampleCount hkey hcontent => ?_⟩
  rw [hp.tier tier key hkey] at hcontent
  split at hcontent
  · next hbucket =>
    obtain ⟨other, -, hother⟩ := hp.touched tier _ hbucket
    change bucketStart other tier.width = key.timestamp at hother
    have haligned : tier.width ∣ key.timestamp := hother ▸ Nat.dvd_mul_left _ _
    rw [rollup_eq haligned fun timestamp => hp.raw_of_touched h hbucket] at hcontent
    split at hcontent
    · next hempty =>
      have hold := h.exact tier key value sampleCount hkey hcontent
      have hcounted := hold.counted
      rw [hold.sampleCount_eq, Finset.card_pos] at hcounted
      exact absurd hempty (hcounted.mono admittedTimes_subset).ne_empty
    · next hne =>
      simp only [Option.some_or, Option.some.injEq, Prod.mk.injEq] at hcontent
      obtain ⟨rfl, rfl⟩ := hcontent
      exact ⟨Finset.card_pos.mpr (Finset.nonempty_iff_ne_empty.mpr hne), rfl, rfl⟩
  · next hbucket =>
    exact (h.exact tier key value sampleCount hkey hcontent).congr fun timestamp => hp.lastAdmitted_of_untouched hbucket

end Commit

theorem Store.Prunes.faithful {s t : Store} (hprunes : s.Prunes t) (h : Faithful log s) : Faithful log t := by
  constructor
  case raw =>
    intro key hkey
    obtain hsame | hgone := hprunes.lookup key
    · rw [content, hsame]
      exact (h.raw key hkey).imp_right hprunes.gone
    · exact .inr hgone
  case exact =>
    intro tier key value sampleCount hkey hcontent
    obtain hsame | hgone := hprunes.lookup key
    · exact h.exact tier key value sampleCount hkey (by rwa [content, hsame] at hcontent)
    · rw [content, hgone.absent key.metric] at hcontent
      cases hcontent

theorem mem_aggregated {p : Progress} {scope : HistoryScope} {bucket : Nat} :
    (scope, tier, bucket) ∈ p.aggregated ↔ (scope, bucket) ∈ p.buckets tier := by
  cases tier <;> simp [Progress.aggregated, Progress.buckets]

namespace Worker

variable {h t u v w : Worker} {l : Label} {labels before after : List Label} {config : HistoryConfig} {scope : HistoryScope}
  {metric : HistoryMetric}

theorem Change.faithful (hchange : Change h t) (hfaithful : Faithful h.admitted h.store) : Faithful t.admitted t.store := by
  cases hchange with
  | commit clock p hp hstore hadmitted =>
      rw [hstore, hadmitted]
      exact hp.faithful hfaithful
  | prune hstore hadmitted =>
      rw [hadmitted]
      exact hstore.faithful hfaithful

theorem faithful_of_run (hrun : Run Step (new config) labels u) : Faithful u.admitted u.store := by
  have hu : u.Aligned ∧ Faithful u.admitted u.store := by
    refine hrun.invariant (P := fun u => u.Aligned ∧ Faithful u.admitted u.store) (fun s l t hs hstep => ?_) ⟨?_, ?_⟩
    · obtain ⟨hchange, haligned⟩ := step_change hs.1 hstep
      exact ⟨haligned, hchange.faithful hs.2⟩
    · rintro _ ⟨⟩
    · refine ⟨fun key hkey => .inl rfl, ?_⟩
      rintro tier key value sampleCount hkey ⟨⟩
  exact hu.2

/-- No bucket of the timestamp is among those aggregated from one state to another. -/
def Untouched (scope : HistoryScope) (timestamp : Nat) (v w : Worker) : Prop :=
  ∃ later, w.aggregated = v.aggregated ++ later ∧ ∀ tier : Tier, (scope, tier, bucketStart timestamp tier.width) ∉ later

theorem Change.untouched (hchange : Change h t)
    (hshut : h.store.Shut scope .fiveMinutes (bucketStart timestamp FIVE_MINUTE_BUCKET_MILLIS)) : Untouched scope timestamp h t := by
  cases hchange with
  | commit clock p hp hstore hadmitted haggregated =>
      refine ⟨p.aggregated, haggregated, fun tier hmem => ?_⟩
      obtain ⟨other, hopen, hother⟩ := hp.touched tier _ (mem_aggregated.mp hmem)
      refine hopen (.inr (hshut other ?_))
      change bucketStart other FIVE_MINUTE_BUCKET_MILLIS = _
      change bucketStart other tier.width = bucketStart timestamp tier.width at hother
      rw [← bucketStart_fiveMinutes tier other, hother, bucketStart_fiveMinutes]
  | prune hstore hadmitted haggregated => exact ⟨[], by rw [haggregated, List.append_nil], fun _ => List.not_mem_nil⟩

theorem Untouched.trans (huv : Untouched scope timestamp u v) (hvw : Untouched scope timestamp v w) :
    Untouched scope timestamp u w := by
  obtain ⟨xs, hv, hxs⟩ := huv
  obtain ⟨ys, hw, hys⟩ := hvw
  refine ⟨xs ++ ys, by rw [hw, hv, List.append_assoc], fun tier hmem => ?_⟩
  exact (List.mem_append.mp hmem).elim (hxs tier) (hys tier)

theorem run_untouched (hv : v.Aligned) (hrun : Run Step v after w) (hgone : v.store.Gone ⟨scope, .raw, timestamp, metric⟩) :
    Untouched scope timestamp v w := by
  have hw : w.Aligned ∧ w.store.Gone ⟨scope, .raw, timestamp, metric⟩ ∧ Untouched scope timestamp v w := by
    refine hrun.invariant
      (P := fun w => w.Aligned ∧ w.store.Gone ⟨scope, .raw, timestamp, metric⟩ ∧ Untouched scope timestamp v w)
      (fun s l t hs hstep => ?_) ⟨hv, hgone, [], by rw [List.append_nil], fun _ => List.not_mem_nil⟩
    obtain ⟨hchange, haligned⟩ := step_change hs.1 hstep
    exact ⟨haligned, hchange.gone hs.2.1, hs.2.2.trans (hchange.untouched hs.2.1.sealed)⟩
  exact hw.2.2

/-- Every one-minute and five-minute row counts and averages all that was ever
admitted to its bucket, and once a raw row has been deleted its buckets are
aggregated no more. -/
theorem aggregates_exact (hu : Run Step (new config) before u) :
    (∀ tier scope timestamp metric row, u.store.rows.lookup ⟨scope, .tier tier, timestamp, metric⟩ = some row →
      Exact u.admitted tier ⟨scope, .tier tier, timestamp, metric⟩ row.value row.sampleCount) ∧
    ∀ labels v after w scope timestamp metric, Run Step u labels v → Run Step v after w →
      ⟨scope, .raw, timestamp, metric⟩ ∈ u.store.rows → ⟨scope, .raw, timestamp, metric⟩ ∉ v.store.rows →
        Untouched scope timestamp v w := by
  constructor
  · intro tier scope timestamp metric row hrow
    refine (faithful_of_run hu).exact tier _ _ _ rfl ?_
    rw [content, hrow]
    rfl
  · intro labels v after w scope timestamp metric hv hw hrow hdeleted
    obtain hkept | hgone := run_mem_or_gone (aligned_of_run hu) hv hrow
    · exact absurd hkept hdeleted
    · exact run_untouched (aligned_of_run (hu.trans hv)) hw hgone

/-- A five-minute row outlives the two raw rows it counts, one of them admitted
twice, and a third sample that comes late. -/
theorem aggregates_exact_after_pruning : ∃ u v w,
    Run Step (new ⟨1, 16⟩) [.persist 7200000 (serverAt 6600000 ++ serverAt 6601000 ++ serverAt 6601000)] u ∧
      Run Step u (maintained 10800000 10800000) v ∧ Run Step v [.persist 7200000 (serverAt 6602000)] w ∧
      Untouched .server 6601000 v w ∧
      Exact w.admitted .fiveMinutes ⟨.server, .tier .fiveMinutes, 6600000, .trafficSentBytes⟩ 2 2 := by
  obtain ⟨u, hu, hraw, hv⟩ := run_of_exec_any
    (P := fun u : Worker => ⟨.server, .raw, 6601000, .trafficSentBytes⟩ ∈ u.store.rows ∧
      (exec next u (maintained 10800000 10800000)).any (fun v => ⟨.server, .raw, 6601000, .trafficSentBytes⟩ ∉ v.store.rows ∧
        (exec next v [.persist 7200000 (serverAt 6602000)]).any (fun w =>
          w.store.rows.lookup ⟨.server, .tier .fiveMinutes, 6600000, .trafficSentBytes⟩ = some ⟨2, 2, true⟩) = true) = true)
    (fun _ _ _ h => h)
    (show (exec next (new ⟨1, 16⟩) [.persist 7200000 (serverAt 6600000 ++ serverAt 6601000 ++ serverAt 6601000)]).any _ = true by
      decide +kernel)
  obtain ⟨v, hv, hdeleted, hw⟩ := run_of_exec_any (fun _ _ _ h => h) hv
  obtain ⟨w, hw, hrow⟩ := run_of_exec_any (fun _ _ _ h => h) hw
  exact ⟨u, v, w, hu, hv, hw, (aggregates_exact hu).2 _ v _ w _ _ _ hv hw hraw hdeleted,
    (aggregates_exact ((hu.trans hv).trans hw)).1 .fiveMinutes _ _ _ _ hrow⟩

end Worker

end Rustgo.History
