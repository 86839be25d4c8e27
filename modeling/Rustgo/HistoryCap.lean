import Mathlib.Data.Prod.Lex
import Rustgo.HistoryLatestRuns

namespace Rustgo.History

open Checks Tables LatestRows Runs

def Tier.retention (config : HistoryConfig) : Tier → Nat
  | .oneMinute => ONE_MINUTE_RETENTION_MILLIS
  | .fiveMinutes => config.retentionMillis

/-- A tombstone that a scan at the clock retires. -/
def Expired (config : HistoryConfig) (clock : Nat) (key : TombstoneKey) (deletedAt : Nat) : Prop :=
  deletedAt < clock - key.tier.retention config ∧ key.timestamp < rawAdmissionCutoff clock

/-- The checkpoint completes, nothing cuts the turn short, and the clock is far from the end of SQLite's integers. -/
structure Conditions.Fair (c : Conditions) : Prop where
  checkpointed : c.checkpointed = true
  interrupted : c.interrupted = false
  clock : c.clock < 2 ^ 62

namespace Store

variable {s t : Store} {tier : Tier} {deletedBefore cutoff limit clock : Nat} {key : TombstoneKey} {deletedAt : Nat}

/-- Some tombstones have gone, and nothing else. -/
structure Retired (s t : Store) : Prop where
  rows : t.rows = s.rows
  fewer : len t.tombstones < len s.tombstones

theorem rawAdmissionCutoff_le (clock : Nat) : rawAdmissionCutoff clock ≤ clock := by
  rw [rawAdmissionCutoff]
  split
  · exact Nat.zero_le _
  · refine (Nat.div_mul_le_self _ _).trans ((Nat.min_le_left _ _).trans ?_)
    simp only [RAW_RETENTION_MILLIS, FIVE_MINUTE_BUCKET_MILLIS, MINUTE_BUCKET_MILLIS] at *
    omega

theorem mem_expired_of : (⟨key.scope, tier, key.timestamp⟩ : TombstoneKey) = key ∧ s.tombstones.lookup key = some deletedAt ∧
    deletedAt < deletedBefore ∧ key.timestamp < cutoff →
      toLex (deletedAt, toLex (key.timestamp, key.scope)) ∈ s.expired tier deletedBefore cutoff := by
  rintro ⟨hkey, hlookup, hold, hcutoff⟩
  refine Finset.mem_image.mpr ⟨key, Finset.mem_filter.mpr ⟨Finmap.mem_keys.mpr (Finmap.mem_of_lookup_eq_some hlookup),
    congrArg TombstoneKey.tier hkey.symm, ?_, hcutoff⟩, by rw [hlookup]; rfl⟩
  rw [hlookup, Option.any_some]
  exact decide_eq_true hold

theorem deleteExpiredTombstoneResolution_fair (s : Store) (tier : Tier) (hbefore : deletedBefore < 2 ^ 62) (hcutoff : cutoff < 2 ^ 62) (hlimit : limit ≠ 0) :
    ∃ count t, s.deleteExpiredTombstoneResolution tier deletedBefore cutoff limit = .ok (count, t) ∧
      (count = 0 ∧ t = s ∧ (∀ key deletedAt, s.tombstones.lookup key = some deletedAt → key.tier = tier →
        ¬(deletedAt < deletedBefore ∧ key.timestamp < cutoff)) ∨ 0 < count ∧ count ≤ limit ∧ s.Retired t) := by
  have hage : sqliteInteger deletedBefore "tombstone age" = .ok deletedBefore := sqliteInteger_eq_ok.mpr ⟨by omega, rfl⟩
  have hreplay : sqliteInteger cutoff "tombstone replay cutoff" = .ok cutoff := sqliteInteger_eq_ok.mpr ⟨by omega, rfl⟩
  have hencoded : encodeDurableRetirementFloor cutoff = .ok (DURABLE_RETIREMENT_FLOOR_TAG + cutoff) := by
    rw [encodeDurableRetirementFloor, require_of (by rw [DURABLE_RETIREMENT_FLOOR_TAG]; omega)]
    rfl
  have hevidence : sqliteInteger (DURABLE_RETIREMENT_FLOOR_TAG + cutoff) "durable raw retirement floor" =
      .ok (DURABLE_RETIREMENT_FLOOR_TAG + cutoff) := sqliteInteger_eq_ok.mpr ⟨by rw [DURABLE_RETIREMENT_FLOOR_TAG]; omega, rfl⟩
  rw [deleteExpiredTombstoneResolution, hage, hreplay]
  simp only [ok_bind, hencoded, hevidence]
  cases hsmallest : smallest limit (s.expired tier deletedBefore cutoff) with
  | nil =>
      refine ⟨0, s, rfl, .inl ⟨rfl, rfl, fun key deletedAt hlookup htier hexpired => ?_⟩⟩
      have hempty := (smallest_eq_nil.mp hsmallest).resolve_left hlimit
      have hmem : toLex (deletedAt, toLex (key.timestamp, key.scope)) ∈ s.expired tier deletedBefore cutoff :=
        mem_expired_of ⟨by rw [← htier], hlookup, hexpired⟩
      exact Finset.notMem_empty _ (hempty ▸ hmem)
  | cons first rest =>
      rw [if_pos (by simp)]
      refine ⟨_, _, rfl, .inr ⟨by simp, ?_, rfl, ?_⟩⟩
      · have hlength := length_smallest_le limit (s.expired tier deletedBefore cutoff)
        rw [hsmallest] at hlength
        rwa [List.length_map]
      · have hfirst : first ∈ s.expired tier deletedBefore cutoff := mem_of_mem_smallest (hsmallest ▸ List.mem_cons_self)
        obtain ⟨key, hkey, rfl⟩ := Finset.mem_image.mp hfirst
        obtain ⟨hmem, rfl, -⟩ := Finset.mem_filter.mp hkey
        obtain ⟨deletedAt, hlookup⟩ := Finmap.mem_iff.mp (Finmap.mem_keys.mp hmem)
        exact len_keep_lt hlookup (by simp)

theorem deleteTombstonesBefore_fair (s : Store) {oneMinuteBefore fiveMinutesBefore : Nat} (hone : oneMinuteBefore < 2 ^ 62)
    (hfive : fiveMinutesBefore < 2 ^ 62) (hcutoff : cutoff < 2 ^ 62) (hlimit : limit ≠ 0) : ∃ count t,
    s.deleteTombstonesBefore oneMinuteBefore fiveMinutesBefore cutoff limit false = (.ok count, t) ∧
      (count = 0 ∧ t = s ∧ (∀ key deletedAt, s.tombstones.lookup key = some deletedAt →
        ¬(deletedAt < (match key.tier with | .oneMinute => oneMinuteBefore | .fiveMinutes => fiveMinutesBefore) ∧ key.timestamp < cutoff)) ∨
        0 < count ∧ s.Retired t) := by
  rw [deleteTombstonesBefore]
  obtain ⟨one, t, hdeleted, hzero | ⟨hpos, hle, ht⟩⟩ := deleteExpiredTombstoneResolution_fair s .oneMinute hone hcutoff hlimit
  · obtain ⟨rfl, rfl, hnone⟩ := hzero
    obtain ⟨five, u, hdeleted', hu⟩ := deleteExpiredTombstoneResolution_fair t .fiveMinutes hfive hcutoff hlimit
    refine ⟨five, u, ?_, ?_⟩
    · simp only [hdeleted, if_neg hlimit.symm, Bool.false_eq_true, if_false, Nat.sub_zero, hdeleted', Nat.zero_add]
    · rcases hu with ⟨rfl, rfl, hnone'⟩ | ⟨hpos, -, hu⟩
      · refine .inl ⟨rfl, rfl, fun key deletedAt hlookup => ?_⟩
        obtain ⟨scope, tier, timestamp⟩ := key
        cases tier with
        | oneMinute => exact hnone _ _ hlookup rfl
        | fiveMinutes => exact hnone' _ _ hlookup rfl
      · exact .inr ⟨hpos, hu⟩
  · by_cases hfull : one = limit
    · exact ⟨one, t, by simp only [hdeleted, if_pos hfull], .inr ⟨hpos, ht⟩⟩
    · have hrest : limit - one ≠ 0 := by omega
      obtain ⟨five, u, hdeleted', hu⟩ := deleteExpiredTombstoneResolution_fair t .fiveMinutes hfive hcutoff hrest
      refine ⟨one + five, u, ?_, .inr ⟨by omega, ?_⟩⟩
      · simp only [hdeleted, if_neg hfull, Bool.false_eq_true, if_false, hdeleted']
      · rcases hu with ⟨-, rfl, -⟩ | ⟨-, -, hu⟩
        · exact ht
        · exact ⟨hu.rows.trans ht.rows, hu.fewer.trans ht.fewer⟩

theorem deleteExpiredTombstones_fair (s : Store) (config : HistoryConfig) (hclock : clock < 2 ^ 62) : ∃ count t,
    s.deleteExpiredTombstones clock (rawAdmissionCutoff clock) config.retentionMillis CAP_DELETE_LIMIT false = (.ok count, t) ∧
      (count = 0 ∧ t = s ∧ (∀ key deletedAt, s.tombstones.lookup key = some deletedAt → ¬Expired config clock key deletedAt) ∨
        0 < count ∧ s.Retired t) := by
  have hbefore (n : Nat) : clock - n < 2 ^ 62 := (Nat.sub_le _ _).trans_lt hclock
  have hlimit : CAP_DELETE_LIMIT ≠ 0 := by decide
  obtain ⟨count, t, hdeleted, ht⟩ := deleteTombstonesBefore_fair s (hbefore ONE_MINUTE_RETENTION_MILLIS)
    (hbefore config.retentionMillis) ((rawAdmissionCutoff_le clock).trans_lt hclock) hlimit
  refine ⟨count, t, hdeleted, ht.imp_left fun ⟨hzero, hsame, hnone⟩ => ⟨hzero, hsame, fun key deletedAt hlookup => ?_⟩⟩
  have hkey := hnone key deletedAt hlookup
  rw [Expired]
  obtain ⟨scope, _ | _, timestamp⟩ := key
  · exact hkey
  · exact hkey

/-- A new tombstone has the time of its deletion. -/
theorem lookup_tombstone {other : TombstoneKey} {d : Nat} (h : (s.tombstone other clock).tombstones.lookup key = some d) :
    s.tombstones.lookup key = some d ∨ d = clock := by
  by_cases hkey : key = other
  · subst hkey
    rw [tombstone, Finmap.lookup_insert] at h
    rw [← Option.some.inj h]
    cases hold : s.tombstones.lookup key with
    | none => exact .inr (Nat.zero_max _)
    | some old =>
        rw [Option.getD_some, Option.some_inj]
        exact (max_choice old clock).imp_left Eq.symm
  · rw [tombstone, Finmap.lookup_insert_of_ne _ hkey] at h
    exact .inl h

theorem tombstones_deleteCandidates {resolution : Resolution} {candidates : List MetricPruneCandidate}
    (h : (candidates.foldl (deleteCandidate resolution clock) s).tombstones.lookup key = some deletedAt) :
    s.tombstones.lookup key = some deletedAt ∨ deletedAt = clock := by
  induction candidates generalizing s with
  | nil => exact .inl h
  | cons candidate candidates ih =>
      rcases ih h with h | h
      · cases resolution with
        | raw =>
            rcases lookup_tombstone (s := s.tombstone _ clock) h with h | h
            · exact lookup_tombstone h
            · exact .inr h
        | tier tier => exact lookup_tombstone h
      · exact .inr h

end Store

/-- What a turn of the pruning does when nothing stands in its way. -/
inductive CapTurn (config : HistoryConfig) (c : Conditions) (a : Archive) (state : CapPruneState) :
    CapPruneResult → Archive → CapPruneState → Prop
  | retired (hscan : state.tombstoneScanComplete = false) (metrics : Store) (hretired : a.metrics.Retired metrics) :
      CapTurn config c a state .tombstonesDeleted { a with metrics := metrics, freePages := c.freePages }
        { state with tombstoneReclaimPending := true }
  | scanned (hscan : state.tombstoneScanComplete = false)
      (hnone : ∀ key deletedAt, a.metrics.tombstones.lookup key = some deletedAt → ¬Expired config c.clock key deletedAt) :
      CapTurn config c a state (if state.tombstoneReclaimPending then .reclaimPending else .scanning) { a with freePages := c.freePages }
        { state with tombstoneScanComplete := true, tombstoneReclaimPending := false }
  | metrics (hscan : state.tombstoneScanComplete = true) (htier : state.tier < 3) (first : MetricPruneCandidate)
      (chosen : List MetricPruneCandidate) (hunmarked : ∀ candidate ∈ first :: chosen, a.metrics.Unmarked (Store.tierResolution state.tier) candidate) :
      CapTurn config c a state .deleted { a with
        metrics := (first :: chosen).foldl (Store.deleteCandidate (Store.tierResolution state.tier) c.clock) a.metrics
        freePages := c.freePages } state
  | tierDone (hscan : state.tombstoneScanComplete = true) (htier : state.tier < 3) (hdone : ∀ key row,
      a.metrics.rows.lookup key = some row → key.resolution = Store.tierResolution state.tier → row.isLatest = true) :
      CapTurn config c a state .scanning { a with freePages := c.freePages } { state with tier := state.tier + 1 }
  | lifecycle (hscan : state.tombstoneScanComplete = true) (htier : state.tier = 3) (hdeleted : 0 < a.pruneLifecycle.1) :
      CapTurn config c a state .deleted { a with lifecycle := a.pruneLifecycle.2, freePages := c.freePages } state
  | lifecycleDone (hscan : state.tombstoneScanComplete = true) (htier : state.tier = 3) (hdone : a.pruneLifecycle.1 = 0) :
      CapTurn config c a state .scanning a { state with tier := state.tier + 1 }
  | sessions (hscan : state.tombstoneScanComplete = true) (htier : state.tier = 4) (hdeleted : 0 < a.pruneSessions.1) :
      CapTurn config c a state .deleted { a with sessions := a.pruneSessions.2, freePages := c.freePages } state
  | sessionsDone (hscan : state.tombstoneScanComplete = true) (htier : state.tier = 4) (hdone : a.pruneSessions.1 = 0) :
      CapTurn config c a state .scanning a { state with tier := state.tier + 1 }
  | exhausted (hscan : state.tombstoneScanComplete = true) (htier : 5 ≤ state.tier) : CapTurn config c a state .exhausted a state

section Turn

variable {config : HistoryConfig} {c : Conditions} {a b : Archive} {state state' : CapPruneState} {result : CapPruneResult}

/-- No turn fails. -/
theorem pruneCapBatchStep_turn (a : Archive) (config : HistoryConfig) (state : CapPruneState) (hc : c.Fair) :
    ∃ result b state', a.pruneCapBatchStep config c state = (.ok result, b, state') ∧ CapTurn config c a state result b state' := by
  unfold Archive.pruneCapBatchStep
  by_cases hscan : state.tombstoneScanComplete = false
  · rw [if_pos (.inl hscan)]
    obtain ⟨count, t, hdeleted, ht⟩ := Store.deleteExpiredTombstones_fair a.metrics config hc.clock
    have hturn : a.metrics.pruneCapBatchStep config (c.around false 0) state = if 0 < count then
        (.ok .tombstonesDeleted, t, { state with tombstoneReclaimPending := true })
        else (.ok (if state.tombstoneReclaimPending then .reclaimPending else .scanning), t,
          { state with tombstoneScanComplete := true, tombstoneReclaimPending := false }) := by
      have haround : (c.around false 0).clock = c.clock ∧ (c.around false 0).interrupted = false := ⟨rfl, hc.interrupted⟩
      rw [Store.pruneCapBatchStep, if_pos hscan, haround.1, haround.2, hdeleted]
    rw [hturn]
    rcases ht with ⟨rfl, rfl, hnone⟩ | ⟨hpos, hretired⟩
    · exact ⟨_, _, _, rfl, .scanned hscan hnone⟩
    · rw [if_pos hpos]
      exact ⟨_, _, _, rfl, .retired hscan t hretired⟩
  · have hscan' : state.tombstoneScanComplete = true := by simpa using hscan
    by_cases htier : state.tier < 3
    · rw [if_pos (.inr htier)]
      have hclock : sqliteInteger c.clock "cap deletion timestamp" = .ok c.clock :=
        Store.sqliteInteger_eq_ok.mpr ⟨by have := hc.clock; omega, rfl⟩
      obtain ⟨turn, hturn⟩ : ∃ turn, a.metrics.pruneMetricTierStep (Store.tierResolution state.tier) c.clock = .ok turn := by
        rw [Store.pruneMetricTierStep]
        split
        · exact ⟨_, rfl⟩
        · rw [hclock]
          exact ⟨_, rfl⟩
      obtain ⟨result, t⟩ := turn
      have haround : (c.around false 0).clock = c.clock := rfl
      rw [Store.pruneCapBatchStep, if_neg hscan, if_pos htier, haround, hturn]
      rcases Store.pruneMetricTierStep_cases hturn with ⟨rfl, rfl, hdone⟩ | ⟨first, chosen, rfl, rfl, hunmarked⟩
      · exact ⟨_, _, _, rfl, .tierDone hscan' htier hdone⟩
      · exact ⟨_, _, _, rfl, .metrics hscan' htier first chosen hunmarked⟩
    · rw [if_neg (not_or.mpr ⟨hscan, htier⟩)]
      split
      · next hlifecycle =>
        split
        · next hdeleted => exact ⟨_, _, _, rfl, .lifecycle hscan' hlifecycle hdeleted⟩
        · next hdeleted => exact ⟨_, _, _, rfl, .lifecycleDone hscan' hlifecycle (by omega)⟩
      · next hlifecycle =>
        split
        · next hsessions =>
          split
          · next hdeleted => exact ⟨_, _, _, rfl, .sessions hscan' hsessions hdeleted⟩
          · next hdeleted => exact ⟨_, _, _, rfl, .sessionsDone hscan' hsessions (by omega)⟩
        · next hsessions => exact ⟨_, _, _, rfl, .exhausted hscan' (by omega)⟩

theorem CapTurn.of_exhausted (h : CapTurn config c a state .exhausted b state') :
    b = a ∧ state.tombstoneScanComplete = true ∧ 5 ≤ state.tier := by
  generalize hresult : CapPruneResult.exhausted = result at h
  cases h with
  | exhausted hscan htier => exact ⟨rfl, hscan, htier⟩
  | scanned => split at hresult <;> cases hresult
  | _ => cases hresult

theorem CapTurn.metric_lookup {key : RowKey} {row : Row} (h : CapTurn config c a state result b state')
    (hrow : b.metrics.rows.lookup key = some row) : a.metrics.rows.lookup key = some row := by
  cases h with
  | retired _ metrics hretired => exact hretired.rows ▸ hrow
  | metrics => exact (Store.lookup_deleteCandidates.mp hrow).1
  | _ => exact hrow

theorem CapTurn.lifecycle_lookup {rowId : Nat} {row : LifecycleRow} (h : CapTurn config c a state result b state')
    (hrow : b.lifecycle.lookup rowId = some row) : a.lifecycle.lookup rowId = some row := by
  cases h with
  | lifecycle => exact (Ranking.lookup_deleteOldest.mp hrow).1
  | _ => exact hrow

theorem CapTurn.session_lookup {key : SessionKey} {row : SessionRow} (h : CapTurn config c a state result b state')
    (hrow : b.sessions.lookup key = some row) : a.sessions.lookup key = some row := by
  cases h with
  | sessions => exact (Ranking.lookup_deleteOldest.mp hrow).1
  | _ => exact hrow

/-- What is left of the pruning: first the scan for tombstones, then the rows, then the tiers. -/
def Archive.remaining (a : Archive) (state : CapPruneState) : ℕ ×ₗ ℕ ×ₗ ℕ :=
  toLex (if state.tombstoneScanComplete then 0 else 1 + len a.metrics.tombstones,
    toLex (len a.metrics.rows + len a.lifecycle + len a.sessions, 5 - state.tier))

theorem CapTurn.remaining_lt (h : CapTurn config c a state result b state') (hresult : result ≠ .exhausted) :
    b.remaining state' < a.remaining state := by
  have hfewer {x y : Archive} (hscan : state.tombstoneScanComplete = true)
      (hlen : len y.metrics.rows + len y.lifecycle + len y.sessions < len x.metrics.rows + len x.lifecycle + len x.sessions) :
      y.remaining state < x.remaining state := by
    simp only [Archive.remaining, hscan, if_true]
    exact Prod.Lex.toLex_lt_toLex.mpr (.inr ⟨rfl, Prod.Lex.toLex_lt_toLex.mpr (.inl hlen)⟩)
  have htier (hscan : state.tombstoneScanComplete = true) (htier : state.tier < 5) {freePages : Nat} :
      Archive.remaining { a with freePages := freePages } { state with tier := state.tier + 1 } < a.remaining state := by
    simp only [Archive.remaining, hscan, if_true]
    exact Prod.Lex.toLex_lt_toLex.mpr (.inr ⟨rfl, Prod.Lex.toLex_lt_toLex.mpr (.inr ⟨rfl, by simp only; omega⟩)⟩)
  cases h with
  | retired hscan metrics hretired =>
      refine Prod.Lex.toLex_lt_toLex.mpr (.inl ?_)
      have := hretired.fewer
      simp only [hscan, Bool.false_eq_true, if_false]
      omega
  | scanned hscan hnone =>
      refine Prod.Lex.toLex_lt_toLex.mpr (.inl ?_)
      simp only [hscan, if_true, Bool.false_eq_true, if_false]
      omega
  | metrics hscan _ first chosen hunmarked =>
      obtain ⟨key, row, hrow, hresolution, -, rfl⟩ := hunmarked first List.mem_cons_self
      refine hfewer hscan ?_
      dsimp only
      rw [Store.rows_deleteCandidates]
      have := len_keep_lt (p := fun other _ => !(other.resolution = Store.tierResolution state.tier &&
        toLex (other.timestamp, other.scope) ∈ toLex (key.timestamp, key.scope) :: chosen)) hrow (by simp [hresolution])
      omega
  | tierDone hscan h => exact htier hscan (by omega)
  | lifecycle hscan _ hdeleted =>
      refine hfewer hscan ?_
      have : len a.pruneLifecycle.2 < len a.lifecycle := Ranking.len_deleteOldest hdeleted
      dsimp only
      omega
  | lifecycleDone hscan h => exact htier hscan (by omega)
  | sessions hscan _ hdeleted =>
      refine hfewer hscan ?_
      have : len a.pruneSessions.2 < len a.sessions := Ranking.len_deleteOldest hdeleted
      dsimp only
      omega
  | sessionsDone hscan h => exact htier hscan (by omega)
  | exhausted => exact absurd rfl hresult

/-- What the tiers behind the pruning have left. -/
structure Swept (a : Archive) (state : CapPruneState) : Prop where
  metrics : ∀ tier < state.tier, tier < 3 → ∀ key row, a.metrics.rows.lookup key = some row →
    key.resolution = Store.tierResolution tier → row.isLatest = true
  lifecycle : 3 < state.tier → ∀ rowId row, a.lifecycle.lookup rowId = some row → row.isLatest = true
  sessions : 4 < state.tier → ∀ key row, a.sessions.lookup key = some row → row.session.closed = none ∨ row.isLatestClosed = true

theorem CapTurn.swept (h : CapTurn config c a state result b state') (hswept : Swept a state) : Swept b state' := by
  have hsub (htier : state'.tier = state.tier) : Swept b state' := by
    constructor
    case metrics =>
      intro tier hlt hthree key row hrow
      exact hswept.metrics tier (htier ▸ hlt) hthree key row (h.metric_lookup hrow)
    case lifecycle => exact fun hlt rowId row hrow => hswept.lifecycle (htier ▸ hlt) rowId row (h.lifecycle_lookup hrow)
    case sessions => exact fun hlt key row hrow => hswept.sessions (htier ▸ hlt) key row (h.session_lookup hrow)
  cases h with
  | tierDone hscan hthree hdone =>
      refine ⟨fun tier hlt hthree' key row hrow hresolution => ?_, fun hlt => ?_, fun hlt => ?_⟩
      · rcases Nat.lt_succ_iff_lt_or_eq.mp hlt with hlt | rfl
        · exact hswept.metrics tier hlt hthree' key row hrow hresolution
        · exact hdone key row hrow hresolution
      · simp only at hlt
        omega
      · simp only at hlt
        omega
  | lifecycleDone hscan htier hdone =>
      refine ⟨fun tier _ hthree => hswept.metrics tier (by omega) hthree, fun _ rowId row hrow => ?_, fun hlt => ?_⟩
      · simpa using Ranking.deleteOldest_eq_zero hdone (by decide) hrow
      · simp only at hlt
        omega
  | sessionsDone hscan htier hdone =>
      refine ⟨fun tier _ hthree => hswept.metrics tier (by omega) hthree, fun _ => hswept.lifecycle (by omega), fun _ key row hrow => ?_⟩
      have := Ranking.deleteOldest_eq_zero hdone (by decide) hrow
      cases hclosed : row.session.closed with
      | none => exact .inl rfl
      | some closed => simpa [hclosed] using this
  | _ => exact hsub rfl

/-- A scan has found no more expired tombstones, and those that were not there then are from deletions since. -/
def Scanned (config : HistoryConfig) (turns : List Conditions) (a : Archive) : Prop :=
  ∃ before scan after, turns = before ++ scan :: after ∧ ∀ key deletedAt, a.metrics.tombstones.lookup key = some deletedAt →
    ¬Expired config scan.clock key deletedAt ∨ ∃ turn ∈ after, deletedAt = turn.clock

theorem Scanned.snoc {turns : List Conditions} (h : Scanned config turns a) (hb : ∀ key deletedAt,
    b.metrics.tombstones.lookup key = some deletedAt → a.metrics.tombstones.lookup key = some deletedAt ∨ deletedAt = c.clock) :
    Scanned config (turns ++ [c]) b := by
  obtain ⟨before, scan, after, rfl, hfrom⟩ := h
  refine ⟨before, scan, after ++ [c], by rw [List.append_assoc, List.cons_append], fun key deletedAt hlookup => ?_⟩
  rcases hb key deletedAt hlookup with hlookup | rfl
  · refine (hfrom key deletedAt hlookup).imp_right fun ⟨turn, hturn, heq⟩ => ⟨turn, List.mem_append_left _ hturn, heq⟩
  · exact .inr ⟨c, List.mem_append_right _ List.mem_cons_self, rfl⟩

theorem CapTurn.scanned_snoc {turns : List Conditions} (h : CapTurn config c a state result b state')
    (hscanned : state.tombstoneScanComplete = true → Scanned config turns a) (hscan : state'.tombstoneScanComplete = true) :
    Scanned config (turns ++ [c]) b := by
  cases h with
  | retired hopen => exact absurd (hopen.symm.trans hscan) Bool.false_ne_true
  | scanned hopen hnone => exact ⟨turns, c, [], rfl, fun key deletedAt hlookup => .inl (hnone key deletedAt hlookup)⟩
  | metrics => exact (hscanned hscan).snoc fun key deletedAt hlookup => Store.tombstones_deleteCandidates hlookup
  | _ => exact (hscanned hscan).snoc fun key deletedAt hlookup => .inl hlookup

end Turn

namespace Archive

/-- Only rows with the flag, and open sessions, are left. -/
structure OnlyMarked (a : Archive) : Prop where
  metrics : ∀ key row, a.metrics.rows.lookup key = some row → row.isLatest = true
  lifecycle : ∀ rowId row, a.lifecycle.lookup rowId = some row → row.isLatest = true
  sessions : ∀ key row, a.sessions.lookup key = some row → row.session.closed = none ∨ row.isLatestClosed = true

/-- Only the newest rows, and open sessions, are left. -/
structure OnlyProtected (a : Archive) : Prop where
  metrics : ∀ key ∈ a.metrics.rows, a.NewestMetric key
  lifecycle : ∀ rowId row, a.lifecycle.lookup rowId = some row → a.NewestLifecycle rowId row
  sessions : ∀ key row, a.sessions.lookup key = some row → row.session.closed = none ∨ a.NewestClosed key row

theorem OnlyMarked.onlyProtected {a : Archive} (h : a.OnlyMarked) (hlatest : a.Latest) : a.OnlyProtected := by
  constructor
  case metrics =>
    intro key hkey
    obtain ⟨row, hrow⟩ := Finmap.mem_iff.mp hkey
    exact (hlatest.metrics key row hrow).mp (h.metrics key row hrow)
  case lifecycle => exact fun rowId row hrow => (hlatest.lifecycle rowId row hrow).mp (h.lifecycle rowId row hrow)
  case sessions => exact fun key row hrow => (h.sessions key row hrow).imp_right (hlatest.sessions key row hrow).mp

end Archive

theorem Swept.onlyMarked {a : Archive} {state : CapPruneState} (h : Swept a state) (htier : 5 ≤ state.tier) : a.OnlyMarked := by
  constructor
  case metrics =>
    intro key row hrow
    have htierOf : ∃ tier < 3, key.resolution = Store.tierResolution tier := by
      cases key.resolution with
      | raw => exact ⟨2, by decide, rfl⟩
      | tier tier =>
          cases tier with
          | oneMinute => exact ⟨1, by decide, rfl⟩
          | fiveMinutes => exact ⟨0, by decide, rfl⟩
    obtain ⟨tier, hthree, hresolution⟩ := htierOf
    exact h.metrics tier (by omega) hthree key row hrow hresolution
  case lifecycle => exact h.lifecycle (by omega)
  case sessions => exact h.sessions (by omega)

/-- A step of the loop that is not the last. -/
def CapStep (config : HistoryConfig) (s : Archive × CapState) (c : Conditions) (t : Archive × CapState) : Prop :=
  s.1.enforceSizeCapStep config c s.2 = (.ok false, t)

/-- How far the loop is from its next turn of pruning. -/
def CapState.distance (state : CapState) (freePages : Nat) : Nat :=
  match state.phase with
  | .measure => 4 * freePages + 6
  | .checkpoint => 4 * freePages + 5
  | .vacuum => 4 * freePages + 4
  | .vacuumCheckpoint => if state.vacuumPending then 4 * freePages + 6 else 2
  | .checkSize => if state.vacuumPending then 4 * freePages + 5 else 1
  | .prune => 0

def capMeasure (s : Archive × CapState) : (ℕ ×ₗ ℕ ×ₗ ℕ) ×ₗ ℕ := toLex (s.1.remaining s.2.prune, s.2.distance s.1.freePages)

section Loop

variable {config : HistoryConfig} {c : Conditions} {s t : Archive × CapState} {turns : List Conditions}

theorem incrementalVacuum_pending {limit freePages : Nat} (h : (incrementalVacuum limit freePages).1 = true) :
    (incrementalVacuum limit freePages).2 + limit = freePages := by
  induction limit generalizing freePages with
  | zero => rfl
  | succ limit ih =>
      rw [incrementalVacuum] at h ⊢
      split at h
      · cases h
      · next hfree =>
        rw [if_neg hfree]
        have := ih h
        omega

/-- The last step: the database is small enough, or nothing is left to prune. -/
def CapDone (config : HistoryConfig) (s : Archive × CapState) (c : Conditions) : Prop :=
  ∃ t : Archive × CapState, s.1.enforceSizeCapStep config c s.2 = (.ok true, t) ∧ (c.total ≤ config.maximumBytes ∨
    t.1 = { s.1 with sizeFloorReached := true } ∧ s.2.prune.tombstoneScanComplete = true ∧ 5 ≤ s.2.prune.tier)

/-- What the loop does to the tables: nothing, or a turn of pruning. -/
inductive CapStep.Tables (config : HistoryConfig) (c : Conditions) (s t : Archive × CapState) : Prop
  | same (hprune : t.2.prune = s.2.prune) (hmetrics : t.1.metrics = s.1.metrics) (hlifecycle : t.1.lifecycle = s.1.lifecycle)
      (hsessions : t.1.sessions = s.1.sessions)
  | turn (result : CapPruneResult) (hturn : CapTurn config c s.1 s.2.prune result t.1 t.2.prune)

/-- Every step is the last, or brings the end closer. -/
theorem capStep_progress (hc : c.Fair) (s : Archive × CapState) :
    CapDone config s c ∨ ∃ t, CapStep config s c t ∧ capMeasure t < capMeasure s ∧ CapStep.Tables config c s t := by
  obtain ⟨a, active, phase, prune, pending⟩ := s
  have hcloser {b : Archive} {state : CapState} (hprune : state.prune = prune) (hmetrics : b.metrics = a.metrics)
      (hlifecycle : b.lifecycle = a.lifecycle) (hsessions : b.sessions = a.sessions)
      (hdistance : state.distance b.freePages < CapState.distance ⟨active, phase, prune, pending⟩ a.freePages) :
      capMeasure (b, state) < capMeasure (a, ⟨active, phase, prune, pending⟩) ∧
        CapStep.Tables config c (a, ⟨active, phase, prune, pending⟩) (b, state) := by
    refine ⟨Prod.Lex.toLex_lt_toLex.mpr (.inr ⟨?_, hdistance⟩), .same hprune hmetrics hlifecycle hsessions⟩
    simp only [Archive.remaining, hprune, hmetrics, hlifecycle, hsessions]
  cases phase with
  | measure =>
      by_cases hsmall : active = false ∧ c.total ≤ config.maximumBytes
      · exact .inl ⟨_, by simp only [Archive.enforceSizeCapStep, if_pos hsmall]; rfl, .inl hsmall.2⟩
      · refine .inr ⟨_, by simp only [CapStep, Archive.enforceSizeCapStep, if_neg hsmall]; rfl, ?_⟩
        exact hcloser rfl rfl rfl rfl (by simp only [CapState.distance]; omega)
  | checkpoint =>
      refine .inr ⟨_, by simp only [CapStep, Archive.enforceSizeCapStep, hc.checkpointed, if_true]; rfl, ?_⟩
      exact hcloser rfl rfl rfl rfl (by simp only [CapState.distance]; omega)
  | vacuum =>
      refine .inr ⟨_, by simp only [CapStep, Archive.enforceSizeCapStep]; rfl, ?_⟩
      refine hcloser rfl rfl rfl rfl ?_
      simp only [CapState.distance]
      split
      · next hpending =>
        have := incrementalVacuum_pending hpending
        have hlimit : VACUUM_PAGE_LIMIT = 64 := rfl
        omega
      · omega
  | vacuumCheckpoint =>
      refine .inr ⟨_, by simp only [CapStep, Archive.enforceSizeCapStep, hc.checkpointed, if_true]; rfl, ?_⟩
      refine hcloser rfl rfl rfl rfl ?_
      simp only [CapState.distance]
      split <;> omega
  | checkSize =>
      by_cases hsmall : c.total ≤ config.maximumBytes
      · exact .inl ⟨_, by simp only [Archive.enforceSizeCapStep, if_pos hsmall]; rfl, .inl hsmall⟩
      · refine .inr ⟨_, by simp only [CapStep, Archive.enforceSizeCapStep, if_neg hsmall]; rfl, ?_⟩
        refine hcloser rfl rfl rfl rfl ?_
        cases pending <;> simp [CapState.distance]
  | prune =>
      obtain ⟨result, b, state', hstep, hturn⟩ := pruneCapBatchStep_turn a config prune hc
      cases result with
      | exhausted =>
          obtain ⟨rfl, hscan, htier⟩ := hturn.of_exhausted
          exact .inl ⟨_, by simp only [Archive.enforceSizeCapStep, hstep]; rfl, .inr ⟨rfl, hscan, htier⟩⟩
      | _ =>
          refine .inr ⟨_, by simp only [CapStep, Archive.enforceSizeCapStep, hstep]; rfl, ?_, .turn _ hturn⟩
          exact Prod.Lex.toLex_lt_toLex.mpr (.inl (hturn.remaining_lt (by decide)))

theorem capStep_tables (hc : c.Fair) (h : CapStep config s c t) : CapStep.Tables config c s t := by
  rcases capStep_progress hc s with ⟨u, hu, -⟩ | ⟨u, hu, -, htables⟩
  · rw [CapStep, hu] at h
    cases (Prod.mk.inj h).1
  · obtain rfl := (Prod.mk.inj (hu.symm.trans h)).2
    exact htables

/-- What the loop has done so far. -/
structure CapProgress (config : HistoryConfig) (turns : List Conditions) (s : Archive × CapState) : Prop where
  swept : Swept s.1 s.2.prune
  scanned : s.2.prune.tombstoneScanComplete = true → Scanned config turns s.1

theorem capRun_progress (hrun : Run (CapStep config) s turns t) (hfair : ∀ c ∈ turns, c.Fair) (hs : CapProgress config [] s) :
    CapProgress config turns t := by
  induction hrun with
  | refl => exact hs
  | @snoc t u turns c _ hstep ih =>
      have ht := ih fun c hc => hfair c (List.mem_append_left _ hc)
      cases capStep_tables (hfair c (List.mem_append_right _ List.mem_cons_self)) hstep with
      | same hprune hmetrics hlifecycle hsessions =>
          constructor
          case swept =>
            rw [hprune]
            exact ⟨by rw [hmetrics]; exact ht.swept.metrics, by rw [hlifecycle]; exact ht.swept.lifecycle,
              by rw [hsessions]; exact ht.swept.sessions⟩
          case scanned =>
            rw [hprune]
            exact fun hscan => (ht.scanned hscan).snoc fun key deletedAt hlookup => .inl (hmetrics ▸ hlookup)
      | turn result hturn => exact ⟨hturn.swept ht.swept, hturn.scanned_snoc ht.scanned⟩

theorem capRun_marked (hrun : Run (CapStep config) s turns t) (hs : s.1.Marked) : t.1.Marked := by
  refine hrun.invariant (P := fun s => s.1.Marked) (fun s c t hs hstep => ?_) hs
  have ht : (s.1.enforceSizeCapStep config c s.2).2.1.Marked := Archive.enforceSizeCapStep_marked hs
  rwa [hstep] at ht

end Loop

namespace Archive

variable {config : HistoryConfig}

/-- The loop returns, and then the database is small enough, or it is known that only protected rows and tombstones
that the scan or the pruning after it has left remain. -/
theorem cap_enforced (a : Archive) (config : HistoryConfig) (conditions : Nat → Conditions) (hfair : ∀ n, (conditions n).Fair) :
    ∃ n s t, Run (CapStep config) (a, .new) ((List.range n).map conditions) s ∧
      s.1.enforceSizeCapStep config (conditions n) s.2 = (.ok true, t) ∧
        ((conditions n).total ≤ config.maximumBytes ∨ t.1.sizeFloorReached = true ∧ t.1.OnlyMarked ∧
          (a.Latest → t.1.OnlyProtected) ∧ Scanned config ((List.range n).map conditions) t.1) := by
  obtain ⟨n, s, hrun, t, hlast, hdone⟩ := Run.exists_last capMeasure (CapDone config) conditions
    (fun s n => (capStep_progress (hfair n) s).imp_right fun ⟨t, hstep, hlt, _⟩ => ⟨t, hstep, hlt⟩) (a, .new)
  refine ⟨n, s, t, hrun, hlast, hdone.imp_right fun ⟨ht, hscan, htier⟩ => ?_⟩
  have hstart : CapProgress config [] (a, CapState.new) := by
    refine ⟨⟨fun _ hlt => absurd hlt (Nat.not_lt_zero _), fun hlt => absurd hlt (Nat.not_lt_zero 3), fun hlt => absurd hlt (Nat.not_lt_zero 4)⟩, ?_⟩
    rintro ⟨⟩
  have hprogress := capRun_progress hrun (fun c hc => by
    obtain ⟨n, -, rfl⟩ := List.mem_map.mp hc
    exact hfair n) hstart
  have hmarked := hprogress.swept.onlyMarked htier
  obtain ⟨b, state⟩ := t
  obtain rfl : b = { s.1 with sizeFloorReached := true } := ht
  refine ⟨rfl, ⟨hmarked.metrics, hmarked.lifecycle, hmarked.sessions⟩, fun hlatest => ?_, hprogress.scanned hscan⟩
  have hmarked' := (capRun_marked hrun hlatest.marked).latest
  have honly := hmarked.onlyProtected hmarked'
  exact ⟨honly.metrics, honly.lifecycle, honly.sessions⟩

/-- The rows of two visits. -/
def visited : Archive := ((Keeper.new ⟨1, 16⟩).persist ⟨7200000, 0, 0, true, false⟩ (Keeper.visit 6600000 ++ Keeper.visit 6601000)).archive

/-- The database is far too large whatever is deleted. -/
def crowded (n : Nat) : Conditions := ⟨7200000, 2 ^ 30, n, true, false⟩

theorem cap_enforced_visited : ∃ n s t, Run (CapStep ⟨1, 16⟩) (visited, .new) ((List.range n).map crowded) s ∧
    s.1.enforceSizeCapStep ⟨1, 16⟩ (crowded n) s.2 = (.ok true, t) ∧
      ((crowded n).total ≤ HistoryConfig.maximumBytes ⟨1, 16⟩ ∨ t.1.sizeFloorReached = true ∧ t.1.OnlyMarked ∧
        (visited.Latest → t.1.OnlyProtected) ∧ Scanned ⟨1, 16⟩ ((List.range n).map crowded) t.1) :=
  cap_enforced visited ⟨1, 16⟩ crowded fun _ => ⟨rfl, rfl, (by decide : 7200000 < 2 ^ 62)⟩

end Archive

/-- A tombstone that expires a day after the epoch. -/
def dayOld : Archive := ⟨⟨∅, (∅ : Table TombstoneKey Nat).insert ⟨.server, .oneMinute, 0⟩ 0, 0⟩, ∅, ∅, 0, false⟩

/-- The clock reaches the end of the day right after the scan for tombstones. -/
def midnight (n : Nat) : Conditions := ⟨if n ≤ 5 then 86400000 else 86400001, 2 ^ 30, 0, true, false⟩

def capNext (config : HistoryConfig) (s : Archive × CapState) (c : Conditions) : Option (Archive × CapState) :=
  match s.1.enforceSizeCapStep config c s.2 with
  | (.ok false, t) => some t
  | _ => none

theorem run_of_capNext {config : HistoryConfig} (s : Archive × CapState) (c : Conditions) (t : Archive × CapState)
    (h : capNext config s c = some t) : CapStep config s c t := by
  rw [capNext] at h
  split at h
  · next hstep => rw [CapStep, hstep, Option.some.inj h]
  · cases h

/-- The tombstone of the server that the last step leaves. -/
def tombstoneLeft (config : HistoryConfig) (c : Conditions) (s : Archive × CapState) : Option Nat :=
  match s.1.enforceSizeCapStep config c s.2 with
  | (.ok true, t) => t.1.metrics.tombstones.lookup ⟨.server, .oneMinute, 0⟩
  | _ => none

/-- The tombstone expires while the loop prunes, and the loop does not come back to it. -/
theorem expired_tombstone_left : ∃ s t, Run (CapStep ⟨1, 16⟩) (dayOld, .new) ((List.range 11).map midnight) s ∧
    s.1.enforceSizeCapStep ⟨1, 16⟩ (midnight 11) s.2 = (.ok true, t) ∧ HistoryConfig.maximumBytes ⟨1, 16⟩ < (midnight 11).total ∧
      t.1.metrics.tombstones.lookup ⟨.server, .oneMinute, 0⟩ = some 0 ∧ Expired ⟨1, 16⟩ (midnight 11).clock ⟨.server, .oneMinute, 0⟩ 0 := by
  obtain ⟨s, hrun, hlast⟩ := run_of_exec_any (P := fun s : Archive × CapState => tombstoneLeft ⟨1, 16⟩ (midnight 11) s = some 0)
    run_of_capNext (show (exec (capNext ⟨1, 16⟩) (dayOld, .new) ((List.range 11).map midnight)).any _ = true by
      decide +kernel)
  rw [tombstoneLeft] at hlast
  split at hlast
  · next t hstep => exact ⟨s, t, hrun, hstep, by decide, hlast, by rw [Expired]; decide⟩
  · cases hlast

end Rustgo.History
