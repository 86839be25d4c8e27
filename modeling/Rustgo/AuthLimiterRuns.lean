import Rustgo.AuthLimiterResolve
import Rustgo.Runs
import Mathlib.Algebra.BigOperators.Fin

namespace Rustgo.AuthLimiter

open PeerBucket Tables FailedAuthState FailedAuthLimiter Runs

variable {limiter : FailedAuthLimiter} {clock now : Nat} {peer : PeerBucket} {k : Fin attemptShards}
  {budget : Fin attemptShards → AttemptBudgetShard} {log : List Admission} {shard : AttemptBudgetShard}

def sameWindow (k : Fin attemptShards) (w : Nat) (a : Admission) : Bool := decide (a.shard = k ∧ a.started = w)

def shardCapacity (limiter : FailedAuthLimiter) (k : Fin attemptShards) : Nat :=
  ((FailedAuthState.new limiter.maxAttemptsPerWindow).attemptBudget k).capacity

/-- The budget agrees with the history of what it let through. Windows of one
shard start at different instants unless they have no length at all. -/
structure Ledger (limiter : FailedAuthLimiter) (clock : Nat) (budget : Fin attemptShards → AttemptBudgetShard)
    (log : List Admission) : Prop where
  capacity : ∀ k, (budget k).capacity = shardCapacity limiter k
  used : ∀ k, (budget k).used ≤ (budget k).capacity
  opened : ∀ k w, (budget k).windowStarted = some w → w ≤ clock
  logged : ∀ a ∈ log, ∃ w, (budget a.shard).windowStarted = some w ∧ a.started ≤ w
  inside : ∀ a ∈ log, a.started ≤ a.time ∧ (0 < limiter.window → a.time < a.started + limiter.window)
  current : 0 < limiter.window → ∀ k w, (budget k).windowStarted = some w →
    log.countP (sameWindow k w) ≤ (budget k).used
  past : 0 < limiter.window → ∀ k w, log.countP (sameWindow k w) ≤ (budget k).capacity

/-- A shard after `roll` has an open window that contains `now`. -/
theorem roll_window (shard : AttemptBudgetShard) (now window : Nat) :
    ∃ w, (shard.roll now window).windowStarted = some w ∧ (w = now ∨ now - w < window) := by
  rw [AttemptBudgetShard.roll]
  cases hw : shard.windowStarted with
  | none => exact ⟨now, rfl, .inl rfl⟩
  | some w =>
      by_cases hover : window ≤ now - w
      · simp only [Option.all_some, decide_eq_true_eq, if_pos hover]
        exact ⟨now, rfl, .inl rfl⟩
      · simp only [Option.all_some, decide_eq_true_eq, if_neg hover]
        exact ⟨w, hw, .inr (not_le.mp hover)⟩

theorem roll_eq (shard : AttemptBudgetShard) (now window : Nat) :
    shard.roll now window = shard ∨
      shard.roll now window = { shard with windowStarted := some now, used := 0 } ∧
        ∀ w, shard.windowStarted = some w → window ≤ now - w := by
  rw [AttemptBudgetShard.roll]
  split
  · next h =>
    refine .inr ⟨rfl, fun w hw => ?_⟩
    simpa [hw] using h
  · exact .inl rfl

theorem Ledger.later (h : Ledger limiter clock budget log) (hc : clock ≤ now) : Ledger limiter now budget log :=
  { h with opened := fun k w hw => (h.opened k w hw).trans hc }

theorem Ledger.count_eq_zero (h : Ledger limiter now budget log) {w : Nat}
    (hw : ∀ v, (budget k).windowStarted = some v → v < w) : log.countP (sameWindow k w) = 0 := by
  rw [List.countP_eq_zero]
  intro a ha hs
  obtain ⟨rfl, rfl⟩ := of_decide_eq_true hs
  obtain ⟨v, hv, hle⟩ := h.logged a ha
  exact absurd (hw v hv) (not_lt.mpr hle)

theorem Ledger.open (h : Ledger limiter now budget log) (k : Fin attemptShards)
    (hover : ∀ w, (budget k).windowStarted = some w → limiter.window ≤ now - w) :
    Ledger limiter now (Function.update budget k { budget k with windowStarted := some now, used := 0 }) log where
  capacity j := by
    rw [← h.capacity j, Function.update_apply]
    split
    · next hj => rw [hj]
    · rfl
  used j := by
    rw [Function.update_apply]
    split
    · exact Nat.zero_le _
    · exact h.used j
  opened j w hw := by
    rw [Function.update_apply] at hw
    split at hw
    · exact (Option.some.inj hw).ge
    · exact h.opened j w hw
  logged a ha := by
    obtain ⟨w, hw, hle⟩ := h.logged a ha
    rw [Function.update_apply]
    split
    · next hk => exact ⟨now, rfl, hle.trans (h.opened _ w hw)⟩
    · exact ⟨w, hw, hle⟩
  inside := h.inside
  current hpos j w hw := by
    rw [Function.update_apply] at hw ⊢
    split at hw
    · next hj =>
      subst hj
      obtain rfl := Option.some.inj hw
      rw [h.count_eq_zero fun v hv => by have := hover v hv; omega]
      exact Nat.zero_le _
    · next hj =>
      rw [if_neg hj]
      exact h.current hpos j w hw
  past hpos j w := by
    rw [Function.update_apply]
    split
    · next hj => exact hj ▸ h.past hpos j w
    · exact h.past hpos j w

theorem Ledger.roll (h : Ledger limiter now budget log) (k : Fin attemptShards) :
    Ledger limiter now (Function.update budget k ((budget k).roll now limiter.window)) log := by
  rcases roll_eq (budget k) now limiter.window with he | ⟨he, hover⟩
  · rw [he, Function.update_eq_self]
    exact h
  · rw [he]
    exact h.open k hover

theorem countP_snoc (a : Admission) (j : Fin attemptShards) (v : Nat) :
    (log ++ [a]).countP (sameWindow j v) =
      log.countP (sameWindow j v) + if a.shard = j ∧ a.started = v then 1 else 0 := by
  rw [List.countP_append, List.countP_singleton]
  simp [sameWindow]

theorem Ledger.spend {w : Nat} (h : Ledger limiter now budget log) (hw : (budget k).windowStarted = some w)
    (hcap : (budget k).used < (budget k).capacity) (hin : w = now ∨ now - w < limiter.window) :
    Ledger limiter now (Function.update budget k { budget k with used := (budget k).used + 1 })
      (log ++ [⟨k, w, now⟩]) where
  capacity j := by
    rw [← h.capacity j, Function.update_apply]
    split
    · next hj => rw [hj]
    · rfl
  used j := by
    rw [Function.update_apply]
    split
    · exact hcap
    · exact h.used j
  opened j v hv := by
    rw [Function.update_apply] at hv
    split at hv
    · next hj => exact h.opened k v hv
    · exact h.opened j v hv
  logged a ha := by
    have hold : ∃ v, (budget a.shard).windowStarted = some v ∧ a.started ≤ v := by
      rcases List.mem_append.mp ha with ha | ha
      · exact h.logged a ha
      · rw [List.mem_singleton.mp ha]
        exact ⟨w, hw, Nat.le_refl w⟩
    rw [Function.update_apply]
    split
    · next hj => exact hj ▸ hold
    · exact hold
  inside a ha := by
    rcases List.mem_append.mp ha with ha | ha
    · exact h.inside a ha
    · rw [List.mem_singleton.mp ha]
      have hle := h.opened k w hw
      refine ⟨hle, fun hpos => ?_⟩
      change now < w + limiter.window
      omega
  current hpos j v hv := by
    rw [countP_snoc]
    rw [Function.update_apply] at hv ⊢
    split at hv
    · next hj =>
      subst hj
      rw [if_pos rfl]
      have := h.current hpos j v hv
      change _ ≤ (budget j).used + 1
      split <;> omega
    · next hj =>
      rw [if_neg hj, if_neg fun hc => hj hc.1.symm]
      exact h.current hpos j v hv
  past hpos j v := by
    rw [countP_snoc, Function.update_apply]
    by_cases hj : j = k
    · subst hj
      rw [if_pos rfl]
      change _ ≤ (budget j).capacity
      by_cases hv : w = v
      · subst hv
        have := h.current hpos j w hw
        rw [if_pos ⟨rfl, rfl⟩]
        omega
      · rw [if_neg fun hc => hv hc.2]
        exact h.past hpos j v
    · rw [if_neg hj, if_neg fun hc => hj hc.1.symm]
      exact h.past hpos j v

theorem Ledger.budgeted {budget' : Fin attemptShards → AttemptBudgetShard} {granted : Bool}
    (h : Ledger limiter clock budget log) (hc : clock ≤ now)
    (hb : Budgeted limiter now peer granted budget budget') :
    Ledger limiter now budget' (if granted then log ++
      [⟨peer.attemptShard, (budget' peer.attemptShard).windowStarted.getD now, now⟩] else log) := by
  have hl := h.later hc
  cases granted with
  | false =>
      rcases hb with rfl | rfl
      · exact hl
      · exact hl.roll peer.attemptShard
  | true =>
      obtain ⟨hcap, rfl⟩ := hb
      obtain ⟨w, hw, hin⟩ := roll_window (budget peer.attemptShard) now limiter.window
      have hr := hl.roll peer.attemptShard
      have hs := hr.spend (k := peer.attemptShard) (w := w) (by rw [Function.update_self, hw])
        (by rw [Function.update_self]; exact hcap) hin
      rw [Function.update_self, Function.update_idem] at hs
      simpa only [if_true, Function.update_self, hw, Option.getD_some] using hs

theorem ledger_new : Ledger limiter clock (FailedAuthState.new limiter.maxAttemptsPerWindow).attemptBudget [] where
  capacity _ := rfl
  used _ := Nat.zero_le _
  opened _ _ hw := absurd hw (by simp [FailedAuthState.new])
  logged _ ha := absurd ha (by simp)
  inside _ ha := absurd ha (by simp)
  current _ _ _ hw := absurd hw (by simp [FailedAuthState.new])
  past _ _ _ := Nat.zero_le _

theorem inv_new : Inv limiter clock 0 0 (FailedAuthState.new limiter.maxAttemptsPerWindow) where
  failures := rfl
  pending := rfl
  overflow := rfl
  evictable t p := by simp [FailedAuthState.new]
  guarded t p := by simp [FailedAuthState.new]
  nonempty p b hb := absurd hb (by simp [FailedAuthState.new])
  overflow_pos p := by simp [FailedAuthState.new]
  attempts p b hb := absurd hb (by simp [FailedAuthState.new])
  overflow_le p := Nat.zero_le _
  records := Nat.zero_le _
  peers := Nat.zero_le _
  timely p b hb := absurd hb (by simp [FailedAuthState.new])

structure Sound (limiter : FailedAuthLimiter) (sys : System) : Prop where
  inv : Inv limiter sys.clock 0 0 sys.state
  ledger : Ledger limiter sys.clock sys.state.attemptBudget sys.admissions

def Op.stop : Op → Nat
  | .reserve _ now => now
  | .finish _ _ _ recordAt => recordAt

/-- Every operation completes, and buckets that are full and not yet expired at
its end stay as they are. -/
theorem Sound.apply {sys : System} (h : Sound limiter sys) {op : Op} (hop : op.Monotone sys.clock) :
    ∃ sys', sys.apply limiter op = some sys' ∧ Sound limiter sys' ∧ sys'.clock = op.stop ∧ sys.clock ≤ op.stop ∧
      ∀ p b, sys.state.buckets.lookup p = some b → Blocked limiter op.stop b →
        sys'.state.buckets.lookup p = some b := by
  cases op with
  | reserve address now =>
      obtain ⟨r, s', hr, hres⟩ := h.inv.reserve hop address
      have hl := h.ledger.budgeted hop hres.budget
      refine ⟨sys.grant now s' r, by simp [System.apply, hr], ?_, ?_, hop, ?_⟩
      · cases r with
        | none => exact ⟨hres.inv, hl⟩
        | some r =>
            have hp := hres.named r rfl
            refine ⟨hres.inv, ?_⟩
            rw [← hp] at hl
            exact hl
      · cases r <;> rfl
      · intro p b hb hbl
        have hkeep := (hres.steady p b hb hbl).1
        cases r <;> exact hkeep
  | finish index outcome trimAt recordAt =>
      obtain ⟨htrim, hrec⟩ := hop
      have hidle : Sound limiter { sys with clock := recordAt } :=
        ⟨h.inv.later (htrim.trans hrec), h.ledger.later (htrim.trans hrec)⟩
      simp only [System.apply]
      cases hget : sys.reservations[index]? with
      | none => exact ⟨_, rfl, hidle, rfl, htrim.trans hrec, fun p b hb _ => hb⟩
      | some r =>
          by_cases hdone : r.resolved
          · simp only [if_pos hdone]
            exact ⟨_, rfl, hidle, rfl, htrim.trans hrec, fun p b hb _ => hb⟩
          · obtain ⟨s', hs, hres⟩ := resolve_eq h.inv htrim hrec r.peer r.tracked outcome
            simp only [if_neg hdone, hs]
            refine ⟨_, rfl, ⟨hres.inv, ?_⟩, rfl, htrim.trans hrec, fun p b hb hbl => hres.steady p b hb hbl.1⟩
            have hl := h.ledger.later (htrim.trans hrec)
            rw [← hres.budget] at hl
            exact hl

theorem Sound.step {sys sys' : System} {op : Op} (h : Sound limiter sys) (hs : Step limiter sys op sys') :
    Sound limiter sys' := by
  obtain ⟨t, ht, hsound, -⟩ := h.apply hs.1
  rw [hs.2] at ht
  obtain rfl := Option.some.inj ht
  exact hsound

theorem sound_new : Sound limiter (System.new limiter clock) := ⟨inv_new, ledger_new⟩

theorem Sound.run {sys : System} {ops : List Op} (h : Run (Step limiter) (System.new limiter clock) ops sys) :
    Sound limiter sys :=
  h.invariant (fun _ _ _ hs hl => hs.step hl) sound_new

/-- In every state of every run the totals, the indexes and the buckets agree,
and no operation can fail, whatever the clock shows from there on. -/
theorem limiter_bookkeeping (limiter : FailedAuthLimiter) (clock : Nat) {ops : List Op} {sys : System}
    (h : Run (Step limiter) (System.new limiter clock) ops sys) :
    (sys.state.totalPending = total (fun _ b => b.pending) sys.state.buckets ∧
      sys.state.totalFailureRecords = total (fun _ b => b.failures.length) sys.state.buckets ∧
      sys.state.totalOverflowPending = total (fun _ n => n) sys.state.overflowPendingByPeer) ∧
    (∀ t p, toLex (t, p) ∈ sys.state.evictableIdleFailures ↔ ∃ b, sys.state.buckets.lookup p = some b ∧
      Idle b t ∧ b.failures.length < limiter.maxAttempts) ∧
    (∀ t p, toLex (t, p) ∈ sys.state.protectedIdleFailures ↔ ∃ b, sys.state.buckets.lookup p = some b ∧
      Idle b t ∧ limiter.maxAttempts ≤ b.failures.length) ∧
    (∀ p b, sys.state.buckets.lookup p = some b → b.pending ≠ 0 ∨ b.failures ≠ []) ∧
    (∀ op : Op, op.Monotone sys.clock → ∃ sys', sys.apply limiter op = some sys') := by
  have hs := Sound.run h
  refine ⟨⟨hs.inv.pending, hs.inv.failures, hs.inv.overflow⟩, hs.inv.evictable, hs.inv.guarded, hs.inv.nonempty, ?_⟩
  intro op hop
  obtain ⟨sys', happly, -⟩ := hs.apply hop
  exact ⟨sys', happly⟩

/-- Room for one peer and two records, and one failure blocks for a minute. -/
def smallLimiter : FailedAuthLimiter := ⟨1, 60, 1, 2, 32, by decide, by decide⟩

def host (last : UInt8) : IpAddr := .v4 ⟨#[10, 0, 0, last], rfl⟩

/-- The first host fails. The second one finds no room, so that its
reservation is not tracked. -/
def twoHosts : List Op :=
  [.reserve (host 1) 0, .finish 0 .failed 1 1, .reserve (host 2) 2, .finish 1 .failed 3 3]

theorem twoHosts_run : ∃ sys, Run (Step smallLimiter) (System.new smallLimiter 0) twoHosts sys ∧
    sys.state.buckets.lookup (ofIpAddr (host 1)) = some ⟨[1], 0⟩ ∧ sys.clock = 3 ∧
      sys.state.totalFailureRecords = 1 ∧ sys.admissions.length = 2 := by
  have hsome : ((exec (next smallLimiter) (System.new smallLimiter 0) twoHosts).map fun sys =>
      (sys.state.buckets.lookup (ofIpAddr (host 1)), sys.clock, sys.state.totalFailureRecords,
        sys.admissions.length)) = some (some ⟨[1], 0⟩, 3, 1, 2) := by decide +kernel
  obtain ⟨sys, hrun, hview⟩ := Option.map_eq_some_iff.mp hsome
  simp only [Prod.mk.injEq] at hview
  exact ⟨sys, run_of_exec step_of_next hrun, hview⟩

theorem limiter_bookkeeping_two_hosts :
    ∃ sys, Run (Step smallLimiter) (System.new smallLimiter 0) twoHosts sys ∧
      sys.state.totalFailureRecords = 1 ∧ total (fun _ b => b.failures.length) sys.state.buckets = 1 := by
  obtain ⟨sys, hrun, -, -, hrecords, -⟩ := twoHosts_run
  have hbook := limiter_bookkeeping smallLimiter 0 hrun
  exact ⟨sys, hrun, hrecords, hbook.1.2.1 ▸ hrecords⟩

theorem sum_shardCapacity (limiter : FailedAuthLimiter) :
    ∑ k, shardCapacity limiter k = limiter.maxAttemptsPerWindow := by
  have hextra : ∀ r : Fin attemptShards, (∑ k : Fin attemptShards, if k.val < r.val then 1 else 0) = r.val := by
    decide
  have hmod : limiter.maxAttemptsPerWindow % attemptShards < attemptShards := Nat.mod_lt _ (by decide)
  have hr := hextra ⟨_, hmod⟩
  change ∑ k : Fin attemptShards, (limiter.maxAttemptsPerWindow / attemptShards +
    if k.val < limiter.maxAttemptsPerWindow % attemptShards then 1 else 0) = _
  rw [Finset.sum_add_distrib, hr, Finset.sum_const, Finset.card_univ, Fintype.card_fin, smul_eq_mul]
  exact Nat.div_add_mod _ _

/-- The admissions of a shard in the window that started at `w`. -/
def inWindow (limiter : FailedAuthLimiter) (k : Fin attemptShards) (w : Nat) (a : Admission) : Bool :=
  decide (a.shard = k ∧ a.started = w ∧ w ≤ a.time ∧ a.time < w + limiter.window)

theorem Ledger.count_inWindow (h : Ledger limiter clock budget log) (k : Fin attemptShards) (w : Nat) :
    log.countP (inWindow limiter k w) ≤ (budget k).capacity := by
  by_cases hpos : 0 < limiter.window
  · refine le_trans (List.countP_mono_left fun a _ ha => ?_) (h.past hpos k w)
    obtain ⟨hk, hw, -⟩ := of_decide_eq_true ha
    exact decide_eq_true ⟨hk, hw⟩
  · have hnone : log.countP (inWindow limiter k w) = 0 := by
      rw [List.countP_eq_zero]
      intro a _ ha
      obtain ⟨-, -, hle, hlt⟩ := of_decide_eq_true ha
      omega
    omega

def recordedFailures (s : FailedAuthState) (p : PeerBucket) : Nat :=
  ((s.buckets.lookup p).map fun b => b.failures.length).getD 0

def pendingReservations (s : FailedAuthState) (p : PeerBucket) : Nat :=
  ((s.buckets.lookup p).map PeerAttempts.pending).getD 0

/-- Every limit holds in every state of every run. The failures of a peer are
counted whether they have expired or not. -/
theorem limiter_respects_limits (limiter : FailedAuthLimiter) (clock : Nat) {ops : List Op} {sys : System}
    (h : Run (Step limiter) (System.new limiter clock) ops sys) :
    (∀ p, recordedFailures sys.state p + pendingReservations sys.state p + sys.state.overflowPendingFor p ≤
      limiter.maxAttempts) ∧
    total (fun _ b => b.failures.length) sys.state.buckets + total (fun _ b => b.pending) sys.state.buckets ≤
      limiter.maxAttemptRecords ∧
    len sys.state.buckets ≤ limiter.maxTrackedPeers ∧
    (∀ k w, sys.admissions.countP (inWindow limiter k w) ≤ (sys.state.attemptBudget k).capacity) ∧
    (∀ a ∈ sys.admissions, 0 < limiter.window → inWindow limiter a.shard a.started a = true) ∧
    ∑ k, (sys.state.attemptBudget k).capacity = limiter.maxAttemptsPerWindow := by
  have hs := Sound.run h
  refine ⟨?_, ?_, hs.inv.peers, hs.ledger.count_inWindow, ?_, ?_⟩
  · intro p
    rw [recordedFailures, pendingReservations]
    cases hb : sys.state.buckets.lookup p with
    | none => simpa using hs.inv.overflow_le p
    | some b => exact hs.inv.attempts p b hb
  · have hf := hs.inv.failures
    have hn := hs.inv.pending
    have hr := hs.inv.records
    omega
  · intro a ha hpos
    obtain ⟨hle, hlt⟩ := hs.ledger.inside a ha
    exact decide_eq_true ⟨rfl, rfl, hle, hlt hpos⟩
  · rw [← sum_shardCapacity limiter]
    exact Finset.sum_congr rfl fun k _ => hs.ledger.capacity k

theorem limiter_respects_limits_two_hosts :
    ∃ sys, Run (Step smallLimiter) (System.new smallLimiter 0) twoHosts sys ∧
      recordedFailures sys.state (ofIpAddr (host 1)) = 1 ∧
      sys.state.overflowPendingFor (ofIpAddr (host 1)) = 0 := by
  obtain ⟨sys, hrun, hb, -⟩ := twoHosts_run
  have hone : recordedFailures sys.state (ofIpAddr (host 1)) = 1 := by rw [recordedFailures, hb]; rfl
  have hlimit := (limiter_respects_limits smallLimiter 0 hrun).1 (ofIpAddr (host 1))
  have hmax : smallLimiter.maxAttempts = 1 := rfl
  exact ⟨sys, hrun, hone, by omega⟩

theorem Step.clock_le {sys sys' : System} {op : Op} (h : Sound limiter sys) (hs : Step limiter sys op sys') :
    sys.clock ≤ sys'.clock := by
  obtain ⟨t, ht, -, hstop, hle, -⟩ := h.apply hs.1
  rw [hs.2] at ht
  obtain rfl := Option.some.inj ht
  exact hstop ▸ hle

theorem Blocked.earlier {b : PeerAttempts} (h : Blocked limiter now b) (hc : clock ≤ now) :
    Blocked limiter clock b := by
  obtain ⟨hfull, t, hhead, hfresh⟩ := h
  exact ⟨hfull, t, hhead, by omega⟩

theorem Sound.blocked_step {sys sys' : System} {op : Op} {p : PeerBucket} {b : PeerAttempts} (h : Sound limiter sys)
    (hs : Step limiter sys op sys') (hb : sys.state.buckets.lookup p = some b)
    (hbl : Blocked limiter sys'.clock b) : sys'.state.buckets.lookup p = some b := by
  obtain ⟨t, ht, -, hstop, -, hkeep⟩ := h.apply hs.1
  rw [hs.2] at ht
  obtain rfl := Option.some.inj ht
  exact hkeep p b hb (hstop ▸ hbl)

theorem Sound.blocked_run {sys sys' : System} {ops : List Op} {p : PeerBucket} {b : PeerAttempts}
    (h : Sound limiter sys) (hr : Run (Step limiter) sys ops sys') (hb : sys.state.buckets.lookup p = some b)
    (hbl : Blocked limiter sys'.clock b) :
    Sound limiter sys' ∧ sys'.state.buckets.lookup p = some b := by
  induction hr with
  | refl => exact ⟨h, hb⟩
  | @snoc t u ops op hrun hs ih =>
      have ht : Sound limiter t := hrun.invariant (fun _ _ _ hs hl => hs.step hl) h
      obtain ⟨-, hkept⟩ := ih (hbl.earlier (hs.clock_le ht))
      exact ⟨ht.step hs, ht.blocked_step hs hkept hbl⟩

/-- From the state where a peer's bucket holds the last failure it may, no
activity of anybody lets the peer in before the oldest failure expires. -/
theorem blocked_peer_stays_denied (limiter : FailedAuthLimiter) (clock : Nat) {before after : List Op}
    {sys sys' : System} {address : IpAddr} {b : PeerAttempts} {oldest now : Nat}
    (h : Run (Step limiter) (System.new limiter clock) before sys)
    (hb : sys.state.buckets.lookup (ofIpAddr address) = some b)
    (hfull : limiter.maxAttempts ≤ b.failures.length) (hold : b.failures.head? = some oldest)
    (h' : Run (Step limiter) sys after sys') (hnow : sys'.clock ≤ now) (hfresh : now - oldest < limiter.window) :
    sys'.state.buckets.lookup (ofIpAddr address) = some b ∧
      ∃ s', limiter.reserve sys'.state address now = some (none, s') := by
  have hbl : Blocked limiter now b := ⟨hfull, oldest, hold, hfresh⟩
  obtain ⟨hs, hkept⟩ := (Sound.run h).blocked_run h' hb (hbl.earlier hnow)
  obtain ⟨r, s', hr, hres⟩ := hs.inv.reserve hnow address
  obtain rfl := (hres.steady _ b hkept hbl).2 rfl
  exact ⟨hkept, s', hr⟩

theorem blocked_peer_stays_denied_two_hosts :
    ∃ sys sys', Run (Step smallLimiter) (System.new smallLimiter 0) [.reserve (host 1) 0, .finish 0 .failed 1 1] sys ∧
      Run (Step smallLimiter) sys [.reserve (host 2) 2, .finish 1 .failed 3 3] sys' ∧
      ∃ s', smallLimiter.reserve sys'.state (host 1) 60 = some (none, s') := by
  have hfirst : ((exec (next smallLimiter) (System.new smallLimiter 0)
      [.reserve (host 1) 0, .finish 0 .failed 1 1]).bind fun sys =>
        (exec (next smallLimiter) sys [.reserve (host 2) 2, .finish 1 .failed 3 3]).map fun sys' =>
          (sys.state.buckets.lookup (ofIpAddr (host 1)), sys'.clock)) = some (some ⟨[1], 0⟩, 3) := by decide +kernel
  obtain ⟨sys, hrun, hrest⟩ := Option.bind_eq_some_iff.mp hfirst
  obtain ⟨sys', hrun', hview⟩ := Option.map_eq_some_iff.mp hrest
  obtain ⟨hb, hclock⟩ := Prod.mk.inj hview
  have hr := run_of_exec step_of_next hrun
  have hr' := run_of_exec step_of_next hrun'
  exact ⟨sys, sys', hr, hr', (blocked_peer_stays_denied smallLimiter 0 hr hb (by decide) rfl hr'
    (by rw [hclock]; decide) (by decide)).2⟩

end Rustgo.AuthLimiter
