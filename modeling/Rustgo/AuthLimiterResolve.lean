import Rustgo.AuthLimiterReserve

namespace Rustgo.AuthLimiter

open PeerBucket Tables FailedAuthState FailedAuthLimiter

variable {limiter : FailedAuthLimiter} {clock now : Nat} {s s' : FailedAuthState} {peer p : PeerBucket}
  {b : PeerAttempts} {f n : Nat}

/-- What finishing a reservation does. A bucket at the limit has nothing
pending, so no outcome reaches it. -/
structure Resolved (limiter : FailedAuthLimiter) (now : Nat) (s s' : FailedAuthState) : Prop where
  inv : Inv limiter now 0 0 s'
  budget : s'.attemptBudget = s.attemptBudget
  steady : ∀ p b, s.buckets.lookup p = some b → limiter.maxAttempts ≤ b.failures.length →
    s'.buckets.lookup p = some b

theorem Inv.resolved (h : Inv limiter now 0 0 s) : Resolved limiter now s s := ⟨h, rfl, fun _ _ hb _ => hb⟩

theorem insertBucket_of_nonempty {m : Nat} :
    (if b.pending ≠ 0 ∨ b.failures ≠ [] then s.insertBucket peer b m else s) = s.insertBucket peer b m := by
  by_cases hne : b.pending ≠ 0 ∨ b.failures ≠ []
  · exact if_pos hne
  · obtain ⟨hf, hn⟩ : b.failures = [] ∧ b.pending = 0 := by tauto
    obtain ⟨failures, pending⟩ := b
    subst hf hn
    rfl

theorem insertBucket_back (h : Inv limiter clock f n s) (hb : s.buckets.lookup peer = some b)
    (hp : b.pending = 0) :
    insertBucket { s with buckets := s.buckets.erase peer } peer b limiter.maxAttempts = s := by
  cases hl : b.failures.getLast? with
  | none =>
      have hne := h.nonempty peer b hb
      simp [hp, List.getLast?_eq_none_iff.mp hl] at hne
  | some last =>
      simp only [FailedAuthState.insertBucket, hp, hl, if_true, Tables.insert_erase hb]
      split
      · next hge =>
        have hmem := (h.guarded last peer).mpr ⟨b, hb, ⟨hp, hl⟩, hge⟩
        rw [Finset.insert_eq_of_mem hmem]
      · next hlt =>
        have hmem := (h.evictable last peer).mpr ⟨b, hb, ⟨hp, hl⟩, not_le.mp hlt⟩
        rw [Finset.insert_eq_of_mem hmem]

/-- A bucket that is at the limit is idle, and nothing of its peer overflows. -/
theorem Inv.idle_of_full (h : Inv limiter clock f n s) (hb : s.buckets.lookup p = some b)
    (hf : limiter.maxAttempts ≤ b.failures.length) :
    b.pending = 0 ∧ s.overflowPendingByPeer.lookup p = none := by
  have ha := h.attempts p b hb
  refine ⟨by omega, ?_⟩
  have hz : s.overflowPendingFor p = 0 := by omega
  cases hl : s.overflowPendingByPeer.lookup p with
  | none => rfl
  | some k =>
      rw [overflowPendingFor, hl] at hz
      obtain rfl : k = 0 := hz
      exact absurd hl (h.overflow_pos p)

/-- The held bucket is changed and put back, with the totals brought up to date. -/
theorem resolved_settled (h : Inv limiter now 0 0 s) (hb : s.buckets.lookup peer = some b)
    (hfull : ¬limiter.maxAttempts ≤ b.failures.length) {kept : List Nat} {waiting failures pending : Nat}
    (hf : failures + b.failures.length = s.totalFailureRecords + kept.length)
    (hn : pending + b.pending = s.totalPending + waiting)
    (hc : kept.length + waiting ≤ b.failures.length + b.pending) (ht : Timely now kept) :
    Resolved limiter now s (insertBucket { s.takeOut peer b with
      totalFailureRecords := failures, totalPending := pending } peer ⟨kept, waiting⟩ limiter.maxAttempts) := by
  have hfail : (s.takeOut peer b).totalFailureRecords = s.totalFailureRecords := by rw [takeOut_eq]
  have hpend : (s.takeOut peer b).totalPending = s.totalPending := by rw [takeOut_eq]
  have hrec := h.records
  have hlen := len_takeOut hb
  have hpeers := h.peers
  have hheld := h.held hb
  have hatt := hheld.attempts
  have hinv : Inv limiter now (0 + kept.length) (0 + waiting)
      { s.takeOut peer b with totalFailureRecords := failures, totalPending := pending } :=
    (h.takeOut hb).recount (by omega) (by omega) (by omega)
  have hkept : Held limiter now
      { s.takeOut peer b with totalFailureRecords := failures, totalPending := pending } peer ⟨kept, waiting⟩ := by
    refine ⟨hheld.absent, ?_, ht⟩
    change kept.length + waiting + (s.takeOut peer b).overflowPendingFor peer ≤ _
    omega
  have haround : Around peer { s.takeOut peer b with totalFailureRecords := failures, totalPending := pending }
      (insertBucket { s.takeOut peer b with totalFailureRecords := failures, totalPending := pending } peer
        ⟨kept, waiting⟩ limiter.maxAttempts) := around_insertBucket
  refine ⟨hinv.insertBucket hkept ?_, ?_, ?_⟩
  · change len (s.takeOut peer b).buckets + 1 ≤ _
    omega
  · rw [haround.budget, takeOut_eq]
  · intro p d hd hge
    have hp : p ≠ peer := by
      rintro rfl
      rw [hb] at hd
      obtain rfl := Option.some.inj hd
      exact hfull hge
    rw [haround.others p hp, takeOut_buckets, Finmap.lookup_erase_ne hp, hd]

theorem settle_eq {failures : List Nat} {records : Nat} (hr : failures.length ≤ records) (recordAt : Nat)
    (outcome : ReservationOutcome) :
    ∃ kept left, settle failures records recordAt outcome = some (kept, left) ∧
      left + failures.length = records + kept.length ∧ kept.length ≤ failures.length + 1 ∧
      (∀ clock, Timely clock failures → clock ≤ recordAt → Timely recordAt kept) := by
  cases outcome with
  | succeeded =>
      refine ⟨[], records - failures.length, ?_, ?_, Nat.zero_le _, fun _ _ _ => ⟨List.Pairwise.nil, by simp⟩⟩
      · simp only [settle, checkedSub_of_le hr]
        rfl
      · simp only [List.length_nil]
        omega
  | failed =>
      refine ⟨failures ++ [recordAt], records + 1, rfl, ?_, by simp, ?_⟩
      · simp only [List.length_append, List.length_singleton]
        omega
      · intro clock ht hc
        refine ⟨List.pairwise_append.mpr ⟨ht.1, List.pairwise_singleton _ _, ?_⟩, ?_⟩
        · intro t htm x hx
          rw [List.mem_singleton.mp hx]
          exact (ht.2 t htm).trans hc
        · intro t htm
          rcases List.mem_append.mp htm with htm | htm
          · exact (ht.2 t htm).trans hc
          · exact (List.mem_singleton.mp htm).le
  | neutral => exact ⟨failures, records, rfl, rfl, Nat.le_succ _, fun _ ht hc => ht.later hc⟩

theorem resolve_tracked (h : Inv limiter clock 0 0 s) {trimAt recordAt : Nat} (hc : clock ≤ trimAt)
    (hr : trimAt ≤ recordAt) (peer : PeerBucket) (outcome : ReservationOutcome) :
    ∃ s', limiter.resolve s peer true outcome trimAt recordAt = some s' ∧ Resolved limiter recordAt s s' := by
  have hi := h.later (hc.trans hr)
  rw [FailedAuthLimiter.resolve]
  rw [if_pos rfl]
  cases hb : s.buckets.lookup peer with
  | none => exact ⟨s, rfl, hi.resolved⟩
  | some b =>
      by_cases hp : b.pending = 0
      · simp only [if_pos hp]
        rw [insertBucket_back h hb hp]
        exact ⟨s, rfl, hi.resolved⟩
      · simp only [if_neg hp]
        have hfull : ¬limiter.maxAttempts ≤ b.failures.length := fun hge => hp (h.idle_of_full hb hge).1
        have hpend : 1 ≤ s.totalPending := by
          have := le_total (fun _ b => b.pending) hb
          have := h.pending
          omega
        have htrim := length_trimExpired b.failures trimAt limiter.window
        have hle := h.failures_le hb
        generalize htr : trimExpired b.failures trimAt limiter.window = fresh at htrim
        have hfresh : Timely trimAt fresh := htr ▸ ((h.later hc).timely peer b hb).trim
        have hsub : b.failures.length - fresh.length ≤ s.totalFailureRecords := by omega
        obtain ⟨kept, left, hset, hcount, hlen, htime⟩ := settle_eq
          (show fresh.length ≤ s.totalFailureRecords - (b.failures.length - fresh.length) by omega) recordAt outcome
        have hpending : s.totalPending - 1 + b.pending = s.totalPending + (b.pending - 1) := by omega
        have hres := resolved_settled hi hb hfull (show left + b.failures.length = _ by omega) hpending (by omega)
          (htime trimAt hfresh hr)
        have htake : s.takeOut peer b = { s with buckets := s.buckets.erase peer } := if_neg hp
        rw [htake] at hres
        refine ⟨_, ?_, hres⟩
        simp only [checkedSub_of_le hpend, checkedSub_of_le hsub, hset, Option.bind_eq_bind, Option.bind_some]
        rw [← insertBucket_of_nonempty]
        split <;> rfl

theorem clearPeerFailures_eq (h : Inv limiter now 0 0 s) (peer : PeerBucket)
    (hfull : ∀ b, s.buckets.lookup peer = some b → ¬limiter.maxAttempts ≤ b.failures.length) :
    ∃ s', s.clearPeerFailures peer = some s' ∧ Resolved limiter now s s' := by
  rw [clearPeerFailures]
  cases hb : s.buckets.lookup peer with
  | none => exact ⟨s, rfl, h.resolved⟩
  | some b =>
      have hle := h.failures_le hb
      have hfail : (s.takeOut peer b).totalFailureRecords = s.totalFailureRecords := by rw [takeOut_eq]
      have hpend : (s.takeOut peer b).totalPending = s.totalPending := by rw [takeOut_eq]
      have hsub : b.failures.length ≤ (s.takeOut peer b).totalFailureRecords := by omega
      have hnil : Timely now [] := ⟨List.Pairwise.nil, by simp⟩
      have hrecords : (s.takeOut peer b).totalFailureRecords - b.failures.length + b.failures.length =
          s.totalFailureRecords + ([] : List Nat).length := by
        simp only [List.length_nil]
        omega
      have hpending : (s.takeOut peer b).totalPending + b.pending = s.totalPending + b.pending := by rw [hpend]
      have hres := resolved_settled h hb (hfull b hb) hrecords hpending (by simp) hnil
      refine ⟨_, ?_, hres⟩
      simp only [checkedSub_of_le hsub, Option.bind_eq_bind, Option.bind_some]
      rw [← insertBucket_of_nonempty]
      by_cases hp : b.pending = 0
      · simp [hp]
      · simp [hp, FailedAuthState.insertBucket]

def releasedTable (m : Table PeerBucket Nat) (peer : PeerBucket) (k : Nat) : Table PeerBucket Nat :=
  if k = 0 then m.erase peer else m.insert peer k

section Release

variable {m : Table PeerBucket Nat} {k : Nat}

theorem total_releasedTable (hl : m.lookup peer = some (k + 1)) :
    total (fun _ n => n) (releasedTable m peer k) + 1 = total (fun _ n => n) m := by
  rw [releasedTable]
  split
  · next hk =>
    rw [total_erase hl, hk]
    omega
  · have := total_replace (f := fun _ n => n) (w := k) hl
    omega

theorem lookup_releasedTable : (releasedTable m peer k).lookup p =
    if p = peer then (if k = 0 then none else some k) else m.lookup p := by
  rw [releasedTable]
  by_cases hp : p = peer
  · rw [if_pos hp, hp]
    split
    · exact Finmap.lookup_erase _ _
    · exact Finmap.lookup_insert _
  · rw [if_neg hp]
    split
    · exact Finmap.lookup_erase_ne hp
    · exact Finmap.lookup_insert_of_ne _ hp

theorem Inv.release (h : Inv limiter clock f n s) (hl : s.overflowPendingByPeer.lookup peer = some (k + 1)) :
    Inv limiter clock f n { s with
      overflowPendingByPeer := releasedTable s.overflowPendingByPeer peer k
      totalOverflowPending := s.totalOverflowPending - 1 } := by
  have hle (p : PeerBucket) : ((releasedTable s.overflowPendingByPeer peer k).lookup p).getD 0 ≤
      s.overflowPendingFor p := by
    rw [lookup_releasedTable, overflowPendingFor]
    by_cases hp : p = peer
    · rw [if_pos hp, hp, hl]
      split <;> simp
    · rw [if_neg hp]
  exact { h with
    overflow := by
      have hsum := total_releasedTable hl
      have := h.overflow
      change s.totalOverflowPending - 1 = total _ (releasedTable s.overflowPendingByPeer peer k)
      omega
    overflow_pos := fun p => by
      change (releasedTable s.overflowPendingByPeer peer k).lookup p ≠ some 0
      rw [lookup_releasedTable]
      by_cases hp : p = peer
      · rw [if_pos hp]
        split
        · simp
        · next hk => simpa using hk
      · rw [if_neg hp]
        exact h.overflow_pos p
    attempts := fun p b hb => (Nat.add_le_add_left (hle p) _).trans (h.attempts p b hb)
    overflow_le := fun p => (hle p).trans (h.overflow_le p) }

end Release

theorem releaseOverflow_eq (h : Inv limiter now 0 0 s) (peer : PeerBucket) :
    s.releaseOverflow peer = some (false, s) ∨
      ∃ s', s.releaseOverflow peer = some (true, s') ∧ Inv limiter now 0 0 s' ∧ s'.attemptBudget = s.attemptBudget ∧
        s'.buckets = s.buckets ∧
        ∀ b, s.buckets.lookup peer = some b → ¬limiter.maxAttempts ≤ b.failures.length := by
  rw [releaseOverflow]
  cases hl : s.overflowPendingByPeer.lookup peer with
  | none => exact .inl rfl
  | some k =>
      cases k with
      | zero => exact .inl rfl
      | succ k =>
          have hone : 1 ≤ s.totalOverflowPending := by
            have hsum := le_total (fun _ n => n) hl
            have := h.overflow
            omega
          simp only [checkedSub_of_le hone]
          refine .inr ⟨_, rfl, h.release hl, rfl, rfl, ?_⟩
          intro b hb hge
          rw [(h.idle_of_full hb hge).2] at hl
          exact absurd hl (by simp)

theorem resolve_untracked (h : Inv limiter clock 0 0 s) (hc : clock ≤ now) (peer : PeerBucket)
    (outcome : ReservationOutcome) (trimAt : Nat) :
    ∃ s', limiter.resolve s peer false outcome trimAt now = some s' ∧ Resolved limiter now s s' := by
  have hi := h.later hc
  simp only [FailedAuthLimiter.resolve, Bool.false_eq_true, if_false]
  rcases releaseOverflow_eq hi peer with hr | ⟨s₁, hr, hinv, hbudget, hbuckets, hfull⟩
  · rw [hr]
    exact ⟨s, by simp, hi.resolved⟩
  · simp only [hr, Option.bind_eq_bind, Option.bind_some, true_and]
    have hkept : Resolved limiter now s s₁ := ⟨hinv, hbudget, fun p b hb _ => by rw [hbuckets, hb]⟩
    by_cases ho : outcome = .succeeded
    · rw [if_pos ho]
      obtain ⟨s₂, hclear, hres⟩ := clearPeerFailures_eq hinv peer (fun b hb => hfull b (hbuckets ▸ hb))
      refine ⟨s₂, hclear, hres.inv, hres.budget.trans hbudget, ?_⟩
      intro p b hb hge
      exact hres.steady p b (by rw [hbuckets, hb]) hge
    · rw [if_neg ho]
      exact ⟨s₁, rfl, hkept⟩

theorem resolve_eq (h : Inv limiter clock 0 0 s) {trimAt recordAt : Nat} (hc : clock ≤ trimAt)
    (hr : trimAt ≤ recordAt) (peer : PeerBucket) (tracked : Bool) (outcome : ReservationOutcome) :
    ∃ s', limiter.resolve s peer tracked outcome trimAt recordAt = some s' ∧ Resolved limiter recordAt s s' := by
  cases tracked with
  | true => exact resolve_tracked h hc hr peer outcome
  | false => exact resolve_untracked h (hc.trans hr) peer outcome trimAt

end Rustgo.AuthLimiter
