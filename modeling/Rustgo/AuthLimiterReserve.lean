import Rustgo.AuthLimiterInvariant

namespace Rustgo.AuthLimiter

open PeerBucket Tables FailedAuthState FailedAuthLimiter

variable {limiter : FailedAuthLimiter} {clock now : Nat} {s s' : FailedAuthState} {peer p : PeerBucket}
  {b : PeerAttempts} {f n : Nat} {bucket : Option PeerAttempts}

theorem Timely.later {failures : List Nat} (h : Timely clock failures) (hc : clock ≤ now) :
    Timely now failures :=
  ⟨h.1, fun t ht => (h.2 t ht).trans hc⟩

theorem Timely.trim {failures : List Nat} {window : Nat} (h : Timely clock failures) :
    Timely clock (trimExpired failures now window) :=
  ⟨h.1.sublist (List.dropWhile_sublist _), fun t ht => h.2 t ((List.dropWhile_sublist _).subset ht)⟩

theorem length_trimExpired (failures : List Nat) (now : Nat) (window : Nat) :
    (trimExpired failures now window).length ≤ failures.length :=
  (List.dropWhile_sublist _).length_le

theorem Inv.later (h : Inv limiter clock f n s) (hc : clock ≤ now) : Inv limiter now f n s :=
  { h with timely := fun p b hb => (h.timely p b hb).later hc }

def heldBucket (bucket : Option PeerAttempts) : PeerAttempts := bucket.getD ⟨[], 0⟩

/-- A state whose bucket for `peer`, if there is one, is held by the operation. -/
structure Out (limiter : FailedAuthLimiter) (clock : Nat) (s : FailedAuthState) (peer : PeerBucket)
    (bucket : Option PeerAttempts) : Prop where
  inv : Inv limiter clock (heldBucket bucket).failures.length (heldBucket bucket).pending s
  holds : Held limiter clock s peer (heldBucket bucket)
  peers : bucket.isSome → len s.buckets + 1 ≤ limiter.maxTrackedPeers

/-- Only the bucket of `peer` may differ. -/
structure Around (peer : PeerBucket) (s s' : FailedAuthState) : Prop where
  overflow : s'.overflowPendingByPeer = s.overflowPendingByPeer
  budget : s'.attemptBudget = s.attemptBudget
  others : ∀ p, p ≠ peer → s'.buckets.lookup p = s.buckets.lookup p

theorem Inv.checkOut (h : Inv limiter now 0 0 s) (peer : PeerBucket) :
    ∃ s', limiter.checkOut s peer now =
        some ((s.buckets.lookup peer).map fun b => ⟨trimExpired b.failures now limiter.window, b.pending⟩, s') ∧
      Out limiter now s' peer
        ((s.buckets.lookup peer).map fun b => ⟨trimExpired b.failures now limiter.window, b.pending⟩) ∧
      Around peer s s' := by
  rw [FailedAuthLimiter.checkOut]
  cases hb : s.buckets.lookup peer with
  | none =>
      have habs : peer ∉ s.buckets := Finmap.lookup_eq_none.mp hb
      refine ⟨s, rfl, ⟨h, ⟨habs, ?_, ?_⟩, fun hf => absurd hf (by simp)⟩, rfl, rfl, fun _ _ => rfl⟩
      · simpa [heldBucket] using h.overflow_le peer
      · exact ⟨List.Pairwise.nil, by simp [heldBucket]⟩
  | some b =>
      have ht := h.takeOut hb
      have hheld := h.held hb
      have hatt := hheld.attempts
      have htrim := length_trimExpired b.failures now limiter.window
      have hle := h.failures_le hb
      have hrec := h.records
      have hlen := len_takeOut hb
      have hpeers := h.peers
      have hfail : (s.takeOut peer b).totalFailureRecords = s.totalFailureRecords := by rw [takeOut_eq]
      have hpend : (s.takeOut peer b).totalPending = s.totalPending := by rw [takeOut_eq]
      have hsub : b.failures.length - (trimExpired b.failures now limiter.window).length ≤
          (s.takeOut peer b).totalFailureRecords := by omega
      refine ⟨{ s.takeOut peer b with
        totalFailureRecords := (s.takeOut peer b).totalFailureRecords -
          (b.failures.length - (trimExpired b.failures now limiter.window).length) },
        ?_, ⟨?_, ⟨hheld.absent, ?_, hheld.timely.trim⟩, fun _ => ?_⟩, ?_⟩
      · change (checkedSub (s.takeOut peer b).totalFailureRecords _).bind _ = _
        rw [checkedSub_of_le hsub]
        rfl
      · apply ht.recount
        · change _ + (0 + b.failures.length) = _ + (trimExpired b.failures now limiter.window).length
          omega
        · change _ + (0 + b.pending) = _ + b.pending
          omega
        · omega
      · change (trimExpired b.failures now limiter.window).length + b.pending +
          (s.takeOut peer b).overflowPendingFor peer ≤ limiter.maxAttempts
        omega
      · change len (s.takeOut peer b).buckets + 1 ≤ _
        omega
      · refine ⟨by rw [takeOut_eq], by rw [takeOut_eq], fun p hp => ?_⟩
        change (s.takeOut peer b).buckets.lookup p = _
        rw [takeOut_buckets, Finmap.lookup_erase_ne hp]

theorem around_insertBucket {m : Nat} : Around peer s (s.insertBucket peer b m) := by
  by_cases hne : b.pending ≠ 0 ∨ b.failures ≠ []
  · rw [insertBucket_eq hne]
    exact ⟨rfl, rfl, fun p hp => Finmap.lookup_insert_of_ne _ hp⟩
  · obtain ⟨hf, hn⟩ : b.failures = [] ∧ b.pending = 0 := by tauto
    obtain ⟨failures, pending⟩ := b
    subst hf hn
    exact ⟨rfl, rfl, fun _ _ => rfl⟩

theorem Out.putBack (h : Out limiter clock s peer bucket) :
    Inv limiter clock 0 0 (limiter.putBack s peer bucket) ∧ Around peer s (limiter.putBack s peer bucket) := by
  cases bucket with
  | none => exact ⟨h.inv, rfl, rfl, fun _ _ => rfl⟩
  | some b =>
      have hinv : Inv limiter clock (0 + b.failures.length) (0 + b.pending) s := by
        rw [Nat.zero_add, Nat.zero_add]
        exact h.inv
      exact ⟨hinv.insertBucket h.holds (h.peers rfl), around_insertBucket⟩

theorem Out.track (h : Out limiter clock s peer bucket) (hroom : limiter.needsRoom s bucket.isNone = false)
    (hfree : (heldBucket bucket).failures.length + (heldBucket bucket).pending + s.overflowPendingFor peer <
      limiter.maxAttempts) :
    Inv limiter clock 0 0 (track s peer bucket).2 ∧ Around peer s (track s peer bucket).2 := by
  simp only [needsRoom, Bool.or_eq_false_iff, Bool.and_eq_false_iff, decide_eq_false_iff_not,
    saturatingAdd_lt_iff limiter.records_le] at hroom
  have hinv : Inv limiter clock (0 + (heldBucket bucket).failures.length) (0 + ((heldBucket bucket).pending + 1))
      { s with totalPending := s.totalPending + 1 } := h.inv.recount (by omega) (by omega) (by omega)
  have hheld : Held limiter clock { s with totalPending := s.totalPending + 1 } peer
      ⟨(heldBucket bucket).failures, (heldBucket bucket).pending + 1⟩ := by
    refine ⟨h.holds.absent, ?_, h.holds.timely⟩
    change (heldBucket bucket).failures.length + ((heldBucket bucket).pending + 1) + s.overflowPendingFor peer ≤ _
    omega
  have hlen : len s.buckets + 1 ≤ limiter.maxTrackedPeers := by
    cases bucket with
    | none =>
        have := hroom.1.resolve_left (by simp)
        omega
    | some b => exact h.peers rfl
  have hput := hinv.insertBucket_nonempty hheld hlen (.inl (Nat.succ_ne_zero _))
  have haround : Around peer s (FailedAuthLimiter.track s peer bucket).2 := ⟨rfl, rfl, fun p hp => Finmap.lookup_insert_of_ne _ hp⟩
  exact ⟨hput, haround⟩

theorem overflowPendingFor_insert (k : Nat) : overflowPendingFor { s with
    overflowPendingByPeer := s.overflowPendingByPeer.insert peer k
    totalOverflowPending := n } p = if p = peer then k else s.overflowPendingFor p := by
  unfold overflowPendingFor
  by_cases hp : p = peer
  · rw [if_pos hp, hp, Finmap.lookup_insert]
    rfl
  · rw [if_neg hp, Finmap.lookup_insert_of_ne _ hp]

theorem total_overflow_insert (h : Inv limiter clock f n s) (peer : PeerBucket) :
    total (fun _ n => n) (s.overflowPendingByPeer.insert peer (s.overflowPendingFor peer + 1)) =
      s.totalOverflowPending + 1 := by
  rw [h.overflow]
  cases hl : s.overflowPendingByPeer.lookup peer with
  | none =>
      rw [total_insert (Finmap.lookup_eq_none.mp hl), overflowPendingFor, hl]
      exact Nat.add_comm _ _
  | some k =>
      have := total_replace (f := fun _ n => n) (w := k + 1) hl
      rw [overflowPendingFor, hl]
      change total _ (s.overflowPendingByPeer.insert peer (k + 1)) = _
      omega

theorem Out.overflow (h : Out limiter clock s peer bucket)
    (hfree : (heldBucket bucket).failures.length + (heldBucket bucket).pending + s.overflowPendingFor peer <
      limiter.maxAttempts) :
    Out limiter clock { s with
      overflowPendingByPeer := s.overflowPendingByPeer.insert peer (s.overflowPendingFor peer + 1)
      totalOverflowPending := s.totalOverflowPending + 1 } peer bucket where
  inv := { h.inv with
    overflow := (total_overflow_insert h.inv peer).symm
    overflow_pos := fun p => by
      by_cases hp : p = peer
      · rw [hp]
        change (s.overflowPendingByPeer.insert peer _).lookup peer ≠ _
        simp [Finmap.lookup_insert]
      · change (s.overflowPendingByPeer.insert peer _).lookup p ≠ _
        rw [Finmap.lookup_insert_of_ne _ hp]
        exact h.inv.overflow_pos p
    attempts := fun p b hb => by
      have hp : p ≠ peer := by
        rintro rfl
        exact h.holds.absent (Finmap.mem_of_lookup_eq_some hb)
      rw [overflowPendingFor_insert, if_neg hp]
      exact h.inv.attempts p b hb
    overflow_le := fun p => by
      rw [overflowPendingFor_insert]
      split
      · omega
      · exact h.inv.overflow_le p }
  holds := by
    refine ⟨h.holds.absent, ?_, h.holds.timely⟩
    rw [overflowPendingFor_insert, if_pos rfl]
    omega
  peers := h.peers

/-- What a reserve call does to the budget of its peer's shard. -/
def Budgeted (limiter : FailedAuthLimiter) (now : Nat) (peer : PeerBucket) (granted : Bool)
    (budget budget' : Fin attemptShards → AttemptBudgetShard) : Prop :=
  let shard := (budget peer.attemptShard).roll now limiter.window
  if granted then shard.used < shard.capacity ∧
    budget' = Function.update budget peer.attemptShard { shard with used := shard.used + 1 }
  else budget' = budget ∨ budget' = Function.update budget peer.attemptShard shard

/-- A bucket at the limit whose oldest failure is still within the window. -/
def Blocked (limiter : FailedAuthLimiter) (now : Nat) (b : PeerAttempts) : Prop :=
  limiter.maxAttempts ≤ b.failures.length ∧ ∃ t, b.failures.head? = some t ∧ now - t < limiter.window

structure Reserved (limiter : FailedAuthLimiter) (now : Nat) (peer : PeerBucket) (s : FailedAuthState)
    (r : Option AuthAttemptReservation) (s' : FailedAuthState) : Prop where
  inv : Inv limiter now 0 0 s'
  budget : Budgeted limiter now peer r.isSome s.attemptBudget s'.attemptBudget
  named : ∀ x ∈ r, x.peer = peer
  steady : ∀ p b, s.buckets.lookup p = some b → Blocked limiter now b →
    s'.buckets.lookup p = some b ∧ (p = peer → r = none)

theorem Blocked.not_expendable (h : Blocked limiter now b) (ht : Timely clock b.failures) (t : Nat) :
    ¬Expendable limiter now b t := by
  rintro ⟨hi, hlt | hold⟩
  · have := h.1
    omega
  · obtain ⟨oldest, hhead, hfresh⟩ := h.2
    have hle : oldest ≤ t := by
      cases hf : b.failures with
      | nil => rw [hf] at hhead; exact absurd hhead (by simp)
      | cons x xs =>
          have hlast := hi.2
          rw [hf] at hhead hlast
          obtain rfl := Option.some.inj hhead
          have hmem : t ∈ x :: xs := List.mem_of_getLast? hlast
          rcases List.mem_cons.mp hmem with rfl | hmem
          · exact Nat.le_refl _
          · have hp := ht.1
            rw [hf] at hp
            exact (List.pairwise_cons.mp hp).1 t hmem
    omega

theorem Blocked.trim (h : Blocked limiter now b) : trimExpired b.failures now limiter.window = b.failures := by
  obtain ⟨-, oldest, hhead, hfresh⟩ := h
  rw [trimExpired]
  cases hf : b.failures with
  | nil => rfl
  | cons x xs =>
      rw [hf] at hhead
      obtain rfl := Option.some.inj hhead
      have hx : ¬limiter.window ≤ now - x := by omega
      simp [hx]

theorem Out.shrunk (h : Out limiter clock s peer bucket) (hs : Shrunk limiter now s s')
    (hinv : Inv limiter clock (heldBucket bucket).failures.length (heldBucket bucket).pending s') :
    Out limiter clock s' peer bucket :=
  ⟨hinv, h.holds.shrunk hs, fun hb => (Nat.add_le_add_right hs.len_le 1).trans (h.peers hb)⟩

theorem trackedRecords_add_lt {k : Nat} :
    ¬limiter.maxAttempts ≤ saturatingAdd (trackedRecords bucket) k ↔
      (heldBucket bucket).failures.length + (heldBucket bucket).pending + k < limiter.maxAttempts := by
  have hm := limiter.attempts_le
  rw [saturatingAdd_lt_iff hm]
  cases bucket with
  | none => simp [trackedRecords, heldBucket]
  | some b =>
      change saturatingAdd b.failures.length b.pending + k < _ ↔ b.failures.length + b.pending + k < _
      rw [saturatingAdd]
      omega

theorem Blocked.denied (h : Blocked limiter now b) (k : Nat) :
    limiter.maxAttempts ≤ saturatingAdd (trackedRecords (some b)) k := by
  by_contra hlt
  have hfree := trackedRecords_add_lt.mp hlt
  have := h.1
  change b.failures.length + b.pending + k < limiter.maxAttempts at hfree
  omega

theorem Inv.rebudget (h : Inv limiter clock f n s) (budget : Fin attemptShards → AttemptBudgetShard) :
    Inv limiter clock f n { s with attemptBudget := budget } :=
  { h with }

theorem Out.rebudget (h : Out limiter clock s peer bucket) (budget : Fin attemptShards → AttemptBudgetShard) :
    Out limiter clock { s with attemptBudget := budget } peer bucket :=
  ⟨h.inv.rebudget budget, ⟨h.holds.absent, h.holds.attempts, h.holds.timely⟩, h.peers⟩

/-- The blocked buckets of other peers all stay. -/
def Spares (limiter : FailedAuthLimiter) (now : Nat) (peer : PeerBucket) (s s' : FailedAuthState) : Prop :=
  ∀ p b, p ≠ peer → s.buckets.lookup p = some b → Blocked limiter now b → s'.buckets.lookup p = some b

theorem Spares.trans {s₁ : FailedAuthState} (h : Spares limiter now peer s s₁)
    (ho : ∀ p, p ≠ peer → s'.buckets.lookup p = s₁.buckets.lookup p) : Spares limiter now peer s s' :=
  fun p b hp hb hbl => (ho p hp).trans (h p b hp hb hbl)

theorem Spares.shrunk {s₁ : FailedAuthState} (h : Spares limiter now peer s s₁) (hi : Inv limiter now 0 0 s)
    (hs : Shrunk limiter now s₁ s') : Spares limiter now peer s s' :=
  fun p b hp hb hbl => hs.kept p b (h p b hp hb hbl) (hbl.not_expendable (hi.timely p b hb))

theorem Spares.reserved {r : Option AuthAttemptReservation} (h : Spares limiter now peer s s')
    (hp : ∀ b, s.buckets.lookup peer = some b → ¬Blocked limiter now b) (hinv : Inv limiter now 0 0 s')
    (hb : Budgeted limiter now peer r.isSome s.attemptBudget s'.attemptBudget) (hn : ∀ x ∈ r, x.peer = peer) :
    Reserved limiter now peer s r s' := by
  refine ⟨hinv, hb, hn, ?_⟩
  intro p b hl hbl
  have hne : p ≠ peer := by
    rintro rfl
    exact hp b hl hbl
  exact ⟨h p b hne hl hbl, fun he => absurd he hne⟩

/-- The peer's own bucket, blocked or not, is back after the first check fails. -/
theorem Inv.reserved_at_limit {s₁ : FailedAuthState} (h : Inv limiter now 0 0 s)
    (hb : bucket = (s.buckets.lookup peer).map fun b => ⟨trimExpired b.failures now limiter.window, b.pending⟩)
    (hout : Out limiter now s₁ peer bucket) (ha : Around peer s s₁) :
    Reserved limiter now peer s none (limiter.putBack s₁ peer bucket) := by
  obtain ⟨hinv, hput⟩ := hout.putBack
  refine ⟨hinv, .inl (hput.budget.trans ha.budget), fun x hx => absurd hx (by simp), ?_⟩
  intro p b hl hbl
  refine ⟨?_, fun _ => rfl⟩
  by_cases hp : p = peer
  · subst hp
    have hsome : bucket = some b := by rw [hb, hl, Option.map_some, hbl.trim]
    rw [hsome, FailedAuthLimiter.putBack, insertBucket_buckets (h.nonempty p b hl)]
    exact Finmap.lookup_insert _
  · rw [hput.others p hp, ha.others p hp, hl]

theorem consumeAttemptBudget_eq {shard : AttemptBudgetShard} {window : Nat}
    (h : (s.attemptBudget peer.attemptShard).roll now window = shard) :
    s.consumeAttemptBudget peer now window =
      if shard.capacity ≤ shard.used then
        (false, { s with attemptBudget := Function.update s.attemptBudget peer.attemptShard shard })
      else
        (true, { s with
          attemptBudget := Function.update s.attemptBudget peer.attemptShard { shard with used := shard.used + 1 } }) := by
  subst h
  rfl

theorem refund_budget {budget : Fin attemptShards → AttemptBudgetShard} {shard : AttemptBudgetShard}
    (h : s.attemptBudget = Function.update budget peer.attemptShard { shard with used := shard.used + 1 }) :
    (s.refundAttemptBudget peer).attemptBudget = Function.update budget peer.attemptShard shard := by
  rw [refundAttemptBudget]
  simp only [h, Function.update_self, Function.update_idem, Nat.add_sub_cancel]

theorem tryReserveOverflow_of_lt {headroom : Nat} (h : ¬headroom ≤ s.overflowPendingFor peer) :
    s.tryReserveOverflow peer headroom = (true, { s with
      overflowPendingByPeer := s.overflowPendingByPeer.insert peer (s.overflowPendingFor peer + 1)
      totalOverflowPending := s.totalOverflowPending + 1 }) :=
  if_neg h

section Granting

variable {s₁ : FailedAuthState} {shard : AttemptBudgetShard}
  (hroll : (s.attemptBudget peer.attemptShard).roll now limiter.window = shard)
  (hcap : shard.used < shard.capacity)
  (hbudget : s₁.attemptBudget =
    Function.update s.attemptBudget peer.attemptShard { shard with used := shard.used + 1 })
  (hout : Out limiter now s₁ peer bucket) (hs : Spares limiter now peer s s₁)
  (hp : ∀ b, s.buckets.lookup peer = some b → ¬Blocked limiter now b)
  (hfree : (heldBucket bucket).failures.length + (heldBucket bucket).pending + s₁.overflowPendingFor peer <
    limiter.maxAttempts)

include hroll hbudget hout hs hp

theorem reserved_refunded :
    Reserved limiter now peer s none ((limiter.putBack s₁ peer bucket).refundAttemptBudget peer) := by
  obtain ⟨hinv, hput⟩ := hout.putBack
  have hback : Budgeted limiter now peer false s.attemptBudget
      ((limiter.putBack s₁ peer bucket).refundAttemptBudget peer).attemptBudget := by
    refine .inr ?_
    rw [hroll]
    exact refund_budget (hput.budget.trans hbudget)
  exact Spares.reserved (hs.trans hput.others) hp (hinv.rebudget _) hback (by simp)

include hcap hfree

theorem reserved_tracked (hroom : limiter.needsRoom s₁ bucket.isNone = false) :
    Reserved limiter now peer s (some (track s₁ peer bucket).1) (track s₁ peer bucket).2 := by
  obtain ⟨hinv, hput⟩ := hout.track hroom hfree
  have hspent : Budgeted limiter now peer true s.attemptBudget (track s₁ peer bucket).2.attemptBudget := by
    rw [Budgeted]
    rw [hroll, hput.budget]
    exact ⟨hcap, hbudget⟩
  exact Spares.reserved (hs.trans hput.others) hp hinv hspent (by rintro x ⟨⟩; rfl)

theorem reserved_untracked :
    Reserved limiter now peer s (limiter.reserveUntracked s₁ peer bucket).1
      (limiter.reserveUntracked s₁ peer bucket).2 := by
  have hrefuse := reserved_refunded hroll hbudget hout hs hp
  rw [reserveUntracked]
  split
  · exact hrefuse
  · have hheadroom : ¬limiter.maxAttempts - trackedRecords bucket ≤ s₁.overflowPendingFor peer := by
      have hsat := trackedRecords_add_lt.mpr hfree
      have hm := limiter.attempts_le
      rw [saturatingAdd] at hsat
      omega
    obtain ⟨hinv, hput⟩ := (hout.overflow hfree).putBack
    rw [tryReserveOverflow_of_lt hheadroom]
    have hspent : Budgeted limiter now peer true s.attemptBudget (limiter.putBack { s₁ with
        overflowPendingByPeer := s₁.overflowPendingByPeer.insert peer (s₁.overflowPendingFor peer + 1)
        totalOverflowPending := s₁.totalOverflowPending + 1 } peer bucket).attemptBudget := by
      rw [Budgeted]
      rw [hroll, hput.budget]
      exact ⟨hcap, hbudget⟩
    exact Spares.reserved (hs.trans hput.others) hp hinv hspent (by rintro x ⟨⟩; rfl)

end Granting

theorem Inv.reserve (h : Inv limiter clock 0 0 s) (hc : clock ≤ now) (address : IpAddr) :
    ∃ r s', limiter.reserve s address now = some (r, s') ∧ Reserved limiter now (ofIpAddr address) s r s' := by
  have hi := h.later hc
  obtain ⟨s₁, hco, hout, ha⟩ := hi.checkOut (ofIpAddr address)
  generalize hbucket : (s.buckets.lookup (ofIpAddr address)).map
    (fun b => (⟨trimExpired b.failures now limiter.window, b.pending⟩ : PeerAttempts)) = bucket at hco hout
  have hs : Spares limiter now (ofIpAddr address) s s₁ := fun p b hp hb _ => (ha.others p hp).trans hb
  simp only [FailedAuthLimiter.reserve, hco, Option.bind_eq_bind, Option.bind_some]
  by_cases hmax : limiter.maxAttempts ≤ saturatingAdd (trackedRecords bucket) (s₁.overflowPendingFor (ofIpAddr address))
  · rw [if_pos hmax]
    exact ⟨none, _, rfl, hi.reserved_at_limit hbucket.symm hout ha⟩
  have hfree := trackedRecords_add_lt.mp hmax
  have hp : ∀ b, s.buckets.lookup (ofIpAddr address) = some b → ¬Blocked limiter now b := by
    intro b hb hbl
    have hsome : bucket = some b := by rw [← hbucket, hb, Option.map_some, hbl.trim]
    rw [hsome] at hmax
    exact hmax (hbl.denied _)
  rw [if_neg hmax]
  by_cases hrec : limiter.maxAttemptRecords ≤ saturatingAdd s₁.totalPending s₁.totalOverflowPending
  · rw [if_pos hrec]
    exact ⟨none, _, rfl, hi.reserved_at_limit hbucket.symm hout ha⟩
  rw [if_neg hrec]
  generalize hroll : (s.attemptBudget (ofIpAddr address).attemptShard).roll now limiter.window = shard
  have hroll₁ : (s₁.attemptBudget (ofIpAddr address).attemptShard).roll now limiter.window = shard := by
    rw [ha.budget, hroll]
  rw [consumeAttemptBudget_eq hroll₁]
  by_cases hcap : shard.capacity ≤ shard.used
  · rw [if_pos hcap]
    obtain ⟨hinv, hput⟩ := (hout.rebudget (Function.update s₁.attemptBudget _ shard)).putBack
    refine ⟨none, _, rfl, (hs.trans hput.others).reserved hp hinv (.inr ?_) (by simp)⟩
    rw [hroll, hput.budget, ← ha.budget]
  · rw [if_neg hcap]
    have hout₂ := hout.rebudget
      (Function.update s₁.attemptBudget (ofIpAddr address).attemptShard { shard with used := shard.used + 1 })
    have hs₂ : Spares limiter now (ofIpAddr address) s { s₁ with
        attemptBudget := Function.update s₁.attemptBudget (ofIpAddr address).attemptShard
          { shard with used := shard.used + 1 } } := hs
    obtain ⟨room, s₃, hmake, hinv, hsh, hneed⟩ := hout₂.inv.makeRoom bucket.isNone now (Nat.lt_add_one _)
    have hb : s₃.attemptBudget = Function.update s.attemptBudget (ofIpAddr address).attemptShard
        { shard with used := shard.used + 1 } := by
      rw [hsh.budget, ← ha.budget]
    have hfree₃ : (heldBucket bucket).failures.length + (heldBucket bucket).pending +
        s₃.overflowPendingFor (ofIpAddr address) < limiter.maxAttempts := by
      rw [overflowPendingFor, hsh.overflow]
      exact hfree
    have hout₃ := hout₂.shrunk hsh hinv
    have hs₃ := hs₂.shrunk hi hsh
    have hlt : shard.used < shard.capacity := not_le.mp hcap
    simp only [hmake, Option.bind_some]
    cases room with
    | true => exact ⟨_, _, rfl, reserved_tracked hroll hlt hb hout₃ hs₃ hp hfree₃ (hneed rfl)⟩
    | false => exact ⟨_, _, rfl, reserved_untracked hroll hlt hb hout₃ hs₃ hp hfree₃⟩

end Rustgo.AuthLimiter
