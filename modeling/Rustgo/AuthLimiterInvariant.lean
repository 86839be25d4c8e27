import Rustgo.AuthLimiter

namespace Rustgo.AuthLimiter

open PeerBucket Tables FailedAuthState FailedAuthLimiter

variable {limiter : FailedAuthLimiter} {clock now : Nat} {s s' : FailedAuthState}
  {peer p : PeerBucket} {b : PeerAttempts} {f n : Nat}

def Idle (b : PeerAttempts) (t : Nat) : Prop := b.pending = 0 ∧ b.failures.getLast? = some t

/-- Failures are kept in the order they were recorded. -/
def Timely (clock : Nat) (failures : List Nat) : Prop :=
  failures.Pairwise (· ≤ ·) ∧ ∀ t ∈ failures, t ≤ clock

/-- An index holds the key of each idle bucket whose number of failures
satisfies `Q`, under its last failure. -/
def Indexes (index : Finset IdleKey) (Q : Nat → Prop) (buckets : Table PeerBucket PeerAttempts) : Prop :=
  ∀ t p, toLex (t, p) ∈ index ↔ ∃ b, buckets.lookup p = some b ∧ Idle b t ∧ Q b.failures.length

/-- The bookkeeping of the limiter, where the running operation holds `f`
failures and `n` pending reservations outside the buckets. -/
structure Inv (limiter : FailedAuthLimiter) (clock : Nat) (f n : Nat) (s : FailedAuthState) : Prop where
  failures : s.totalFailureRecords = total (fun _ b => b.failures.length) s.buckets + f
  pending : s.totalPending = total (fun _ b => b.pending) s.buckets + n
  overflow : s.totalOverflowPending = total (fun _ n => n) s.overflowPendingByPeer
  evictable : Indexes s.evictableIdleFailures (· < limiter.maxAttempts) s.buckets
  guarded : Indexes s.protectedIdleFailures (limiter.maxAttempts ≤ ·) s.buckets
  nonempty : ∀ p b, s.buckets.lookup p = some b → b.pending ≠ 0 ∨ b.failures ≠ []
  overflow_pos : ∀ p, s.overflowPendingByPeer.lookup p ≠ some 0
  attempts : ∀ p b, s.buckets.lookup p = some b →
    b.failures.length + b.pending + s.overflowPendingFor p ≤ limiter.maxAttempts
  overflow_le : ∀ p, s.overflowPendingFor p ≤ limiter.maxAttempts
  records : s.totalFailureRecords + s.totalPending ≤ limiter.maxAttemptRecords
  peers : len s.buckets ≤ limiter.maxTrackedPeers
  timely : ∀ p b, s.buckets.lookup p = some b → Timely clock b.failures

/-- A bucket outside the state that may be put back. -/
structure Held (limiter : FailedAuthLimiter) (clock : Nat) (s : FailedAuthState) (peer : PeerBucket)
    (b : PeerAttempts) : Prop where
  absent : peer ∉ s.buckets
  attempts : b.failures.length + b.pending + s.overflowPendingFor peer ≤ limiter.maxAttempts
  timely : Timely clock b.failures

theorem checkedSub_of_le {a c : Nat} (h : c ≤ a) : checkedSub a c = some (a - c) := if_pos h

theorem saturatingAdd_lt_iff {a c m : Nat} (hm : m ≤ usizeMax) : ¬m ≤ saturatingAdd a c ↔ a + c < m := by
  rw [saturatingAdd]
  omega

theorem takeOut_eq (s : FailedAuthState) (peer : PeerBucket) (b : PeerAttempts) :
    s.takeOut peer b = { s with
      buckets := s.buckets.erase peer
      evictableIdleFailures := (s.takeOut peer b).evictableIdleFailures
      protectedIdleFailures := (s.takeOut peer b).protectedIdleFailures } := by
  rw [FailedAuthState.takeOut, unindex]
  split
  · split <;> rfl
  · rfl

theorem mem_unindexed {index : Finset IdleKey} {last t : Nat} (hp : b.pending = 0)
    (hl : b.failures.getLast? = some last) :
    toLex (t, p) ∈ index.erase (toLex (last, peer)) ↔ toLex (t, p) ∈ index ∧ ¬(p = peer ∧ Idle b t) := by
  simp only [Idle, Finset.mem_erase, ne_eq, EmbeddingLike.apply_eq_iff_eq, Prod.mk.injEq, hp, hl, Option.some.injEq,
    true_and]
  tauto

theorem mem_takeOut {t : Nat} :
    (toLex (t, p) ∈ (s.takeOut peer b).evictableIdleFailures ↔
      toLex (t, p) ∈ s.evictableIdleFailures ∧ ¬(p = peer ∧ Idle b t)) ∧
    (toLex (t, p) ∈ (s.takeOut peer b).protectedIdleFailures ↔
      toLex (t, p) ∈ s.protectedIdleFailures ∧ ¬(p = peer ∧ Idle b t)) := by
  rw [FailedAuthState.takeOut, unindex]
  split
  · next hp =>
    split
    · next last hl => exact ⟨mem_unindexed hp hl, mem_unindexed hp hl⟩
    · next hl => simp [Idle, hl]
  · next hp => simp [Idle, hp]

theorem mem_insertBucket {t : Nat} {m : Nat} :
    (toLex (t, p) ∈ (s.insertBucket peer b m).evictableIdleFailures ↔
      toLex (t, p) ∈ s.evictableIdleFailures ∨ p = peer ∧ Idle b t ∧ b.failures.length < m) ∧
    (toLex (t, p) ∈ (s.insertBucket peer b m).protectedIdleFailures ↔
      toLex (t, p) ∈ s.protectedIdleFailures ∨ p = peer ∧ Idle b t ∧ m ≤ b.failures.length) := by
  rw [insertBucket, Idle]
  split
  · next hp =>
    split
    · next hl => simp [hl]
    · next last hl =>
      by_cases hm : m ≤ b.failures.length
      · simp only [if_pos hm, Finset.mem_insert, EmbeddingLike.apply_eq_iff_eq, Prod.mk.injEq, hp, hl,
          Option.some.injEq, true_and]
        constructor
        · exact ⟨Or.inl, fun h => h.elim id fun h => absurd h.2.2 (by omega)⟩
        · tauto
      · simp only [if_neg hm, Finset.mem_insert, EmbeddingLike.apply_eq_iff_eq, Prod.mk.injEq, hp, hl,
          Option.some.injEq, true_and]
        constructor
        · have hlt : b.failures.length < m := by omega
          tauto
        · tauto
  · next hp => simp [hp]

theorem Indexes.erase {index index' : Finset IdleKey} {Q : Nat → Prop} {m : Table PeerBucket PeerAttempts}
    (h : Indexes index Q m) (hb : m.lookup peer = some b)
    (hmem : ∀ t p, toLex (t, p) ∈ index' ↔ toLex (t, p) ∈ index ∧ ¬(p = peer ∧ Idle b t)) :
    Indexes index' Q (m.erase peer) := by
  intro t p
  rw [hmem, h]
  by_cases hp : p = peer
  · subst hp
    rw [Finmap.lookup_erase, hb]
    simp only [Option.some.injEq, exists_eq_left', true_and, reduceCtorEq, false_and, exists_false, iff_false]
    tauto
  · rw [Finmap.lookup_erase_ne hp]
    tauto

theorem Indexes.insert {index index' : Finset IdleKey} {Q : Nat → Prop} {m : Table PeerBucket PeerAttempts}
    (h : Indexes index Q m) (ha : peer ∉ m)
    (hmem : ∀ t p, toLex (t, p) ∈ index' ↔ toLex (t, p) ∈ index ∨ p = peer ∧ Idle b t ∧ Q b.failures.length) :
    Indexes index' Q (m.insert peer b) := by
  intro t p
  rw [hmem, h]
  by_cases hp : p = peer
  · subst hp
    rw [Finmap.lookup_insert, Finmap.lookup_eq_none.mpr ha]
    simp
  · rw [Finmap.lookup_insert_of_ne _ hp]
    simp only [hp, false_and, or_false]

@[simp] theorem takeOut_buckets : (s.takeOut peer b).buckets = s.buckets.erase peer := by
  rw [takeOut_eq]

theorem lookup_takeOut {c : PeerAttempts} (h : (s.takeOut peer b).buckets.lookup p = some c) :
    s.buckets.lookup p = some c := by
  rw [takeOut_buckets] at h
  by_cases hp : p = peer
  · rw [hp, Finmap.lookup_erase] at h
    exact absurd h (by simp)
  · rwa [Finmap.lookup_erase_ne hp] at h

theorem len_takeOut (h : s.buckets.lookup peer = some b) : len (s.takeOut peer b).buckets + 1 = len s.buckets := by
  rw [takeOut_buckets, len_eq_total, len_eq_total, total_erase h, Nat.add_comm]

theorem Inv.takeOut (h : Inv limiter clock f n s) (hb : s.buckets.lookup peer = some b) :
    Inv limiter clock (f + b.failures.length) (n + b.pending) (s.takeOut peer b) where
  failures := by
    have hf := h.failures
    rw [total_erase hb] at hf
    rw [takeOut_eq]
    change s.totalFailureRecords = total _ (s.buckets.erase peer) + _
    omega
  pending := by
    have hf := h.pending
    rw [total_erase hb] at hf
    rw [takeOut_eq]
    change s.totalPending = total _ (s.buckets.erase peer) + _
    omega
  overflow := by rw [takeOut_eq]; exact h.overflow
  evictable := by
    rw [takeOut_buckets]
    exact h.evictable.erase hb fun _ _ => mem_takeOut.1
  guarded := by
    rw [takeOut_buckets]
    exact h.guarded.erase hb fun _ _ => mem_takeOut.2
  nonempty q c hq := h.nonempty q c (lookup_takeOut hq)
  overflow_pos := by rw [takeOut_eq]; exact h.overflow_pos
  attempts q c hq := by
    have := h.attempts q c (lookup_takeOut hq)
    rw [takeOut_eq]
    exact this
  overflow_le := by rw [takeOut_eq]; exact h.overflow_le
  records := by rw [takeOut_eq]; exact h.records
  peers := by
    have hl := len_takeOut hb
    have := h.peers
    omega
  timely q c hq := h.timely q c (lookup_takeOut hq)

theorem Inv.held (h : Inv limiter clock f n s) (hb : s.buckets.lookup peer = some b) :
    Held limiter clock (s.takeOut peer b) peer b where
  absent := by rw [takeOut_buckets]; exact Finmap.notMem_erase_self
  attempts := by
    have := h.attempts peer b hb
    rw [takeOut_eq]
    exact this
  timely := h.timely peer b hb

theorem insertBucket_eq {m : Nat} (hne : b.pending ≠ 0 ∨ b.failures ≠ []) :
    s.insertBucket peer b m = { s with
      buckets := s.buckets.insert peer b
      evictableIdleFailures := (s.insertBucket peer b m).evictableIdleFailures
      protectedIdleFailures := (s.insertBucket peer b m).protectedIdleFailures } := by
  rw [insertBucket]
  split
  · next hp =>
    split
    · next hl => simp [hp, List.getLast?_eq_none_iff.mp hl] at hne
    · split <;> rfl
  · rfl

theorem insertBucket_buckets {m : Nat} (hne : b.pending ≠ 0 ∨ b.failures ≠ []) :
    (s.insertBucket peer b m).buckets = s.buckets.insert peer b := by
  rw [insertBucket_eq hne]

theorem lookup_insertBucket {m : Nat} {c : PeerAttempts}
    (h : (s.insertBucket peer b m).buckets.lookup p = some c) : s.buckets.lookup p = some c ∨ p = peer ∧ c = b := by
  by_cases hne : b.pending ≠ 0 ∨ b.failures ≠ []
  · rw [insertBucket_eq hne] at h
    by_cases hp : p = peer
    · subst hp
      rw [Finmap.lookup_insert] at h
      exact .inr ⟨rfl, (Option.some.inj h).symm⟩
    · rw [Finmap.lookup_insert_of_ne _ hp] at h
      exact .inl h
  · obtain ⟨hf, hn⟩ : b.failures = [] ∧ b.pending = 0 := by tauto
    obtain ⟨failures, pending⟩ := b
    subst hf hn
    exact .inl h

theorem Inv.insertBucket_nonempty (h : Inv limiter clock (f + b.failures.length) (n + b.pending) s)
    (hb : Held limiter clock s peer b) (hl : len s.buckets + 1 ≤ limiter.maxTrackedPeers)
    (hne : b.pending ≠ 0 ∨ b.failures ≠ []) :
    Inv limiter clock f n (s.insertBucket peer b limiter.maxAttempts) where
  failures := by
    have hf := h.failures
    rw [insertBucket_eq hne]
    change s.totalFailureRecords = total _ (s.buckets.insert peer b) + _
    rw [total_insert hb.absent]
    omega
  pending := by
    have hf := h.pending
    rw [insertBucket_eq hne]
    change s.totalPending = total _ (s.buckets.insert peer b) + _
    rw [total_insert hb.absent]
    omega
  overflow := by rw [insertBucket_eq hne]; exact h.overflow
  evictable := by
    rw [insertBucket_buckets hne]
    exact h.evictable.insert hb.absent fun _ _ => mem_insertBucket.1
  guarded := by
    rw [insertBucket_buckets hne]
    exact h.guarded.insert hb.absent fun _ _ => mem_insertBucket.2
  nonempty q c hq := by
    rcases lookup_insertBucket hq with hq | ⟨-, rfl⟩
    · exact h.nonempty q c hq
    · exact hne
  overflow_pos := by rw [insertBucket_eq hne]; exact h.overflow_pos
  attempts q c hq := by
    have hle : c.failures.length + c.pending + s.overflowPendingFor q ≤ limiter.maxAttempts := by
      rcases lookup_insertBucket hq with hq | ⟨rfl, rfl⟩
      · exact h.attempts q c hq
      · exact hb.attempts
    rw [insertBucket_eq hne]
    exact hle
  overflow_le := by rw [insertBucket_eq hne]; exact h.overflow_le
  records := by rw [insertBucket_eq hne]; exact h.records
  peers := by
    rw [insertBucket_eq hne]
    change len (s.buckets.insert peer b) ≤ _
    rw [len_eq_total, total_insert hb.absent, ← len_eq_total]
    omega
  timely q c hq := by
    rcases lookup_insertBucket hq with hq | ⟨-, rfl⟩
    · exact h.timely q c hq
    · exact hb.timely

theorem Inv.insertBucket (h : Inv limiter clock (f + b.failures.length) (n + b.pending) s)
    (hb : Held limiter clock s peer b) (hl : len s.buckets + 1 ≤ limiter.maxTrackedPeers) :
    Inv limiter clock f n (s.insertBucket peer b limiter.maxAttempts) := by
  by_cases hne : b.pending ≠ 0 ∨ b.failures ≠ []
  · exact h.insertBucket_nonempty hb hl hne
  · obtain ⟨hf, hn⟩ : b.failures = [] ∧ b.pending = 0 := by tauto
    obtain ⟨failures, pending⟩ := b
    subst hf hn
    exact h

/-- New totals for a bucket whose counts changed while it was held. -/
theorem Inv.recount {f' n' failures pending : Nat} (h : Inv limiter clock f n s)
    (hf : failures + f = s.totalFailureRecords + f') (hn : pending + n = s.totalPending + n')
    (hr : failures + pending ≤ limiter.maxAttemptRecords) :
    Inv limiter clock f' n' { s with totalFailureRecords := failures, totalPending := pending } :=
  { h with
    failures := by
      have := h.failures
      change failures = total _ s.buckets + f'
      omega
    pending := by
      have := h.pending
      change pending = total _ s.buckets + n'
      omega
    records := hr }

theorem takeOut_idle {t : Nat} (h : Idle b t) :
    s.takeOut p b = { s with
      buckets := s.buckets.erase p
      evictableIdleFailures := s.evictableIdleFailures.erase (toLex (t, p))
      protectedIdleFailures := s.protectedIdleFailures.erase (toLex (t, p)) } := by
  rw [FailedAuthState.takeOut, unindex]
  rw [if_pos h.1, h.2]

/-- The state without a bucket and its records. -/
def FailedAuthState.forget (s : FailedAuthState) (p : PeerBucket) (b : PeerAttempts) : FailedAuthState :=
  { s.takeOut p b with totalFailureRecords := s.totalFailureRecords - b.failures.length }

theorem Inv.failures_le (h : Inv limiter clock f n s) (hb : s.buckets.lookup p = some b) :
    b.failures.length ≤ s.totalFailureRecords := by
  have hle := le_total (fun _ b => b.failures.length) hb
  have := h.failures
  omega

theorem Inv.forget (h : Inv limiter clock f n s) (hb : s.buckets.lookup p = some b) (hp : b.pending = 0) :
    Inv limiter clock f n (s.forget p b) := by
  have ht := h.takeOut hb
  have hle := h.failures_le hb
  have hrec := h.records
  have hfail : (s.takeOut p b).totalFailureRecords = s.totalFailureRecords := by rw [takeOut_eq]
  have hpend : (s.takeOut p b).totalPending = s.totalPending := by rw [takeOut_eq]
  exact ht.recount (by omega) (by omega) (by omega)

/-- The buckets that may be thrown out to make room. -/
def Expendable (limiter : FailedAuthLimiter) (now : Nat) (b : PeerAttempts) (t : Nat) : Prop :=
  Idle b t ∧ (b.failures.length < limiter.maxAttempts ∨ limiter.window ≤ now - t)

theorem dropBucket_eq (hle : b.failures.length ≤ s.totalFailureRecords) (hb : s.buckets.lookup p = some b) :
    s.dropBucket p = some (true, { s with
      buckets := s.buckets.erase p
      totalFailureRecords := s.totalFailureRecords - b.failures.length }) := by
  simp only [dropBucket, hb, checkedSub_of_le hle]
  rfl

theorem Inv.evict (h : Inv limiter clock f n s) :
    s.evictOneLowValueIdle = some (false, s) ∨
      ∃ p b t, s.buckets.lookup p = some b ∧ Idle b t ∧ b.failures.length < limiter.maxAttempts ∧
        toLex (t, p) ∈ s.evictableIdleFailures ∧ s.evictOneLowValueIdle = some (true, s.forget p b) := by
  rw [evictOneLowValueIdle]
  cases hfirst : first? s.evictableIdleFailures with
  | none => exact .inl rfl
  | some key =>
      obtain ⟨t, p⟩ := key
      have hmem : toLex (t, p) ∈ s.evictableIdleFailures := first?_mem hfirst
      obtain ⟨b, hb, hidle, hlt⟩ := (h.evictable t p).mp hmem
      have hnot : toLex (t, p) ∉ s.protectedIdleFailures := by
        intro hin
        obtain ⟨c, hc, -, hge⟩ := (h.guarded t p).mp hin
        rw [hb] at hc
        obtain rfl := Option.some.inj hc
        omega
      refine .inr ⟨p, b, t, hb, hidle, hlt, hmem, ?_⟩
      have hdrop := dropBucket_eq (s := { s with
        evictableIdleFailures := s.evictableIdleFailures.erase (toLex (t, p)) }) (h.failures_le hb) hb
      refine hdrop.trans ?_
      rw [FailedAuthState.forget, takeOut_idle hidle, Finset.erase_eq_of_notMem hnot]

theorem Inv.reclaim (h : Inv limiter clock f n s) (now : Nat) :
    s.reclaimOneExpiredProtected now limiter.window = some (false, s) ∨
      ∃ p b t, s.buckets.lookup p = some b ∧ Idle b t ∧ limiter.window ≤ now - t ∧
        toLex (t, p) ∈ s.protectedIdleFailures ∧
        s.reclaimOneExpiredProtected now limiter.window = some (true, s.forget p b) := by
  rw [reclaimOneExpiredProtected]
  cases hfirst : first? s.protectedIdleFailures with
  | none => exact .inl rfl
  | some key =>
      obtain ⟨t, p⟩ := key
      have hmem : toLex (t, p) ∈ s.protectedIdleFailures := first?_mem hfirst
      obtain ⟨b, hb, hidle, hge⟩ := (h.guarded t p).mp hmem
      have hnot : toLex (t, p) ∉ s.evictableIdleFailures := by
        intro hin
        obtain ⟨c, hc, -, hlt⟩ := (h.evictable t p).mp hin
        rw [hb] at hc
        obtain rfl := Option.some.inj hc
        omega
      by_cases hfresh : now - t < limiter.window
      · exact .inl (if_pos hfresh)
      · refine .inr ⟨p, b, t, hb, hidle, not_lt.mp hfresh, hmem, ?_⟩
        have hdrop := dropBucket_eq (s := { s with
          protectedIdleFailures := s.protectedIdleFailures.erase (toLex (t, p)) }) (h.failures_le hb) hb
        refine (if_neg hfresh).trans (hdrop.trans ?_)
        rw [FailedAuthState.forget, takeOut_idle hidle, Finset.erase_eq_of_notMem hnot]

theorem indexSize_forget {t : Nat} (hi : Idle b t)
    (hmem : toLex (t, p) ∈ s.evictableIdleFailures ∨ toLex (t, p) ∈ s.protectedIdleFailures) :
    indexSize (s.forget p b) < indexSize s := by
  have he := Finset.card_erase_le (s := s.evictableIdleFailures) (a := toLex (t, p))
  have hp := Finset.card_erase_le (s := s.protectedIdleFailures) (a := toLex (t, p))
  rw [FailedAuthState.forget, takeOut_idle hi]
  change (s.evictableIdleFailures.erase _).card + (s.protectedIdleFailures.erase _).card < _
  rw [indexSize]
  rcases hmem with hmem | hmem
  · have := Finset.card_erase_lt_of_mem hmem
    omega
  · have := Finset.card_erase_lt_of_mem hmem
    omega

theorem Inv.freeOne (h : Inv limiter clock f n s) (now : Nat) :
    s.freeOne now limiter.window = some (false, s) ∨
      ∃ p b t, s.buckets.lookup p = some b ∧ Expendable limiter now b t ∧
        indexSize (s.forget p b) < indexSize s ∧
        s.freeOne now limiter.window = some (true, s.forget p b) := by
  rw [FailedAuthState.freeOne]
  rcases h.evict with he | ⟨p, b, t, hb, hi, hlt, hmem, he⟩
  · rw [he]
    rcases h.reclaim now with hr | ⟨p, b, t, hb, hi, hold, hmem, hr⟩
    · exact .inl hr
    · exact .inr ⟨p, b, t, hb, ⟨hi, .inr hold⟩, indexSize_forget hi (.inr hmem), hr⟩
  · rw [he]
    exact .inr ⟨p, b, t, hb, ⟨hi, .inl hlt⟩, indexSize_forget hi (.inl hmem), rfl⟩

/-- What making room may do: buckets that are not expendable all stay. -/
structure Shrunk (limiter : FailedAuthLimiter) (now : Nat) (s s' : FailedAuthState) : Prop where
  overflow : s'.overflowPendingByPeer = s.overflowPendingByPeer
  budget : s'.attemptBudget = s.attemptBudget
  len_le : len s'.buckets ≤ len s.buckets
  sub : ∀ p b, s'.buckets.lookup p = some b → s.buckets.lookup p = some b
  kept : ∀ p b, s.buckets.lookup p = some b → (∀ t, ¬Expendable limiter now b t) → s'.buckets.lookup p = some b

theorem Shrunk.refl : Shrunk limiter now s s :=
  ⟨rfl, rfl, Nat.le_refl _, fun _ _ h => h, fun _ _ h _ => h⟩

theorem Shrunk.trans {s'' : FailedAuthState} (h : Shrunk limiter now s s') (h' : Shrunk limiter now s' s'') :
    Shrunk limiter now s s'' where
  overflow := h'.overflow.trans h.overflow
  budget := h'.budget.trans h.budget
  len_le := h'.len_le.trans h.len_le
  sub p b hb := h.sub p b (h'.sub p b hb)
  kept p b hb hkeep := h'.kept p b (h.kept p b hb hkeep) hkeep

theorem shrunk_forget {t : Nat} (hb : s.buckets.lookup p = some b) (he : Expendable limiter now b t) :
    Shrunk limiter now s (s.forget p b) where
  overflow := by rw [FailedAuthState.forget, takeOut_eq]
  budget := by rw [FailedAuthState.forget, takeOut_eq]
  len_le := by
    have hl := len_takeOut hb
    change len (s.takeOut p b).buckets ≤ _
    omega
  sub q c hc := lookup_takeOut hc
  kept q c hc hkeep := by
    have hq : q ≠ p := by
      rintro rfl
      rw [hb] at hc
      obtain rfl := Option.some.inj hc
      exact hkeep t he
    change (s.takeOut p b).buckets.lookup q = some c
    rw [takeOut_buckets, Finmap.lookup_erase_ne hq, hc]

theorem Held.shrunk (h : Held limiter clock s peer b) (hs : Shrunk limiter now s s') :
    Held limiter clock s' peer b where
  absent hmem := by
    obtain ⟨c, hc⟩ := Finmap.mem_iff.mp hmem
    exact h.absent (Finmap.mem_of_lookup_eq_some (hs.sub peer c hc))
  attempts := by
    have := h.attempts
    rwa [overflowPendingFor, hs.overflow]
  timely := h.timely

theorem Inv.makeRoom (h : Inv limiter clock f n s) (isNew : Bool) (now : Nat) {turns : Nat}
    (ht : indexSize s < turns) :
    ∃ room s', limiter.makeRoom isNew now turns s = some (room, s') ∧ Inv limiter clock f n s' ∧
      Shrunk limiter now s s' ∧ (room = true → limiter.needsRoom s' isNew = false) := by
  induction turns generalizing s with
  | zero => exact absurd ht (Nat.not_lt_zero _)
  | succ turns ih =>
      rw [FailedAuthLimiter.makeRoom]
      by_cases hroom : limiter.needsRoom s isNew
      · rw [if_pos hroom]
        rcases h.freeOne now with hfree | ⟨p, b, t, hb, he, hlt, hfree⟩
        · rw [hfree]
          exact ⟨false, s, rfl, h, .refl, fun hf => absurd hf (by decide)⟩
        · rw [hfree]
          obtain ⟨room, s', hrun, hinv, hs, hr⟩ := ih (h.forget hb he.1.1) (by omega)
          exact ⟨room, s', hrun, hinv, (shrunk_forget hb he).trans hs, hr⟩
      · rw [if_neg hroom]
        exact ⟨true, s, rfl, h, .refl, fun _ => by simpa using hroom⟩

end Rustgo.AuthLimiter
