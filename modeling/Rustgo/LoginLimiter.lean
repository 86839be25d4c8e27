import Rustgo.Tables

namespace Rustgo.Web

open Tables

/-- The limits of the dashboard, as they are validated before it is bound. Times are in nanoseconds. -/
structure WebRuntimeLimits where
  sessionIdleTimeout : Nat
  sessionAbsoluteTimeout : Nat
  maxSessions : Nat
  loginWindow : Nat
  maxLoginAttemptsPerPeer : Nat
  maxGlobalLoginAttempts : Nat
  maxTrackedLoginPeers : Nat
  sessionIdleTimeout_pos : 0 < sessionIdleTimeout
  sessionIdleTimeout_le : sessionIdleTimeout ≤ sessionAbsoluteTimeout
  maxSessions_pos : 0 < maxSessions
  loginWindow_pos : 0 < loginWindow
  maxLoginAttemptsPerPeer_pos : 0 < maxLoginAttemptsPerPeer
  maxGlobalLoginAttempts_pos : 0 < maxGlobalLoginAttempts
  maxTrackedLoginPeers_pos : 0 < maxTrackedLoginPeers

/-- The attempts that were admitted, from the first to the last. -/
abbrev PeerAttempts := List Nat

def pruneAttempts (attempts : PeerAttempts) (now window : Nat) : PeerAttempts := attempts.dropWhile (window ≤ now - ·)

structure LoginRateLimiter (K : Type) where
  attempts : PeerAttempts
  peers : Table K PeerAttempts

structure Login (K : Type) where
  peer : K
  now : Nat

namespace LoginRateLimiter

variable {K : Type} [DecidableEq K]

def new : LoginRateLimiter K := ⟨[], ∅⟩

def prune (limiter : LoginRateLimiter K) (now window : Nat) : LoginRateLimiter K :=
  ⟨pruneAttempts limiter.attempts now window,
    keep (fun _ attempts => !attempts.isEmpty) (update (fun _ attempts => pruneAttempts attempts now window) limiter.peers)⟩

/-- Whether a login is admitted, and the limiter after it. -/
def admits (limits : WebRuntimeLimits) (limiter : LoginRateLimiter K) (login : Login K) : Bool × LoginRateLimiter K :=
  let limiter := limiter.prune login.now limits.loginWindow
  if limits.maxGlobalLoginAttempts ≤ limiter.attempts.length then (false, limiter)
  else if (limiter.peers.lookup login.peer).any (limits.maxLoginAttemptsPerPeer ≤ ·.length) then (false, limiter)
  else if login.peer ∉ limiter.peers ∧ len limiter.peers = limits.maxTrackedLoginPeers then (false, limiter)
  else (true, ⟨limiter.attempts ++ [login.now],
    limiter.peers.insert login.peer ((limiter.peers.lookup login.peer).getD [] ++ [login.now])⟩)

end LoginRateLimiter

section Recent

variable {K : Type} [DecidableEq K] {log : List (Login K)} {window clock now : Nat} {attempts : PeerAttempts}

/-- The logins of the window before a time. -/
def recent (window : Nat) (log : List (Login K)) (now : Nat) : List (Login K) := log.filter fun login => now - login.now < window

def recentOf (window : Nat) (log : List (Login K)) (peer : K) (now : Nat) : List (Login K) :=
  (recent window log now).filter fun login => login.peer = peer

/-- A sliding window over the admitted logins allows another. -/
structure Permits (limits : WebRuntimeLimits) (log : List (Login K)) (login : Login K) : Prop where
  global_lt : (recent limits.loginWindow log login.now).length < limits.maxGlobalLoginAttempts
  peer_lt : (recentOf limits.loginWindow log login.peer login.now).length < limits.maxLoginAttemptsPerPeer
  tracked_or : login.peer ∈ (recent limits.loginWindow log login.now).map Login.peer ∨
    ((recent limits.loginWindow log login.now).map Login.peer).toFinset.card < limits.maxTrackedLoginPeers

/-- Attempts are in order, so those of the window come last. -/
theorem pruneAttempts_eq (h : attempts.Pairwise (· ≤ ·)) : pruneAttempts attempts now window = attempts.filter (now - · < window) := by
  induction attempts with
  | nil => rfl
  | cons attempt attempts ih =>
      obtain ⟨hle, hsorted⟩ := List.pairwise_cons.mp h
      rw [pruneAttempts]
      by_cases hold : window ≤ now - attempt
      · rw [List.dropWhile_cons, if_pos (decide_eq_true hold), List.filter_cons_of_neg (by simpa using hold)]
        exact ih hsorted
      · rw [List.dropWhile_cons, if_neg (by simpa using hold)]
        refine (List.filter_eq_self.mpr fun later hlater => ?_).symm
        rcases List.mem_cons.mp hlater with rfl | hlater
        · exact decide_eq_true (not_le.mp hold)
        · have := hle later hlater
          exact decide_eq_true (by omega)

omit [DecidableEq K] in
/-- What falls out of the window does so for good. -/
theorem pruneAttempts_recent (hsorted : (log.map Login.now).Pairwise (· ≤ ·)) (hclock : clock ≤ now) :
    pruneAttempts ((recent window log clock).map Login.now) now window = (recent window log now).map Login.now := by
  have hrecent : ((recent window log clock).map Login.now).Pairwise (· ≤ ·) := hsorted.sublist (List.filter_sublist.map _)
  rw [pruneAttempts_eq hrecent, List.filter_map, recent, recent, List.filter_filter]
  refine congrArg (List.map Login.now) (List.filter_congr fun login _ => ?_)
  rw [Bool.eq_iff_iff, Bool.and_eq_true]
  simp only [Function.comp_apply, decide_eq_true_eq]
  omega

theorem recentOf_eq (window : Nat) (log : List (Login K)) (peer : K) (now : Nat) :
    recentOf window log peer now = recent window (log.filter fun login => login.peer = peer) now := by
  rw [recentOf, recent, recent, List.filter_filter, List.filter_filter]
  exact List.filter_congr fun login _ => Bool.and_comm _ _

/-- The limiter keeps the logins of the window. -/
structure Tracks (window : Nat) (limiter : LoginRateLimiter K) (log : List (Login K)) (now : Nat) : Prop where
  attempts_eq : limiter.attempts = (recent window log now).map Login.now
  peers_eq : ∀ peer, limiter.peers.lookup peer =
    if recentOf window log peer now = [] then none else some ((recentOf window log peer now).map Login.now)

variable {limiter : LoginRateLimiter K} {limits : WebRuntimeLimits} {login : Login K}

theorem tracks_new (window now : Nat) : Tracks window (.new : LoginRateLimiter K) [] now := ⟨rfl, fun _ => rfl⟩

theorem Tracks.prune (h : Tracks window limiter log clock) (hsorted : (log.map Login.now).Pairwise (· ≤ ·)) (hclock : clock ≤ now) :
    Tracks window (limiter.prune now window) log now := by
  refine ⟨?_, fun peer => ?_⟩
  · rw [LoginRateLimiter.prune, h.attempts_eq, pruneAttempts_recent hsorted hclock]
  · have hprune := @pruneAttempts_recent _ _ window _ _ (hsorted.sublist ((List.filter_sublist (p := fun login => login.peer = peer)).map _)) hclock
    rw [← recentOf_eq, ← recentOf_eq] at hprune
    have hold : recentOf window log peer clock = [] → recentOf window log peer now = [] := fun hnil => by
      rw [hnil] at hprune
      exact List.map_eq_nil_iff.mp hprune.symm
    rw [LoginRateLimiter.prune, lookup_keep, lookup_update, h.peers_eq]
    by_cases hnil : recentOf window log peer clock = []
    · rw [if_pos hnil, if_pos (hold hnil)]
      rfl
    · rw [if_neg hnil, Option.map_some, hprune]
      by_cases hgone : recentOf window log peer now = []
      · rw [if_pos hgone, hgone]
        rfl
      · rw [if_neg hgone]
        exact Option.filter_some_pos (by simpa using hgone)

theorem Tracks.mem_iff (h : Tracks window limiter log now) {peer : K} : peer ∈ limiter.peers ↔ peer ∈ (recent window log now).map Login.peer := by
  have hmem : peer ∈ (recent window log now).map Login.peer ↔ recentOf window log peer now ≠ [] := by
    rw [List.mem_map, Ne, List.eq_nil_iff_forall_not_mem]
    simp only [recentOf, List.mem_filter, decide_eq_true_eq, not_forall, not_not]
  rw [hmem, Finmap.mem_iff, h.peers_eq]
  by_cases hnil : recentOf window log peer now = []
  · rw [if_pos hnil]
    exact ⟨fun ⟨_, h⟩ => (by cases h), fun h => absurd hnil h⟩
  · rw [if_neg hnil]
    exact ⟨fun _ => hnil, fun _ => ⟨_, rfl⟩⟩

theorem Tracks.len_eq (h : Tracks window limiter log now) : len limiter.peers = ((recent window log now).map Login.peer).toFinset.card := by
  have hkeys : limiter.peers.keys = ((recent window log now).map Login.peer).toFinset := by
    ext peer
    rw [Finmap.mem_keys, h.mem_iff, List.mem_toFinset]
  rw [← hkeys, len, Finmap.keys]
  exact (Multiset.card_map _ _).symm

/-- A peer that has too many attempts is one that is tracked. -/
theorem Tracks.any_iff (h : Tracks window limiter log now) {peer : K} {limit : Nat} (hpos : 0 < limit) :
    (limiter.peers.lookup peer).any (limit ≤ ·.length) = true ↔ limit ≤ (recentOf window log peer now).length := by
  rw [h.peers_eq]
  by_cases hnil : recentOf window log peer now = []
  · rw [if_pos hnil, hnil]
    exact ⟨fun h => (by cases h), fun h => absurd h (not_le.mpr hpos)⟩
  · rw [if_neg hnil, Option.any_some, List.length_map, decide_eq_true_eq]

omit [DecidableEq K] in
theorem recent_append (hwindow : 0 < window) (log : List (Login K)) (login : Login K) :
    recent window (log ++ [login]) login.now = recent window log login.now ++ [login] := by
  have hself : login.now - login.now < window := (Nat.sub_self _).trans_lt hwindow
  rw [recent, List.filter_append, List.filter_cons, if_pos (decide_eq_true hself)]
  rfl

theorem recentOf_append (hwindow : 0 < window) (log : List (Login K)) (login : Login K) (peer : K) :
    recentOf window (log ++ [login]) peer login.now = recentOf window log peer login.now ++ if login.peer = peer then [login] else [] := by
  rw [recentOf, recent_append hwindow, List.filter_append, List.filter_singleton, Bool.cond_decide]
  rfl

theorem Tracks.push (hwindow : 0 < window) {login : Login K} (h : Tracks window limiter log login.now) :
    Tracks window ⟨limiter.attempts ++ [login.now],
      limiter.peers.insert login.peer ((limiter.peers.lookup login.peer).getD [] ++ [login.now])⟩ (log ++ [login]) login.now := by
  refine ⟨?_, fun peer => ?_⟩
  · rw [recent_append hwindow, List.map_append, h.attempts_eq]
    rfl
  · rw [recentOf_append hwindow]
    by_cases hpeer : peer = login.peer
    · subst hpeer
      have hbefore : (limiter.peers.lookup login.peer).getD [] = (recentOf window log login.peer login.now).map Login.now := by
        rw [h.peers_eq]
        by_cases hnil : recentOf window log login.peer login.now = []
        · rw [if_pos hnil, hnil]
          rfl
        · rw [if_neg hnil]
          rfl
      rw [Finmap.lookup_insert, hbefore, if_pos (rfl : login.peer = login.peer), List.map_append,
        if_neg (List.append_ne_nil_of_right_ne_nil _ (List.cons_ne_nil _ _))]
      rfl
    · rw [Finmap.lookup_insert_of_ne _ hpeer, h.peers_eq, if_neg (Ne.symm hpeer), List.append_nil]

/-- The limiter decides as the sliding window. -/
theorem Tracks.admits (h : Tracks limits.loginWindow limiter log clock) (hsorted : (log.map Login.now).Pairwise (· ≤ ·))
    (hclock : clock ≤ login.now)
    (hlen : ((recent limits.loginWindow log login.now).map Login.peer).toFinset.card ≤ limits.maxTrackedLoginPeers) :
    ((limiter.admits limits login).1 = true ↔ Permits limits log login) ∧
      Tracks limits.loginWindow (limiter.admits limits login).2 (if (limiter.admits limits login).1 then log ++ [login] else log) login.now := by
  have hpruned := h.prune hsorted hclock
  rw [LoginRateLimiter.admits]
  split
  · next hfull =>
    rw [hpruned.attempts_eq, List.length_map] at hfull
    exact ⟨⟨fun h => (by cases h), fun h => absurd h.global_lt (not_lt.mpr hfull)⟩, hpruned⟩
  · next hglobal =>
    rw [hpruned.attempts_eq, List.length_map, not_le] at hglobal
    split
    · next hfull =>
      rw [hpruned.any_iff limits.maxLoginAttemptsPerPeer_pos] at hfull
      exact ⟨⟨fun h => (by cases h), fun h => absurd h.peer_lt (not_lt.mpr hfull)⟩, hpruned⟩
    · next hpeer =>
      rw [hpruned.any_iff limits.maxLoginAttemptsPerPeer_pos, not_le] at hpeer
      split
      · next hfull =>
        rw [hpruned.mem_iff, hpruned.len_eq] at hfull
        refine ⟨⟨fun h => (by cases h), fun h => ?_⟩, hpruned⟩
        rcases h.tracked_or with htracked | hroom
        · exact absurd htracked hfull.1
        · exact absurd hfull.2 hroom.ne
      · next hroom =>
        rw [hpruned.mem_iff, hpruned.len_eq, not_and_or, not_not] at hroom
        exact ⟨⟨fun _ => ⟨hglobal, hpeer, hroom.imp_right hlen.lt_of_ne⟩, fun _ => rfl⟩, hpruned.push limits.loginWindow_pos⟩

end Recent

namespace LoginRateLimiter

variable {K : Type} [DecidableEq K] {limits : WebRuntimeLimits} {calls : List (Login K)} {clock now : Nat}

/-- The limiter after some calls, and those that were admitted. -/
def run (limits : WebRuntimeLimits) (calls : List (Login K)) : LoginRateLimiter K × List (Login K) :=
  calls.foldl (fun (limiter, log) login =>
    let (admitted, limiter) := limiter.admits limits login
    (limiter, if admitted then log ++ [login] else log)) (new, [])

def decision (limits : WebRuntimeLimits) (calls : List (Login K)) (login : Login K) : Bool := ((run limits calls).1.admits limits login).1

theorem run_append (limits : WebRuntimeLimits) (calls : List (Login K)) (login : Login K) :
    run limits (calls ++ [login]) = (((run limits calls).1.admits limits login).2,
      if decision limits calls login then (run limits calls).2 ++ [login] else (run limits calls).2) := by
  rw [run, List.foldl_append]
  rfl

/-- The logins of a window that begins at some time. -/
def within (window : Nat) (log : List (Login K)) (start : Nat) : List (Login K) :=
  log.filter fun login => start ≤ login.now ∧ login.now < start + window

omit [DecidableEq K] in
theorem within_sublist {window start : Nat} (log : List (Login K)) (hnow : now < start + window) :
    (within window log start).Sublist (recent window log now) := by
  refine List.monotone_filter_right _ fun login hlogin => ?_
  simp only [decide_eq_true_eq] at hlogin ⊢
  omega

omit [DecidableEq K] in
theorem recent_sublist {window : Nat} {log : List (Login K)} (hlog : ∀ login ∈ log, login.now ≤ now) :
    (recent window log now).Sublist (within window log (now + 1 - window)) := by
  have hfilter : recent window log now = log.filter fun login => now - login.now < window ∧ login.now ≤ now :=
    List.filter_congr fun login hlogin => by simp [hlog login hlogin]
  rw [hfilter]
  refine List.monotone_filter_right _ fun login hlogin => ?_
  simp only [decide_eq_true_eq] at hlogin ⊢
  omega

/-- What a run keeps true, up to the time of its last call. -/
structure Windowed (limits : WebRuntimeLimits) (limiter : LoginRateLimiter K) (log : List (Login K)) (now : Nat) : Prop where
  tracks : Tracks limits.loginWindow limiter log now
  sorted : (log.map Login.now).Pairwise (· ≤ ·)
  log_le : ∀ login ∈ log, login.now ≤ now
  global_le : ∀ start, (within limits.loginWindow log start).length ≤ limits.maxGlobalLoginAttempts
  peer_le : ∀ start peer, ((within limits.loginWindow log start).filter fun login => login.peer = peer).length ≤ limits.maxLoginAttemptsPerPeer
  peers_le : ∀ start, ((within limits.loginWindow log start).map Login.peer).toFinset.card ≤ limits.maxTrackedLoginPeers

variable {limiter : LoginRateLimiter K} {log : List (Login K)} {login : Login K}

theorem card_peers_mono {xs ys : List (Login K)} (h : xs.Sublist ys) : (xs.map Login.peer).toFinset.card ≤ (ys.map Login.peer).toFinset.card :=
  Finset.card_le_card fun _ hpeer => List.mem_toFinset.mpr ((h.map Login.peer).subset (List.mem_toFinset.mp hpeer))

theorem Windowed.recent_le (h : Windowed limits limiter log clock) (hclock : clock ≤ now) :
    ((recent limits.loginWindow log now).map Login.peer).toFinset.card ≤ limits.maxTrackedLoginPeers :=
  (card_peers_mono (recent_sublist fun login hlogin => (h.log_le login hlogin).trans hclock)).trans (h.peers_le _)

omit [DecidableEq K] in
theorem within_append (window : Nat) (log : List (Login K)) (login : Login K) (start : Nat) : within window (log ++ [login]) start =
    within window log start ++ if start ≤ login.now ∧ login.now < start + window then [login] else [] := by
  rw [within, List.filter_append, List.filter_singleton, Bool.cond_decide]
  rfl

/-- A login that is permitted keeps every window within the limits. -/
theorem Windowed.push (h : Windowed limits limiter log clock) (hclock : clock ≤ login.now) (hpermits : Permits limits log login)
    {limiter' : LoginRateLimiter K} (htracks : Tracks limits.loginWindow limiter' (log ++ [login]) login.now) :
    Windowed limits limiter' (log ++ [login]) login.now := by
  refine ⟨htracks, ?_, fun other hother => ?_, fun start => ?_, fun start peer => ?_, fun start => ?_⟩
  · rw [List.map_append, List.pairwise_append]
    refine ⟨h.sorted, List.pairwise_singleton _ _, fun time htime later hlater => ?_⟩
    obtain ⟨other, hother, rfl⟩ := List.mem_map.mp htime
    obtain rfl := List.mem_singleton.mp hlater
    exact (h.log_le other hother).trans hclock
  · rcases List.mem_append.mp hother with hother | hother
    · exact (h.log_le other hother).trans hclock
    · rw [List.mem_singleton.mp hother]
  · rw [within_append]
    split
    · next hin =>
      rw [List.length_append, List.length_singleton]
      exact (within_sublist log hin.2).length_le.trans_lt hpermits.global_lt
    · rw [List.append_nil]
      exact h.global_le start
  · rw [within_append]
    split
    · next hin =>
      rw [List.filter_append, List.filter_singleton, Bool.cond_decide]
      split
      · next hpeer =>
        subst hpeer
        rw [List.length_append, List.length_singleton]
        exact ((within_sublist log hin.2).filter _).length_le.trans_lt hpermits.peer_lt
      · rw [List.append_nil]
        exact h.peer_le start peer
    · rw [List.append_nil]
      exact h.peer_le start peer
  · rw [within_append]
    split
    · next hin =>
      have hsub := within_sublist log hin.2
      rw [List.map_append, List.toFinset_append]
      rcases hpermits.tracked_or with htracked | hroom
      · have hinsert : ((within limits.loginWindow log start).map Login.peer).toFinset ∪ ([login].map Login.peer).toFinset ⊆
            ((recent limits.loginWindow log login.now).map Login.peer).toFinset := by
          refine Finset.union_subset (fun _ hpeer => ?_) fun _ hpeer => ?_
          · exact List.mem_toFinset.mpr ((hsub.map Login.peer).subset (List.mem_toFinset.mp hpeer))
          · obtain rfl := List.mem_singleton.mp (List.mem_toFinset.mp hpeer)
            exact List.mem_toFinset.mpr htracked
        exact (Finset.card_le_card hinsert).trans (h.recent_le hclock)
      · have hcard := card_peers_mono hsub
        have hone : ([login].map Login.peer).toFinset.card ≤ 1 := List.toFinset_card_le _
        exact (Finset.card_union_le _ _).trans (by omega)
    · rw [List.append_nil]
      exact h.peers_le start

theorem windowed_run (limits : WebRuntimeLimits) (hsorted : (calls.map Login.now).Pairwise (· ≤ ·)) :
    ∀ now, (∀ login ∈ calls, login.now ≤ now) → ∃ clock ≤ now, Windowed limits (run limits calls).1 (run limits calls).2 clock := by
  induction calls using List.reverseRecOn with
  | nil =>
      exact fun now _ => ⟨0, Nat.zero_le _, tracks_new _ _, List.Pairwise.nil, fun _ h => (by cases h), fun _ => Nat.zero_le _,
        fun _ _ => Nat.zero_le _, fun _ => Nat.zero_le _⟩
  | append_singleton calls login ih =>
      intro now hnow
      rw [List.map_append, List.pairwise_append] at hsorted
      obtain ⟨clock, hclock, hwindowed⟩ := ih hsorted.1 login.now fun earlier hearlier =>
        hsorted.2.2 _ (List.mem_map_of_mem hearlier) _ List.mem_cons_self
      obtain ⟨hiff, htracks⟩ := hwindowed.tracks.admits hwindowed.sorted hclock (hwindowed.recent_le hclock)
      refine ⟨login.now, hnow login (List.mem_append_right _ List.mem_cons_self), ?_⟩
      rw [run_append]
      cases hadmitted : decision limits calls login with
      | true =>
          rw [← decision, hadmitted] at htracks
          exact hwindowed.push hclock (hiff.mp hadmitted) htracks
      | false =>
          rw [← decision, hadmitted] at htracks
          exact ⟨htracks, hwindowed.sorted, fun other hother => (hwindowed.log_le other hother).trans hclock, hwindowed.global_le,
            hwindowed.peer_le, hwindowed.peers_le⟩

theorem decision_iff (limits : WebRuntimeLimits) (login : Login K) (hsorted : ((calls ++ [login]).map Login.now).Pairwise (· ≤ ·)) :
    decision limits calls login = true ↔ Permits limits (run limits calls).2 login := by
  rw [List.map_append, List.pairwise_append] at hsorted
  obtain ⟨clock, hclock, hwindowed⟩ := windowed_run limits hsorted.1 login.now fun earlier hearlier =>
    hsorted.2.2 _ (List.mem_map_of_mem hearlier) _ List.mem_cons_self
  exact (hwindowed.tracks.admits hwindowed.sorted hclock (hwindowed.recent_le hclock)).1

/-- Logins are decided alike where the same ones were admitted before. -/
theorem decision_congr {after : List (Login K)} {next : Login K} (hsorted : ((calls ++ login :: (after ++ [next])).map Login.now).Pairwise (· ≤ ·))
    (hlog : (run limits (calls ++ login :: after)).2 = (run limits (calls ++ after)).2) :
    decision limits (calls ++ login :: after) next = decision limits (calls ++ after) next := by
  have hwithout : ((calls ++ after) ++ [next]).Sublist (calls ++ login :: (after ++ [next])) := by
    rw [List.append_assoc]
    exact (List.Sublist.refl calls).append (List.sublist_cons_self _ _)
  have hwith : ((calls ++ login :: after) ++ [next]).Sublist (calls ++ login :: (after ++ [next])) := by simp
  rw [Bool.eq_iff_iff, decision_iff limits next (hsorted.sublist (hwith.map _)), decision_iff limits next (hsorted.sublist (hwithout.map _)),
    hlog]

/-- A denied login can be left out. -/
theorem run_denied (after : List (Login K)) (hsorted : ((calls ++ login :: after).map Login.now).Pairwise (· ≤ ·))
    (hdenied : decision limits calls login = false) : (run limits (calls ++ login :: after)).2 = (run limits (calls ++ after)).2 := by
  induction after using List.reverseRecOn with
  | nil => rw [run_append, hdenied, List.append_nil]; rfl
  | append_singleton after next ih =>
      have hsplit : calls ++ login :: (after ++ [next]) = (calls ++ login :: after) ++ [next] := by simp
      have hlog := ih ((hsplit ▸ hsorted).sublist ((List.sublist_append_left _ _).map _))
      have hsame := decision_congr hsorted hlog
      rw [hsplit, ← List.append_assoc, run_append, run_append, hsame, hlog]

/-- A login is admitted if the sliding window over those that were permits it. No window has more than the limits,
a denied login has no effect on later ones, and the table is bounded. -/
theorem login_windowed (limits : WebRuntimeLimits) (calls : List (Login K)) (login : Login K)
    (hsorted : ((calls ++ [login]).map Login.now).Pairwise (· ≤ ·)) :
    let (limiter, log) := run limits (calls ++ [login])
    (decision limits calls login = true ↔ Permits limits (run limits calls).2 login) ∧
      (∀ start, (within limits.loginWindow log start).length ≤ limits.maxGlobalLoginAttempts ∧
        ((within limits.loginWindow log start).map Login.peer).toFinset.card ≤ limits.maxTrackedLoginPeers ∧
        ∀ peer, ((within limits.loginWindow log start).filter fun login => login.peer = peer).length ≤ limits.maxLoginAttemptsPerPeer) ∧
      (decision limits calls login = false → ∀ after next, ((calls ++ login :: (after ++ [next])).map Login.now).Pairwise (· ≤ ·) →
        decision limits (calls ++ login :: after) next = decision limits (calls ++ after) next) ∧
      len limiter.peers ≤ limits.maxTrackedLoginPeers := by
  have hlast : ∀ earlier ∈ calls ++ [login], earlier.now ≤ login.now := by
    rw [List.map_append, List.pairwise_append] at hsorted
    intro earlier hearlier
    rcases List.mem_append.mp hearlier with hearlier | hearlier
    · exact hsorted.2.2 _ (List.mem_map_of_mem hearlier) _ List.mem_cons_self
    · rw [List.mem_singleton.mp hearlier]
  obtain ⟨clock, -, hwindowed⟩ := windowed_run limits hsorted login.now hlast
  refine ⟨decision_iff limits login hsorted, fun start => ⟨hwindowed.global_le start, hwindowed.peers_le start, hwindowed.peer_le start⟩,
    fun hdenied after next hafter => ?_, ?_⟩
  · have hsplit : calls ++ login :: (after ++ [next]) = (calls ++ login :: after) ++ [next] := by simp
    exact decision_congr hafter (run_denied after ((hsplit ▸ hafter).sublist ((List.sublist_append_left _ _).map _)) hdenied)
  · change len (run limits (calls ++ [login])).1.peers ≤ _
    rw [hwindowed.tracks.len_eq]
    exact hwindowed.recent_le (le_refl _)

/-- The second login from a peer comes exactly a window after the first. -/
theorem login_windowed_boundary :
    let limits : WebRuntimeLimits := ⟨1, 1, 1, 60, 1, 1, 1, by decide, by decide, by decide, by decide, by decide, by decide, by decide⟩
    decision limits [⟨7, 0⟩, ⟨8, 59⟩] ⟨7, 60⟩ = true ∧ decision limits [⟨7, 0⟩] ⟨8, 59⟩ = false := by
  refine ⟨((login_windowed _ [⟨7, 0⟩, ⟨8, 59⟩] ⟨7, 60⟩ (by decide)).1).mpr ⟨by decide, by decide, by decide⟩, ?_⟩
  exact Bool.eq_false_iff.mpr fun h => absurd (((login_windowed _ [⟨7, 0⟩] ⟨8, 59⟩ (by decide)).1).mp h).global_lt (by decide)

end LoginRateLimiter

end Rustgo.Web
