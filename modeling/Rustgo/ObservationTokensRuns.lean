import Rustgo.ObservationTokensInvariant

namespace Rustgo.Observation

open Protocol Rendezvous Registry Tables GuardSystem Runs ObservationState

namespace System

variable {s t : System} {l : Label} {labels : List Label} {call : Call} {hand : List Call}

theorem Sound.spent_lt (h : s.Sound hand) {n : Nat} (hn : n ∈ s.spent hand) : n < s.issued.length := by
  have hmatches {token : ObservationToken} {entry : PendingToken} (hentry : s.Matches token entry) : entry.issue < s.issued.length := by
    obtain ⟨issue, hissue, -⟩ := hentry
    exact (List.getElem?_eq_some_iff.mp hissue).1
  obtain hcalls | hauthorized := List.mem_append.mp hn
  · obtain ⟨call, hcall, hissue⟩ := List.mem_filterMap.mp hcalls
    have hknows := h.known call hcall
    cases call with
    | stamping lease identity => cases hissue
    | issuing lease identity now expiresAt expiresUnixSecs => cases hissue
    | probing probe endpoint sourceIp now => cases hissue
    | redeemed probe endpoint now pending =>
        obtain rfl := Option.some.inj hissue
        exact hmatches hknows.1
    | rechecked probe endpoint now pending live =>
        obtain rfl := Option.some.inj hissue
        exact hmatches hknows.1.1
  · obtain ⟨a, ha, rfl⟩ := List.mem_map.mp hauthorized
    obtain ⟨issue, hissue, -⟩ := h.answered a ha
    exact (List.getElem?_eq_some_iff.mp hissue).1

/-- Two tokens are issued, under the next two numbers. -/
theorem Sound.issue {lease : Nat} {identity : AuthenticatedClient} {now expiresAt expiresUnixSecs : Nat}
    {primary alternate : ObservationToken} {state : ObservationState}
    (h : s.Sound [.issuing lease identity now expiresAt expiresUnixSecs]) (hbounded : state.Bounded s.limits)
    (hstate : state.pending = ((s.state.retainLive now).pending.insert primary ⟨identity, .primary, expiresAt, s.issued.length⟩).insert
      alternate ⟨identity, .alternate, expiresAt, s.issued.length + 1⟩) :
    Sound { s with
      state := state
      issued := s.issued ++ [⟨lease, identity, .primary, primary, expiresAt⟩, ⟨lease, identity, .alternate, alternate, expiresAt⟩] } [] := by
  have hleased : s.guards.identities[lease]? = some identity := h.known _ List.mem_cons_self
  have hprefix {k : Nat} {issue : Issue} (hk : s.issued[k]? = some issue) : (s.issued ++ [⟨lease, identity, .primary, primary, expiresAt⟩,
      ⟨lease, identity, .alternate, alternate, expiresAt⟩])[k]? = some issue := by
    rw [List.getElem?_append_left (List.getElem?_eq_some_iff.mp hk).1, hk]
  -- Each entry on the table is one of the two new ones, or an old one.
  have hcases {token : ObservationToken} {entry : PendingToken} (hentry : state.pending.lookup token = some entry) :
      (token = alternate ∧ entry = ⟨identity, .alternate, expiresAt, s.issued.length + 1⟩) ∨
      (token = primary ∧ entry = ⟨identity, .primary, expiresAt, s.issued.length⟩) ∨ s.state.pending.lookup token = some entry := by
    rw [hstate] at hentry
    by_cases halternate : token = alternate
    · rw [halternate, Finmap.lookup_insert] at hentry
      exact .inl ⟨halternate, (Option.some.inj hentry).symm⟩
    · rw [Finmap.lookup_insert_of_ne _ halternate] at hentry
      by_cases hprimary : token = primary
      · rw [hprimary, Finmap.lookup_insert] at hentry
        exact .inr (.inl ⟨hprimary, (Option.some.inj hentry).symm⟩)
      · rw [Finmap.lookup_insert_of_ne _ hprimary] at hentry
        exact .inr (.inr (lookup_keep_eq_some.mp hentry).1)
  refine { h with
    bounded := hbounded
    leased := fun issue hissue => ?_
    pending := fun token entry hentry => ?_
    known := fun call hcall => ?_
    answered := fun a ha => ?_
    once := h.once
    unspent := fun token entry hentry hspent => ?_ }
  · obtain hold | hnew := List.mem_append.mp hissue
    · exact h.leased issue hold
    · obtain rfl | hlast := List.mem_cons.mp hnew
      · exact hleased
      · obtain rfl := List.mem_singleton.mp hlast
        exact hleased
  · obtain ⟨rfl, rfl⟩ | ⟨rfl, rfl⟩ | hold := hcases hentry
    · exact ⟨_, by rw [List.getElem?_append_right (Nat.le_succ _), Nat.succ_sub (Nat.le_refl _), Nat.sub_self]; rfl, rfl, rfl, rfl, rfl⟩
    · exact ⟨_, by rw [List.getElem?_append_right (Nat.le_refl _), Nat.sub_self]; rfl, rfl, rfl, rfl, rfl⟩
    · obtain ⟨issue, hissue, hrest⟩ := h.pending token entry hold
      exact ⟨issue, hprefix hissue, hrest⟩
  · exact (h.known call (List.mem_cons_of_mem _ hcall)).mono (fun k issue hk => hprefix hk) fun k identity hk => hk
  · obtain ⟨issue, hissue, hrest⟩ := h.answered a ha
    exact ⟨issue, hprefix hissue, hrest⟩
  · have hlt := h.spent_lt hspent
    obtain ⟨-, rfl⟩ | ⟨-, rfl⟩ | hold := hcases hentry
    · exact absurd hlt (by simp)
    · exact absurd hlt (lt_irrefl _)
    · exact h.unspent token entry hold hspent

/-- The session that the registry found active is the one of the token. -/
theorem Sound.live {token : ObservationToken} {entry : PendingToken} (h : s.Sound hand) (hentry : s.Matches token entry)
    (hactive : s.guards.registry.isActiveSession entry.identity = true) : s.sessionLive entry.issue = true := by
  obtain ⟨issue, hissue, -, hidentity, -⟩ := hentry
  obtain ⟨lease, hmem, hlease, havailable⟩ := exists_lease_of_active h.matched h.shown hactive
  obtain ⟨k, hk⟩ := List.mem_iff_getElem?.mp hmem
  have hidentities : s.guards.identities[k]? = some issue.identity := by
    rw [identities, List.getElem?_map, hk, Option.map_some, hlease, hidentity]
  have hdistinct : s.guards.identities.Nodup := by
    refine List.Nodup.of_map AuthenticatedClient.sessionId (h.distinct.sublist ?_)
    exact (List.sublist_append_right s.authenticated s.guards.identities).map _
  -- Session numbers never repeat, so the guard is the one the token was issued to.
  have hlt := (List.getElem?_eq_some_iff.mp hidentities).1
  obtain rfl := (List.getElem?_inj hlt hdistinct).mp (hidentities.trans (h.leased issue (List.mem_of_getElem? hissue)).symm)
  rw [sessionLive, hissue, Option.any_some, hk, Option.any_some]
  exact decide_eq_true ⟨hlease.trans hidentity.symm, havailable⟩

/-- The sessions change, and each keeps its place and its number. -/
theorem Sound.sessions {guards : GuardSystem} {authenticated : List AuthenticatedClient} {sequence : Nat} (h : s.Sound [])
    (hmatched : Matched guards.registry guards.leases) (hshown : Shown guards.registry guards.leases)
    (hidentities : ∀ (k : Nat) (identity : AuthenticatedClient),
      s.guards.identities[k]? = some identity → guards.identities[k]? = some identity)
    (hreached : sequence < 2 ^ 64)
    (hsequenced : ∀ id ∈ (authenticated ++ guards.identities).map AuthenticatedClient.sessionId,
      ∃ random number, id = sessionId random number ∧ number < sequence)
    (hdistinct : ((authenticated ++ guards.identities).map AuthenticatedClient.sessionId).Nodup) :
    Sound { s with guards := guards, authenticated := authenticated, nextSessionSequence := sequence } [] :=
  { h with
    matched := hmatched
    shown := hshown
    reached := hreached
    sequenced := hsequenced
    distinct := hdistinct
    leased := fun issue hissue => hidentities _ _ (h.leased issue hissue)
    known := fun call hcall => (h.known call hcall).mono (fun k issue hk => hk) hidentities }

theorem sessionId_injective {random random' : Vector UInt8 SESSION_RANDOM_BYTES} {m n : Nat} (hm : m < 2 ^ 64) (hn : n < 2 ^ 64)
    (h : sessionId random m = sessionId random' n) : m = n := by
  have hlength : random.toList.length = random'.toList.length := by rw [Vector.length_toList, Vector.length_toList]
  exact be_injective hm hn (List.append_inj h hlength).2

theorem Sound.authenticate (h : s.Sound []) (name : DeviceName) (fingerprint : String) (random : Vector UInt8 SESSION_RANDOM_BYTES)
    (hroom : s.nextSessionSequence + 1 < 2 ^ 64) :
    Sound { s with
      nextSessionSequence := s.nextSessionSequence + 1
      authenticated := ⟨name, fingerprint, sessionId random s.nextSessionSequence⟩ :: s.authenticated } [] := by
  refine h.sessions h.matched h.shown (fun k identity hk => hk) hroom (fun id hid => ?_) ?_
  · obtain rfl | hold := List.mem_cons.mp hid
    · exact ⟨random, s.nextSessionSequence, rfl, Nat.lt_succ_self _⟩
    · obtain ⟨random', number, hnumber, hlt⟩ := h.sequenced id hold
      exact ⟨random', number, hnumber, hlt.trans (Nat.lt_succ_self _)⟩
  · refine List.nodup_cons.mpr ⟨fun hmem => ?_, h.distinct⟩
    obtain ⟨random', number, hnumber, hlt⟩ := h.sequenced _ hmem
    exact absurd (sessionId_injective h.reached (hlt.trans h.reached) hnumber) (Nat.ne_of_gt hlt)

theorem Sound.session {guards : GuardSystem} {g : GuardLabel} {authenticated : List AuthenticatedClient} (h : s.Sound [])
    (hguards : GuardSystem.Step s.guards g guards)
    (hauthenticated : authenticated = match g with
      | .claim identity _ _ _ => s.authenticated.erase identity
      | _ => s.authenticated)
    (hclaimed : ∀ identity outbound version now, g = .claim identity outbound version now → identity ∈ s.authenticated) :
    Sound { s with guards := guards, authenticated := authenticated } [] := by
  have hsub : ∃ gone, (s.authenticated ++ s.guards.identities).Perm (gone ++ (authenticated ++ guards.identities)) := by
    obtain heq | ⟨identity, outbound, version, now, rfl, heq⟩ := step_identities hguards
    · rw [heq]
      cases g with
      | claim identity outbound version now =>
          subst hauthenticated
          have hmem := hclaimed identity outbound version now rfl
          exact ⟨[identity], (List.perm_cons_erase hmem).append_right _⟩
      | bindListener | markUnavailable | finishShutdown | drop | runSpawned =>
          subst hauthenticated
          exact ⟨[], .refl _⟩
    · subst hauthenticated
      have hmem := hclaimed identity outbound version now rfl
      refine ⟨[], ?_⟩
      rw [heq, List.nil_append, ← List.append_assoc]
      exact ((List.perm_cons_erase hmem).append_right _).trans (List.perm_append_singleton identity _).symm
  obtain ⟨gone, hperm⟩ := hsub
  have hids : s.sessionIds.Perm (gone.map AuthenticatedClient.sessionId ++
      (authenticated ++ guards.identities).map AuthenticatedClient.sessionId) :=
    (hperm.map AuthenticatedClient.sessionId).trans (.of_eq List.map_append)
  exact h.sessions (step_matched h.matched hguards) (step_shown h.matched h.shown hguards)
    (fun k identity hk => identities_prefix hguards hk) h.reached
    (fun id hid => h.sequenced id (hids.mem_iff.mpr (List.mem_append_right _ hid)))
    ((hids.nodup_iff.mp h.distinct).sublist (List.sublist_append_right _ _))

theorem Sound.request {lease : Lease} {i : Nat} (h : s.Sound []) (hlease : s.guards.leases[i]? = some lease) :
    Sound { s with calls := .stamping i lease.guard.identity :: s.calls } [] := by
  refine { h with known := fun call hcall => ?_, once := h.once, unspent := h.unspent }
  obtain rfl | hold := List.mem_cons.mp hcall
  · rw [Knows, identities, List.getElem?_map, hlease, Option.map_some]
  · exact h.known call hold

theorem Sound.probe (h : s.Sound []) (probe : ObservationProbe) (endpoint : ObservationEndpoint) (sourceIp : IpAddr) :
    Sound { s with calls := .probing probe endpoint sourceIp s.now :: s.calls } [] := by
  refine { h with known := fun call hcall => ?_, once := h.once, unspent := h.unspent }
  obtain rfl | hold := List.mem_cons.mp hcall
  · trivial
  · exact h.known call hold

theorem resume_sound (unixNow : Int) (primaryDraws alternateDraws : List (Option ObservationToken)) (h : s.Sound [call]) :
    (s.resume unixNow primaryDraws alternateDraws call).Sound [] := by
  cases call with
  | stamping lease identity =>
      rw [resume]
      split
      · exact h.discard
      · have hknows := h.known _ List.mem_cons_self
        exact h.resume hknows rfl
  | issuing lease identity now expiresAt expiresUnixSecs =>
      have hbounded := issue_bounded h.bounded h.valid identity now expiresAt expiresUnixSecs s.issued.length primaryDraws alternateDraws
      rw [resume]
      obtain ⟨e, heq⟩ | ⟨primary, alternate, heq, -⟩ :=
        issue_cases s.state s.limits identity now expiresAt expiresUnixSecs s.issued.length primaryDraws alternateDraws
      · rw [heq] at hbounded ⊢
        exact h.discard.shrink hbounded fun token entry hentry => (lookup_keep_eq_some.mp hentry).1
      · rw [heq] at hbounded ⊢
        exact h.issue hbounded rfl
  | probing probe endpoint sourceIp now =>
      have hbounded := redeem_bounded h.bounded probe endpoint sourceIp now
      rw [resume]
      obtain heq | ⟨entry, hentry, hendpoint, -, hstate, hresult⟩ := redeem_cases s.state s.limits probe endpoint sourceIp now
      · rw [heq] at hbounded ⊢
        exact h.discard.shrink hbounded fun token entry hentry => by rwa [admitSource_pending] at hentry
      · generalize s.state.redeem s.limits probe endpoint sourceIp now = redeemed at hbounded hstate hresult ⊢
        obtain ⟨result, state⟩ := redeemed
        dsimp only at hbounded hstate hresult ⊢
        obtain rfl | ⟨rfl, hexpiry⟩ := hresult
        · refine h.discard.shrink hbounded fun token other hother => ?_
          rw [hstate] at hother
          exact (lookup_erase_eq_some hother).2
        · exact h.redeem hentry hendpoint hexpiry hbounded (congrArg ObservationState.pending hstate)
  | redeemed probe endpoint now pending =>
      rw [resume]
      split
      · next hactive =>
        have hknows := h.known _ List.mem_cons_self
        exact h.resume ⟨hknows, h.live hknows.1 hactive⟩ rfl
      · exact h.discard
  | rechecked probe endpoint now pending live =>
      have hbounded := admitDevice_bounded h.bounded pending.identity.fingerprint now
      rw [resume]
      split
      · next state heq =>
        rw [heq] at hbounded
        obtain rfl := congrArg Prod.snd heq
        exact h.discard.shrink hbounded fun token entry hentry => hentry
      · next state heq =>
        rw [heq] at hbounded
        obtain rfl := congrArg Prod.snd heq
        exact h.authorize.shrink hbounded fun token entry hentry => hentry

theorem step_sound (h : s.Sound []) (hstep : Step s l t) : t.Sound [] := by
  cases l with
  | authenticate name fingerprint random =>
      rw [Step, next] at hstep
      split at hstep
      · next hroom =>
        obtain rfl := Option.some.inj hstep
        exact h.authenticate name fingerprint random hroom
      · obtain rfl := Option.some.inj hstep
        exact h
  | session g =>
      cases g with
      | claim identity outbound version now =>
          rw [Step, next] at hstep
          split at hstep
          · next hmem =>
            obtain ⟨guards, hguards, rfl⟩ := Option.map_eq_some_iff.mp hstep
            refine h.session hguards rfl fun other outbound' version' now' heq => ?_
            obtain ⟨rfl, -⟩ := GuardLabel.claim.inj heq
            exact hmem
          · cases hstep
      | bindListener | markUnavailable | finishShutdown | drop | runSpawned =>
          obtain ⟨guards, hguards, rfl⟩ := Option.map_eq_some_iff.mp hstep
          exact h.session hguards rfl fun _ _ _ _ heq => by cases heq
  | request i =>
      obtain ⟨lease, hlease, rfl⟩ := Option.map_eq_some_iff.mp hstep
      split
      · exact h.request (Option.filter_eq_some_iff.mp hlease).1
      · exact h
  | probe probe endpoint sourceIp =>
      obtain rfl := Option.some.inj hstep
      exact h.probe probe endpoint sourceIp
  | resume call unixNow primaryDraws alternateDraws =>
      rw [Step, next] at hstep
      split at hstep
      · next hmem =>
        obtain rfl := Option.some.inj hstep
        exact resume_sound unixNow primaryDraws alternateDraws (h.take hmem)
      · cases hstep
  | pass nanoseconds =>
      obtain rfl := Option.some.inj hstep
      exact { h with }

theorem bind_sound {limits : ObservationRuntimeLimits} {maxClients now : Nat} {unixNow : Int}
    (h : bind limits maxClients now unixNow = some s) : s.Sound [] ∧ s.limits = limits := by
  rw [bind] at h
  split at h
  · next hvalid =>
    obtain rfl := Option.some.inj h
    refine ⟨?_, rfl⟩
    constructor
    case valid => exact hvalid.2.1
    case bounded => exact default_bounded limits now
    case matched => exact new_matched maxClients
    case shown => exact fun lease hlease => absurd hlease List.not_mem_nil
    case reached => exact Nat.two_pow_pos 64
    case sequenced => exact fun id hid => absurd hid List.not_mem_nil
    case distinct => exact .nil
    case leased => exact fun issue hissue => absurd hissue List.not_mem_nil
    case pending => exact fun token entry hentry => absurd hentry (by simp [ObservationState.default])
    case known => exact fun call hcall => absurd hcall List.not_mem_nil
    case answered => exact fun a ha => absurd ha List.not_mem_nil
    case once => exact .nil
    case unspent => exact fun token entry hentry => absurd hentry (by simp [ObservationState.default])
  · cases h

theorem resume_limits (s : System) (unixNow : Int) (primaryDraws alternateDraws : List (Option ObservationToken)) (call : Call) :
    (s.resume unixNow primaryDraws alternateDraws call).limits = s.limits := by
  cases call with
  | stamping | issuing | probing | redeemed | rechecked =>
      rw [resume]
      split <;> rfl

theorem step_limits (hstep : Step s l t) : t.limits = s.limits := by
  cases l with
  | authenticate name fingerprint random =>
      rw [Step, next] at hstep
      split at hstep
      · obtain rfl := Option.some.inj hstep
        rfl
      · obtain rfl := Option.some.inj hstep
        rfl
  | session g =>
      cases g with
      | claim identity outbound version now =>
          rw [Step, next] at hstep
          split at hstep
          · obtain ⟨guards, -, rfl⟩ := Option.map_eq_some_iff.mp hstep
            rfl
          · cases hstep
      | bindListener | markUnavailable | finishShutdown | drop | runSpawned =>
          obtain ⟨guards, -, rfl⟩ := Option.map_eq_some_iff.mp hstep
          rfl
  | request i =>
      obtain ⟨lease, -, rfl⟩ := Option.map_eq_some_iff.mp hstep
      split <;> rfl
  | probe probe endpoint sourceIp =>
      obtain rfl := Option.some.inj hstep
      rfl
  | resume call unixNow primaryDraws alternateDraws =>
      rw [Step, next] at hstep
      split at hstep
      · obtain rfl := Option.some.inj hstep
        exact resume_limits _ unixNow primaryDraws alternateDraws call
      · cases hstep
  | pass nanoseconds =>
      obtain rfl := Option.some.inj hstep
      rfl

/-- The step by which a token leaves the table: an issue that finds it expired, or
a probe that the limiter admits on the endpoint of the token. -/
def Takes (s : System) (token : ObservationToken) (entry : PendingToken) : Call → Prop
  | .issuing _ _ now _ _ => entry.expiresAt ≤ now
  | .probing probe endpoint sourceIp now =>
      probe.token = token ∧ entry.endpoint = endpoint ∧ (s.state.admitSource s.limits sourceIp now).1 = true
  | _ => False

theorem resume_pending {token : ObservationToken} {entry : PendingToken} (unixNow : Int)
    (primaryDraws alternateDraws : List (Option ObservationToken)) (call : Call) (hentry : s.state.pending.lookup token = some entry) :
    (s.resume unixNow primaryDraws alternateDraws call).state.pending.lookup token = some entry ∨ s.Takes token entry call := by
  cases call with
  | stamping lease identity =>
      left
      rw [resume]
      split
      · exact hentry
      · exact hentry
  | issuing lease identity now expiresAt expiresUnixSecs =>
      by_cases hexpired : entry.expiresAt ≤ now
      · exact .inr hexpired
      · left
        have hkept : (s.state.retainLive now).pending.lookup token = some entry :=
          lookup_keep_eq_some.mpr ⟨hentry, decide_eq_true (not_le.mp hexpired)⟩
        rw [resume]
        obtain ⟨e, heq⟩ | ⟨primary, alternate, heq, -, hprimary, halternate, -⟩ :=
          issue_cases s.state s.limits identity now expiresAt expiresUnixSecs s.issued.length primaryDraws alternateDraws
        · rw [heq]
          exact hkept
        · have hne {other : ObservationToken} (hother : other ∉ (s.state.retainLive now).pending) : token ≠ other := by
            rintro rfl
            exact hother (Finmap.mem_of_lookup_eq_some hkept)
          rw [heq]
          dsimp only
          rw [Finmap.lookup_insert_of_ne _ (hne halternate), Finmap.lookup_insert_of_ne _ (hne hprimary), hkept]
  | probing probe endpoint sourceIp now =>
      rw [resume]
      obtain heq | ⟨other, hother, hendpoint, hallowed, hstate, -⟩ := redeem_cases s.state s.limits probe endpoint sourceIp now
      · left
        rw [heq]
        dsimp only
        rw [admitSource_pending, hentry]
      · by_cases htoken : probe.token = token
        · subst htoken
          obtain rfl := Option.some.inj (hentry.symm.trans hother)
          exact .inr ⟨rfl, hendpoint, hallowed⟩
        · left
          have hkept : (s.state.redeem s.limits probe endpoint sourceIp now).2.pending.lookup token = some entry := by
            rw [hstate]
            dsimp only
            rw [Finmap.lookup_erase_ne (Ne.symm htoken), hentry]
          split
          · next heq =>
            rw [heq] at hkept
            exact hkept
          · next heq =>
            rw [heq] at hkept
            exact hkept
  | redeemed probe endpoint now pending =>
      left
      rw [resume]
      split
      · exact hentry
      · exact hentry
  | rechecked probe endpoint now pending live =>
      left
      rw [resume]
      split
      · next heq =>
        obtain rfl := congrArg Prod.snd heq
        exact hentry
      · next heq =>
        obtain rfl := congrArg Prod.snd heq
        exact hentry

/-- Nothing but a call under the lock touches the tokens. -/
theorem step_pending {token : ObservationToken} {entry : PendingToken} (hstep : Step s l t)
    (hentry : s.state.pending.lookup token = some entry) :
    t.state.pending.lookup token = some entry ∨
      ∃ call unixNow primaryDraws alternateDraws, l = .resume call unixNow primaryDraws alternateDraws ∧ s.Takes token entry call := by
  cases l with
  | authenticate name fingerprint random =>
      left
      rw [Step, next] at hstep
      split at hstep
      · obtain rfl := Option.some.inj hstep
        exact hentry
      · obtain rfl := Option.some.inj hstep
        exact hentry
  | session g =>
      left
      cases g with
      | claim identity outbound version now =>
          rw [Step, next] at hstep
          split at hstep
          · obtain ⟨guards, -, rfl⟩ := Option.map_eq_some_iff.mp hstep
            exact hentry
          · cases hstep
      | bindListener | markUnavailable | finishShutdown | drop | runSpawned =>
          obtain ⟨guards, -, rfl⟩ := Option.map_eq_some_iff.mp hstep
          exact hentry
  | request i =>
      left
      obtain ⟨lease, -, rfl⟩ := Option.map_eq_some_iff.mp hstep
      split
      · exact hentry
      · exact hentry
  | probe probe endpoint sourceIp =>
      left
      obtain rfl := Option.some.inj hstep
      exact hentry
  | resume call unixNow primaryDraws alternateDraws =>
      rw [Step, next] at hstep
      split at hstep
      · obtain rfl := Option.some.inj hstep
        have htaken := resume_pending (s := { s with calls := s.calls.erase call })
          unixNow primaryDraws alternateDraws call hentry
        refine htaken.imp_right fun htakes => ⟨call, unixNow, primaryDraws, alternateDraws, rfl, ?_⟩
        cases call <;> exact htakes
      · cases hstep
  | pass nanoseconds =>
      left
      obtain rfl := Option.some.inj hstep
      exact hentry

theorem run_sound {limits : ObservationRuntimeLimits} {maxClients now : Nat} {unixNow : Int} {s₀ : System}
    (hbind : bind limits maxClients now unixNow = some s₀) (hrun : Run Step s₀ labels s) : s.Sound [] ∧ s.limits = limits :=
  hrun.invariant (P := fun s => s.Sound [] ∧ s.limits = limits)
    (fun _ _ _ h hstep => ⟨step_sound h.1 hstep, (step_limits hstep).trans h.2⟩) (bind_sound hbind)

/-- A token answers one probe at most, on its endpoint, before it expires and while
its session is available. Only such a probe or its expiry takes it off the table. -/
theorem tokens_authorize_once {limits : ObservationRuntimeLimits} {maxClients now : Nat} {unixNow : Int} {s₀ : System}
    (hbind : bind limits maxClients now unixNow = some s₀) (hrun : Run Step s₀ labels s) :
    (s.authorized.map Authorization.issue).Nodup ∧
    (∀ a ∈ s.authorized, ∃ issue, s.issued[a.issue]? = some issue ∧ issue.token = a.probe.token ∧ issue.endpoint = a.endpoint ∧
      a.now < issue.expiresAt ∧ a.live = true) ∧
    len s.state.pending ≤ limits.maxPendingTokens ∧
    (∀ probe endpoint sourceIp now, ((s.state.admitSource limits sourceIp now).1 = false ∨
        ∃ entry, s.state.pending.lookup probe.token = some entry ∧ entry.endpoint ≠ endpoint) →
      (s.state.redeem limits probe endpoint sourceIp now).1 = none ∧
        (s.state.redeem limits probe endpoint sourceIp now).2.pending = s.state.pending) ∧
    (∀ l t token entry, Step s l t → s.state.pending.lookup token = some entry → t.state.pending.lookup token = some entry ∨
      ∃ call unixNow primaryDraws alternateDraws,
        l = .resume call unixNow primaryDraws alternateDraws ∧ s.Takes token entry call) := by
  obtain ⟨h, rfl⟩ := run_sound hbind hrun
  refine ⟨h.once.sublist (List.sublist_append_right _ _), h.answered, h.bounded.pending, ?_, ?_⟩
  · exact fun probe endpoint sourceIp now hrefused => redeem_refused hrefused
  · exact fun l t token entry hstep hentry => step_pending hstep hentry

theorem sampleName_bounded : "a".utf8ByteSize ≤ maxDeviceNameBytes := by decide

/-- A session is issued a pair of tokens. Its first probe goes to the wrong endpoint,
the second is answered, and the third carries the same token again. -/
def sampleProbes : List Label :=
  let random : Vector UInt8 SESSION_RANDOM_BYTES := .replicate _ 7
  let identity : AuthenticatedClient := ⟨⟨"a", sampleName_bounded⟩, "k", sessionId random 0⟩
  let primary : ObservationToken := .replicate _ 1
  let alternate : ObservationToken := .replicate _ 2
  let probe : ObservationProbe := ⟨primary, .replicate _ 9⟩
  let source : IpAddr := .v4 #v[10, 0, 0, 1]
  let expiresAt : Nat := 30 * second
  let probing (endpoint : ObservationEndpoint) : List Label :=
    [.probe probe endpoint source, .resume (.probing probe endpoint source 0) 0 [] []]
  [.authenticate identity.name "k" random, .session (.claim identity (.channel 4) ⟨1, 0⟩ 1), .request 0,
    .resume (.stamping 0 identity) 0 [] [], .resume (.issuing 0 identity 0 expiresAt 30) 0 [some primary] [some primary, some alternate]] ++
  probing .alternate ++ probing .primary ++
  [.resume (.redeemed probe .primary 0 ⟨identity, .primary, expiresAt, 0⟩) 0 [] [],
    .resume (.rechecked probe .primary 0 ⟨identity, .primary, expiresAt, 0⟩ true) 0 [] []] ++
  probing .primary

theorem sampleBind_isSome : (bind .default 2 0 0).isSome = true := by decide +kernel

theorem tokens_authorize_once_replay : ∃ s₀ s, bind .default 2 0 0 = some s₀ ∧ Run Step s₀ sampleProbes s ∧
    s.authorized.map Authorization.issue = [0] ∧ len s.state.pending = 1 ∧ (s.authorized.map Authorization.issue).Nodup := by
  have hbind := (Option.some_get sampleBind_isSome).symm
  obtain ⟨s, hrun, hauthorized, hpending⟩ := run_of_exec_any
    (P := fun s : System => s.authorized.map Authorization.issue = [0] ∧ len s.state.pending = 1)
    (fun _ _ _ h => h) (show (exec next ((bind .default 2 0 0).get sampleBind_isSome) sampleProbes).any _ = true by decide +kernel)
  exact ⟨_, s, hbind, hrun, hauthorized, hpending, (tokens_authorize_once hbind hrun).1⟩

end System

end Rustgo.Observation
