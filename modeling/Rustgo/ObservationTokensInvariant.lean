import Rustgo.ObservationTokens
import Rustgo.RegistryActive

namespace Rustgo.Observation

open Protocol Registry Tables GuardSystem

theorem issueUniqueToken_fresh {pending : Table ObservationToken PendingToken} {excluded : Option ObservationToken}
    {draws : List (Option ObservationToken)} {token : ObservationToken} (h : issueUniqueToken pending excluded draws = some token) :
    token ∉ pending ∧ excluded ≠ some token := by
  induction draws with
  | nil => cases h
  | cons drawn draws ih =>
      cases drawn with
      | none => cases h
      | some bytes =>
          rw [issueUniqueToken] at h
          split at h
          · next hfresh =>
            obtain rfl := Option.some.inj h
            exact hfresh
          · exact ih h

namespace ObservationState

variable {state : ObservationState} {limits : ObservationRuntimeLimits} {token : ObservationToken} {entry : PendingToken}

/-- The three tables stay within their limits. -/
structure Bounded (state : ObservationState) (limits : ObservationRuntimeLimits) : Prop where
  pending : len state.pending ≤ limits.maxPendingTokens
  ips : len state.ipBuckets.entries ≤ limits.maxTrackedIps
  devices : len state.deviceBuckets.entries ≤ limits.maxTrackedDevices

theorem default_bounded (limits : ObservationRuntimeLimits) (now : Nat) : (default now).Bounded limits :=
  ⟨Nat.zero_le _, Nat.zero_le _, Nat.zero_le _⟩

theorem admitSource_pending (state : ObservationState) (limits : ObservationRuntimeLimits) (sourceIp : IpAddr) (now : Nat) :
    (state.admitSource limits sourceIp now).2.pending = state.pending := by
  rw [admitSource]
  split
  · rfl
  · rfl

theorem admitSource_bounded (h : state.Bounded limits) (sourceIp : IpAddr) (now : Nat) :
    (state.admitSource limits sourceIp now).2.Bounded limits := by
  rw [admitSource]
  split
  · exact h
  · exact ⟨h.pending, (BucketTable.allowNewSource_bounded _ _ h.ips).2, h.devices⟩

theorem admitDevice_bounded (h : state.Bounded limits) (fingerprint : String) (now : Nat) :
    (state.admitDevice limits fingerprint now).2.Bounded limits :=
  ⟨h.pending, h.ips, (BucketTable.allow_bounded h.devices).2⟩

/-- A probe takes the token only past the limiter and on its own endpoint. -/
theorem redeem_cases (state : ObservationState) (limits : ObservationRuntimeLimits) (probe : ObservationProbe)
    (endpoint : ObservationEndpoint) (sourceIp : IpAddr) (now : Nat) :
    state.redeem limits probe endpoint sourceIp now = (none, (state.admitSource limits sourceIp now).2) ∨
      ∃ entry, state.pending.lookup probe.token = some entry ∧ entry.endpoint = endpoint ∧
        (state.admitSource limits sourceIp now).1 = true ∧
        (state.redeem limits probe endpoint sourceIp now).2 =
          { (state.admitSource limits sourceIp now).2 with pending := state.pending.erase probe.token } ∧
        ((state.redeem limits probe endpoint sourceIp now).1 = none ∨
          (state.redeem limits probe endpoint sourceIp now).1 = some entry ∧ now < entry.expiresAt) := by
  have hpending := admitSource_pending state limits sourceIp now
  rw [redeem]
  generalize state.admitSource limits sourceIp now = admitted at hpending ⊢
  obtain ⟨allowed, state'⟩ := admitted
  dsimp only at hpending ⊢
  rw [hpending]
  split
  · exact .inl rfl
  · next hallowed =>
    split
    · exact .inl rfl
    · next entry hentry =>
      split
      · exact .inl rfl
      · next hendpoint =>
        refine .inr ⟨entry, hentry, not_not.mp hendpoint, Bool.of_not_eq_false hallowed, ?_⟩
        split
        · exact ⟨rfl, .inl rfl⟩
        · next hexpiry => exact ⟨rfl, .inr ⟨rfl, not_le.mp hexpiry⟩⟩

theorem redeem_bounded (h : state.Bounded limits) (probe : ObservationProbe) (endpoint : ObservationEndpoint) (sourceIp : IpAddr)
    (now : Nat) : (state.redeem limits probe endpoint sourceIp now).2.Bounded limits := by
  have hadmitted := admitSource_bounded h sourceIp now
  obtain heq | ⟨entry, -, -, -, heq, -⟩ := redeem_cases state limits probe endpoint sourceIp now
  · rw [heq]
    exact hadmitted
  · rw [heq]
    exact ⟨(len_erase_le _ _).trans h.pending, hadmitted.ips, hadmitted.devices⟩

/-- A probe that is refused for its address, or comes to the wrong endpoint, leaves
every token where it is. -/
theorem redeem_refused {probe : ObservationProbe} {endpoint : ObservationEndpoint} {sourceIp : IpAddr} {now : Nat}
    (h : (state.admitSource limits sourceIp now).1 = false ∨
      ∃ entry, state.pending.lookup probe.token = some entry ∧ entry.endpoint ≠ endpoint) :
    (state.redeem limits probe endpoint sourceIp now).1 = none ∧
      (state.redeem limits probe endpoint sourceIp now).2.pending = state.pending := by
  obtain heq | ⟨entry, hentry, hendpoint, hallowed, -⟩ := redeem_cases state limits probe endpoint sourceIp now
  · rw [heq]
    exact ⟨rfl, admitSource_pending state limits sourceIp now⟩
  · obtain hrefused | ⟨other, hother, hwrong⟩ := h
    · cases hrefused.symm.trans hallowed
    · obtain rfl := Option.some.inj (hentry.symm.trans hother)
      exact absurd hendpoint hwrong

/-- An issue purges the tokens that have expired, and then adds two or none. -/
theorem issue_cases (state : ObservationState) (limits : ObservationRuntimeLimits) (identity : AuthenticatedClient)
    (now expiresAt expiresUnixSecs number : Nat) (primaryDraws alternateDraws : List (Option ObservationToken)) :
    (∃ e, state.issue limits identity now expiresAt expiresUnixSecs number primaryDraws alternateDraws =
      (.error e, state.retainLive now)) ∨
    ∃ primary alternate, state.issue limits identity now expiresAt expiresUnixSecs number primaryDraws alternateDraws =
        (.ok ⟨primary, alternate, expiresUnixSecs⟩, { state.retainLive now with
          pending := ((state.retainLive now).pending.insert primary ⟨identity, .primary, expiresAt, number⟩).insert alternate
            ⟨identity, .alternate, expiresAt, number + 1⟩ }) ∧
      len (state.retainLive now).pending ≤ limits.maxPendingTokens - 2 ∧ primary ∉ (state.retainLive now).pending ∧
      alternate ∉ (state.retainLive now).pending ∧ primary ≠ alternate := by
  rw [issue]
  dsimp only
  split
  · exact .inl ⟨_, rfl⟩
  · next hroom =>
    split
    · exact .inl ⟨_, rfl⟩
    · next primary hprimary =>
      split
      · exact .inl ⟨_, rfl⟩
      · next alternate halternate =>
        obtain ⟨hfresh, hdistinct⟩ := issueUniqueToken_fresh halternate
        exact .inr ⟨primary, alternate, rfl, not_lt.mp hroom, (issueUniqueToken_fresh hprimary).1, hfresh,
          fun heq => hdistinct (congrArg some heq)⟩

theorem retainLive_bounded (h : state.Bounded limits) (now : Nat) : (state.retainLive now).Bounded limits :=
  ⟨(len_keep_le _ _).trans h.pending, h.ips, h.devices⟩

theorem issue_bounded (h : state.Bounded limits) (hvalid : 2 ≤ limits.maxPendingTokens) (identity : AuthenticatedClient)
    (now expiresAt expiresUnixSecs number : Nat) (primaryDraws alternateDraws : List (Option ObservationToken)) :
    (state.issue limits identity now expiresAt expiresUnixSecs number primaryDraws alternateDraws).2.Bounded limits := by
  obtain ⟨e, heq⟩ | ⟨primary, alternate, heq, hroom, hprimary, halternate, hdistinct⟩ :=
    issue_cases state limits identity now expiresAt expiresUnixSecs number primaryDraws alternateDraws
  · rw [heq]
    exact retainLive_bounded h now
  · have hnew : alternate ∉ (state.retainLive now).pending.insert primary ⟨identity, .primary, expiresAt, number⟩ := by
      rw [Finmap.mem_insert]
      exact fun hmem => hmem.elim (fun heq => hdistinct heq.symm) halternate
    rw [heq]
    refine ⟨?_, h.ips, h.devices⟩
    dsimp only
    rw [len_insert hnew, len_insert hprimary]
    omega

end ObservationState

open ObservationState

/-- The issue that a call has taken off the table. -/
def Call.issue? : Call → Option Nat
  | .redeemed _ _ _ pending => some pending.issue
  | .rechecked _ _ _ pending _ => some pending.issue
  | _ => none

namespace System

variable {s t : System} {l : Label} {call : Call} {hand : List Call}

/-- The token was issued with this content. -/
def Matches (s : System) (token : ObservationToken) (entry : PendingToken) : Prop :=
  ∃ issue, s.issued[entry.issue]? = some issue ∧ issue.token = token ∧ issue.identity = entry.identity ∧
    issue.endpoint = entry.endpoint ∧ issue.expiresAt = entry.expiresAt

/-- What is known of a call between two of its steps. -/
def Knows (s : System) : Call → Prop
  | .stamping lease identity => s.guards.identities[lease]? = some identity
  | .issuing lease identity _ _ _ => s.guards.identities[lease]? = some identity
  | .probing _ _ _ _ => True
  | .redeemed probe endpoint now pending => s.Matches probe.token pending ∧ pending.endpoint = endpoint ∧ now < pending.expiresAt
  | .rechecked probe endpoint now pending live =>
      (s.Matches probe.token pending ∧ pending.endpoint = endpoint ∧ now < pending.expiresAt) ∧ live = true

/-- The issues whose tokens have left the table for a probe. -/
def spent (s : System) (hand : List Call) : List Nat := (hand ++ s.calls).filterMap Call.issue? ++ s.authorized.map Authorization.issue

def sessionIds (s : System) : List Bytes := (s.authenticated ++ s.guards.identities).map AuthenticatedClient.sessionId

/-- Every token is where it was issued or with the one probe that took it. `hand`
holds the call whose step is being made. -/
structure Sound (s : System) (hand : List Call) : Prop where
  valid : 2 ≤ s.limits.maxPendingTokens
  bounded : s.state.Bounded s.limits
  matched : Matched s.guards.registry s.guards.leases
  shown : Shown s.guards.registry s.guards.leases
  reached : s.nextSessionSequence < 2 ^ 64
  sequenced : ∀ id ∈ s.sessionIds, ∃ random sequence, id = sessionId random sequence ∧ sequence < s.nextSessionSequence
  distinct : s.sessionIds.Nodup
  leased : ∀ issue ∈ s.issued, s.guards.identities[issue.lease]? = some issue.identity
  pending : ∀ token entry, s.state.pending.lookup token = some entry → s.Matches token entry
  known : ∀ call ∈ hand ++ s.calls, s.Knows call
  answered : ∀ a ∈ s.authorized, ∃ issue, s.issued[a.issue]? = some issue ∧ issue.token = a.probe.token ∧
    issue.endpoint = a.endpoint ∧ a.now < issue.expiresAt ∧ a.live = true
  once : (s.spent hand).Nodup
  unspent : ∀ token entry, s.state.pending.lookup token = some entry → entry.issue ∉ s.spent hand

/-- What is known of the tokens and the calls stays known. -/
theorem Knows.mono (h : s.Knows call) (hissued : ∀ (k : Nat) (issue : Issue), s.issued[k]? = some issue → t.issued[k]? = some issue)
    (hidentities : ∀ (k : Nat) (identity : AuthenticatedClient), s.guards.identities[k]? = some identity → t.guards.identities[k]? = some identity) :
    t.Knows call := by
  have hmatches {token : ObservationToken} {entry : PendingToken} (hentry : s.Matches token entry) : t.Matches token entry := by
    obtain ⟨issue, hissue, hrest⟩ := hentry
    exact ⟨issue, hissued _ _ hissue, hrest⟩
  cases call with
  | stamping lease identity => exact hidentities _ _ h
  | issuing lease identity now expiresAt expiresUnixSecs => exact hidentities _ _ h
  | probing probe endpoint sourceIp now => trivial
  | redeemed probe endpoint now pending => exact ⟨hmatches h.1, h.2⟩
  | rechecked probe endpoint now pending live => exact ⟨⟨hmatches h.1.1, h.1.2⟩, h.2⟩

theorem Sound.take (h : s.Sound []) (hmem : call ∈ s.calls) : Sound { s with calls := s.calls.erase call } [call] := by
  have hperm : s.calls.Perm ([call] ++ s.calls.erase call) := List.perm_cons_erase hmem
  have hspent : (s.spent []).Perm (spent { s with calls := s.calls.erase call } [call]) :=
    (hperm.filterMap _).append_right _
  exact { h with
    known := fun other hother => h.known other (hperm.mem_iff.mpr hother)
    once := hspent.nodup_iff.mp h.once
    unspent := fun token entry hentry hspent' => h.unspent token entry hentry (hspent.mem_iff.mpr hspent') }

/-- A call that ends here takes its token with it. -/
theorem Sound.discard (h : s.Sound hand) : s.Sound [] := by
  have hsub : (s.spent []).Sublist (s.spent hand) :=
    ((List.sublist_append_right hand s.calls).filterMap _).append_right _
  exact { h with
    known := fun call hcall => h.known call (List.mem_append_right hand hcall)
    once := h.once.sublist hsub
    unspent := fun token entry hentry hspent => h.unspent token entry hentry (hsub.subset hspent) }

/-- A call goes on, with the token that it has. -/
theorem Sound.resume {call' : Call} (h : s.Sound [call]) (hknows : s.Knows call') (hissue : call'.issue? = call.issue?) :
    Sound { s with calls := call' :: s.calls } [] := by
  have hspent : spent { s with calls := call' :: s.calls } [] = s.spent [call] := by
    simp only [spent, List.nil_append, List.cons_append, List.filterMap_cons, hissue]
  refine { h with known := fun other hother => ?_, once := hspent ▸ h.once, unspent := hspent ▸ h.unspent }
  obtain rfl | hold := List.mem_cons.mp hother
  · exact hknows
  · exact h.known other (List.mem_append_right _ hold)

/-- Tokens may go at any time. -/
theorem Sound.shrink {state : ObservationState} (h : s.Sound hand) (hbounded : state.Bounded s.limits)
    (hpending : ∀ token entry, state.pending.lookup token = some entry → s.state.pending.lookup token = some entry) :
    Sound { s with state := state } hand :=
  { h with
    bounded := hbounded
    pending := fun token entry hentry => h.pending token entry (hpending token entry hentry)
    unspent := fun token entry hentry => h.unspent token entry (hpending token entry hentry) }

/-- A probe takes its token: nothing else on the table has the same issue. -/
theorem Sound.redeem {probe : ObservationProbe} {endpoint : ObservationEndpoint} {sourceIp : IpAddr} {now : Nat} {entry : PendingToken}
    {state : ObservationState} (h : s.Sound [.probing probe endpoint sourceIp now])
    (hentry : s.state.pending.lookup probe.token = some entry) (hendpoint : entry.endpoint = endpoint) (hexpiry : now < entry.expiresAt)
    (hbounded : state.Bounded s.limits) (hstate : state.pending = s.state.pending.erase probe.token) :
    Sound { s with state := state, calls := .redeemed probe endpoint now entry :: s.calls } [] := by
  have hold {token : ObservationToken} {other : PendingToken} (hother : state.pending.lookup token = some other) :
      token ≠ probe.token ∧ s.state.pending.lookup token = some other := by
    rw [hstate] at hother
    exact lookup_erase_eq_some hother
  have hspent : spent { s with state := state, calls := .redeemed probe endpoint now entry :: s.calls } [] =
      entry.issue :: s.spent [.probing probe endpoint sourceIp now] := rfl
  refine { h with
    bounded := hbounded
    pending := fun token other hother => h.pending token other (hold hother).2
    known := fun call hcall => ?_
    once := ?_
    unspent := fun token other hother => ?_ }
  · obtain rfl | hrest := List.mem_cons.mp hcall
    · exact ⟨h.pending _ _ hentry, hendpoint, hexpiry⟩
    · exact h.known call (List.mem_cons_of_mem _ hrest)
  · rw [hspent]
    exact List.nodup_cons.mpr ⟨h.unspent _ _ hentry, h.once⟩
  · obtain ⟨hne, hlookup⟩ := hold hother
    rw [hspent, List.mem_cons, not_or]
    refine ⟨fun heq => ?_, h.unspent token other hlookup⟩
    obtain ⟨issue, hissue, rfl, -⟩ := h.pending token other hlookup
    obtain ⟨issue', hissue', htoken, -⟩ := h.pending _ _ hentry
    rw [heq, hissue'] at hissue
    rw [← Option.some.inj hissue] at hne
    exact hne htoken

/-- The probe is answered. -/
theorem Sound.authorize {probe : ObservationProbe} {endpoint : ObservationEndpoint} {now : Nat} {entry : PendingToken} {live : Bool}
    (h : s.Sound [.rechecked probe endpoint now entry live]) :
    Sound { s with authorized := s.authorized ++ [⟨probe, endpoint, now, entry.issue, live⟩] } [] := by
  have hspent : (s.spent [.rechecked probe endpoint now entry live]).Perm
      (spent { s with authorized := s.authorized ++ [⟨probe, endpoint, now, entry.issue, live⟩] } []) := by
    simp only [spent, List.nil_append, List.cons_append, List.map_append, List.map_cons, List.map_nil, ← List.append_assoc]
    exact (List.perm_append_singleton entry.issue _).symm
  refine { h with
    known := fun call hcall => h.known call (List.mem_cons_of_mem _ hcall)
    answered := fun a ha => ?_
    once := hspent.nodup_iff.mp h.once
    unspent := fun token other hother hmem => h.unspent token other hother (hspent.mem_iff.mpr hmem) }
  obtain hold | hlast := List.mem_append.mp ha
  · exact h.answered a hold
  · obtain rfl := List.mem_singleton.mp hlast
    obtain ⟨⟨⟨issue, hissue, htoken, -, hendpoint, hexpires⟩, rfl, hexpiry⟩, hlive⟩ := h.known _ List.mem_cons_self
    exact ⟨issue, hissue, htoken, hendpoint, hexpires.symm ▸ hexpiry, hlive⟩

end System

end Rustgo.Observation
