import Rustgo.ChannelBindingsInvariant
import Rustgo.Runs

namespace Rustgo.Bindings

open Protocol Tables Runs ChannelBindingStore SessionRuntime

namespace System

variable {s t : System} {l : Label} {labels : List Label} {i k : Nat} {r r' : SessionRuntime} {attempts : List Attempt}
  {log : List AuthenticatedDataChannel} {f : SessionRuntime → SessionRuntime}

def Sound (s : System) : Prop := ∀ r ∈ s.runtimes, r.Sound

theorem modify_eq_some (h : s.modify i f = some t) :
    ∃ r, s.runtimes[i]? = some r ∧ { s with runtimes := s.runtimes.set i (f r) } = t :=
  Option.map_eq_some_iff.mp h

theorem modify_sound (h : s.Sound) (hmodify : s.modify i f = some t)
    (hf : ∀ r, s.runtimes[i]? = some r → r.Sound → (f r).Sound) : t.Sound := by
  obtain ⟨r, hr, rfl⟩ := modify_eq_some hmodify
  intro other hother
  obtain hold | rfl := List.mem_or_eq_of_mem_set hother
  · exact h other hold
  · exact hf r hr (h r (List.mem_of_getElem? hr))

theorem new_store_empty {client : String} {sessionId : Bytes} {capacity timeToLive now : Nat} {store : ChannelBindingStore}
    (h : ChannelBindingStore.new client sessionId capacity timeToLive now = .ok store) : store.pending = ∅ := by
  rw [ChannelBindingStore.new] at h
  split at h
  · cases h
  · rw [← Except.ok.inj h]

theorem revokeWaiting_eq_some {order : List Slot} (h : s.next (.revokeWaiting i order) = some t) :
    (∃ r, s.runtimes[i]? = some r ∧ r.available = false ∧ order.toFinset = r.bindings.pending.keys) ∧
      (s.modify i fun r => r.revokeWaiting order) = some t := by
  obtain ⟨r, hr, hmodify⟩ := Option.bind_eq_some_iff.mp h
  obtain ⟨hr, hready⟩ := Option.filter_eq_some_iff.mp hr
  obtain ⟨havailable, horder⟩ := Bool.and_eq_true_iff.mp hready
  exact ⟨⟨r, hr, by simpa using havailable, of_decide_eq_true horder⟩, hmodify⟩

theorem redeem_eq_some {attempt : Attempt} (h : s.next (.redeem attempt) = some t) : attempt ∈ s.attempts ∧
    ({ s with attempts := s.attempts.erase attempt }).modify attempt.runtime (fun r =>
      r.authenticate attempt.request attempt.protocolVersion s.now) = some t := by
  rw [next] at h
  split at h
  · next hmem => exact ⟨hmem, h⟩
  · cases h

theorem step_sound (h : s.Sound) (hstep : Step s l t) : t.Sound := by
  cases l with
  | claim client sessionId protocolVersion capacity timeToLive =>
      simp only [Step, next] at hstep
      split at hstep
      · obtain rfl := Option.some.inj hstep
        exact h
      · split at hstep
        · next store hstore =>
          obtain rfl := Option.some.inj hstep
          intro other hother
          obtain hold | hlast := List.mem_append.mp hother
          · exact h other hold
          · obtain rfl := List.mem_singleton.mp hlast
            exact new_sound store (new_store_empty hstore) protocolVersion
        · obtain rfl := Option.some.inj hstep
          exact h
  | release client =>
      obtain rfl := Option.some.inj hstep
      exact h
  | prepareTcp i tunnelId connectionId draws => exact modify_sound h hstep fun r _ hr => prepare_sound hr _ _ _ _ _
  | prepareUdp i tunnelId channelId draws => exact modify_sound h hstep fun r _ hr => prepare_sound hr _ _ _ _ _
  | cancelPending i connectionId => exact modify_sound h hstep fun r _ hr => cancelWaiting_sound hr _
  | cancelPendingUdp i channelId => exact modify_sound h hstep fun r _ hr => cancelWaiting_sound hr _
  | attempt request protocolVersion =>
      simp only [Step, next] at hstep
      split at hstep
      · obtain rfl := Option.some.inj hstep
        exact h
      · split at hstep
        · cases hstep
        · split at hstep
          · obtain rfl := Option.some.inj hstep
            exact h
          · obtain rfl := Option.some.inj hstep
            exact h
  | redeem attempt =>
      obtain ⟨-, hmodify⟩ := redeem_eq_some hstep
      exact modify_sound (s := { s with attempts := s.attempts.erase attempt }) h hmodify fun r _ hr => authenticate_sound hr _ _ _
  | markUnavailable i =>
      refine modify_sound h hstep fun r _ hr => ?_
      exact ⟨hr.client, hr.session, hr.capacity, hr.waiting, hr.distinct, hr.unserved, hr.live, hr.once, hr.served⟩
  | revokeWaiting i order =>
      obtain ⟨⟨r, hr, -, horder⟩, hmodify⟩ := revokeWaiting_eq_some hstep
      refine modify_sound h hmodify fun r' hr' hsound => ?_
      obtain rfl := Option.some.inj (hr.symm.trans hr')
      exact revokeWaiting_sound hsound horder
  | pass nanoseconds =>
      obtain rfl := Option.some.inj hstep
      exact h

theorem run_sound (hrun : Run Step new labels s) : s.Sound :=
  hrun.invariant (P := Sound) (fun _ _ _ => step_sound) fun _ h => absurd h List.not_mem_nil

/-- The tokens that a step may draw. -/
def draws : Label → List (Option Token)
  | .prepareTcp _ _ _ draws => draws
  | .prepareUdp _ _ _ draws => draws
  | _ => []

/-- No token that is drawn from now on was presented before it was drawn. -/
def Unguessed (attempts : List Attempt) (_ : System) (l : Label) : Prop :=
  ∀ attempt ∈ attempts, ∀ token, some token ∈ draws l → attempt.request.bindingToken.bytes ≠ token.bytes

/-- A cancelled session of which no attempt has the token. -/
structure Silent (attempts : List Attempt) (log : List AuthenticatedDataChannel) (r : SessionRuntime) : Prop where
  available : r.available = false
  authenticated : r.authenticated = log
  unknown : ∀ token binding, r.bindings.store.pending.lookup token = some binding →
    ∀ attempt ∈ attempts, attempt.request.bindingToken.bytes ≠ token.bytes

structure Quiet (attempts : List Attempt) (i : Nat) (log : List AuthenticatedDataChannel) (s : System) : Prop where
  runtime : ∃ r, s.runtimes[i]? = some r ∧ Silent attempts log r
  attempts : ∀ attempt ∈ s.attempts, attempt.runtime = i → attempt ∈ attempts

theorem Silent.of_store {store : ChannelBindingStore} (h : Silent attempts log r) (havailable : r'.available = false)
    (hauthenticated : r'.authenticated = r.authenticated) (hshrinks : Shrinks r.bindings.store store)
    (hstore : r'.bindings.store = store) : Silent attempts log r' := by
  refine ⟨havailable, hauthenticated.trans h.authenticated, fun token binding hlookup => ?_⟩
  rw [hstore] at hlookup
  exact h.unknown token binding (hshrinks.pending hlookup)

theorem Silent.prepare {tokens : List (Option Token)} (h : Silent attempts log r)
    (hunguessed : ∀ attempt ∈ attempts, ∀ token, some token ∈ tokens → attempt.request.bindingToken.bytes ≠ token.bytes)
    (transport : Transport) (tunnelId : UInt32) (targetId : UInt64) (now : Nat) :
    Silent attempts log (r.prepare transport tunnelId targetId now tokens) := by
  rw [SessionRuntime.prepare]
  dsimp only
  split
  · exact h
  · have hshrinks := retainLive_shrinks r.bindings.store now
    obtain ⟨e, hissue⟩ | ⟨token, hissue, -, hdrawn, -⟩ :=
      issue_cases r.bindings.store (.new transport tunnelId targetId) now tokens
    · rw [hissue]
      exact h.of_store h.available rfl hshrinks rfl
    · rw [hissue]
      refine ⟨h.available, h.authenticated, fun other binding hlookup attempt hattempt => ?_⟩
      by_cases hother : other = token
      · subst hother
        exact hunguessed attempt hattempt other hdrawn
      · exact h.unknown other binding (hshrinks.pending ((Finmap.lookup_insert_of_ne _ hother).symm.trans hlookup)) attempt hattempt

theorem Silent.cancelWaiting (h : Silent attempts log r) (slot : Slot) : Silent attempts log (r.cancelWaiting slot) := by
  rw [SessionRuntime.cancelWaiting]
  split
  · exact h.of_store h.available rfl (revoke_shrinks _ _ _) rfl
  · exact h

theorem Silent.revokeWaiting (h : Silent attempts log r) (order : List Slot) : Silent attempts log (r.revokeWaiting order) :=
  h.of_store h.available rfl (foldl_revoke r.bindings.pending order r.bindings.store).1 rfl

theorem Silent.authenticate {attempt : Attempt} (h : Silent attempts log r) (hattempt : attempt ∈ attempts) (now : Nat) :
    r.authenticate attempt.request attempt.protocolVersion now = r := by
  refine authenticate_of_unknown (fun token htoken => ?_) now
  cases hlookup : r.bindings.store.pending.lookup token with
  | none => rfl
  | some binding => exact absurd htoken.symm (h.unknown token binding hlookup attempt hattempt)

theorem Quiet.modify (h : Quiet attempts i log s) (hmodify : s.modify k f = some t)
    (hf : ∀ r, s.runtimes[k]? = some r → k = i → Silent attempts log r → Silent attempts log (f r)) : Quiet attempts i log t := by
  obtain ⟨r, hr, rfl⟩ := modify_eq_some hmodify
  obtain ⟨⟨own, hown, hsilent⟩, hattempts⟩ := h
  refine ⟨?_, hattempts⟩
  by_cases hki : k = i
  · subst hki
    obtain rfl := Option.some.inj (hown.symm.trans hr)
    exact ⟨f own, List.getElem?_set_self (List.getElem?_eq_some_iff.mp hr).1, hf own hr rfl hsilent⟩
  · exact ⟨own, (List.getElem?_set_ne hki).trans hown, hsilent⟩

theorem step_quiet (h : Quiet attempts i log s) (hstep : Restricted Step (Unguessed attempts) s l t) : Quiet attempts i log t := by
  obtain ⟨hstep, hunguessed⟩ := hstep
  cases l with
  | claim client sessionId protocolVersion capacity timeToLive =>
      simp only [Step, next] at hstep
      split at hstep
      · obtain rfl := Option.some.inj hstep
        exact h
      · split at hstep
        · obtain rfl := Option.some.inj hstep
          obtain ⟨⟨own, hown, hsilent⟩, hattempts⟩ := h
          refine ⟨⟨own, ?_, hsilent⟩, hattempts⟩
          exact (List.getElem?_append_left (List.getElem?_eq_some_iff.mp hown).1).trans hown
        · obtain rfl := Option.some.inj hstep
          exact h
  | release client =>
      obtain rfl := Option.some.inj hstep
      exact ⟨h.runtime, h.attempts⟩
  | prepareTcp k tunnelId connectionId tokens =>
      exact h.modify hstep fun r _ _ hsilent => hsilent.prepare hunguessed _ _ _ _
  | prepareUdp k tunnelId channelId tokens =>
      exact h.modify hstep fun r _ _ hsilent => hsilent.prepare hunguessed _ _ _ _
  | cancelPending k connectionId => exact h.modify hstep fun r _ _ hsilent => hsilent.cancelWaiting _
  | cancelPendingUdp k channelId => exact h.modify hstep fun r _ _ hsilent => hsilent.cancelWaiting _
  | attempt request protocolVersion =>
      simp only [Step, next] at hstep
      split at hstep
      · obtain rfl := Option.some.inj hstep
        exact h
      · next k hk =>
        split at hstep
        · cases hstep
        · next r hr =>
          split at hstep
          · next hready =>
            obtain rfl := Option.some.inj hstep
            refine ⟨h.runtime, fun attempt hattempt hruntime => ?_⟩
            obtain rfl | hattempt := List.mem_cons.mp hattempt
            · obtain ⟨own, hown, hsilent⟩ := h.runtime
              obtain rfl : k = i := hruntime
              obtain rfl := Option.some.inj (hown.symm.trans hr)
              cases hsilent.available.symm.trans hready.2
            · exact h.attempts attempt hattempt hruntime
          · obtain rfl := Option.some.inj hstep
            exact h
  | redeem attempt =>
      obtain ⟨hmem, hmodify⟩ := redeem_eq_some hstep
      have hless : Quiet attempts i log { s with attempts := s.attempts.erase attempt } :=
        ⟨h.runtime, fun other hother hruntime => h.attempts other (List.mem_of_mem_erase hother) hruntime⟩
      refine hless.modify hmodify fun r _ hruntime hsilent => ?_
      rw [hsilent.authenticate (h.attempts attempt hmem hruntime)]
      exact hsilent
  | markUnavailable k => exact h.modify hstep fun r _ _ hsilent => ⟨rfl, hsilent.authenticated, hsilent.unknown⟩
  | revokeWaiting k order =>
      obtain ⟨-, hmodify⟩ := revokeWaiting_eq_some hstep
      exact h.modify hmodify fun r _ _ hsilent => hsilent.revokeWaiting order
  | pass nanoseconds =>
      obtain rfl := Option.some.inj hstep
      exact ⟨h.runtime, h.attempts⟩

/-- Once `cancel` has returned, the store is empty and the session takes no more attempts. -/
theorem revokeWaiting_quiet {order : List Slot} (h : s.Sound) (hstep : Step s (.revokeWaiting i order) t)
    (hr : t.runtimes[i]? = some r) : Quiet t.attempts i r.authenticated t := by
  obtain ⟨⟨own, hown, havailable, horder⟩, hmodify⟩ := revokeWaiting_eq_some hstep
  obtain ⟨_, hown', rfl⟩ := modify_eq_some hmodify
  obtain rfl := Option.some.inj (hown.symm.trans hown')
  obtain rfl := Option.some.inj ((List.getElem?_set_self (List.getElem?_eq_some_iff.mp hown).1).symm.trans hr)
  refine ⟨⟨_, hr, havailable, rfl, fun token binding hlookup => ?_⟩, fun _ hattempt _ => hattempt⟩
  cases (revokeWaiting_empty (h own (List.mem_of_getElem? hown)) horder token).symm.trans hlookup

theorem authenticated_after_cancel {order : List Slot} {later : List Label} {u : System} (h : s.Sound)
    (hstep : Step s (.revokeWaiting i order) t) (hrun : Run (Restricted Step (Unguessed t.attempts)) t later u)
    (hr : t.runtimes[i]? = some r) (hr' : u.runtimes[i]? = some r') : r'.authenticated = r.authenticated := by
  obtain ⟨⟨own, hown, hsilent⟩, -⟩ := hrun.invariant (P := Quiet t.attempts i r.authenticated) (fun _ _ _ => step_quiet)
    (revokeWaiting_quiet h hstep hr)
  obtain rfl := Option.some.inj (hown.symm.trans hr')
  exact hsilent.authenticated

/-- Tokens that are never drawn twice open one channel each. -/
theorem tokens_nodup (h : r.Sound) (hissued : (r.issued.map Issue.token).Nodup) :
    (r.authenticated.map fun channel => channel.request.bindingToken.bytes).Nodup := by
  refine List.Nodup.map_on (fun one hone two htwo heq => ?_) (List.Nodup.of_map _ h.once)
  obtain ⟨issue, hissue, htoken, -⟩ := h.served one hone
  obtain ⟨issue', hissue', htoken', -⟩ := h.served two htwo
  have hsame : issue.token = issue'.token := by
    have hbytes : issue.token.bytes = issue'.token.bytes := by rw [← htoken, ← htoken', heq]
    rw [← Option.some.inj ((Token.tryFrom_eq_some.mpr rfl).symm.trans (Token.tryFrom_eq_some.mpr hbytes.symm))]
  have hdestination : one.destination = two.destination := by
    obtain ⟨hlt, -⟩ := List.getElem?_eq_some_iff.mp hissue
    refine (List.getElem?_inj (by rwa [List.length_map]) hissued).mp ?_
    rw [List.getElem?_map, List.getElem?_map, hissue, hissue', Option.map_some, Option.map_some, hsame]
  exact List.inj_on_of_nodup_map h.once hone htwo hdestination

/-- Every channel goes to the opener to whom its token was issued, once, before
the token expires and while the session lasts. -/
theorem channels_bound (hrun : Run Step new labels s) :
    (∀ (i : Nat) (r : SessionRuntime), s.runtimes[i]? = some r →
      (r.authenticated.map AuthenticatedDataChannel.destination).Nodup ∧
      (∀ channel ∈ r.authenticated, ∃ issue, r.issued[channel.destination]? = some issue ∧
        channel.request.bindingToken.bytes = issue.token.bytes ∧ channel.request.clientName.str = r.client ∧
        channel.request.sessionId.bytes = r.sessionId ∧ requestKind channel.request = issue.channelKind ∧
        channel.protocolVersion = r.protocolVersion ∧ channel.authenticatedAt < issue.expiresAt) ∧
      ((r.issued.map Issue.token).Nodup → (r.authenticated.map fun channel => channel.request.bindingToken.bytes).Nodup) ∧
      len r.bindings.store.pending ≤ r.bindings.store.capacity) ∧
    ∀ (i : Nat) (order : List Slot) (t u : System) (later : List Label) (r r' : SessionRuntime), Step s (.revokeWaiting i order) t →
      Run (Restricted Step (Unguessed t.attempts)) t later u → t.runtimes[i]? = some r → u.runtimes[i]? = some r' →
      r'.authenticated = r.authenticated := by
  have h := run_sound hrun
  refine ⟨fun i r hr => ?_, fun i order t u later r r' hstep hlater hr hr' => authenticated_after_cancel h hstep hlater hr hr'⟩
  have hsound := h r (List.mem_of_getElem? hr)
  exact ⟨hsound.once, hsound.served, tokens_nodup hsound, hsound.capacity⟩

def sampleToken (byte : UInt8) : Token := ⟨List.replicate 32 byte, List.length_replicate⟩

theorem sampleClient_bounded : "a".utf8ByteSize ≤ maxClientNameBytes := by decide
theorem sampleSession_bounded : ([1] : Bytes).length ≤ maxSessionIdBytes := by decide
theorem sampleToken_bounded (byte : UInt8) : (List.replicate 32 byte).length ≤ maxBindingTokenBytes := by
  rw [List.length_replicate]
  decide
theorem sampleKind_known : (1 : UInt8) = 1 ∨ (1 : UInt8) = 2 := .inl rfl

/-- A request for a TCP channel of tunnel 7. -/
def sampleRequest (targetId : UInt64) (byte : UInt8) : DataChannelBind where
  clientName := ⟨"a", sampleClient_bounded⟩
  sessionId := ⟨[1], sampleSession_bounded⟩
  kind := ⟨1, sampleKind_known⟩
  tunnelId := 7
  targetId := targetId
  bindingToken := ⟨List.replicate 32 byte, sampleToken_bounded byte⟩

/-- One token presented twice, and another that is revoked under the attempt. -/
def sampleBindings : List Label :=
  [.claim "a" [1] ⟨1, 0⟩ 4 1000, .prepareTcp 0 7 5 [some (sampleToken 9)], .attempt (sampleRequest 5 9) ⟨1, 0⟩,
    .attempt (sampleRequest 5 9) ⟨1, 0⟩, .redeem ⟨0, sampleRequest 5 9, ⟨1, 0⟩⟩, .redeem ⟨0, sampleRequest 5 9, ⟨1, 0⟩⟩,
    .prepareTcp 0 7 6 [some (sampleToken 8)], .attempt (sampleRequest 6 8) ⟨1, 0⟩, .markUnavailable 0,
    .revokeWaiting 0 [(.tcp, 6)], .redeem ⟨0, sampleRequest 6 8, ⟨1, 0⟩⟩]

theorem channels_bound_sample : ∃ s, Run Step new sampleBindings s ∧ ∃ r, s.runtimes[0]? = some r ∧
    r.authenticated.map AuthenticatedDataChannel.destination = [0] ∧ r.issued.length = 2 ∧
    len r.bindings.store.pending ≤ r.bindings.store.capacity := by
  obtain ⟨s, hrun, hruntime⟩ := run_of_exec_any
    (P := fun s : System => (s.runtimes[0]?.any fun r =>
      r.authenticated.map AuthenticatedDataChannel.destination = [0] ∧ r.issued.length = 2) = true)
    (fun _ _ _ h => h) (show (exec next new sampleBindings).any _ = true by decide +kernel)
  obtain ⟨r, hr, hserved⟩ := (Option.any_eq_true _ _).mp hruntime
  obtain ⟨hserved, hissued⟩ := of_decide_eq_true hserved
  exact ⟨s, hrun, r, hr, hserved, hissued, ((channels_bound hrun).1 0 r hr).2.2.2⟩

end System

end Rustgo.Bindings
