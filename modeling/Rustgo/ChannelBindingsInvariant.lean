import Rustgo.ChannelBindings

namespace Rustgo.Bindings

open Protocol Tables

theorem ChannelKind.slot_new (transport : Transport) (tunnelId : UInt32) (targetId : UInt64) :
    (ChannelKind.new transport tunnelId targetId).slot = (transport, targetId) := by
  cases transport <;> rfl

namespace ChannelBindingStore

variable {store store' store'' : ChannelBindingStore} {token other : Token} {binding : PendingBinding} {channelKind : ChannelKind}
  {now : Nat} {draws : List (Option Token)}

/-- Nothing but tokens has gone. -/
structure Shrinks (store store' : ChannelBindingStore) : Prop where
  clientId : store'.clientId = store.clientId
  sessionId : store'.sessionId = store.sessionId
  capacity : store'.capacity = store.capacity
  timeToLive : store'.timeToLive = store.timeToLive
  pending : ∀ {token binding}, store'.pending.lookup token = some binding → store.pending.lookup token = some binding
  size : len store'.pending ≤ len store.pending

theorem Shrinks.refl (store : ChannelBindingStore) : Shrinks store store := ⟨rfl, rfl, rfl, rfl, fun h => h, le_refl _⟩

theorem Shrinks.trans (h : Shrinks store store') (h' : Shrinks store' store'') : Shrinks store store'' :=
  ⟨h'.clientId.trans h.clientId, h'.sessionId.trans h.sessionId, h'.capacity.trans h.capacity, h'.timeToLive.trans h.timeToLive,
    fun hlookup => h.pending (h'.pending hlookup), h'.size.trans h.size⟩

theorem retainLive_shrinks (store : ChannelBindingStore) (now : Nat) : Shrinks store (store.retainLive now) :=
  ⟨rfl, rfl, rfl, rfl, fun hlookup => (lookup_keep_eq_some.mp hlookup).1, len_keep_le _ _⟩

theorem erase_shrinks (store : ChannelBindingStore) (token : Token) :
    Shrinks store { store with pending := store.pending.erase token } := by
  refine ⟨rfl, rfl, rfl, rfl, fun {other binding} hlookup => ?_, len_erase_le _ _⟩
  by_cases hother : other = token
  · rw [hother, Finmap.lookup_erase] at hlookup
    cases hlookup
  · rwa [Finmap.lookup_erase_ne hother] at hlookup

theorem revoke_shrinks (store : ChannelBindingStore) (channelKind : ChannelKind) (token : Bytes) :
    Shrinks store (store.revoke channelKind token) := by
  rw [revoke]
  split
  · split
    · exact erase_shrinks store _
    · exact .refl store
  · exact .refl store

/-- A revoked token is gone, if it was of that channel. -/
theorem lookup_revoke (h : (store.revoke channelKind token.bytes).pending.lookup token = some binding) :
    binding.channelKind ≠ channelKind := by
  rw [revoke, Token.tryFrom_eq_some.mpr rfl] at h
  dsimp only at h
  split at h
  · rw [Finmap.lookup_erase] at h
    cases h
  · next hany =>
    rintro rfl
    rw [h] at hany
    simp at hany

theorem draw_cases (store : ChannelBindingStore) (binding : PendingBinding) (draws : List (Option Token)) :
    (∃ e, store.draw binding draws = (.error e, store)) ∨
      ∃ token, store.draw binding draws = (.ok token, { store with pending := store.pending.insert token binding }) ∧
        token ∉ store.pending ∧ some token ∈ draws := by
  induction draws with
  | nil => exact .inl ⟨_, rfl⟩
  | cons drawn draws ih =>
      cases drawn with
      | none => exact .inl ⟨_, rfl⟩
      | some token =>
          rw [draw]
          split
          · exact ih.imp_right fun ⟨other, heq, hnew, hmem⟩ => ⟨other, heq, hnew, List.mem_cons_of_mem _ hmem⟩
          · next hnew => exact .inr ⟨token, rfl, hnew, List.mem_cons_self⟩

/-- An issue only purges the tokens that have expired, or adds one more. -/
theorem issue_cases (store : ChannelBindingStore) (channelKind : ChannelKind) (now : Nat) (draws : List (Option Token)) :
    (∃ e, store.issue channelKind now draws = (.error e, store.retainLive now)) ∨
      ∃ token, store.issue channelKind now draws = (.ok token, { store.retainLive now with
          pending := (store.retainLive now).pending.insert token ⟨channelKind, now + store.timeToLive⟩ }) ∧
        token ∉ (store.retainLive now).pending ∧ some token ∈ draws ∧ len (store.retainLive now).pending < store.capacity := by
  rw [issue]
  dsimp only
  split
  · exact .inl ⟨_, rfl⟩
  · next hroom =>
    split
    · exact .inl ⟨_, rfl⟩
    · refine (draw_cases _ _ _).imp_right ?_
      rintro ⟨token, heq, hnew, hmem⟩
      exact ⟨token, heq, hnew, List.mem_of_mem_take hmem, not_le.mp hroom⟩

theorem recognizes_eq_true {bytes : Bytes} (h : store.recognizes bytes = true) :
    ∃ token binding, token.bytes = bytes ∧ store.pending.lookup token = some binding := by
  obtain ⟨token, htoken, hmem⟩ := (Option.any_eq_true _ _).mp h
  obtain ⟨binding, hbinding⟩ := Finmap.mem_iff.mp (of_decide_eq_true hmem)
  exact ⟨token, binding, Token.tryFrom_eq_some.mp htoken, hbinding⟩

/-- A known token is consumed, whether or not the presentation is right. -/
theorem redeem_cases {bytes : Bytes} (clientId : String) (sessionId : Bytes) (channelKind : ChannelKind) (now : Nat)
    (htoken : token.bytes = bytes)
    (hlookup : store.pending.lookup token = some binding) :
    store.redeem clientId sessionId channelKind bytes now =
        (.error .rejected, { store with pending := store.pending.erase token }) ∨
      (store.redeem clientId sessionId channelKind bytes now = (.ok ⟨store.clientId, store.sessionId, channelKind⟩,
          { store with pending := store.pending.erase token }) ∧
        now < binding.expiresAt ∧ clientId = store.clientId ∧ sessionId = store.sessionId ∧ channelKind = binding.channelKind) := by
  have hfound : ((Token.tryFrom bytes).bind fun token => (store.pending.lookup token).map fun pending => (token, pending)) =
      some (token, binding) := by
    rw [Token.tryFrom_eq_some.mpr htoken, Option.bind_some, hlookup, Option.map_some]
  rw [redeem, hfound]
  dsimp only
  split
  · exact .inl rfl
  · next hchecks =>
    simp only [not_or, not_le, not_not] at hchecks
    exact .inr ⟨rfl, hchecks⟩

end ChannelBindingStore

open ChannelBindingStore

namespace SessionRuntime

variable {r r' : SessionRuntime} {slot : Slot} {token : Token} {now : Nat}

/-- The channel was authenticated against an issue of this session, and goes to
the opener who received it. -/
def Serves (r : SessionRuntime) (channel : AuthenticatedDataChannel) : Prop :=
  ∃ issue, r.issued[channel.destination]? = some issue ∧ channel.request.bindingToken.bytes = issue.token.bytes ∧
    channel.request.clientName.str = r.client ∧ channel.request.sessionId.bytes = r.sessionId ∧
    requestKind channel.request = issue.channelKind ∧ channel.protocolVersion = r.protocolVersion ∧
    channel.authenticatedAt < issue.expiresAt

/-- Every live token has its opener waiting, and every opener is served once. -/
structure Sound (r : SessionRuntime) : Prop where
  client : r.bindings.store.clientId = r.client
  session : r.bindings.store.sessionId = r.sessionId
  capacity : len r.bindings.store.pending ≤ r.bindings.store.capacity
  waiting : ∀ slot waiting, r.bindings.pending.lookup slot = some waiting → waiting.channelKind.slot = slot ∧
    ∃ issue, r.issued[waiting.destination]? = some issue ∧ issue.channelKind = waiting.channelKind ∧
      issue.token = waiting.bindingToken
  distinct : ∀ slot slot' waiting waiting', r.bindings.pending.lookup slot = some waiting →
    r.bindings.pending.lookup slot' = some waiting' → waiting.destination = waiting'.destination → slot = slot'
  unserved : ∀ slot waiting, r.bindings.pending.lookup slot = some waiting →
    ∀ channel ∈ r.authenticated, channel.destination ≠ waiting.destination
  live : ∀ token binding, r.bindings.store.pending.lookup token = some binding →
    ∃ waiting, r.bindings.pending.lookup binding.channelKind.slot = some waiting ∧ waiting.channelKind = binding.channelKind ∧
      waiting.bindingToken = token ∧ ∃ issue, r.issued[waiting.destination]? = some issue ∧ issue.expiresAt = binding.expiresAt
  once : (r.authenticated.map AuthenticatedDataChannel.destination).Nodup
  served : ∀ channel ∈ r.authenticated, r.Serves channel

theorem new_sound (store : ChannelBindingStore) (hempty : store.pending = ∅) (protocolVersion : ProtocolVersion) :
    (new store protocolVersion).Sound where
  client := rfl
  session := rfl
  capacity := by
    change len store.pending ≤ store.capacity
    rw [hempty]
    exact Nat.zero_le _
  waiting _ _ h := absurd h (by simp [new])
  distinct _ _ _ _ h := absurd h (by simp [new])
  unserved _ _ h := absurd h (by simp [new])
  live _ _ h := absurd h (by simp [new, hempty])
  once := .nil
  served _ h := absurd h List.not_mem_nil

/-- Tokens may go at any time. -/
theorem Sound.shrink {store : ChannelBindingStore} (h : r.Sound) (hshrinks : Shrinks r.bindings.store store) :
    ({ r with bindings := { r.bindings with store := store } } : SessionRuntime).Sound where
  client := hshrinks.clientId.trans h.client
  session := hshrinks.sessionId.trans h.session
  capacity := hshrinks.size.trans (h.capacity.trans_eq hshrinks.capacity.symm)
  waiting := h.waiting
  distinct := h.distinct
  unserved := h.unserved
  live token binding hlookup := h.live token binding (hshrinks.pending hlookup)
  once := h.once
  served := h.served

theorem issued_concat {issues : List Issue} {issue last : Issue} {n : Nat} (h : issues[n]? = some issue) :
    (issues ++ [last])[n]? = some issue := by
  rw [List.getElem?_append_left (List.getElem?_eq_some_iff.mp h).1]
  exact h

/-- One more token, and its opener behind it. -/
theorem Sound.issue {store : ChannelBindingStore} {channelKind : ChannelKind} (h : r.Sound) (expiresAt : Nat)
    (hshrinks : Shrinks r.bindings.store store) (hnew : token ∉ store.pending) (hroom : len store.pending < store.capacity)
    (hslot : channelKind.slot ∉ r.bindings.pending) :
    ({ r with
      bindings := ⟨{ store with pending := store.pending.insert token ⟨channelKind, expiresAt⟩ },
        r.bindings.pending.insert channelKind.slot ⟨channelKind, token, r.issued.length⟩⟩
      issued := r.issued ++ [⟨channelKind, token, expiresAt⟩] } : SessionRuntime).Sound := by
  have hold {other : Slot} {waiting : PendingOpen} (hwaiting : r.bindings.pending.lookup other = some waiting) :
      other ≠ channelKind.slot ∧ waiting.destination < r.issued.length := by
    refine ⟨?_, ?_⟩
    · rintro rfl
      exact hslot (Finmap.mem_of_lookup_eq_some hwaiting)
    · obtain ⟨-, issue, hissue, -⟩ := h.waiting other waiting hwaiting
      exact (List.getElem?_eq_some_iff.mp hissue).1
  have hcases {other : Slot} {waiting : PendingOpen} (hwaiting :
      (r.bindings.pending.insert channelKind.slot ⟨channelKind, token, r.issued.length⟩).lookup other = some waiting) :
      (other = channelKind.slot ∧ waiting = ⟨channelKind, token, r.issued.length⟩) ∨
        r.bindings.pending.lookup other = some waiting := by
    by_cases hother : other = channelKind.slot
    · subst hother
      exact .inl ⟨rfl, (Option.some.inj ((Finmap.lookup_insert _).symm.trans hwaiting)).symm⟩
    · exact .inr ((Finmap.lookup_insert_of_ne _ hother).symm.trans hwaiting)
  have hlast : (r.issued ++ [⟨channelKind, token, expiresAt⟩])[r.issued.length]? = some ⟨channelKind, token, expiresAt⟩ :=
    List.getElem?_concat_length
  have hserved : ∀ channel ∈ r.authenticated, channel.destination < r.issued.length := by
    intro channel hchannel
    obtain ⟨issue, hissue, -⟩ := h.served channel hchannel
    exact (List.getElem?_eq_some_iff.mp hissue).1
  constructor
  case client => exact hshrinks.clientId.trans h.client
  case session => exact hshrinks.sessionId.trans h.session
  case capacity =>
    change len (store.pending.insert token _) ≤ store.capacity
    rw [len_insert hnew]
    omega
  case waiting =>
    intro other waiting hwaiting
    obtain ⟨rfl, rfl⟩ | hwaiting := hcases hwaiting
    · exact ⟨rfl, _, hlast, rfl, rfl⟩
    · obtain ⟨hkind, issue, hissue, hrest⟩ := h.waiting other waiting hwaiting
      exact ⟨hkind, issue, issued_concat hissue, hrest⟩
  case distinct =>
    intro one two waiting waiting' hwaiting hwaiting' heq
    obtain ⟨rfl, rfl⟩ | hwaiting := hcases hwaiting
    · obtain ⟨rfl, -⟩ | hwaiting' := hcases hwaiting'
      · rfl
      · exact absurd heq (hold hwaiting').2.ne'
    · obtain ⟨rfl, rfl⟩ | hwaiting' := hcases hwaiting'
      · exact absurd heq (hold hwaiting).2.ne
      · exact h.distinct one two waiting waiting' hwaiting hwaiting' heq
  case unserved =>
    intro other waiting hwaiting channel hchannel
    obtain ⟨-, rfl⟩ | hwaiting := hcases hwaiting
    · exact (hserved channel hchannel).ne
    · exact h.unserved other waiting hwaiting channel hchannel
  case live =>
    intro other binding hbinding
    by_cases hother : other = token
    · subst hother
      obtain rfl := Option.some.inj ((Finmap.lookup_insert _).symm.trans hbinding)
      exact ⟨_, Finmap.lookup_insert _, rfl, rfl, _, hlast, rfl⟩
    · have hbinding := hshrinks.pending ((Finmap.lookup_insert_of_ne _ hother).symm.trans hbinding)
      obtain ⟨waiting, hwaiting, hkind, htoken, issue, hissue, hexpires⟩ := h.live other binding hbinding
      exact ⟨waiting, (Finmap.lookup_insert_of_ne _ (hold hwaiting).1).trans hwaiting, hkind, htoken, issue,
        issued_concat hissue, hexpires⟩
  case once => exact h.once
  case served =>
    intro channel hchannel
    obtain ⟨issue, hissue, hrest⟩ := h.served channel hchannel
    exact ⟨issue, issued_concat hissue, hrest⟩

theorem prepare_sound (h : r.Sound) (transport : Transport) (tunnelId : UInt32) (targetId : UInt64) (now : Nat)
    (draws : List (Option Token)) : (r.prepare transport tunnelId targetId now draws).Sound := by
  rw [prepare]
  dsimp only
  split
  · exact h
  · next hfree =>
    have hshrinks := retainLive_shrinks r.bindings.store now
    obtain ⟨e, hissue⟩ | ⟨token, hissue, hnew, -, hroom⟩ :=
      issue_cases r.bindings.store (.new transport tunnelId targetId) now draws
    · rw [hissue]
      exact h.shrink hshrinks
    · rw [hissue]
      have hslot : (ChannelKind.new transport tunnelId targetId).slot ∉ r.bindings.pending := by
        rw [ChannelKind.slot_new]
        exact fun hmem => hfree (.inr hmem)
      have hsound := h.issue (now + r.bindings.store.timeToLive) hshrinks hnew (hroom.trans_eq hshrinks.capacity.symm) hslot
      rw [ChannelKind.slot_new] at hsound
      exact hsound

/-- The opener stops waiting, and its token goes with it. -/
theorem cancelWaiting_sound (h : r.Sound) (slot : Slot) : (r.cancelWaiting slot).Sound := by
  rw [cancelWaiting]
  cases hwaiting : r.bindings.pending.lookup slot with
  | none => exact h
  | some waiting =>
      have hshrinks := revoke_shrinks r.bindings.store waiting.channelKind waiting.bindingToken.bytes
      have hshrunk := h.shrink hshrinks
      have hother {other : Slot} {waiting' : PendingOpen} (hlookup : (r.bindings.pending.erase slot).lookup other = some waiting') :
          r.bindings.pending.lookup other = some waiting' := by
        by_cases hslot : other = slot
        · rw [hslot, Finmap.lookup_erase] at hlookup
          cases hlookup
        · rwa [Finmap.lookup_erase_ne hslot] at hlookup
      constructor
      case client => exact hshrunk.client
      case session => exact hshrunk.session
      case capacity => exact hshrunk.capacity
      case waiting => exact fun other waiting' hlookup => h.waiting other waiting' (hother hlookup)
      case distinct =>
        exact fun one two waiting' waiting'' hone htwo => h.distinct one two waiting' waiting'' (hother hone) (hother htwo)
      case unserved => exact fun other waiting' hlookup => h.unserved other waiting' (hother hlookup)
      case live =>
        intro token binding hbinding
        obtain ⟨waiting', hlookup, hkind, htoken, hissue⟩ := h.live token binding (hshrinks.pending hbinding)
        refine ⟨waiting', ?_, hkind, htoken, hissue⟩
        refine (Finmap.lookup_erase_ne ?_).trans hlookup
        rintro rfl
        obtain rfl := Option.some.inj (hwaiting.symm.trans hlookup)
        subst htoken
        exact lookup_revoke hbinding hkind.symm
      case once => exact h.once
      case served => exact h.served

/-- Revoking the tokens of the openers in any order. -/
theorem foldl_revoke (pending : Table Slot PendingOpen) (order : List Slot) (store : ChannelBindingStore) :
    Shrinks store (order.foldl (fun store slot =>
      match pending.lookup slot with
      | some waiting => store.revoke waiting.channelKind waiting.bindingToken.bytes
      | none => store) store) ∧
    ∀ token binding, (order.foldl (fun store slot =>
      match pending.lookup slot with
      | some waiting => store.revoke waiting.channelKind waiting.bindingToken.bytes
      | none => store) store).pending.lookup token = some binding → ∀ slot ∈ order, ∀ waiting, pending.lookup slot = some waiting →
        waiting.bindingToken = token → waiting.channelKind ≠ binding.channelKind := by
  induction order generalizing store with
  | nil => exact ⟨.refl store, fun _ _ _ _ h => absurd h List.not_mem_nil⟩
  | cons slot order ih =>
      rw [List.foldl_cons]
      cases hlookup : pending.lookup slot with
      | none =>
          obtain ⟨hshrinks, hgone⟩ := ih store
          refine ⟨hshrinks, fun token binding hbinding other hother waiting hwaiting => ?_⟩
          obtain rfl | hother := List.mem_cons.mp hother
          · cases hlookup.symm.trans hwaiting
          · exact hgone token binding hbinding other hother waiting hwaiting
      | some first =>
          obtain ⟨hshrinks, hgone⟩ := ih (store.revoke first.channelKind first.bindingToken.bytes)
          refine ⟨(revoke_shrinks store _ _).trans hshrinks, fun token binding hbinding other hother waiting hwaiting htoken => ?_⟩
          obtain rfl | hother := List.mem_cons.mp hother
          · obtain rfl := Option.some.inj (hlookup.symm.trans hwaiting)
            subst htoken
            exact (lookup_revoke (hshrinks.pending hbinding)).symm
          · exact hgone token binding hbinding other hother waiting hwaiting htoken

/-- Whatever the order, no token outlives the openers. -/
theorem revokeWaiting_empty {order : List Slot} (h : r.Sound) (horder : order.toFinset = r.bindings.pending.keys) (token : Token) :
    (r.revokeWaiting order).bindings.store.pending.lookup token = none := by
  obtain ⟨hshrinks, hgone⟩ := foldl_revoke r.bindings.pending order r.bindings.store
  cases hbinding : (r.revokeWaiting order).bindings.store.pending.lookup token with
  | none => rfl
  | some binding =>
      obtain ⟨waiting, hwaiting, hkind, htoken, -⟩ := h.live token binding (hshrinks.pending hbinding)
      have hmem : binding.channelKind.slot ∈ order := by
        rw [← List.mem_toFinset, horder, Finmap.mem_keys]
        exact Finmap.mem_of_lookup_eq_some hwaiting
      exact absurd hkind (hgone token binding hbinding _ hmem waiting hwaiting htoken)

theorem revokeWaiting_sound {order : List Slot} (h : r.Sound) (horder : order.toFinset = r.bindings.pending.keys) :
    (r.revokeWaiting order).Sound := by
  have hempty := revokeWaiting_empty h horder
  obtain ⟨hshrinks, -⟩ := foldl_revoke r.bindings.pending order r.bindings.store
  have hnone {slot : Slot} {waiting : PendingOpen} (hlookup : (∅ : Table Slot PendingOpen).lookup slot = some waiting) : False := by
    cases (Finmap.lookup_empty slot).symm.trans hlookup
  constructor
  case client => exact hshrinks.clientId.trans h.client
  case session => exact hshrinks.sessionId.trans h.session
  case capacity => exact hshrinks.size.trans (h.capacity.trans_eq hshrinks.capacity.symm)
  case waiting => exact fun slot waiting hlookup => (hnone hlookup).elim
  case distinct => exact fun slot slot' waiting waiting' hlookup => (hnone hlookup).elim
  case unserved => exact fun slot waiting hlookup => (hnone hlookup).elim
  case live =>
    intro token binding hbinding
    cases (hempty token).symm.trans hbinding
  case once => exact h.once
  case served => exact h.served

/-- The session after a token was consumed in vain. -/
def spent (r : SessionRuntime) (token : Token) : SessionRuntime :=
  { r with bindings := { r.bindings with store := { r.bindings.store with pending := r.bindings.store.pending.erase token } } }

/-- The session after a token was redeemed by the opener that waited for it. -/
def handed (r : SessionRuntime) (token : Token) (slot : Slot) : SessionRuntime :=
  { r with bindings := ⟨{ r.bindings.store with pending := r.bindings.store.pending.erase token }, r.bindings.pending.erase slot⟩ }

/-- A presentation is ignored, consumes a token in vain, or redeems it. -/
theorem redeemIfPresent_cases (h : r.Sound) (request : DataChannelBind) (protocolVersion : ProtocolVersion) (now : Nat) :
    r.redeemIfPresent request protocolVersion now = (none, r) ∨
      r.redeemIfPresent request protocolVersion now = (some (.error .rejected), r) ∨
      ∃ token binding, token.bytes = request.bindingToken.bytes ∧ r.bindings.store.pending.lookup token = some binding ∧
        (r.redeemIfPresent request protocolVersion now = (some (.error .rejected), r.spent token) ∨
          ∃ waiting, r.bindings.pending.lookup binding.channelKind.slot = some waiting ∧ waiting.bindingToken = token ∧
            waiting.channelKind = binding.channelKind ∧ now < binding.expiresAt ∧ protocolVersion = r.protocolVersion ∧
            request.clientName.str = r.client ∧ request.sessionId.bytes = r.sessionId ∧ requestKind request = binding.channelKind ∧
            r.redeemIfPresent request protocolVersion now =
              (some (.ok (⟨r.bindings.store.clientId, r.bindings.store.sessionId, binding.channelKind⟩, waiting.destination)),
                r.handed token binding.channelKind.slot)) := by
  rw [redeemIfPresent]
  dsimp only
  split
  · exact .inl rfl
  · next hknown =>
    split
    · exact .inr (.inl rfl)
    · next hversion =>
      obtain ⟨token, binding, htoken, hlookup⟩ := recognizes_eq_true (Bool.eq_true_of_not_eq_false hknown)
      obtain ⟨waiting, hwaiting, hkind, hown, -⟩ := h.live token binding hlookup
      refine .inr (.inr ⟨token, binding, htoken, hlookup, ?_⟩)
      obtain hredeem | ⟨hredeem, hexpires, hclient, hsession, hchannel⟩ :=
        redeem_cases request.clientName.str request.sessionId.bytes (requestKind request) now htoken hlookup
      · rw [hredeem]
        exact .inl rfl
      · rw [hredeem, hchannel]
        dsimp only
        rw [hwaiting]
        dsimp only
        rw [if_neg (not_not_intro hkind)]
        exact .inr ⟨waiting, rfl, hown, hkind, hexpires, not_not.mp hversion, hclient.trans h.client, hsession.trans h.session,
          rfl, rfl⟩

theorem Sound.spent (h : r.Sound) (token : Token) : (r.spent token).Sound := h.shrink (erase_shrinks r.bindings.store token)

/-- The opener that is served has not been served before. -/
theorem Sound.hand {request : DataChannelBind} {protocolVersion : ProtocolVersion} {binding : PendingBinding} {waiting : PendingOpen}
    (h : r.Sound) (hlookup : r.bindings.store.pending.lookup token = some binding) (htoken : token.bytes = request.bindingToken.bytes)
    (hwaiting : r.bindings.pending.lookup binding.channelKind.slot = some waiting) (hown : waiting.bindingToken = token)
    (hexpires : now < binding.expiresAt) (hversion : protocolVersion = r.protocolVersion) (hclient : request.clientName.str = r.client)
    (hsession : request.sessionId.bytes = r.sessionId) (hchannel : requestKind request = binding.channelKind)
    (channelBinding : ChannelBinding) :
    ({ r.handed token binding.channelKind.slot with authenticated := r.authenticated ++
      [⟨request, protocolVersion, channelBinding, waiting.destination, now⟩] } : SessionRuntime).Sound := by
  have hspent := h.spent token
  have hother {other : Slot} {waiting' : PendingOpen}
      (hlookup : (r.bindings.pending.erase binding.channelKind.slot).lookup other = some waiting') :
      other ≠ binding.channelKind.slot ∧ r.bindings.pending.lookup other = some waiting' := by
    have hslot : other ≠ binding.channelKind.slot := by
      rintro rfl
      rw [Finmap.lookup_erase] at hlookup
      cases hlookup
    exact ⟨hslot, (Finmap.lookup_erase_ne hslot).symm.trans hlookup⟩
  obtain ⟨waiting', hwaiting', hkind, -, issue, hissue, hlife⟩ := h.live token binding hlookup
  obtain rfl := Option.some.inj (hwaiting.symm.trans hwaiting')
  constructor
  case client => exact hspent.client
  case session => exact hspent.session
  case capacity => exact hspent.capacity
  case waiting => exact fun other waiting' hlookup => h.waiting other waiting' (hother hlookup).2
  case distinct =>
    exact fun one two waiting' waiting'' hone htwo => h.distinct one two waiting' waiting'' (hother hone).2 (hother htwo).2
  case unserved =>
    intro other waiting' hlookup channel hchannel
    obtain ⟨hslot, hlookup⟩ := hother hlookup
    obtain hold | hlast := List.mem_append.mp hchannel
    · exact h.unserved other waiting' hlookup channel hold
    · obtain rfl := List.mem_singleton.mp hlast
      exact fun heq => hslot (h.distinct _ _ _ _ hlookup hwaiting heq.symm)
  case live =>
    intro other binding' hbinding
    have hne : other ≠ token := by
      rintro rfl
      cases (Finmap.lookup_erase _ _).symm.trans hbinding
    have hbinding := (Finmap.lookup_erase_ne hne).symm.trans hbinding
    obtain ⟨waiting', hlookup', hkind', htoken', hissue'⟩ := h.live other binding' hbinding
    refine ⟨waiting', (Finmap.lookup_erase_ne ?_).trans hlookup', hkind', htoken', hissue'⟩
    intro hslot
    rw [hslot] at hlookup'
    obtain rfl := Option.some.inj (hwaiting.symm.trans hlookup')
    exact hne (htoken'.symm.trans hown)
  case once =>
    rw [List.map_append]
    refine List.nodup_append.mpr ⟨h.once, List.nodup_singleton _, fun old hold last hlast => ?_⟩
    obtain ⟨channel, hmem, rfl⟩ := List.mem_map.mp hold
    obtain rfl := List.mem_singleton.mp hlast
    exact h.unserved _ _ hwaiting channel hmem
  case served =>
    intro channel hmem
    obtain hold | hlast := List.mem_append.mp hmem
    · exact h.served channel hold
    · obtain rfl := List.mem_singleton.mp hlast
      obtain ⟨-, issue', hissue', hkind', htoken'⟩ := h.waiting _ _ hwaiting
      obtain rfl := Option.some.inj (hissue.symm.trans hissue')
      exact ⟨issue, hissue, by rw [htoken', hown, htoken], hclient, hsession, by rw [hchannel, hkind', hkind], hversion,
        hlife ▸ hexpires⟩

theorem authenticate_sound (h : r.Sound) (request : DataChannelBind) (protocolVersion : ProtocolVersion) (now : Nat) :
    (r.authenticate request protocolVersion now).Sound := by
  rw [authenticate]
  obtain hnone | hignored | ⟨token, binding, htoken, hlookup, hspent | ⟨waiting, hwaiting, hown, -, hexpires, hversion, hclient,
    hsession, hchannel, hredeemed⟩⟩ := redeemIfPresent_cases h request protocolVersion now
  · rw [hnone]
    exact h
  · rw [hignored]
    exact h
  · rw [hspent]
    exact h.spent token
  · rw [hredeemed]
    exact h.hand hlookup htoken hwaiting hown hexpires hversion hclient hsession hchannel _

/-- Without its token in the store, an attempt is not authenticated. -/
theorem authenticate_of_unknown {request : DataChannelBind} {protocolVersion : ProtocolVersion}
    (hunknown : ∀ token, token.bytes = request.bindingToken.bytes → r.bindings.store.pending.lookup token = none) (now : Nat) :
    r.authenticate request protocolVersion now = r := by
  have hrecognizes : r.bindings.store.recognizes request.bindingToken.bytes = false := by
    refine Bool.eq_false_iff.mpr fun hknown => ?_
    obtain ⟨token, binding, htoken, hlookup⟩ := recognizes_eq_true hknown
    cases (hunknown token htoken).symm.trans hlookup
  rw [authenticate, redeemIfPresent, if_pos hrecognizes]

end SessionRuntime

end Rustgo.Bindings
