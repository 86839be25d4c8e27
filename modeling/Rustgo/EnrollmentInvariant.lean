import Rustgo.RegistrationApproval

namespace Rustgo.Enrollment

open Checks Rows

/-- What a consumed token came to is what its client is, unless the client has changed since. -/
def Settled (t : TokenRow) (c : ClientRow) : Prop :=
  ∃ r k, t.resultRevision = some r ∧ t.resultPublicKey = some k ∧
    (r < c.revision ∨ r = c.revision ∧ c.enabled = true ∧ c.tombstoned = false ∧ c.publicKey = some k)

/-- The rows of the clients. -/
structure ClientsConsistent (s : DynamicClientStore) : Prop where
  ids : Keyed ClientRow.internalId s.clients
  serials : Keyed ClientRow.serial s.clients
  normalized : Keyed ClientRow.normalizedId s.clients
  lowered : ∀ c ∈ s.clients, c.normalizedId = toAsciiLowercase c.displayId
  keys : ∀ c ∈ s.clients, ∀ c' ∈ s.clients, ∀ k, c.publicKey = some k → c'.publicKey = some k → c = c'
  deleted : ∀ c ∈ s.clients, c.tombstoned = true → c.enabled = false
  capacity : s.enabledClients ≤ s.limits.maxActiveClients
  numbered : ∀ c ∈ s.clients, c.serial < s.serial

/-- The rows of the tokens, beside those of the clients. -/
structure TokensConsistent (s : DynamicClientStore) : Prop where
  selectors : Keyed TokenRow.selector s.tokens
  serials : Keyed TokenRow.serial s.tokens
  numbered : ∀ t ∈ s.tokens, t.serial < s.serial
  capacity : s.activeTokens ≤ s.limits.maxTokens
  single : ∀ t ∈ s.tokens, ∀ t' ∈ s.tokens, t.live = true → t'.live = true → t.targetId = t'.targetId → t.purpose = t'.purpose → t = t'
  targets : ∀ t ∈ s.tokens, ∃ c ∈ s.clients, c.internalId = t.targetId
  liveTargets : ∀ t ∈ s.tokens, t.live = true → ∀ c ∈ s.clients, c.internalId = t.targetId → c.enabled = true ∧ c.tombstoned = false
  settled : ∀ t ∈ s.tokens, t.consumedAt ≠ none → ∀ c ∈ s.clients, c.internalId = t.targetId → Settled t c

structure Consistent (s : DynamicClientStore) : Prop where
  clients : ClientsConsistent s
  tokens : TokensConsistent s

/-- Rows are numbered upwards; a client keeps its id and does not go back, and a token that is consumed stays so. -/
structure Advances (s s' : DynamicClientStore) : Prop where
  limits : s'.limits = s.limits
  serial : s.serial ≤ s'.serial
  clients : ∀ c' ∈ s'.clients, c'.serial < s.serial →
    ∃ c ∈ s.clients, c.serial = c'.serial ∧ c.internalId = c'.internalId ∧ c.revision ≤ c'.revision
  tokens : ∀ t' ∈ s'.tokens, t'.serial < s.serial →
    ∃ t ∈ s.tokens, t.serial = t'.serial ∧ (t.consumedAt ≠ none → t'.consumedAt ≠ none)

theorem consistent_open (limits : EnrollmentStoreLimits) : Consistent (.open limits) := by
  refine ⟨⟨keyed_nil, keyed_nil, keyed_nil, ?_, ?_, ?_, Nat.zero_le _, ?_⟩,
    ⟨keyed_nil, keyed_nil, ?_, Nat.zero_le _, ?_, ?_, ?_, ?_⟩⟩
  all_goals exact fun _ h => absurd h List.not_mem_nil

theorem Advances.refl (s : DynamicClientStore) : Advances s s where
  limits := rfl
  serial := le_refl _
  clients c hc _ := ⟨c, hc, rfl, rfl, le_refl _⟩
  tokens t ht _ := ⟨t, ht, rfl, id⟩

theorem Advances.trans {s s' s'' : DynamicClientStore} (h : Advances s s') (h' : Advances s' s'') : Advances s s'' where
  limits := h'.limits.trans h.limits
  serial := h.serial.trans h'.serial
  clients c'' hc'' hlt := by
    obtain ⟨c', hc', hserial', hid', hrev'⟩ := h'.clients c'' hc'' (hlt.trans_le h.serial)
    obtain ⟨c, hc, hserial, hid, hrev⟩ := h.clients c' hc' (hserial' ▸ hlt)
    exact ⟨c, hc, hserial.trans hserial', hid.trans hid', hrev.trans hrev'⟩
  tokens t'' ht'' hlt := by
    obtain ⟨t', ht', hserial', hkeep'⟩ := h'.tokens t'' ht'' (hlt.trans_le h.serial)
    obtain ⟨t, ht, hserial, hkeep⟩ := h.tokens t' ht' (hserial' ▸ hlt)
    exact ⟨t, ht, hserial.trans hserial', fun hne => hkeep' (hkeep hne)⟩

/-- The store stays consistent, and its rows move on. -/
def Keeps (s s' : DynamicClientStore) : Prop := Consistent s → Consistent s' ∧ Advances s s'

theorem Keeps.refl (s : DynamicClientStore) : Keeps s s := fun h => ⟨h, .refl s⟩

theorem Keeps.trans {s s' s'' : DynamicClientStore} (h : Keeps s s') (h' : Keeps s' s'') : Keeps s s'' := by
  intro hs
  obtain ⟨hs', hadv⟩ := h hs
  obtain ⟨hs'', hadv'⟩ := h' hs'
  exact ⟨hs'', hadv.trans hadv'⟩

namespace DynamicClientStore

variable {s s' : DynamicClientStore} {row old new c c' : ClientRow} {t t' : TokenRow}

/-- The requests and the static identities are kept apart from the rows. -/
theorem keeps_withRequests (s : DynamicClientStore) (requests : List RequestRow) : Keeps s { s with requests } :=
  fun h => ⟨⟨{ h.clients with }, { h.tokens with }⟩, { Advances.refl s with }⟩

theorem keeps_withStatic (s : DynamicClientStore) (staticIdentities : List (String × String)) :
    Keeps s { s with staticIdentities } :=
  fun h => ⟨⟨{ h.clients with }, { h.tokens with }⟩, { Advances.refl s with }⟩

/-- Deleted clients are disabled, so that they need not be counted out. -/
theorem enabledClients_eq (h : ClientsConsistent s) : s.enabledClients = s.activeClients := by
  refine List.countP_congr fun c hc => ?_
  have hdeleted := h.deleted c hc
  cases henabled : c.enabled with
  | true =>
      cases htombstoned : c.tombstoned with
      | true => exact absurd (hdeleted htombstoned) (by simp [henabled])
      | false => simp
  | false => simp

section Insertion

theorem insertClient_eq_some (h : s.insertClient row = some s') :
    (∀ c ∈ s.clients, c.internalId ≠ row.internalId ∧ c.normalizedId ≠ row.normalizedId ∧
      ∀ k, row.publicKey = some k → c.publicKey ≠ some k) ∧
      s' = { s with clients := s.clients ++ [{ row with serial := s.serial }], serial := s.serial + 1 } := by
  obtain ⟨hfree, heq⟩ := Option.ite_none_left_eq_some.mp h
  refine ⟨fun c hc => ?_, (Option.some.inj heq).symm⟩
  have hconflict : ¬conflicts row c = true := fun hconflict => hfree (List.any_eq_true.mpr ⟨c, hc, hconflict⟩)
  rw [conflicts, decide_eq_true_eq] at hconflict
  refine ⟨fun heq => hconflict (.inl heq.symm), fun heq => hconflict (.inr (.inl heq.symm)), fun k hk heq => ?_⟩
  exact hconflict (.inr (.inr ⟨by rw [hk]; rfl, hk.trans heq.symm⟩))

/-- A client that is created, or that an approval makes. -/
theorem keeps_insertClient (h : s.insertClient row = some s') (hlowered : row.normalizedId = toAsciiLowercase row.displayId)
    (hlive : row.tombstoned = false) (hcapacity : s.enabledClients < s.limits.maxActiveClients) : Keeps s s' := by
  intro hs
  obtain ⟨hfree, rfl⟩ := insertClient_eq_some h
  have hserial : ∀ c ∈ s.clients, c.serial ≠ s.serial := fun c hc => (hs.clients.numbered c hc).ne
  have hcases : ∀ {c}, c ∈ s.clients ++ [{ row with serial := s.serial }] → c ∈ s.clients ∨ c = { row with serial := s.serial } := by
    intro c hc
    exact (List.mem_append.mp hc).imp_right List.mem_singleton.mp
  have htarget : ∀ t ∈ s.tokens, row.internalId ≠ t.targetId := by
    intro t ht heq
    obtain ⟨c, hc, hid⟩ := hs.tokens.targets t ht
    exact (hfree c hc).1 (hid.trans heq.symm)
  refine ⟨⟨⟨hs.clients.ids.insert fun c hc => (hfree c hc).1, hs.clients.serials.insert hserial,
    hs.clients.normalized.insert fun c hc => (hfree c hc).2.1, ?_, ?_, ?_, ?_, ?_⟩, ⟨hs.tokens.selectors, hs.tokens.serials,
    fun t ht => (hs.tokens.numbered t ht).trans (Nat.lt_succ_self _), hs.tokens.capacity, hs.tokens.single, ?_, ?_, ?_⟩⟩, ?_⟩
  · intro c hc
    rcases hcases hc with hc | rfl
    · exact hs.clients.lowered c hc
    · exact hlowered
  · intro c hc c' hc' k hk hk'
    rcases hcases hc with hc | rfl
    · rcases hcases hc' with hc' | rfl
      · exact hs.clients.keys c hc c' hc' k hk hk'
      · exact absurd hk ((hfree c hc).2.2 k hk')
    · rcases hcases hc' with hc' | rfl
      · exact absurd hk' ((hfree c' hc').2.2 k hk)
      · rfl
  · intro c hc hdeleted
    rcases hcases hc with hc | rfl
    · exact hs.clients.deleted c hc hdeleted
    · exact absurd (hlive.symm.trans hdeleted) (by decide)
  · have hcount : (s.clients ++ [{ row with serial := s.serial }]).countP (fun c : ClientRow => c.enabled) ≤ s.enabledClients + 1 := by
      rw [List.countP_append]
      exact Nat.add_le_add_left List.countP_le_length _
    exact hcount.trans hcapacity
  · intro c hc
    rcases hcases hc with hc | rfl
    · exact (hs.clients.numbered c hc).trans (Nat.lt_succ_self _)
    · exact Nat.lt_succ_self _
  · intro t ht
    obtain ⟨c, hc, hid⟩ := hs.tokens.targets t ht
    exact ⟨c, List.mem_append_left _ hc, hid⟩
  · intro t ht htlive c hc hid
    rcases hcases hc with hc | rfl
    · exact hs.tokens.liveTargets t ht htlive c hc hid
    · exact absurd hid (htarget t ht)
  · intro t ht hconsumed c hc hid
    rcases hcases hc with hc | rfl
    · exact hs.tokens.settled t ht hconsumed c hc hid
    · exact absurd hid (htarget t ht)
  · refine ⟨rfl, Nat.le_succ _, fun c hc hlt => ?_, fun t ht _ => ⟨t, ht, rfl, id⟩⟩
    rcases hcases hc with hc | rfl
    · exact ⟨c, hc, rfl, rfl, le_refl _⟩
    · exact absurd hlt (lt_irrefl _)

end Insertion

section Changes

/-- A change that leads one row to its next revision. -/
structure Next (s : DynamicClientStore) (old new : ClientRow) : Prop where
  mem : old ∈ s.clients
  internalId : new.internalId = old.internalId
  serial : new.serial = old.serial
  revision : new.revision = old.revision + 1
  lowered : new.normalizedId = toAsciiLowercase new.displayId
  deleted : new.tombstoned = true → new.enabled = false
  capacity : new.enabled = true → old.enabled = true ∨ s.activeClients < s.limits.maxActiveClients

theorem updateClient_eq_some (h : s.updateClient old new = some s') :
    (∀ c ∈ s.clients, c.internalId ≠ old.internalId → c.normalizedId ≠ new.normalizedId ∧
      ∀ k, new.publicKey = some k → c.publicKey ≠ some k) ∧
      s' = { s with clients := updateWhere (fun c => c.internalId = old.internalId) (fun _ => new) s.clients } := by
  obtain ⟨hfree, heq⟩ := Option.ite_none_left_eq_some.mp h
  refine ⟨fun c hc hne => ?_, (Option.some.inj heq).symm⟩
  have hconflict : ¬conflicts new c = true :=
    fun hconflict => hfree (List.any_eq_true.mpr ⟨c, hc, decide_eq_true ⟨hne, hconflict⟩⟩)
  rw [conflicts, decide_eq_true_eq] at hconflict
  refine ⟨fun heq => hconflict (.inr (.inl heq.symm)), fun k hk heq => ?_⟩
  exact hconflict (.inr (.inr ⟨by rw [hk]; rfl, hk.trans heq.symm⟩))

theorem mem_updateClient (h : s.updateClient old new = some s') (hold : old ∈ s.clients) :
    c ∈ s'.clients ↔ c = new ∨ c ∈ s.clients ∧ c.internalId ≠ old.internalId := by
  obtain ⟨-, rfl⟩ := updateClient_eq_some h
  exact mem_replace hold

/-- The replaced row takes a place only if there is one. -/
theorem enabled_replace_le (hs : ClientsConsistent s) (hnext : Next s old new) :
    (updateWhere (fun c => c.internalId = old.internalId) (fun _ => new) s.clients).countP (fun c => c.enabled) ≤
      s.limits.maxActiveClients := by
  have hcount := hs.ids.countP_replace hnext.mem new fun c => c.enabled
  have hcapacity : s.clients.countP (fun c => c.enabled) ≤ s.limits.maxActiveClients := hs.capacity
  cases henabled : new.enabled with
  | false =>
      rw [henabled, if_neg Bool.false_ne_true] at hcount
      omega
  | true =>
      rw [henabled, if_pos rfl] at hcount
      rcases hnext.capacity henabled with hold | hroom
      · rw [hold, if_pos rfl] at hcount
        omega
      · have hroom : s.clients.countP (fun c => c.enabled) < s.limits.maxActiveClients := (enabledClients_eq hs).trans_lt hroom
        omega

theorem clientsConsistent_updateClient (hs : ClientsConsistent s) (hnext : Next s old new)
    (h : s.updateClient old new = some s') : ClientsConsistent s' := by
  obtain ⟨hfree, hs'⟩ := updateClient_eq_some h
  have hmem := fun {c} => mem_updateClient (c := c) h hnext.mem
  have hold : ∀ c ∈ s.clients, c.internalId ≠ old.internalId → c ≠ old := fun c _ hne heq => hne (heq ▸ rfl)
  subst hs'
  refine ⟨hs.ids.replace hs.ids fun c _ hne => hnext.internalId ▸ hne, hs.ids.replace hs.serials fun c hc hne heq => ?_,
    hs.ids.replace hs.normalized fun c hc hne => (hfree c hc hne).1, ?_, ?_, ?_, ?_, ?_⟩
  · exact hold c hc hne (hs.serials.eq_of_key_eq hc hnext.mem (heq.trans hnext.serial))
  · intro c hc
    rcases hmem.mp hc with rfl | ⟨hc, -⟩
    · exact hnext.lowered
    · exact hs.lowered c hc
  · intro c hc c' hc' k hk hk'
    rcases hmem.mp hc with rfl | ⟨hcs, hne⟩
    · rcases hmem.mp hc' with rfl | ⟨hcs', hne'⟩
      · rfl
      · exact absurd hk' ((hfree c' hcs' hne').2 k hk)
    · rcases hmem.mp hc' with rfl | ⟨hcs', hne'⟩
      · exact absurd hk ((hfree c hcs hne).2 k hk')
      · exact hs.keys c hcs c' hcs' k hk hk'
  · intro c hc hdeleted
    rcases hmem.mp hc with rfl | ⟨hc, -⟩
    · exact hnext.deleted hdeleted
    · exact hs.deleted c hc hdeleted
  · exact enabled_replace_le hs hnext
  · intro c hc
    rcases hmem.mp hc with rfl | ⟨hc, -⟩
    · rw [hnext.serial]
      exact hs.numbered old hnext.mem
    · exact hs.numbered c hc

/-- A change of a token that leaves none to be consumed. -/
structure Spent (t t' : TokenRow) : Prop where
  selector : t'.selector = t.selector
  serial : t'.serial = t.serial
  targetId : t'.targetId = t.targetId
  dead : t'.live = false
  consumed : t.consumedAt ≠ none → t'.consumedAt ≠ none

theorem spent_revoked (t : TokenRow) : Spent t { t with revoked := true } :=
  ⟨rfl, rfl, rfl, by simp [TokenRow.live], id⟩

theorem spent_consumed (t : TokenRow) (now : Nat) (requestId publicKey : String) (revision : Nat) :
    Spent t (consumed t now requestId publicKey revision) :=
  ⟨rfl, rfl, rfl, by simp [TokenRow.live, consumed], fun _ => Option.some_ne_none now⟩

theorem mem_updateToken {p : TokenRow → Bool} {f : TokenRow → TokenRow} :
    t ∈ (s.updateToken p f).tokens ↔ (∃ t₀ ∈ s.tokens, p t₀ = true ∧ f t₀ = t) ∨ t ∈ s.tokens ∧ p t = false :=
  mem_updateWhere

/-- The tokens of a store whose clients may have changed with them. -/
structure TokensNext (s : DynamicClientStore) (s' : DynamicClientStore) (p : TokenRow → Bool) (f : TokenRow → TokenRow) :
    Prop where
  tokens : s'.tokens = updateWhere p f s.tokens
  limits : s'.limits = s.limits
  serial : s'.serial = s.serial
  spent : ∀ t, Spent t (f t)
  ids : s'.clients.map ClientRow.internalId = s.clients.map ClientRow.internalId
  live : ∀ t ∈ s.tokens, t.live = true → p t = false → ∀ c ∈ s'.clients, c.internalId = t.targetId →
    c.enabled = true ∧ c.tombstoned = false
  settled : ∀ t ∈ s'.tokens, t.consumedAt ≠ none → ∀ c ∈ s'.clients, c.internalId = t.targetId → Settled t c

theorem tokensConsistent_next {p : TokenRow → Bool} {f : TokenRow → TokenRow} (hs : TokensConsistent s)
    (h : TokensNext s s' p f) : TokensConsistent s' := by
  have hcases : ∀ t ∈ s'.tokens, ∃ t₀ ∈ s.tokens, t.serial = t₀.serial ∧ t.targetId = t₀.targetId ∧
      (t.live = true → t = t₀ ∧ p t₀ = false) := by
    intro t ht
    rw [h.tokens] at ht
    rcases mem_updateWhere.mp ht with ⟨t₀, ht₀, -, rfl⟩ | ⟨ht, hp⟩
    · obtain ⟨-, hserial, htarget, hdead, -⟩ := h.spent t₀
      exact ⟨t₀, ht₀, hserial, htarget, fun hlive => absurd (hlive.symm.trans hdead) (by decide)⟩
    · exact ⟨t, ht, rfl, rfl, fun _ => ⟨rfl, hp⟩⟩
  refine ⟨?_, ?_, fun t ht => ?_, ?_, fun t ht t' ht' hlive hlive' => ?_, fun t ht => ?_, fun t ht hlive c hc hid => ?_, h.settled⟩
  · rw [h.tokens]
    exact hs.selectors.updateWhere fun t => (h.spent t).selector
  · rw [h.tokens]
    exact hs.serials.updateWhere fun t => (h.spent t).serial
  · obtain ⟨t₀, ht₀, hserial, -, -⟩ := hcases t ht
    rw [h.serial, hserial]
    exact hs.numbered t₀ ht₀
  · have hle : (updateWhere p f s.tokens).countP TokenRow.live ≤ s.tokens.countP TokenRow.live := by
      rw [updateWhere, List.countP_map]
      refine List.countP_mono_left fun t ht hlive => ?_
      rw [Function.comp_apply] at hlive
      split at hlive
      · exact absurd (hlive.symm.trans (h.spent t).dead) (by decide)
      · exact hlive
    have hcapacity : s.tokens.countP TokenRow.live ≤ s.limits.maxTokens := hs.capacity
    rw [activeTokens, h.tokens, h.limits]
    exact hle.trans hcapacity
  · obtain ⟨t₀, ht₀, -, -, hsame⟩ := hcases t ht
    obtain ⟨t₀', ht₀', -, -, hsame'⟩ := hcases t' ht'
    obtain ⟨rfl, -⟩ := hsame hlive
    obtain ⟨rfl, -⟩ := hsame' hlive'
    exact hs.single t ht₀ t' ht₀' hlive hlive'
  · obtain ⟨t₀, ht₀, -, htarget, -⟩ := hcases t ht
    obtain ⟨c, hc, hid⟩ := hs.targets t₀ ht₀
    have hmem : t₀.targetId ∈ s'.clients.map ClientRow.internalId := by
      rw [h.ids, ← hid]
      exact List.mem_map_of_mem hc
    obtain ⟨c', hc', hid'⟩ := List.mem_map.mp hmem
    exact ⟨c', hc', hid'.trans htarget.symm⟩
  · obtain ⟨t₀, ht₀, -, -, hsame⟩ := hcases t ht
    obtain ⟨rfl, hp⟩ := hsame hlive
    exact h.live t ht₀ hlive hp c hc hid

theorem advances_of_tokens {p : TokenRow → Bool} {f : TokenRow → TokenRow} (hspent : ∀ t, Spent t (f t))
    (hclients : Advances s s') (htokens : s'.tokens = s.tokens) : Advances s (s'.updateToken p f) where
  limits := hclients.limits
  serial := hclients.serial
  clients := hclients.clients
  tokens t ht _ := by
    rcases mem_updateToken.mp ht with ⟨t₀, ht₀, -, rfl⟩ | ⟨ht, -⟩
    · exact ⟨t₀, htokens ▸ ht₀, (hspent t₀).serial.symm, (hspent t₀).consumed⟩
    · exact ⟨t, htokens ▸ ht, rfl, id⟩

theorem advances_updateClient (hnext : Next s old new) (h : s.updateClient old new = some s') : Advances s s' := by
  have hmem := fun {c} => mem_updateClient (c := c) h hnext.mem
  obtain ⟨-, rfl⟩ := updateClient_eq_some h
  refine ⟨rfl, le_refl _, fun c hc _ => ?_, fun t ht _ => ⟨t, ht, rfl, id⟩⟩
  rcases hmem.mp hc with rfl | ⟨hcs, -⟩
  · exact ⟨old, hnext.mem, hnext.serial.symm, hnext.internalId.symm, hnext.revision ▸ Nat.le_succ _⟩
  · exact ⟨c, hcs, rfl, rfl, le_refl _⟩

theorem settled_next (h : Settled t old) (hnext : Next s old new) : Settled t new := by
  obtain ⟨r, k, hr, hk, hstate⟩ := h
  refine ⟨r, k, hr, hk, .inl ?_⟩
  have hrev := hnext.revision
  rcases hstate with hlt | ⟨heq, -⟩ <;> omega

/-- A change of a client, with the revocation of tokens that it needs: all of them where an active client stops being one. -/
theorem keeps_changeClient {p : TokenRow → Bool} (h : s.updateClient old new = some s') (hnext : Next s old new)
    (hkept : (old.enabled = true → old.tombstoned = false → new.enabled = true ∧ new.tombstoned = false) ∨
      ∀ t, unconsumedOf old.internalId t = true → p t = true) : Keeps s (s'.revokeTokens p) := by
  intro hs
  have hclients := clientsConsistent_updateClient hs.clients hnext h
  have hmem := fun {c} => mem_updateClient (c := c) h hnext.mem
  have hadv := advances_updateClient hnext h
  obtain ⟨-, hs'⟩ := updateClient_eq_some h
  have htokens : s'.tokens = s.tokens := by rw [hs']
  refine ⟨⟨{ hclients with }, ?_⟩, advances_of_tokens spent_revoked hadv htokens⟩
  refine tokensConsistent_next (p := p) (f := fun t => { t with revoked := true }) hs.tokens
    ⟨congrArg (updateWhere p _) htokens, by rw [hs']; rfl, by rw [hs']; rfl, spent_revoked, ?_, fun t ht hlive hp c hc hid => ?_,
      fun t ht hconsumed c hc hid => ?_⟩
  · have hid : ∀ c : ClientRow, c.internalId = old.internalId → new.internalId = c.internalId :=
      fun c hc => hnext.internalId.trans hc.symm
    rw [revokeTokens, updateToken, hs', updateWhere, List.map_map]
    refine List.map_congr_left fun c _ => ?_
    rw [Function.comp_apply]
    split
    · next hc => exact hid c (of_decide_eq_true hc)
    · rfl
  · have holds := hs.tokens.liveTargets t ht hlive
    rcases hmem.mp hc with rfl | ⟨hcs, -⟩
    · obtain ⟨henabled, hundeleted⟩ := holds old hnext.mem (hnext.internalId.symm.trans hid)
      rcases hkept with hkept | hkept
      · exact hkept henabled hundeleted
      · have hunconsumed : t.consumedAt = none := (of_decide_eq_true hlive).1
        have hrevoked := hkept t (decide_eq_true ⟨hid.symm.trans hnext.internalId, hunconsumed⟩)
        exact absurd (hp.symm.trans hrevoked) (by decide)
    · exact holds c hcs hid
  · have hold : ∀ t₀ ∈ s.tokens, t₀.consumedAt ≠ none → t₀.targetId = c.internalId → Settled t₀ c := by
      intro t₀ ht₀ hne heq
      rcases hmem.mp hc with rfl | ⟨hcs, -⟩
      · exact settled_next (hs.tokens.settled t₀ ht₀ hne old hnext.mem (hnext.internalId.symm.trans heq.symm)) hnext
      · exact hs.tokens.settled t₀ ht₀ hne c hcs heq.symm
    rcases mem_updateToken.mp ht with ⟨t₀, ht₀, -, rfl⟩ | ⟨ht, -⟩
    · exact hold t₀ (htokens ▸ ht₀) hconsumed hid.symm
    · exact hold t (htokens ▸ ht) hconsumed hid.symm

theorem keeps_updateClient (h : s.updateClient old new = some s') (hnext : Next s old new)
    (hkept : old.enabled = true → old.tombstoned = false → new.enabled = true ∧ new.tombstoned = false) : Keeps s s' := by
  have hnone : s'.revokeTokens (fun _ => false) = s' := by
    rw [revokeTokens, updateToken, updateWhere_of_none fun _ _ => rfl]
  exact hnone ▸ keeps_changeClient (p := fun _ => false) h hnext (.inl hkept)

theorem keeps_revokeTokens (s : DynamicClientStore) (p : TokenRow → Bool) : Keeps s (s.revokeTokens p) := by
  intro hs
  refine ⟨⟨{ hs.clients with }, tokensConsistent_next (p := p) hs.tokens
    ⟨rfl, rfl, rfl, spent_revoked, rfl, fun t ht hlive _ => hs.tokens.liveTargets t ht hlive, fun t ht hconsumed c hc hid => ?_⟩⟩,
    advances_of_tokens spent_revoked (.refl s) rfl⟩
  rcases mem_updateToken.mp ht with ⟨t₀, ht₀, -, rfl⟩ | ⟨ht, -⟩
  · exact hs.tokens.settled t₀ ht₀ hconsumed c hc hid
  · exact hs.tokens.settled t ht hconsumed c hc hid

/-- A token is consumed for a client that has the key and the revision already. -/
theorem keeps_consumed (now : Nat) (requestId : String) {publicKey : String} (ht : t ∈ s.tokens) (hc : c ∈ s.clients)
    (hid : c.internalId = t.targetId) (henabled : c.enabled = true) (hlive : c.tombstoned = false)
    (hkey : c.publicKey = some publicKey) :
    Keeps s (s.updateToken (fun t' => t'.selector = t.selector ∧ t'.consumedAt = none)
      fun t' => consumed t' now requestId publicKey c.revision) := by
  intro hs
  have hspent := fun t => spent_consumed t now requestId publicKey c.revision
  refine ⟨⟨{ hs.clients with }, tokensConsistent_next hs.tokens ⟨rfl, rfl, rfl, hspent, rfl,
    fun t ht hlive _ => hs.tokens.liveTargets t ht hlive, fun t' ht' hconsumed c' hc' hid' => ?_⟩⟩,
    advances_of_tokens hspent (.refl s) rfl⟩
  rcases mem_updateToken.mp ht' with ⟨t₀, ht₀, hp, rfl⟩ | ⟨ht', -⟩
  · have hsame : t₀ = t := hs.tokens.selectors.eq_of_key_eq ht₀ ht (of_decide_eq_true hp).1
    have hc'' : c' = c := hs.clients.ids.eq_of_key_eq hc' hc (hid'.trans (hid.trans (congrArg _ hsame.symm)).symm)
    exact ⟨c.revision, publicKey, rfl, rfl, .inr (by rw [hc'']; exact ⟨rfl, henabled, hlive, hkey⟩)⟩
  · exact hs.tokens.settled t' ht' hconsumed c' hc' hid'

end Changes

section Issue

theorem insertToken_eq_ok (h : s.insertToken t = .ok s') :
    (∀ t' ∈ s.tokens, t'.selector ≠ t.selector) ∧
      s' = { s with tokens := s.tokens ++ [{ t with serial := s.serial }], serial := s.serial + 1 } := by
  simp only [insertToken, bind_eq_ok, require_eq_ok, pure_eq_ok] at h
  obtain ⟨-, -, -, hfree, rfl⟩ := h
  refine ⟨fun t' ht' heq => ?_, rfl⟩
  exact absurd hfree (by rw [List.any_eq_true.mpr ⟨t', ht', decide_eq_true heq⟩]; decide)

/-- A token is issued to an active client that has none for the purpose. -/
theorem keeps_insertToken (h : s.insertToken t = .ok s') (hc : c ∈ s.clients) (hid : c.internalId = t.targetId)
    (henabled : c.enabled = true) (hlive : c.tombstoned = false) (hunconsumed : t.consumedAt = none)
    (hsingle : ∀ t' ∈ s.tokens, t'.live = true → t'.targetId = t.targetId → t'.purpose ≠ t.purpose)
    (hcapacity : s.activeTokens < s.limits.maxTokens) : Keeps s s' := by
  intro hs
  obtain ⟨hfree, rfl⟩ := insertToken_eq_ok h
  have hcases : ∀ {t'}, t' ∈ s.tokens ++ [{ t with serial := s.serial }] → t' ∈ s.tokens ∨ t' = { t with serial := s.serial } :=
    fun ht' => (List.mem_append.mp ht').imp_right List.mem_singleton.mp
  have howner : ∀ c' ∈ s.clients, c'.internalId = t.targetId → c' = c :=
    fun c' hc' hid' => hs.clients.ids.eq_of_key_eq hc' hc (hid'.trans hid.symm)
  refine ⟨⟨{ hs.clients with numbered := fun c hc => (hs.clients.numbered c hc).trans (Nat.lt_succ_self _) },
    ⟨hs.tokens.selectors.insert hfree, hs.tokens.serials.insert fun t ht => (hs.tokens.numbered t ht).ne, ?_, ?_, ?_, ?_, ?_, ?_⟩⟩,
    ⟨rfl, Nat.le_succ _, fun c hc _ => ⟨c, hc, rfl, rfl, le_refl _⟩, fun t' ht' hlt => ?_⟩⟩
  · intro t' ht'
    rcases hcases ht' with ht' | rfl
    · exact (hs.tokens.numbered t' ht').trans (Nat.lt_succ_self _)
    · exact Nat.lt_succ_self _
  · have hcount : (s.tokens ++ [{ t with serial := s.serial }]).countP TokenRow.live ≤ s.activeTokens + 1 := by
      rw [List.countP_append]
      exact Nat.add_le_add_left List.countP_le_length _
    exact hcount.trans hcapacity
  · intro t₁ ht₁ t₂ ht₂ hlive₁ hlive₂ htarget hpurpose
    rcases hcases ht₁ with ht₁ | rfl
    · rcases hcases ht₂ with ht₂ | rfl
      · exact hs.tokens.single t₁ ht₁ t₂ ht₂ hlive₁ hlive₂ htarget hpurpose
      · exact absurd hpurpose (hsingle t₁ ht₁ hlive₁ htarget)
    · rcases hcases ht₂ with ht₂ | rfl
      · exact absurd hpurpose.symm (hsingle t₂ ht₂ hlive₂ htarget.symm)
      · rfl
  · intro t' ht'
    rcases hcases ht' with ht' | rfl
    · exact hs.tokens.targets t' ht'
    · exact ⟨c, hc, hid⟩
  · intro t' ht' hlive' c' hc' hid'
    rcases hcases ht' with ht' | rfl
    · exact hs.tokens.liveTargets t' ht' hlive' c' hc' hid'
    · exact howner c' hc' hid' ▸ ⟨henabled, hlive⟩
  · intro t' ht' hconsumed c' hc' hid'
    rcases hcases ht' with ht' | rfl
    · exact hs.tokens.settled t' ht' hconsumed c' hc' hid'
    · exact absurd hunconsumed hconsumed
  · rcases hcases ht' with ht' | rfl
    · exact ⟨t', ht', rfl, id⟩
    · exact absurd hlt (lt_irrefl _)

end Issue

section Upkeep

/-- Presentation data of a row. -/
def presented (displayName localIp : Option String) (row : ClientRow) : ClientRow := { row with displayName, localIp }

theorem mem_presented {p : ClientRow → Bool} {displayName localIp : Option String}
    (hc : c ∈ updateWhere p (presented displayName localIp) s.clients) : ∃ c₀ ∈ s.clients, c.serial = c₀.serial ∧
      c.internalId = c₀.internalId ∧ c.displayId = c₀.displayId ∧ c.normalizedId = c₀.normalizedId ∧
      c.publicKey = c₀.publicKey ∧ c.enabled = c₀.enabled ∧ c.revision = c₀.revision ∧ c.tombstoned = c₀.tombstoned := by
  rcases mem_updateWhere.mp hc with ⟨c₀, hc₀, -, rfl⟩ | ⟨hc, -⟩
  · exact ⟨c₀, hc₀, rfl, rfl, rfl, rfl, rfl, rfl, rfl, rfl⟩
  · exact ⟨c, hc, rfl, rfl, rfl, rfl, rfl, rfl, rfl, rfl⟩

/-- Presentation data is no part of what is kept. -/
theorem keeps_presented (s : DynamicClientStore) (p : ClientRow → Bool) (displayName localIp : Option String) :
    Keeps s { s with clients := updateWhere p (presented displayName localIp) s.clients } := by
  intro hs
  have hkeyed : ∀ {β : Type} {key : ClientRow → β}, Keyed key s.clients → (∀ row, key (presented displayName localIp row) = key row) →
      Keyed key (updateWhere p (presented displayName localIp) s.clients) := fun h hkey => h.updateWhere hkey
  have hids := hkeyed hs.clients.ids fun _ => rfl
  refine ⟨⟨⟨hids, hkeyed hs.clients.serials fun _ => rfl, hkeyed hs.clients.normalized fun _ => rfl, ?_, ?_, ?_, ?_, ?_⟩,
    ⟨hs.tokens.selectors, hs.tokens.serials, hs.tokens.numbered, hs.tokens.capacity, hs.tokens.single, ?_, ?_, ?_⟩⟩, ?_⟩
  · intro c hc
    obtain ⟨c₀, hc₀, -, -, hdisplay, hnormalized, -⟩ := mem_presented hc
    rw [hnormalized, hdisplay]
    exact hs.clients.lowered c₀ hc₀
  · intro c hc c' hc' k hk hk'
    obtain ⟨c₀, hc₀, -, hid, -, -, hkey, -⟩ := mem_presented hc
    obtain ⟨c₀', hc₀', -, hid', -, -, hkey', -⟩ := mem_presented hc'
    have hsame := hs.clients.keys c₀ hc₀ c₀' hc₀' k (hkey ▸ hk) (hkey' ▸ hk')
    exact hids.eq_of_key_eq hc hc' (by rw [hid, hid', hsame])
  · intro c hc hdeleted
    obtain ⟨c₀, hc₀, -, -, -, -, -, henabled, -, htombstoned⟩ := mem_presented hc
    rw [henabled]
    exact hs.clients.deleted c₀ hc₀ (htombstoned ▸ hdeleted)
  · have hcount : (updateWhere p (presented displayName localIp) s.clients).countP (fun c => c.enabled) = s.enabledClients := by
      rw [updateWhere, List.countP_map]
      refine List.countP_congr fun c _ => ?_
      rw [Function.comp_apply]
      split <;> rfl
    exact hcount.trans_le hs.clients.capacity
  · intro c hc
    obtain ⟨c₀, hc₀, hserial, -⟩ := mem_presented hc
    exact hserial ▸ hs.clients.numbered c₀ hc₀
  · intro t ht
    obtain ⟨c, hc, hid⟩ := hs.tokens.targets t ht
    have hmap : (updateWhere p (presented displayName localIp) s.clients).map ClientRow.internalId = s.clients.map ClientRow.internalId :=
      map_updateWhere fun _ => rfl
    have hmem : t.targetId ∈ (updateWhere p (presented displayName localIp) s.clients).map ClientRow.internalId :=
      hmap ▸ hid ▸ List.mem_map_of_mem hc
    exact List.mem_map.mp hmem
  · intro t ht hlive c hc hid
    obtain ⟨c₀, hc₀, -, hid₀, -, -, -, henabled, -, htombstoned⟩ := mem_presented hc
    rw [henabled, htombstoned]
    exact hs.tokens.liveTargets t ht hlive c₀ hc₀ (hid₀.symm.trans hid)
  · intro t ht hconsumed c hc hid
    obtain ⟨c₀, hc₀, -, hid₀, -, -, hkey, henabled, hrev, htombstoned⟩ := mem_presented hc
    have hsettled := hs.tokens.settled t ht hconsumed c₀ hc₀ (hid₀.symm.trans hid)
    rwa [Settled, hkey, henabled, hrev, htombstoned]
  · refine ⟨rfl, le_refl _, fun c hc _ => ?_, fun t ht _ => ⟨t, ht, rfl, id⟩⟩
    obtain ⟨c₀, hc₀, hserial, hid, -, -, -, -, hrev, -⟩ := mem_presented hc
    exact ⟨c₀, hc₀, hserial.symm, hid.symm, hrev.ge⟩

/-- Clients leave together with their tokens. -/
theorem keeps_purge (s : DynamicClientStore) (targets : List String) : Keeps s { s with
    tokens := s.tokens.filter fun t => t.targetId ∉ targets
    clients := s.clients.filter fun row => row.internalId ∉ targets } := by
  intro hs
  have hc := fun {c : ClientRow} (h : c ∈ s.clients.filter fun row => decide (row.internalId ∉ targets)) => (List.mem_filter.mp h).1
  have ht := fun {t : TokenRow} (h : t ∈ s.tokens.filter fun t => decide (t.targetId ∉ targets)) => (List.mem_filter.mp h).1
  refine ⟨⟨⟨hs.clients.ids.filter _, hs.clients.serials.filter _, hs.clients.normalized.filter _,
    fun c h => hs.clients.lowered c (hc h), fun c h c' h' => hs.clients.keys c (hc h) c' (hc h'),
    fun c h => hs.clients.deleted c (hc h), ?_, fun c h => hs.clients.numbered c (hc h)⟩,
    ⟨hs.tokens.selectors.filter _, hs.tokens.serials.filter _, fun t h => hs.tokens.numbered t (ht h), ?_,
      fun t h t' h' => hs.tokens.single t (ht h) t' (ht h'), fun t h => ?_, fun t h hlive c h' => hs.tokens.liveTargets t (ht h) hlive c (hc h'),
      fun t h hconsumed c h' => hs.tokens.settled t (ht h) hconsumed c (hc h')⟩⟩,
    ⟨rfl, le_refl _, fun c h _ => ⟨c, hc h, rfl, rfl, le_refl _⟩, fun t h _ => ⟨t, ht h, rfl, id⟩⟩⟩
  · exact (List.Sublist.countP_le List.filter_sublist).trans hs.clients.capacity
  · exact (List.Sublist.countP_le List.filter_sublist).trans hs.tokens.capacity
  · obtain ⟨c, hmem, hid⟩ := hs.tokens.targets t (ht h)
    have hkept := (List.mem_filter.mp h).2
    exact ⟨c, List.mem_filter.mpr ⟨hmem, hid ▸ hkept⟩, hid⟩

end Upkeep

end DynamicClientStore

end Rustgo.Enrollment
