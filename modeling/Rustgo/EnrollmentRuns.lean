import Rustgo.EnrollmentInvariant

namespace Rustgo.Enrollment

open Checks Rows

inductive Op
  | createClient (displayId : String) (clock : SystemTime) (randomId : String)
  | createClientWithToken (displayId serverAddr : String) (fingerprint : Bytes) (ttl : Duration) (clock : SystemTime)
      (randomId : String) (token salt : Bytes)
  | renameClient (internalId displayId : String) (expectedRevision : Nat) (clock : SystemTime)
  | issueToken (internalId : String) (purpose : EnrollmentPurpose) (serverAddr : String) (fingerprint : Bytes) (ttl : Duration)
      (expectedRevision : Nat) (clock : SystemTime) (token salt : Bytes)
  | setClientEnabled (internalId : String) (enabled : Bool) (expectedRevision : Nat) (clock : SystemTime)
  | deleteClient (internalId : String) (expectedRevision : Nat) (clock : SystemTime)
  | consumeToken (encoded publicKey requestId : String) (now : SystemTime)
  | requestApproval (request : ApprovalRequest) (now : SystemTime) (randomId : String)
  | reviewApproval (requestId : String) (approve : Bool) (clock : SystemTime) (randomId : String)
  | purgeTombstones (olderThan : SystemTime) (batchLimit : Nat)
  | updateProfile (internalId displayName : String) (localIp : Option String) (clock : SystemTime)
  | validateStaticCollisions (clients : List AuthorizedClient)

inductive Outcome
  | client (client : DynamicClient)
  | created (client : DynamicClient) (key : String)
  | issued (key : String)
  | enrolled (result : EnrollmentResult)
  | approval (answer : ApprovalAnswer)
  | reviewed (result : Option EnrollmentResult)
  | purged (count : Nat)
  | done

/-- What the caller gets. A request that waits for its approval is answered with an error. -/
def Outcome.answer : Outcome → Except EnrollmentStoreError Outcome
  | .approval (.pending true) => .error .replacementApprovalPending
  | .approval (.pending false) => .error .approvalPending
  | outcome => .ok outcome

namespace DynamicClientStore

/-- The transaction of an operation up to its commit. -/
def attempt (formats : Formats) (s : DynamicClientStore) : Op → Except EnrollmentStoreError (Outcome × DynamicClientStore)
  | .createClient displayId clock randomId => Prod.map .client id <$> s.createClient displayId clock randomId
  | .createClientWithToken displayId serverAddr fingerprint ttl clock randomId token salt =>
      Prod.map (fun p => .created p.1 p.2) id <$>
        s.createClientWithToken formats displayId serverAddr fingerprint ttl clock randomId token salt
  | .renameClient internalId displayId expectedRevision clock =>
      Prod.map .client id <$> s.renameClient internalId displayId expectedRevision clock
  | .issueToken internalId purpose serverAddr fingerprint ttl expectedRevision clock token salt =>
      Prod.map .issued id <$> s.issueToken formats internalId purpose serverAddr fingerprint ttl expectedRevision clock token salt
  | .setClientEnabled internalId enabled expectedRevision clock =>
      Prod.map .client id <$> s.setClientEnabled internalId enabled expectedRevision clock
  | .deleteClient internalId expectedRevision clock => Prod.map .client id <$> s.deleteClient internalId expectedRevision clock
  | .consumeToken encoded publicKey requestId now =>
      Prod.map .enrolled id <$> s.consumeToken formats encoded publicKey requestId now
  | .requestApproval request now randomId => Prod.map .approval id <$> s.requestApprovalInner request now randomId
  | .reviewApproval requestId approve clock randomId =>
      Prod.map .reviewed id <$> s.reviewApproval requestId approve clock randomId
  | .purgeTombstones olderThan batchLimit => Prod.map .purged id <$> s.purgeTombstones olderThan batchLimit
  | .updateProfile internalId displayName localIp clock =>
      (fun s' => (.done, s')) <$> s.updateProfile formats internalId displayName localIp clock
  | .validateStaticCollisions clients => (fun s' => (.done, s')) <$> s.validateStaticCollisions clients

/-- An error before the commit drops the transaction, which rolls it back. -/
def perform (formats : Formats) (s : DynamicClientStore) (op : Op) : Except EnrollmentStoreError Outcome × DynamicClientStore :=
  match s.attempt formats op with
  | .ok (outcome, s') => (outcome.answer, s')
  | .error e => (.error e, s)

def performAll (formats : Formats) (s : DynamicClientStore) (ops : List Op) : DynamicClientStore :=
  ops.foldl (fun s op => (s.perform formats op).2) s

variable {formats : Formats} {s s' : DynamicClientStore} {row : ClientRow} {client : DynamicClient}

theorem findLive_eq_some {internalId : String} {expected : Nat} (h : s.findLive internalId expected = some row) :
    row ∈ s.clients ∧ row.internalId = internalId ∧ row.revision = expected ∧ row.tombstoned = false := by
  have hrow := List.find?_some h
  exact ⟨List.mem_of_find?_eq_some h, of_decide_eq_true hrow⟩

theorem queryRow_eq_some {internalId : String} (h : s.queryRow internalId = some row) :
    row ∈ s.clients ∧ row.internalId = internalId := by
  have hrow := List.find?_some h
  exact ⟨List.mem_of_find?_eq_some h, of_decide_eq_true hrow⟩

section Creation

theorem keeps_createClient {displayId randomId : String} {clock : SystemTime}
    (h : s.createClient displayId clock randomId = .ok (client, s')) : Keeps s s' := by
  simp only [createClient, bind_eq_ok, require_eq_ok, okOr_eq_ok, pure_eq_ok] at h
  obtain ⟨_, -, -, hcapacity, -, -, s₁, hinsert, heq⟩ := h
  obtain rfl := (Prod.mk.inj heq).2
  exact keeps_insertClient hinsert rfl rfl hcapacity

theorem keeps_createClientWithToken {displayId serverAddr randomId : String} {fingerprint token salt : Bytes} {ttl : Duration}
    {clock : SystemTime} {key : String}
    (h : s.createClientWithToken formats displayId serverAddr fingerprint ttl clock randomId token salt = .ok ((client, key), s')) :
    Keeps s s' := by
  simp only [createClientWithToken, bind_eq_ok, require_eq_ok, okOr_eq_ok, pure_eq_ok] at h
  obtain ⟨id, -, prepared, -, -, hclients, -, htokens, -, -, s₁, hinsert, s₂, htoken, heq⟩ := h
  obtain rfl := (Prod.mk.inj heq).2
  intro hs
  have hcapacity : s.enabledClients < s.limits.maxActiveClients := (enabledClients_eq hs.clients).trans_lt hclients
  obtain ⟨hs₁, hadv⟩ := keeps_insertClient hinsert rfl rfl hcapacity hs
  obtain ⟨hfree, rfl⟩ := insertClient_eq_some hinsert
  refine (Keeps.trans (fun _ => ⟨hs₁, hadv⟩) ?_) hs
  refine keeps_insertToken htoken (List.mem_append_right _ (List.mem_singleton_self _)) rfl rfl rfl rfl
    (fun t ht _ htarget => ?_) htokens
  obtain ⟨c, hc, hid⟩ := hs.tokens.targets t ht
  exact absurd (hid.trans htarget) (hfree c hc).1

end Creation

section Changes

/-- A row has been led to its next revision. -/
structure Edited (s s' : DynamicClientStore) (row : ClientRow) : Prop where
  consistent : Consistent s'
  advances : Advances s s'
  next : ∃ new ∈ s'.clients, new.serial = row.serial ∧ new.revision = row.revision + 1

theorem edited_updateClient {old new : ClientRow} {s₁ : DynamicClientStore} (hs : Consistent s) (hnext : Next s old new)
    (h : s.updateClient old new = some s₁) (hkeeps : Keeps s s') (hclients : s'.clients = s₁.clients) : Edited s s' old := by
  obtain ⟨hs', hadv⟩ := hkeeps hs
  refine ⟨hs', hadv, new, ?_, hnext.serial, hnext.revision⟩
  rw [hclients]
  exact (mem_updateClient h hnext.mem).mpr (.inl rfl)

theorem edited_renameClient {internalId displayId : String} {expected : Nat} {clock : SystemTime} (hs : Consistent s)
    (h : s.renameClient internalId displayId expected clock = .ok (client, s')) :
    ∃ row, s.findLive internalId expected = some row ∧ Edited s s' row := by
  simp only [renameClient, bind_eq_ok, okOr_eq_ok, pure_eq_ok] at h
  obtain ⟨id, -, -, -, -, -, row, hfind, s₁, hupdate, -, -, heq⟩ := h
  obtain rfl := (Prod.mk.inj heq).2
  obtain ⟨hmem, -, -, hlive⟩ := findLive_eq_some hfind
  have hnext : Next s row { row with
      displayId := id, normalizedId := toAsciiLowercase id, revision := row.revision + 1 } :=
    ⟨hmem, rfl, rfl, rfl, rfl, hs.clients.deleted row hmem, fun henabled => .inl henabled⟩
  exact ⟨row, hfind, edited_updateClient hs hnext hupdate (keeps_updateClient hupdate hnext fun h h' => ⟨h, h'⟩) rfl⟩

theorem edited_setClientEnabled {internalId : String} {enabled : Bool} {expected : Nat} {clock : SystemTime} (hs : Consistent s)
    (h : s.setClientEnabled internalId enabled expected clock = .ok (client, s')) :
    ∃ row, s.findLive internalId expected = some row ∧ Edited s s' row := by
  simp only [setClientEnabled, bind_eq_ok, require_eq_ok, okOr_eq_ok, pure_eq_ok] at h
  obtain ⟨-, hcapacity, -, -, -, -, row, hfind, s₁, hupdate, -, -, heq⟩ := h
  obtain rfl := (Prod.mk.inj heq).2
  obtain ⟨hmem, hid, -, hlive⟩ := findLive_eq_some hfind
  have hnext : Next s row { row with enabled, revision := row.revision + 1 } :=
    ⟨hmem, rfl, rfl, rfl, hs.clients.lowered row hmem, fun hdeleted => absurd (hlive.symm.trans hdeleted) (by decide),
      fun henabled => .inr (hcapacity henabled)⟩
  refine ⟨row, hfind, ?_⟩
  cases enabled with
  | true => exact edited_updateClient hs hnext hupdate (keeps_updateClient hupdate hnext fun _ _ => ⟨rfl, hlive⟩) rfl
  | false =>
      have hrevoked := keeps_changeClient (p := unconsumedOf internalId) hupdate hnext (.inr fun t ht => hid ▸ ht)
      exact edited_updateClient hs hnext hupdate hrevoked rfl

theorem edited_deleteClient {internalId : String} {expected : Nat} {clock : SystemTime} (hs : Consistent s)
    (h : s.deleteClient internalId expected clock = .ok (client, s')) :
    ∃ row, s.findLive internalId expected = some row ∧ Edited s s' row := by
  simp only [deleteClient, bind_eq_ok, okOr_eq_ok, pure_eq_ok] at h
  obtain ⟨now, -, -, -, -, -, row, hfind, s₁, hupdate, -, -, heq⟩ := h
  obtain rfl := (Prod.mk.inj heq).2
  obtain ⟨hmem, hid, -, -⟩ := findLive_eq_some hfind
  have hnext : Next s row { row with
      enabled := false, tombstoned := true, revision := row.revision + 1, deletedAt := some now } :=
    ⟨hmem, rfl, rfl, rfl, hs.clients.lowered row hmem, fun _ => rfl, fun henabled => absurd henabled Bool.false_ne_true⟩
  have hrevoked := keeps_changeClient (p := unconsumedOf internalId) hupdate hnext (.inr fun t ht => hid ▸ ht)
  exact ⟨row, hfind, edited_updateClient hs hnext hupdate hrevoked rfl⟩

/-- An approval revives a deleted client too, if there is a place for it. -/
theorem edited_approveExisting {request : RequestRow} {id : String} {revision : Nat} (hs : Consistent s)
    (h : s.approveExisting request id = .ok (revision, s')) :
    ∃ row, s.queryRow id = some row ∧ request.expectedRevision = some row.revision ∧ Edited s s' row := by
  simp only [approveExisting, bind_eq_ok, require_eq_ok, okOr_eq_ok, pure_eq_ok] at h
  obtain ⟨expected, hexpected, row, hquery, -, hcapacity, -, -, -, ⟨rfl, hopen, hnormalized⟩, s₁, hupdate, heq⟩ := h
  obtain rfl := (Prod.mk.inj heq).2
  obtain ⟨hmem, rfl⟩ := queryRow_eq_some hquery
  have hnext : Next s row { row with
      publicKey := some request.publicKey, revision := row.revision + 1, enabled := true, tombstoned := false,
      deletedAt := none, displayName := request.profileName.or row.displayName } :=
    ⟨hmem, rfl, rfl, rfl, hs.clients.lowered row hmem, fun hdeleted => absurd hdeleted Bool.false_ne_true,
      fun _ => hopen.imp_right hcapacity⟩
  have hrevoked := keeps_changeClient (p := unconsumedOf row.internalId) hupdate hnext (.inr fun _ ht => ht)
  exact ⟨row, hquery, hexpected, edited_updateClient hs hnext hupdate hrevoked rfl⟩

end Changes

section Tokens

theorem keeps_issueToken {internalId serverAddr key : String} {purpose : EnrollmentPurpose} {fingerprint token salt : Bytes}
    {ttl : Duration} {expected : Nat} {clock : SystemTime}
    (h : s.issueToken formats internalId purpose serverAddr fingerprint ttl expected clock token salt = .ok (key, s')) :
    Keeps s s' := by
  simp only [issueToken, bind_eq_ok, require_eq_ok, okOr_eq_ok, pure_eq_ok] at h
  obtain ⟨prepared, -, row, hfind, -, -, -, -, -, hcapacity, s₂, htoken, heq⟩ := h
  obtain rfl := (Prod.mk.inj heq).2
  have hrow := List.find?_some hfind
  obtain ⟨hid, henabled, hlive⟩ := of_decide_eq_true hrow
  refine (keeps_revokeTokens s _).trans (keeps_insertToken htoken (List.mem_of_find?_eq_some hfind) hid henabled hlive rfl ?_ hcapacity)
  intro t ht hlive' htarget hpurpose
  rcases mem_updateToken.mp ht with ⟨t₀, -, -, rfl⟩ | ⟨-, hp⟩
  · exact absurd (hlive'.symm.trans (spent_revoked t₀).dead) (by decide)
  · exact absurd ⟨htarget, hpurpose, hlive'⟩ (of_decide_eq_false hp)

theorem joinToken_eq_some {encoded : String} {t : TokenRow} (h : s.joinToken encoded = some (t, row)) :
    t ∈ s.tokens ∧ row ∈ s.clients ∧ row.internalId = t.targetId := by
  obtain ⟨t₀, ht₀, h⟩ := Option.bind_eq_some_iff.mp h
  obtain ⟨row₀, hrow₀, h⟩ := Option.bind_eq_some_iff.mp h
  obtain ⟨rfl, rfl⟩ := Prod.mk.inj (Option.some.inj h)
  obtain ⟨hmem, hid⟩ := queryRow_eq_some hrow₀
  exact ⟨List.mem_of_find?_eq_some ht₀, hmem, hid⟩

theorem redeemToken_eq_ok {t : TokenRow} {purpose : EnrollmentPurpose} {publicKey requestId : String} {now : Nat}
    {result : EnrollmentResult} (h : s.redeemToken t row purpose publicKey requestId now = .ok (result, s')) :
    row.enabled = true ∧ row.tombstoned = false ∧ row.revision = t.issuedRevision ∧
      result = ⟨row.displayId, row.revision + 1⟩ ∧ ∃ s₁,
        s.updateClient row { row with publicKey := some publicKey, revision := row.revision + 1 } = some s₁ ∧
        s' = s₁.updateToken (fun t' => t'.selector = t.selector ∧ t'.consumedAt = none)
          fun t' => consumed t' now requestId publicKey (row.revision + 1) := by
  simp only [redeemToken, bind_eq_ok, require_eq_ok, okOr_eq_ok, pure_eq_ok] at h
  obtain ⟨-, -, -, hlive, -, henabled, -, -, -, hrev, -, -, -, -, -, -, s₁, hupdate, -, -, heq⟩ := h
  obtain ⟨hresult, hs'⟩ := Prod.mk.inj heq
  exact ⟨henabled, hlive, hrev, hresult.symm, s₁, hupdate, hs'.symm⟩

theorem next_redeemed (hs : Consistent s) (hrow : row ∈ s.clients) (publicKey : String) :
    Next s row { row with publicKey := some publicKey, revision := row.revision + 1 } :=
  ⟨hrow, rfl, rfl, rfl, hs.clients.lowered row hrow, hs.clients.deleted row hrow, fun henabled => .inl henabled⟩

/-- A token that is consumed leads its client to the next revision, and is not there to be consumed again. -/
theorem edited_redeemToken {t : TokenRow} {purpose : EnrollmentPurpose} {publicKey requestId : String} {now : Nat}
    {result : EnrollmentResult} (hs : Consistent s) (ht : t ∈ s.tokens) (hrow : row ∈ s.clients) (hid : row.internalId = t.targetId)
    (hunconsumed : t.consumedAt = none) (h : s.redeemToken t row purpose publicKey requestId now = .ok (result, s')) :
    t.issuedRevision = row.revision ∧ Edited s s' row ∧ ∃ t' ∈ s'.tokens, t'.serial = t.serial ∧ t'.consumedAt ≠ none := by
  obtain ⟨henabled, hlive, hrev, -, s₁, hupdate, rfl⟩ := redeemToken_eq_ok h
  have hnext := next_redeemed hs hrow publicKey
  have hkeeps := keeps_updateClient hupdate hnext fun h h' => ⟨h, h'⟩
  have hnew := (mem_updateClient hupdate hnext.mem).mpr (.inl rfl)
  obtain ⟨-, hs₁⟩ := updateClient_eq_some hupdate
  have ht₁ : t ∈ s₁.tokens := by
    rw [hs₁]
    exact ht
  have hconsumed := hkeeps.trans (keeps_consumed now requestId ht₁ hnew hid henabled hlive rfl)
  refine ⟨hrev.symm, edited_updateClient hs hnext hupdate hconsumed rfl, _,
    mem_updateToken.mpr (.inl ⟨t, ht₁, decide_eq_true ⟨rfl, hunconsumed⟩, rfl⟩), rfl, Option.some_ne_none now⟩

end Tokens

section Approvals

theorem requests_retryApproval {request : ApprovalRequest} {name : String} {r : RequestRow} {now : Nat} {answer : ApprovalAnswer}
    (h : s.retryApproval request name r now = .ok (answer, s')) : ∃ requests, s' = { s with requests } := by
  unfold retryApproval at h
  obtain ⟨-, -, h⟩ := bind_eq_ok.mp h
  split at h
  · cases h
  · split at h
    · cases h
    · simp only [bind_eq_ok, pure_eq_ok] at h
      obtain ⟨-, -, heq⟩ := h
      exact ⟨s.requests, (Prod.mk.inj heq).2.symm⟩
  · split at h
    · simp only [bind_eq_ok, pure_eq_ok] at h
      obtain ⟨-, -, -, -, -, -, heq⟩ := h
      exact ⟨_, (Prod.mk.inj heq).2.symm⟩
    · exact ⟨s.requests, (Prod.mk.inj (pure_eq_ok.mp h)).2.symm⟩

/-- A request for approval changes the requests alone. -/
theorem requests_requestApproval {request : ApprovalRequest} {now : SystemTime} {randomId : String} {answer : ApprovalAnswer}
    (h : s.requestApprovalInner request now randomId = .ok (answer, s')) : ∃ requests, s' = { s with requests } := by
  simp only [requestApprovalInner, bind_eq_ok] at h
  obtain ⟨name, -, d, -, -, -, h⟩ := h
  split at h
  · exact requests_retryApproval h
  · simp only [newApproval, bind_eq_ok, pure_eq_ok] at h
    obtain ⟨-, -, -, -, id, -, -, -, -, -, heq⟩ := h
    exact ⟨_, (Prod.mk.inj heq).2.symm⟩

theorem keeps_approveNew {r : RequestRow} {randomId : String} {revision : Nat} (hs : Consistent s)
    (h : s.approveNew r randomId = .ok (revision, s')) : Keeps s s' := by
  simp only [approveNew, bind_eq_ok, require_eq_ok, okOr_eq_ok, pure_eq_ok] at h
  obtain ⟨-, hcapacity, s₁, hinsert, heq⟩ := h
  obtain rfl := (Prod.mk.inj heq).2
  exact keeps_insertClient hinsert rfl rfl ((enabledClients_eq hs.clients).trans_lt hcapacity)

/-- A review decides a request, or leaves everything as it is. -/
theorem reviewApproval_eq_ok {requestId randomId : String} {approve : Bool} {clock : SystemTime} {result : Option EnrollmentResult}
    (h : s.reviewApproval requestId approve clock randomId = .ok (result, s')) :
    ∃ r, s.queryRequest requestId = some r ∧
      s.ensureNotStatic (if r.profileName.isSome then "" else r.displayId) r.publicKey = .ok () ∧
      (r.status ≠ .pending ∧ result = none ∧ s' = s ∨
        r.status = .pending ∧ approve = false ∧ result = none ∧
          s' = s.updateRequest requestId (fun row => { row with status := .rejected }) ∨
        r.status = .pending ∧ approve = true ∧ ∃ revision s₁, s.approveRequest r randomId = .ok (revision, s₁) ∧
          result = some ⟨r.displayId, revision⟩ ∧ s' = s₁.updateRequest requestId fun row => { row with status := .approved, resultRevision := some revision }) := by
  simp only [reviewApproval, bind_eq_ok, okOr_eq_ok] at h
  obtain ⟨r, hquery, ⟨⟩, hstatic, h⟩ := h
  refine ⟨r, hquery, hstatic, ?_⟩
  split at h
  · next hstatus =>
    simp only [bind_eq_ok, pure_eq_ok] at h
    obtain ⟨-, -, heq⟩ := h
    exact .inl ⟨hstatus, (Prod.mk.inj heq).1.symm, (Prod.mk.inj heq).2.symm⟩
  · next hstatus =>
    have hpending : r.status = .pending := Decidable.of_not_not hstatus
    simp only [bind_eq_ok] at h
    obtain ⟨now, -, -, -, h⟩ := h
    split at h
    · next happrove =>
      simp only [bind_eq_ok, pure_eq_ok] at h
      obtain ⟨⟨revision, s₁⟩, happroved, heq⟩ := h
      exact .inr (.inr ⟨hpending, happrove, revision, s₁, happroved, (Prod.mk.inj heq).1.symm, (Prod.mk.inj heq).2.symm⟩)
    · next happrove =>
      obtain ⟨hresult, hs'⟩ := Prod.mk.inj (pure_eq_ok.mp h)
      exact .inr (.inl ⟨hpending, Bool.eq_false_iff.mpr happrove, hresult.symm, hs'.symm⟩)

end Approvals

section Attempts

/-- A token is redeemed once, later uses of it repeat the answer. -/
theorem consumeToken_eq_ok {encoded publicKey requestId : String} {now : SystemTime} {result : EnrollmentResult}
    (h : s.consumeToken formats encoded publicKey requestId now = .ok (result, s')) :
    ∃ t row, s.joinToken encoded = some (t, row) ∧ tokenHash t.salt encoded = t.tokenHash ∧
      (t.consumedAt ≠ none ∧ replayToken t row publicKey requestId = .ok result ∧ s' = s ∨
        t.consumedAt = none ∧ ∃ purpose secs, s.redeemToken t row purpose publicKey requestId secs = .ok (result, s')) := by
  simp only [consumeToken, bind_eq_ok, okOr_eq_ok, require_eq_ok] at h
  obtain ⟨-, -, purpose, -, d, -, ⟨t, row⟩, hjoin, -, hhash, h⟩ := h
  refine ⟨t, row, hjoin, hhash, ?_⟩
  split at h
  · next hconsumed =>
    simp only [bind_eq_ok, pure_eq_ok] at h
    obtain ⟨result', hreplay, heq⟩ := h
    obtain ⟨rfl, rfl⟩ := Prod.mk.inj heq
    exact .inl ⟨by rw [hconsumed]; exact Option.some_ne_none _, hreplay, rfl⟩
  · next hunconsumed => exact .inr ⟨hunconsumed, purpose, asSecs d, h⟩

theorem attempt_pair {α : Type} {x : Except EnrollmentStoreError (α × DynamicClientStore)} {f : α → Outcome}
    {outcome : Outcome} (h : Prod.map f id <$> x = .ok (outcome, s')) : ∃ a, x = .ok (a, s') := by
  obtain ⟨⟨a, s₁⟩, hx, heq⟩ := map_eq_ok.mp h
  exact ⟨a, (Prod.mk.inj heq).2 ▸ hx⟩

theorem keeps_attempt {op : Op} {outcome : Outcome} (h : s.attempt formats op = .ok (outcome, s')) : Keeps s s' := by
  intro hs
  cases op with
  | createClient displayId clock randomId =>
      obtain ⟨client, h⟩ := attempt_pair h
      exact keeps_createClient h hs
  | createClientWithToken displayId serverAddr fingerprint ttl clock randomId token salt =>
      obtain ⟨client, h⟩ := attempt_pair h
      exact keeps_createClientWithToken h hs
  | renameClient internalId displayId expected clock =>
      obtain ⟨client, h⟩ := attempt_pair h
      obtain ⟨row, -, hedited⟩ := edited_renameClient hs h
      exact ⟨hedited.consistent, hedited.advances⟩
  | issueToken internalId purpose serverAddr fingerprint ttl expected clock token salt =>
      obtain ⟨key, h⟩ := attempt_pair h
      exact keeps_issueToken h hs
  | setClientEnabled internalId enabled expected clock =>
      obtain ⟨client, h⟩ := attempt_pair h
      obtain ⟨row, -, hedited⟩ := edited_setClientEnabled hs h
      exact ⟨hedited.consistent, hedited.advances⟩
  | deleteClient internalId expected clock =>
      obtain ⟨client, h⟩ := attempt_pair h
      obtain ⟨row, -, hedited⟩ := edited_deleteClient hs h
      exact ⟨hedited.consistent, hedited.advances⟩
  | consumeToken encoded publicKey requestId now =>
      obtain ⟨result, h⟩ := attempt_pair h
      obtain ⟨t, row, hjoin, -, ⟨-, -, rfl⟩ | ⟨hunconsumed, purpose, secs, h⟩⟩ := consumeToken_eq_ok h
      · exact ⟨hs, .refl s'⟩
      · obtain ⟨ht, hrow, hid⟩ := joinToken_eq_some hjoin
        obtain ⟨-, hedited, -⟩ := edited_redeemToken hs ht hrow hid hunconsumed h
        exact ⟨hedited.consistent, hedited.advances⟩
  | requestApproval request now randomId =>
      obtain ⟨answer, h⟩ := attempt_pair h
      obtain ⟨requests, rfl⟩ := requests_requestApproval h
      exact keeps_withRequests s requests hs
  | reviewApproval requestId approve clock randomId =>
      obtain ⟨result, h⟩ := attempt_pair h
      obtain ⟨r, -, -, ⟨-, -, rfl⟩ | ⟨-, -, -, rfl⟩ | ⟨-, -, revision, s₁, happroved, -, rfl⟩⟩ := reviewApproval_eq_ok h
      · exact ⟨hs, .refl s'⟩
      · exact keeps_withRequests s _ hs
      · refine (Keeps.trans ?_ (keeps_withRequests s₁ _)) hs
        unfold approveRequest at happroved
        split at happroved
        · obtain ⟨row, -, -, hedited⟩ := edited_approveExisting hs happroved
          exact fun _ => ⟨hedited.consistent, hedited.advances⟩
        · exact keeps_approveNew hs happroved
  | purgeTombstones olderThan batchLimit =>
      obtain ⟨count, h⟩ := attempt_pair h
      simp only [purgeTombstones, bind_eq_ok, pure_eq_ok] at h
      obtain ⟨-, -, cutoff, -, -, -, heq⟩ := h
      exact (Prod.mk.inj heq).2 ▸ keeps_purge s _ hs
  | updateProfile internalId displayName localIp clock =>
      obtain ⟨s₁, hprofile, heq⟩ := map_eq_ok.mp h
      obtain rfl := (Prod.mk.inj heq).2
      simp only [updateProfile, bind_eq_ok, pure_eq_ok] at hprofile
      obtain ⟨name, -, ip, -, -, -, -, -, rfl⟩ := hprofile
      exact keeps_presented s _ (some name) ip hs
  | validateStaticCollisions clients =>
      obtain ⟨s₁, hstatic, heq⟩ := map_eq_ok.mp h
      obtain rfl := (Prod.mk.inj heq).2
      simp only [validateStaticCollisions, bind_eq_ok, pure_eq_ok] at hstatic
      obtain ⟨-, -, rfl⟩ := hstatic
      exact keeps_withStatic s _ hs

end Attempts

section Runs

theorem keeps_perform (formats : Formats) (s : DynamicClientStore) (op : Op) : Keeps s (s.perform formats op).2 := by
  unfold perform
  split
  · next h => exact keeps_attempt h
  · exact Keeps.refl s

theorem keeps_performAll (formats : Formats) (s : DynamicClientStore) (ops : List Op) : Keeps s (s.performAll formats ops) := by
  induction ops generalizing s with
  | nil => exact Keeps.refl s
  | cons op ops ih => exact (keeps_perform formats s op).trans (ih _)

/-- What is said of the operations that commit, in order. -/
def marks {α : Type} (formats : Formats) (f : DynamicClientStore → Op → Option α) : DynamicClientStore → List Op → List α
  | _, [] => []
  | s, op :: ops =>
      match s.attempt formats op with
      | .ok (_, s') => (f s op).toList ++ marks formats f s' ops
      | .error _ => marks formats f s ops

/-- What can be said once only is not said twice. -/
theorem nodup_marks {α : Type} {f : DynamicClientStore → Op → Option α} (used : DynamicClientStore → α → Prop)
    (hstep : ∀ s op outcome s' a, Consistent s → s.attempt formats op = .ok (outcome, s') → f s op = some a →
      ¬used s a ∧ used s' a)
    (hkept : ∀ s s' a, Consistent s → Advances s s' → used s a → used s' a) (hs : Consistent s) (ops : List Op) :
    (marks formats f s ops).Nodup ∧ ∀ a ∈ marks formats f s ops, ¬used s a := by
  induction ops generalizing s with
  | nil => exact ⟨List.nodup_nil, fun a ha => absurd ha List.not_mem_nil⟩
  | cons op ops ih =>
      unfold marks
      split
      · next outcome s' hattempt =>
        obtain ⟨hs', hadv⟩ := keeps_attempt hattempt hs
        obtain ⟨hnodup, hfresh⟩ := ih hs'
        have hbefore : ∀ a ∈ marks formats f s' ops, ¬used s a := fun a ha hused => hfresh a ha (hkept s s' a hs hadv hused)
        cases hf : f s op with
        | none => exact ⟨hnodup, hbefore⟩
        | some a =>
            obtain ⟨hnew, hused⟩ := hstep s op outcome s' a hs hattempt hf
            refine ⟨List.nodup_cons.mpr ⟨fun ha => hfresh a ha hused, hnodup⟩, fun b hb => ?_⟩
            rcases List.mem_cons.mp hb with rfl | hb
            · exact hnew
            · exact hbefore b hb
      · exact ih hs

end Runs

section Sample

/-- An enrollment key for a server at `a:1`, as its device gets it. -/
def sampleKey : String :=
  "rustgo-enroll-v1.AQADYToxAAAAAAAAAAAAAAAAAAAAAAAAAAAAAAAAAAAAAAAAAAAAAQIDBAUGBwgJCgsMDQ4PEBESExQVFhcYGRobHB0eHw.d1b57ebe"

def sampleDevice : String := "ed25519:11qYAYKxCrfVS/7TyWQHOg7hcvPapiMlrwIaaPcHURo="

def sampleFormats : Formats where
  encodeKey _ _ _ _ := some sampleKey
  decodeKey encoded := if encoded = sampleKey then some .enroll else none
  canonicalIp := some

def sampleId : String := "00112233445566778899aabbccddeeff"

end Sample

end DynamicClientStore

end Rustgo.Enrollment
