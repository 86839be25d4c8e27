import Rustgo.EnrollmentRuns

namespace Rustgo.Enrollment

open Checks Rows

/-- The client that an operation renames. -/
def Op.renames : Op → Option String
  | .renameClient internalId _ _ _ => some internalId
  | _ => none

/-- The rows that are left of those before have their names, but for one client. -/
def Named (renamed : Option String) (s s' : DynamicClientStore) : Prop :=
  ∀ c' ∈ s'.clients, c'.serial < s.serial →
    ∃ c ∈ s.clients, c.serial = c'.serial ∧ (c.displayId = c'.displayId ∨ renamed = some c.internalId)

namespace DynamicClientStore

variable {formats : Formats} {s s' s₁ : DynamicClientStore} {row old new : ClientRow} {renamed : Option String}

theorem named_of_subset (h : ∀ c ∈ s'.clients, c ∈ s.clients) : Named renamed s s' :=
  fun c hc _ => ⟨c, h c hc, rfl, .inl rfl⟩

theorem named_insertClient (h : s.insertClient row = some s₁) (hclients : s'.clients = s₁.clients) : Named renamed s s' := by
  obtain ⟨-, rfl⟩ := insertClient_eq_some h
  intro c hc hold
  rcases List.mem_append.mp (hclients ▸ hc) with hc | hc
  · exact ⟨c, hc, rfl, .inl rfl⟩
  · obtain rfl := List.mem_singleton.mp hc
    exact absurd hold (lt_irrefl _)

theorem named_updateClient (h : s.updateClient old new = some s₁) (hclients : s'.clients = s₁.clients) (hold : old ∈ s.clients)
    (hserial : new.serial = old.serial) (hname : old.displayId = new.displayId ∨ renamed = some old.internalId) :
    Named renamed s s' := by
  intro c hc _
  rcases (mem_updateClient h hold).mp (hclients ▸ hc) with rfl | ⟨hc, -⟩
  · exact ⟨old, hold, hserial.symm, hname⟩
  · exact ⟨c, hc, rfl, .inl rfl⟩

theorem named_approveRequest {request : RequestRow} {randomId : String} {revision : Nat}
    (h : s.approveRequest request randomId = .ok (revision, s')) : Named renamed s s' := by
  unfold approveRequest at h
  split at h
  · simp only [approveExisting, bind_eq_ok, okOr_eq_ok, pure_eq_ok] at h
    obtain ⟨_, -, row, hquery, -, -, -, -, -, -, s₁, hupdate, heq⟩ := h
    obtain rfl := (Prod.mk.inj heq).2
    exact named_updateClient hupdate rfl (queryRow_eq_some hquery).1 rfl (.inl rfl)
  · simp only [approveNew, bind_eq_ok, okOr_eq_ok, pure_eq_ok] at h
    obtain ⟨-, -, s₁, hinsert, heq⟩ := h
    obtain rfl := (Prod.mk.inj heq).2
    exact named_insertClient hinsert rfl

theorem named_attempt {op : Op} {outcome : Outcome} (h : s.attempt formats op = .ok (outcome, s')) : Named op.renames s s' := by
  cases op with
  | createClient displayId clock randomId =>
      obtain ⟨client, h⟩ := attempt_pair h
      simp only [createClient, bind_eq_ok, okOr_eq_ok, pure_eq_ok] at h
      obtain ⟨_, -, -, -, -, -, s₁, hinsert, heq⟩ := h
      obtain rfl := (Prod.mk.inj heq).2
      exact named_insertClient hinsert rfl
  | createClientWithToken displayId serverAddr fingerprint ttl clock randomId token salt =>
      obtain ⟨client, h⟩ := attempt_pair h
      simp only [createClientWithToken, bind_eq_ok, okOr_eq_ok, pure_eq_ok] at h
      obtain ⟨_, -, prepared, -, -, -, -, -, -, -, s₁, hinsert, s₂, htoken, heq⟩ := h
      obtain rfl := (Prod.mk.inj heq).2
      obtain ⟨-, rfl⟩ := insertToken_eq_ok htoken
      exact named_insertClient hinsert rfl
  | renameClient internalId displayId expected clock =>
      obtain ⟨client, h⟩ := attempt_pair h
      simp only [renameClient, bind_eq_ok, okOr_eq_ok, pure_eq_ok] at h
      obtain ⟨_, -, -, -, -, -, row, hfind, s₁, hupdate, -, -, heq⟩ := h
      obtain rfl := (Prod.mk.inj heq).2
      obtain ⟨hmem, hid, -⟩ := findLive_eq_some hfind
      exact named_updateClient hupdate rfl hmem rfl (.inr (congrArg some hid.symm))
  | issueToken internalId purpose serverAddr fingerprint ttl expected clock token salt =>
      obtain ⟨key, h⟩ := attempt_pair h
      simp only [issueToken, bind_eq_ok, okOr_eq_ok, pure_eq_ok] at h
      obtain ⟨prepared, -, row, -, -, -, -, -, -, -, s₂, htoken, heq⟩ := h
      obtain rfl := (Prod.mk.inj heq).2
      obtain ⟨-, rfl⟩ := insertToken_eq_ok htoken
      exact named_of_subset fun _ => id
  | setClientEnabled internalId enabled expected clock =>
      obtain ⟨client, h⟩ := attempt_pair h
      simp only [setClientEnabled, bind_eq_ok, okOr_eq_ok, pure_eq_ok] at h
      obtain ⟨-, -, -, -, -, -, row, hfind, s₁, hupdate, -, -, heq⟩ := h
      obtain rfl := (Prod.mk.inj heq).2
      refine named_updateClient hupdate ?_ (findLive_eq_some hfind).1 rfl (.inl rfl)
      cases enabled <;> rfl
  | deleteClient internalId expected clock =>
      obtain ⟨client, h⟩ := attempt_pair h
      simp only [deleteClient, bind_eq_ok, okOr_eq_ok, pure_eq_ok] at h
      obtain ⟨_, -, -, -, -, -, row, hfind, s₁, hupdate, -, -, heq⟩ := h
      obtain rfl := (Prod.mk.inj heq).2
      exact named_updateClient hupdate rfl (findLive_eq_some hfind).1 rfl (.inl rfl)
  | consumeToken encoded publicKey requestId now =>
      obtain ⟨result, h⟩ := attempt_pair h
      obtain ⟨t, row, hjoin, -, ⟨-, -, rfl⟩ | ⟨-, purpose, secs, h⟩⟩ := consumeToken_eq_ok h
      · exact named_of_subset fun _ => id
      · obtain ⟨-, -, -, -, s₁, hupdate, rfl⟩ := redeemToken_eq_ok h
        exact named_updateClient hupdate rfl (joinToken_eq_some hjoin).2.1 rfl (.inl rfl)
  | requestApproval request now randomId =>
      obtain ⟨answer, h⟩ := attempt_pair h
      obtain ⟨requests, rfl⟩ := requests_requestApproval h
      exact named_of_subset fun _ => id
  | reviewApproval requestId approve clock randomId =>
      obtain ⟨result, h⟩ := attempt_pair h
      obtain ⟨r, -, -, ⟨-, -, rfl⟩ | ⟨-, -, -, rfl⟩ | ⟨-, -, revision, s₁, happroved, -, rfl⟩⟩ := reviewApproval_eq_ok h
      · exact named_of_subset fun _ => id
      · exact named_of_subset fun _ => id
      · exact fun c hc => named_approveRequest happroved c hc
  | purgeTombstones olderThan batchLimit =>
      obtain ⟨count, h⟩ := attempt_pair h
      simp only [purgeTombstones, bind_eq_ok, pure_eq_ok] at h
      obtain ⟨-, -, cutoff, -, -, -, heq⟩ := h
      obtain rfl := (Prod.mk.inj heq).2
      exact named_of_subset fun _ hc => (List.mem_filter.mp hc).1
  | updateProfile internalId displayName localIp clock =>
      obtain ⟨s₁, hprofile, heq⟩ := map_eq_ok.mp h
      obtain rfl := (Prod.mk.inj heq).2
      simp only [updateProfile, bind_eq_ok, pure_eq_ok] at hprofile
      obtain ⟨name, -, ip, -, -, -, -, -, rfl⟩ := hprofile
      intro c hc _
      obtain ⟨c₀, hc₀, hserial, -, hdisplay, -⟩ := mem_presented hc
      exact ⟨c₀, hc₀, hserial.symm, .inl hdisplay.symm⟩
  | validateStaticCollisions clients =>
      obtain ⟨s₁, hstatic, heq⟩ := map_eq_ok.mp h
      obtain rfl := (Prod.mk.inj heq).2
      simp only [validateStaticCollisions, bind_eq_ok, pure_eq_ok] at hstatic
      obtain ⟨-, -, rfl⟩ := hstatic
      exact named_of_subset fun _ => id

/-- The row that was there under the number of a row, and its name if it was not renamed. -/
theorem row_before {op : Op} {outcome : Outcome} {c' : ClientRow} (hs : Consistent s)
    (h : s.attempt formats op = .ok (outcome, s')) (hc' : c' ∈ s'.clients) (hold : c'.serial < s.serial) :
    ∃ c ∈ s.clients, c.serial = c'.serial ∧ c.internalId = c'.internalId ∧ c.revision ≤ c'.revision ∧
      (c.displayId = c'.displayId ∨ op.renames = some c.internalId) := by
  obtain ⟨c, hc, hserial, hname⟩ := named_attempt h c' hc' hold
  obtain ⟨c₀, hc₀, hserial₀, hid, hrev⟩ := (keeps_attempt h hs).2.clients c' hc' hold
  obtain rfl := hs.clients.serials.eq_of_key_eq hc hc₀ (hserial.trans hserial₀.symm)
  exact ⟨c, hc, hserial, hid, hrev, hname⟩

section Rows

/-- The row of a client at its next revision. -/
theorem queryRow_edited (hs : Consistent s) (hrow : row ∈ s.clients) (h : Edited s s' row) :
    ∃ new ∈ s'.clients, s'.queryRow row.internalId = some new ∧ new.serial = row.serial ∧ new.revision = row.revision + 1 := by
  obtain ⟨new, hnew, hserial, hrev⟩ := h.next
  obtain ⟨c, hc, hserial', hid, -⟩ := h.advances.clients new hnew (hserial ▸ hs.clients.numbered row hrow)
  obtain rfl := hs.clients.serials.eq_of_key_eq hc hrow (hserial'.trans hserial)
  exact ⟨new, hnew, h.consistent.clients.ids.find?_eq_some.mpr ⟨hnew, hid.symm⟩, hserial, hrev⟩

/-- The client that an approval is about, under the id of the request. -/
theorem queryNormalized_reviewed {requestId randomId : String} {approve : Bool} {clock : SystemTime} {result : EnrollmentResult}
    (hs : Consistent s) (hs' : Consistent s') (h : s.reviewApproval requestId approve clock randomId = .ok (some result, s')) :
    ∃ r new, s.queryRequest requestId = some r ∧ r.status = .pending ∧ approve = true ∧ result.displayId = r.displayId ∧
      new ∈ s'.clients ∧
      s'.queryNormalized r.displayId = some new ∧ new.revision = result.revision ∧
      (new.serial = s.serial ∨ ∃ id row, r.targetId = some id ∧ s.queryRow id = some row ∧ new.serial = row.serial) := by
  obtain ⟨r, hquery, -, ⟨-, hnone, -⟩ | ⟨-, -, hnone, -⟩ | ⟨hpending, happrove, revision, s₁, happroved, hresult, rfl⟩⟩ :=
    reviewApproval_eq_ok h
  · cases hnone
  · cases hnone
  · obtain rfl := Option.some.inj hresult
    have hfind : ∀ {new : ClientRow}, new ∈ s₁.clients → new.normalizedId = toAsciiLowercase r.displayId →
        (s₁.updateRequest requestId fun row => { row with status := .approved, resultRevision := some revision }).queryNormalized
          r.displayId = some new :=
      fun hnew hnormalized => hs'.clients.normalized.find?_eq_some.mpr ⟨hnew, hnormalized⟩
    unfold approveRequest at happroved
    split at happroved
    · next id htarget =>
      simp only [approveExisting, bind_eq_ok, require_eq_ok, okOr_eq_ok, pure_eq_ok] at happroved
      obtain ⟨expected, -, row, hrow, -, -, -, -, -, ⟨-, -, hnormalized⟩, s₂, hupdate, heq⟩ := happroved
      obtain ⟨rfl, rfl⟩ := Prod.mk.inj heq
      have hnew := (mem_updateClient hupdate (queryRow_eq_some hrow).1).mpr (.inl rfl)
      exact ⟨r, _, hquery, hpending, happrove, rfl, hnew, hfind hnew hnormalized, rfl, .inr ⟨id, row, htarget, hrow, rfl⟩⟩
    · simp only [approveNew, bind_eq_ok, okOr_eq_ok, pure_eq_ok] at happroved
      obtain ⟨-, -, s₂, hinsert, heq⟩ := happroved
      obtain ⟨rfl, rfl⟩ := Prod.mk.inj heq
      obtain ⟨-, rfl⟩ := insertClient_eq_some hinsert
      have hnew : ∀ new : ClientRow, new ∈ s.clients ++ [new] := fun new => List.mem_append_right _ (List.mem_singleton_self new)
      exact ⟨r, _, hquery, hpending, happrove, rfl, hnew _, hfind (hnew _) rfl, rfl, .inl rfl⟩

/-- The client of a token that is consumed, under the id that it has. -/
theorem queryNormalized_consumed {encoded publicKey requestId : String} {now : SystemTime} {result : EnrollmentResult}
    (hs : Consistent s) (hs' : Consistent s') (h : s.consumeToken formats encoded publicKey requestId now = .ok (result, s')) :
    ∃ row ∈ s.clients, row.displayId = result.displayId ∧ ∃ new ∈ s'.clients, s'.queryNormalized result.displayId = some new ∧
      new.serial = row.serial ∧ result.revision ≤ new.revision := by
  obtain ⟨t, row, hjoin, -, ⟨hconsumed, hreplay, rfl⟩ | ⟨-, purpose, secs, hredeem⟩⟩ := consumeToken_eq_ok h
  · obtain ⟨ht, hrow, hid⟩ := joinToken_eq_some hjoin
    obtain ⟨r, k, hr, -, hstate⟩ := hs.tokens.settled t ht hconsumed row hrow hid
    unfold replayToken at hreplay
    split at hreplay
    · simp only [bind_eq_ok, okOr_eq_ok, pure_eq_ok] at hreplay
      obtain ⟨revision, hrev, rfl⟩ := hreplay
      obtain rfl : r = revision := Option.some.inj (hr.symm.trans hrev)
      have hle : r ≤ row.revision := hstate.elim le_of_lt fun h => h.1.le
      exact ⟨row, hrow, rfl, row, hrow, hs.clients.normalized.find?_eq_some.mpr ⟨hrow, hs.clients.lowered row hrow⟩, rfl, hle⟩
    · cases hreplay
  · obtain ⟨-, hrow, -⟩ := joinToken_eq_some hjoin
    obtain ⟨-, -, -, rfl, s₁, hupdate, rfl⟩ := redeemToken_eq_ok hredeem
    have hnew := (mem_updateClient hupdate hrow).mpr (.inl rfl)
    exact ⟨row, hrow, rfl, _, hnew, hs'.clients.normalized.find?_eq_some.mpr ⟨hnew, hs.clients.lowered row hrow⟩, rfl, le_refl _⟩

end Rows

end DynamicClientStore

end Rustgo.Enrollment
