import Rustgo.EnrollmentRuns

namespace Rustgo.Enrollment.DynamicClientStore

open Checks Rows

variable {formats : Formats} {s s' : DynamicClientStore} {op : Op} {outcome : Outcome}

/-- The token that is consumed, if it is not consumed already. -/
def consumption (s : DynamicClientStore) : Op → Option Nat
  | .consumeToken encoded _ _ _ => (s.joinToken encoded).bind fun p => if p.1.consumedAt = none then some p.1.serial else none
  | _ => none

def rowSerial (s : DynamicClientStore) (internalId : String) : Nat := ((s.queryRow internalId).map ClientRow.serial).getD 0

/-- The client that an operation changes and the revision that the caller, the token or the request recorded for it. -/
def edit (s : DynamicClientStore) : Op → Option (Nat × Nat)
  | .renameClient internalId _ expected _ => some (s.rowSerial internalId, expected)
  | .setClientEnabled internalId _ expected _ => some (s.rowSerial internalId, expected)
  | .deleteClient internalId expected _ => some (s.rowSerial internalId, expected)
  | .consumeToken encoded _ _ _ =>
      (s.joinToken encoded).bind fun p => if p.1.consumedAt = none then some (p.2.serial, p.1.issuedRevision) else none
  | .reviewApproval requestId true _ _ =>
      (s.queryRequest requestId).bind fun r =>
        if r.status = .pending then r.targetId.map fun id => (s.rowSerial id, r.expectedRevision.getD 0) else none
  | _ => none

/-- The client is at the revision, and then at the next one. -/
def Raised (s s' : DynamicClientStore) (serial revision : Nat) : Prop :=
  (∃ c ∈ s.clients, c.serial = serial ∧ c.revision = revision) ∧ ∃ c ∈ s'.clients, c.serial = serial ∧ c.revision = revision + 1

theorem Edited.raised {row : ClientRow} (h : Edited s s' row) (hrow : row ∈ s.clients) : Raised s s' row.serial row.revision :=
  ⟨⟨row, hrow, rfl, rfl⟩, h.next⟩

theorem rowSerial_eq {internalId : String} {row : ClientRow} (hs : Consistent s) (hrow : row ∈ s.clients)
    (hid : row.internalId = internalId) : s.rowSerial internalId = row.serial := by
  rw [rowSerial, queryRow, hs.clients.ids.find?_eq_some.mpr ⟨hrow, hid⟩]
  rfl

theorem raised_of_findLive {internalId : String} {expected n e : Nat} (hs : Consistent s)
    (h : ∃ row, s.findLive internalId expected = some row ∧ Edited s s' row)
    (hedit : some (s.rowSerial internalId, expected) = some (n, e)) : Raised s s' n e := by
  obtain ⟨row, hfind, hedited⟩ := h
  obtain ⟨hrow, hid, rfl, -⟩ := findLive_eq_some hfind
  obtain ⟨rfl, rfl⟩ := Prod.mk.inj (Option.some.inj hedit)
  rw [rowSerial_eq hs hrow hid]
  exact hedited.raised hrow

/-- An operation that commits leads its client from the recorded revision to the next one. -/
theorem raised_of_edit {n e : Nat} (hs : Consistent s) (h : s.attempt formats op = .ok (outcome, s'))
    (hedit : s.edit op = some (n, e)) : Raised s s' n e := by
  cases op with
  | renameClient internalId displayId expected clock =>
      obtain ⟨client, h⟩ := attempt_pair h
      exact raised_of_findLive hs (edited_renameClient hs h) hedit
  | setClientEnabled internalId enabled expected clock =>
      obtain ⟨client, h⟩ := attempt_pair h
      exact raised_of_findLive hs (edited_setClientEnabled hs h) hedit
  | deleteClient internalId expected clock =>
      obtain ⟨client, h⟩ := attempt_pair h
      exact raised_of_findLive hs (edited_deleteClient hs h) hedit
  | consumeToken encoded publicKey requestId now =>
      obtain ⟨result, h⟩ := attempt_pair h
      obtain ⟨⟨t, row⟩, hjoin, hedit⟩ := Option.bind_eq_some_iff.mp hedit
      obtain ⟨hunconsumed, hpair⟩ := Option.ite_none_right_eq_some.mp hedit
      obtain ⟨rfl, rfl⟩ := Prod.mk.inj (Option.some.inj hpair)
      obtain ⟨t', row', hjoin', -, ⟨hconsumed, -⟩ | ⟨-, purpose, secs, h⟩⟩ := consumeToken_eq_ok h
      all_goals obtain ⟨rfl, rfl⟩ := Prod.mk.inj (Option.some.inj (hjoin.symm.trans hjoin'))
      · exact absurd hunconsumed hconsumed
      · obtain ⟨ht, hrow, hid⟩ := joinToken_eq_some hjoin
        obtain ⟨hissued, hedited, -⟩ := edited_redeemToken hs ht hrow hid hunconsumed h
        exact hissued ▸ hedited.raised hrow
  | reviewApproval requestId approve clock randomId =>
      cases approve with
      | false => cases hedit
      | true =>
          obtain ⟨result, h⟩ := attempt_pair h
          obtain ⟨r, hquery, hedit⟩ := Option.bind_eq_some_iff.mp hedit
          obtain ⟨hpending, hmap⟩ := Option.ite_none_right_eq_some.mp hedit
          obtain ⟨id, htarget, hpair⟩ := Option.map_eq_some_iff.mp hmap
          obtain ⟨rfl, rfl⟩ := Prod.mk.inj hpair
          obtain ⟨r', hquery', -, ⟨hdecided, -⟩ | ⟨-, hrejected, -⟩ | ⟨-, -, revision, s₁, happroved, -, rfl⟩⟩ := reviewApproval_eq_ok h
          all_goals obtain rfl := Option.some.inj (hquery.symm.trans hquery')
          · exact absurd hpending hdecided
          · cases hrejected
          · rw [approveRequest, htarget] at happroved
            obtain ⟨row, hrow, hexpected, hedited⟩ := edited_approveExisting hs happroved
            obtain ⟨hmem, hid⟩ := queryRow_eq_some hrow
            rw [hexpected, Option.getD_some, rowSerial_eq hs hmem hid]
            exact hedited.raised hmem
  | _ => cases hedit

theorem consumed_of_consumption {n : Nat} (hs : Consistent s) (h : s.attempt formats op = .ok (outcome, s'))
    (hconsumption : s.consumption op = some n) :
    (∃ t ∈ s.tokens, t.serial = n ∧ t.consumedAt = none) ∧ ∃ t ∈ s'.tokens, t.serial = n ∧ t.consumedAt ≠ none := by
  cases op with
  | consumeToken encoded publicKey requestId now =>
      obtain ⟨result, h⟩ := attempt_pair h
      obtain ⟨⟨t, row⟩, hjoin, hconsumption⟩ := Option.bind_eq_some_iff.mp hconsumption
      obtain ⟨hunconsumed, hserial⟩ := Option.ite_none_right_eq_some.mp hconsumption
      obtain rfl := Option.some.inj hserial
      obtain ⟨t', row', hjoin', -, ⟨hconsumed, -⟩ | ⟨-, purpose, secs, h⟩⟩ := consumeToken_eq_ok h
      all_goals obtain ⟨rfl, rfl⟩ := Prod.mk.inj (Option.some.inj (hjoin.symm.trans hjoin'))
      · exact absurd hunconsumed hconsumed
      · obtain ⟨ht, hrow, hid⟩ := joinToken_eq_some hjoin
        obtain ⟨-, -, hafter⟩ := edited_redeemToken hs ht hrow hid hunconsumed h
        exact ⟨⟨t, ht, rfl, hunconsumed⟩, hafter⟩
  | _ => cases hconsumption

theorem nodup_consumptions (hs : Consistent s) (ops : List Op) : (marks formats consumption s ops).Nodup := by
  refine (nodup_marks (fun s n => n < s.serial ∧ ∀ t ∈ s.tokens, t.serial = n → t.consumedAt ≠ none)
    (fun s op outcome s' n hs h hn => ?_) (fun s s' n hs hadv hused => ?_) hs ops).1
  · obtain ⟨⟨t, ht, hserial, hunconsumed⟩, t', ht', hserial', hconsumed⟩ := consumed_of_consumption hs h hn
    refine ⟨fun hused => hused.2 t ht hserial hunconsumed, ?_⟩
    obtain ⟨hs', -⟩ := keeps_attempt h hs
    refine ⟨hserial' ▸ hs'.tokens.numbered t' ht', fun t'' ht'' hserial'' => ?_⟩
    rw [hs'.tokens.serials.eq_of_key_eq ht'' ht' (hserial''.trans hserial'.symm)]
    exact hconsumed
  · obtain ⟨hlt, hall⟩ := hused
    refine ⟨hlt.trans_le hadv.serial, fun t' ht' hserial => ?_⟩
    obtain ⟨t, ht, heq, hkept⟩ := hadv.tokens t' ht' (hserial ▸ hlt)
    exact hkept (hall t ht (heq.trans hserial))

theorem nodup_edits (hs : Consistent s) (ops : List Op) : (marks formats edit s ops).Nodup := by
  refine (nodup_marks (fun s p => p.1 < s.serial ∧ ∀ c ∈ s.clients, c.serial = p.1 → p.2 < c.revision)
    (fun s op outcome s' p hs h hp => ?_) (fun s s' p hs hadv hused => ?_) hs ops).1
  · obtain ⟨⟨c, hc, hserial, hrev⟩, c', hc', hserial', hrev'⟩ := raised_of_edit (n := p.1) (e := p.2) hs h hp
    refine ⟨fun hused => (hused.2 c hc hserial).ne hrev.symm, ?_⟩
    obtain ⟨hs', -⟩ := keeps_attempt h hs
    refine ⟨hserial' ▸ hs'.clients.numbered c' hc', fun c'' hc'' hserial'' => ?_⟩
    rw [hs'.clients.serials.eq_of_key_eq hc'' hc' (hserial''.trans hserial'.symm), hrev']
    exact Nat.lt_succ_self p.2
  · obtain ⟨hlt, hall⟩ := hused
    refine ⟨hlt.trans_le hadv.serial, fun c' hc' hserial => ?_⟩
    obtain ⟨c, hc, heq, -, hle⟩ := hadv.clients c' hc' (hserial ▸ hlt)
    exact (hall c hc (heq.trans hserial)).trans_le hle

theorem perform_of_error {e : EnrollmentStoreError} (h : (s.perform formats op).1 = .error e)
    (hpending : e ≠ .approvalPending) (hreplacing : e ≠ .replacementApprovalPending) : (s.perform formats op).2 = s := by
  unfold perform at h ⊢
  split at h
  · next outcome s' hattempt =>
    unfold Outcome.answer at h
    split at h
    · exact absurd (Except.error.inj h).symm hreplacing
    · exact absurd (Except.error.inj h).symm hpending
    · cases h
  · rfl

/-- Every state of the store is consistent, and every token is consumed once. -/
theorem store_invariant (formats : Formats) (limits : EnrollmentStoreLimits) (ops : List Op) :
    Consistent ((DynamicClientStore.open limits).performAll formats ops) ∧
      ((DynamicClientStore.open limits).performAll formats ops).limits = limits ∧
      (marks formats consumption (.open limits) ops).Nodup := by
  obtain ⟨hs, hadv⟩ := keeps_performAll formats (.open limits) ops (consistent_open limits)
  exact ⟨hs, hadv.limits, nodup_consumptions (consistent_open limits) ops⟩

/-- In every state of the store, an operation on a client that commits leads it from the recorded revision to the next one,
and one that is refused changes nothing, unless it waits for its approval; of all that are based on one revision, one
commits. -/
theorem revisions_advance_once (formats : Formats) (limits : EnrollmentStoreLimits) (ops : List Op) :
    (∀ op outcome s' n e, ((DynamicClientStore.open limits).performAll formats ops).attempt formats op = .ok (outcome, s') →
      ((DynamicClientStore.open limits).performAll formats ops).edit op = some (n, e) →
      Raised ((DynamicClientStore.open limits).performAll formats ops) s' n e) ∧
    (marks formats edit (.open limits) ops).Nodup ∧
    ∀ op e, (((DynamicClientStore.open limits).performAll formats ops).perform formats op).1 = .error e → e ≠ .approvalPending →
      e ≠ .replacementApprovalPending →
      (((DynamicClientStore.open limits).performAll formats ops).perform formats op).2 =
        (DynamicClientStore.open limits).performAll formats ops := by
  have hs := (keeps_performAll formats (.open limits) ops (consistent_open limits)).1
  exact ⟨fun _ _ _ _ _ h hedit => raised_of_edit hs h hedit, nodup_edits (consistent_open limits) ops,
    fun _ _ h hpending hreplacing => perform_of_error h hpending hreplacing⟩

end Rustgo.Enrollment.DynamicClientStore
