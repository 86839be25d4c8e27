import Rustgo.EnrollmentRevisions

namespace Rustgo.Enrollment.DynamicClientStore

open Checks Rows

variable {formats : Formats} {s s' : DynamicClientStore}

/-- The client that a result names is active, has the key, and is at the revision of the result. -/
def Bound (s : DynamicClientStore) (publicKey : String) (result : EnrollmentResult) : Prop :=
  ∃ c ∈ s.clients, c.normalizedId = toAsciiLowercase result.displayId ∧ c.enabled = true ∧ c.tombstoned = false ∧
    c.publicKey = some publicKey ∧ c.revision = result.revision

/-- What a device is told about its key holds when it is told. -/
def Sound (formats : Formats) (s : DynamicClientStore) : Op → Prop
  | .consumeToken encoded publicKey requestId now =>
      ∀ result s', s.consumeToken formats encoded publicKey requestId now = .ok (result, s') → Bound s' publicKey result
  | .requestApproval request now randomId =>
      ∀ result s', s.requestApprovalInner request now randomId = .ok (.approved result, s') → Bound s' request.key result
  | _ => True

/-- The call is answered from a token that was consumed before, by the same request with the same key. -/
def Replayed (formats : Formats) (s : DynamicClientStore) (encoded publicKey requestId : String) (now : SystemTime)
    (t : TokenRow) (row : ClientRow) : Prop :=
  (requestId ≠ "" ∧ requestId.utf8ByteSize ≤ 128) ∧ formats.decodeKey encoded ≠ none ∧ durationSinceEpoch now ≠ none ∧
    s.joinToken encoded = some (t, row) ∧ tokenHash t.salt encoded = t.tokenHash ∧ t.consumedAt ≠ none ∧
    t.requestId = some requestId ∧ t.resultPublicKey = some publicKey

/-- The client of a token that is consumed again has not changed since it was consumed. -/
def Unchanged (formats : Formats) (s : DynamicClientStore) : Op → Prop
  | .consumeToken encoded publicKey requestId now =>
      ∀ t row, Replayed formats s encoded publicKey requestId now t row → t.resultRevision = some row.revision
  | _ => True

theorem replayToken_eq_ok {t : TokenRow} {row : ClientRow} {publicKey requestId : String} {result : EnrollmentResult} :
    replayToken t row publicKey requestId = .ok result ↔ t.requestId = some requestId ∧ t.resultPublicKey = some publicKey ∧
      t.resultRevision = some result.revision ∧ result.displayId = row.displayId := by
  unfold replayToken
  constructor
  · intro h
    split at h
    · next hsame =>
      simp only [bind_eq_ok, okOr_eq_ok, pure_eq_ok] at h
      obtain ⟨revision, hrev, rfl⟩ := h
      exact ⟨hsame.1, hsame.2, hrev, rfl⟩
    · cases h
  · rintro ⟨hid, hkey, hrev, hdisplay⟩
    rw [if_pos ⟨hid, hkey⟩]
    exact bind_eq_ok.mpr ⟨result.revision, okOr_eq_ok.mpr hrev, congrArg (fun d => Except.ok (EnrollmentResult.mk d result.revision)) hdisplay.symm⟩

/-- A token that is consumed before is answered as it was then. -/
theorem consumeToken_of_replayed {encoded publicKey requestId : String} {now : SystemTime} {t : TokenRow} {row : ClientRow}
    {revision : Nat} (h : Replayed formats s encoded publicKey requestId now t row) (hrev : t.resultRevision = some revision) :
    s.consumeToken formats encoded publicKey requestId now = .ok (⟨row.displayId, revision⟩, s) := by
  obtain ⟨hrequest, hdecode, hnow, hjoin, hhash, hconsumed, hid, hkey⟩ := h
  obtain ⟨purpose, hpurpose⟩ := Option.ne_none_iff_exists'.mp hdecode
  obtain ⟨d, hd⟩ := Option.ne_none_iff_exists'.mp hnow
  obtain ⟨at_, hat⟩ := Option.ne_none_iff_exists'.mp hconsumed
  have hreplay : replayToken t row publicKey requestId = .ok ⟨row.displayId, revision⟩ :=
    replayToken_eq_ok.mpr ⟨hid, hkey, hrev, rfl⟩
  simp only [consumeToken, bind_eq_ok, require_eq_ok, okOr_eq_ok]
  refine ⟨(), hrequest, purpose, hpurpose, d, hd, (t, row), hjoin, (), hhash, ?_⟩
  rw [hat]
  exact bind_eq_ok.mpr ⟨_, hreplay, rfl⟩

theorem replayed_of_consumeToken {encoded publicKey requestId : String} {now : SystemTime} {t : TokenRow} {row : ClientRow}
    {result : EnrollmentResult} (h : s.consumeToken formats encoded publicKey requestId now = .ok (result, s'))
    (hjoin : s.joinToken encoded = some (t, row)) (hconsumed : t.consumedAt ≠ none)
    (hreplay : replayToken t row publicKey requestId = .ok result) : Replayed formats s encoded publicKey requestId now t row := by
  obtain ⟨hid, hkey, -, -⟩ := replayToken_eq_ok.mp hreplay
  simp only [consumeToken, bind_eq_ok, okOr_eq_ok, require_eq_ok] at h
  obtain ⟨-, hrequest, purpose, hpurpose, d, hd, ⟨t', row'⟩, hjoin', -, hhash, -⟩ := h
  obtain ⟨rfl, rfl⟩ := Prod.mk.inj (Option.some.inj (hjoin.symm.trans hjoin'))
  exact ⟨hrequest, by rw [hpurpose]; exact Option.some_ne_none _, by rw [hd]; exact Option.some_ne_none _, hjoin, hhash,
    hconsumed, hid, hkey⟩

theorem settled_of_replayed {encoded publicKey requestId : String} {now : SystemTime} {t : TokenRow} {row : ClientRow}
    (hs : Consistent s) (h : Replayed formats s encoded publicKey requestId now t row) : row ∈ s.clients ∧ Settled t row := by
  obtain ⟨-, -, -, hjoin, -, hconsumed, -⟩ := h
  obtain ⟨ht, hrow, hid⟩ := joinToken_eq_some hjoin
  exact ⟨hrow, hs.tokens.settled t ht hconsumed row hrow hid⟩

theorem bound_of_redeemToken {t : TokenRow} {row : ClientRow} {purpose : EnrollmentPurpose} {publicKey requestId : String}
    {now : Nat} {result : EnrollmentResult} (hs : Consistent s) (hrow : row ∈ s.clients)
    (h : s.redeemToken t row purpose publicKey requestId now = .ok (result, s')) : Bound s' publicKey result := by
  obtain ⟨henabled, hlive, -, rfl, s₁, hupdate, rfl⟩ := redeemToken_eq_ok h
  have hnew := (mem_updateClient hupdate hrow).mpr (.inl rfl)
  exact ⟨_, hnew, hs.clients.lowered row hrow, henabled, hlive, rfl, rfl⟩

/-- An approved request is answered with what its client is now. -/
theorem bound_of_retryApproval {request : ApprovalRequest} {name : String} {r : RequestRow} {now : Nat} {result : EnrollmentResult}
    (h : s.retryApproval request name r now = .ok (.approved result, s')) : Bound s' request.key result := by
  unfold retryApproval at h
  obtain ⟨-, -, h⟩ := bind_eq_ok.mp h
  split at h
  · cases h
  · split at h
    · cases h
    · next c hc =>
      simp only [bind_eq_ok, require_eq_ok, pure_eq_ok] at h
      obtain ⟨-, ⟨-, hkey, henabled, hlive⟩, heq⟩ := h
      obtain ⟨hresult, rfl⟩ := Prod.mk.inj heq
      obtain rfl := ApprovalAnswer.approved.inj hresult
      have hrow := List.find?_some hc
      exact ⟨c, List.mem_of_find?_eq_some hc, (of_decide_eq_true hrow).1, henabled, hlive, hkey, rfl⟩
  · split at h
    · simp only [bind_eq_ok, pure_eq_ok] at h
      obtain ⟨-, -, -, -, -, -, heq⟩ := h
      cases (Prod.mk.inj heq).1
    · cases (Prod.mk.inj (pure_eq_ok.mp h)).1

theorem sound_of_unchanged {op : Op} (hs : Consistent s) (h : Unchanged formats s op) : Sound formats s op := by
  cases op with
  | consumeToken encoded publicKey requestId now =>
      intro result s' hcall
      obtain ⟨t, row, hjoin, -, ⟨hconsumed, hreplay, rfl⟩ | ⟨-, purpose, secs, hredeem⟩⟩ := consumeToken_eq_ok hcall
      · have hreplayed := replayed_of_consumeToken hcall hjoin hconsumed hreplay
        obtain ⟨hrow, r, k, hr, hk, hstate⟩ := settled_of_replayed hs hreplayed
        obtain ⟨-, hkey, hrev, hdisplay⟩ := replayToken_eq_ok.mp hreplay
        have hsame : r = row.revision := Option.some.inj (hr.symm.trans (h t row hreplayed))
        obtain rfl : k = publicKey := Option.some.inj (hk.symm.trans hkey)
        have hresult : row.revision = result.revision := hsame ▸ Option.some.inj (hr.symm.trans hrev)
        rcases hstate with hlt | ⟨-, henabled, hlive, hbound⟩
        · exact absurd hsame hlt.ne
        · exact ⟨row, hrow, hdisplay ▸ hs.clients.lowered row hrow, henabled, hlive, hbound, hresult⟩
      · exact bound_of_redeemToken hs (joinToken_eq_some hjoin).2.1 hredeem
  | requestApproval request now randomId =>
      intro result s' hcall
      simp only [requestApprovalInner, bind_eq_ok] at hcall
      obtain ⟨name, -, d, -, -, -, hcall⟩ := hcall
      split at hcall
      · exact bound_of_retryApproval hcall
      · simp only [newApproval, bind_eq_ok, pure_eq_ok] at hcall
        obtain ⟨-, -, -, -, id, -, -, -, -, -, heq⟩ := hcall
        cases (Prod.mk.inj heq).1
  | _ => trivial

theorem unchanged_of_sound {op : Op} (hs : Consistent s) (h : Sound formats s op) : Unchanged formats s op := by
  cases op with
  | consumeToken encoded publicKey requestId now =>
      intro t row hreplayed
      obtain ⟨hrow, r, k, hr, -, -⟩ := settled_of_replayed hs hreplayed
      obtain ⟨c, hc, hid, -, -, -, hrev⟩ := h _ s (consumeToken_of_replayed hreplayed hr)
      have hsame : c = row := hs.clients.normalized.eq_of_key_eq hc hrow (hid.trans (hs.clients.lowered row hrow).symm)
      rw [hr, ← hsame]
      exact congrArg some hrev.symm
  | _ => trivial

/-- In every state of the store, what a device is told about its key holds, unless it consumes a token again whose client
has changed. -/
theorem sound_iff_unchanged (formats : Formats) (limits : EnrollmentStoreLimits) (ops : List Op) (op : Op) :
    Sound formats ((DynamicClientStore.open limits).performAll formats ops) op ↔
      Unchanged formats ((DynamicClientStore.open limits).performAll formats ops) op := by
  have hs := (keeps_performAll formats (.open limits) ops (consistent_open limits)).1
  exact ⟨unchanged_of_sound hs, sound_of_unchanged hs⟩

section Sample

/-- A client is created, its device enrolls, and it is disabled. -/
def disabledAfterwards : List Op := [
  .createClientWithToken "node" "a:1" (List.replicate 32 0) (60 * 10 ^ 9) 0 sampleId
    ((List.range 32).map UInt8.ofNat) (List.replicate 16 0),
  .consumeToken sampleKey sampleDevice "request" 0,
  .setClientEnabled sampleId false 2 0]

/-- The device of a disabled client asks again and is told that it is enrolled. -/
theorem disabled_client_replayed :
    ¬Sound sampleFormats ((DynamicClientStore.open ⟨4, 4⟩).performAll sampleFormats disabledAfterwards)
      (.consumeToken sampleKey sampleDevice "request" 0) := by
  have hcall : (match ((DynamicClientStore.open ⟨4, 4⟩).performAll sampleFormats disabledAfterwards).consumeToken
      sampleFormats sampleKey sampleDevice "request" 0 with
    | .ok (_, s) => s.clients.all fun c => !c.enabled
    | .error _ => false) = true := by decide +kernel
  intro hsound
  split at hcall
  · next result s' hresult =>
    obtain ⟨c, hc, -, henabled, -⟩ := hsound result s' hresult
    have hdisabled := List.all_eq_true.mp hcall c hc
    rw [henabled] at hdisabled
    cases hdisabled
  · cases hcall

end Sample

end Rustgo.Enrollment.DynamicClientStore
