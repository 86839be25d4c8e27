import Rustgo.Authenticator
import Rustgo.EnrollmentRuns

namespace Rustgo.Enrollment

open Checks Rows
open Auth (Authenticator KeyFormats)

/-- A name of the configuration, in any spelling. -/
def NameTaken (statics : List AuthorizedClient) (name : String) : Prop :=
  ∃ c ∈ statics, toAsciiLowercase c.name = toAsciiLowercase name

def KeyTaken (statics : List AuthorizedClient) (key : String) : Prop := ∃ c ∈ statics, c.publicKey = key

def identities (statics : List AuthorizedClient) : List (String × String) :=
  statics.map fun c => (toAsciiLowercase c.name, c.publicKey)

/-- A row that is deleted, or has no name and no key of the configuration. -/
def ClientRow.Foreign (statics : List AuthorizedClient) (row : ClientRow) : Prop :=
  row.tombstoned = false → ∀ c ∈ statics, row.normalizedId ≠ toAsciiLowercase c.name ∧ row.publicKey ≠ some c.publicKey

/-- The clients of the store are apart from those of the configuration, which the store knows. -/
structure Apart (statics : List AuthorizedClient) (s : DynamicClientStore) : Prop where
  clients : ∀ row ∈ s.clients, row.Foreign statics
  known : s.staticIdentities = identities statics

namespace DynamicClientStore

variable {formats : Formats} {statics : List AuthorizedClient} {s s' s₁ : DynamicClientStore} {row old new : ClientRow} {name : String}

theorem validateStaticCollisions_eq_ok :
    s.validateStaticCollisions statics = .ok s' ↔
      (∀ row ∈ s.clients, row.Foreign statics) ∧ { s with staticIdentities := identities statics } = s' := by
  simp only [validateStaticCollisions, bind_eq_ok, require_eq_ok, pure_eq_ok, List.all_eq_true, Bool.or_eq_true, Bool.and_eq_true,
    decide_eq_true_eq]
  constructor
  · rintro ⟨-, hfree, heq⟩
    refine ⟨fun row hrow hlive c hc => ?_, heq⟩
    exact (hfree c hc row hrow).resolve_left fun hdeleted => Bool.false_ne_true (hlive.symm.trans hdeleted)
  · rintro ⟨hforeign, heq⟩
    refine ⟨(), fun c hc row hrow => ?_, heq⟩
    cases hdeleted : row.tombstoned with
    | true => exact .inl rfl
    | false => exact .inr (hforeign row hrow hdeleted c hc)

/-- The configuration is accepted as it was. -/
theorem apart_iff_validated : Apart statics s ↔ s.validateStaticCollisions statics = .ok s := by
  rw [validateStaticCollisions_eq_ok]
  constructor
  · intro h
    exact ⟨h.clients, by rw [← h.known]⟩
  · rintro ⟨hclients, heq⟩
    exact ⟨hclients, (congrArg staticIdentities heq).symm⟩

theorem ensureNotStatic_eq_ok {name key : String} (hknown : s.staticIdentities = identities statics) :
    s.ensureNotStatic name key = .ok () ↔ ¬NameTaken statics name ∧ ¬KeyTaken statics key := by
  rw [ensureNotStatic, require_eq_ok, hknown, identities, List.any_map, List.any_eq_false]
  simp only [Function.comp_apply, decide_eq_true_eq, not_or, NameTaken, KeyTaken, not_exists, not_and]
  exact ⟨fun h => ⟨fun c hc => (h c hc).1, fun c hc => (h c hc).2⟩, fun h c hc => ⟨h.1 c hc, h.2 c hc⟩⟩

section Foreign

theorem foreign_of_deleted (h : row.tombstoned = true) : row.Foreign statics :=
  fun hlive => absurd (h.symm.trans hlive) (by decide)

theorem foreign_iff_of_live (hlive : row.tombstoned = false) (hnormalized : row.normalizedId = toAsciiLowercase name) :
    row.Foreign statics ↔ ¬NameTaken statics name ∧ ∀ key, row.publicKey = some key → ¬KeyTaken statics key := by
  constructor
  · intro h
    refine ⟨?_, ?_⟩
    · rintro ⟨c, hc, hname⟩
      exact (h hlive c hc).1 (hnormalized.trans hname.symm)
    · rintro key hkey ⟨c, hc, rfl⟩
      exact (h hlive c hc).2 hkey
  · rintro ⟨hname, hkey⟩ - c hc
    refine ⟨fun heq => hname ⟨c, hc, heq.symm.trans hnormalized⟩, fun heq => hkey c.publicKey heq ⟨c, hc, rfl⟩⟩

/-- A row that keeps its name and its key stays apart unless it is revived. -/
theorem foreign_of_eq (h : old.Foreign statics) (hnormalized : new.normalizedId = old.normalizedId)
    (hkey : new.publicKey = old.publicKey) (hlive : new.tombstoned = false → old.tombstoned = false) : new.Foreign statics := by
  intro hnew c hc
  rw [hnormalized, hkey]
  exact h (hlive hnew) c hc

theorem apart_insertClient (h : s.insertClient row = some s') (hs : Apart statics s) : Apart statics s' ↔ row.Foreign statics := by
  obtain ⟨-, rfl⟩ := insertClient_eq_some h
  constructor
  · intro hs'
    exact hs'.clients { row with serial := s.serial } (List.mem_append_right _ (List.mem_singleton_self _))
  · intro hrow
    refine ⟨fun c hc => ?_, hs.known⟩
    rcases List.mem_append.mp hc with hc | hc
    · exact hs.clients c hc
    · obtain rfl := List.mem_singleton.mp hc
      exact hrow

theorem apart_updateClient (h : s.updateClient old new = some s') (hold : old ∈ s.clients) (hs : Apart statics s) :
    Apart statics s' ↔ new.Foreign statics := by
  have hmem := fun {c} => mem_updateClient (c := c) h hold
  have hknown : s'.staticIdentities = s.staticIdentities := by
    obtain ⟨-, rfl⟩ := updateClient_eq_some h
    rfl
  constructor
  · intro hs'
    exact hs'.clients new (hmem.mpr (.inl rfl))
  · intro hnew
    refine ⟨fun c hc => ?_, hknown.trans hs.known⟩
    rcases hmem.mp hc with rfl | ⟨hc, -⟩
    · exact hnew
    · exact hs.clients c hc

theorem apart_updateClient_of_live (h : s.updateClient old new = some s') (hold : old ∈ s.clients) (hs : Apart statics s)
    (hlive : new.tombstoned = false) (hnormalized : new.normalizedId = toAsciiLowercase name) :
    Apart statics s' ↔ ¬NameTaken statics name ∧ ∀ key, new.publicKey = some key → ¬KeyTaken statics key :=
  (apart_updateClient h hold hs).trans (foreign_iff_of_live hlive hnormalized)

end Foreign

section Steps

/-- What keeps the two kinds of clients apart: no id of the configuration is given to a client that is created or renamed, no
key of the configuration comes in with a token, and no request that an id was found for is approved for an id of the
configuration. -/
def Careful (statics : List AuthorizedClient) (s : DynamicClientStore) : Op → Prop
  | .createClient displayId _ _ => ¬NameTaken statics (trim displayId)
  | .createClientWithToken displayId _ _ _ _ _ _ _ => ¬NameTaken statics (trim displayId)
  | .renameClient _ displayId _ _ => ¬NameTaken statics (trim displayId)
  | .consumeToken encoded publicKey _ _ =>
      ∀ t row, s.joinToken encoded = some (t, row) → t.consumedAt = none → ¬KeyTaken statics publicKey
  | .reviewApproval requestId approve _ _ =>
      ∀ r, s.queryRequest requestId = some r → r.status = .pending → approve = true → r.profileName.isSome = true →
        ¬NameTaken statics r.displayId
  | .validateStaticCollisions clients => identities clients = identities statics
  | _ => True

variable {client : DynamicClient} {outcome : Outcome} {op : Op}

theorem validateDisplayId_eq_ok {value displayId : String} (h : validateDisplayId value = .ok displayId) : displayId = trim value := by
  simp only [validateDisplayId, bind_eq_ok, pure_eq_ok] at h
  obtain ⟨-, -, heq⟩ := h
  exact heq.symm

theorem foreign_newClient {internalId : String} : (newClient internalId name).Foreign statics ↔ ¬NameTaken statics name :=
  (foreign_iff_of_live rfl rfl).trans (and_iff_left fun _ h => absurd h (Option.some_ne_none _).symm)

theorem apart_createClient {displayId randomId : String} {clock : SystemTime} (hs : Apart statics s)
    (h : s.createClient displayId clock randomId = .ok (client, s')) : Apart statics s' ↔ ¬NameTaken statics (trim displayId) := by
  simp only [createClient, bind_eq_ok, okOr_eq_ok, pure_eq_ok] at h
  obtain ⟨_, hid, -, -, -, -, s₁, hinsert, heq⟩ := h
  obtain rfl := (Prod.mk.inj heq).2
  obtain rfl := validateDisplayId_eq_ok hid
  exact (apart_insertClient hinsert hs).trans foreign_newClient

theorem apart_createClientWithToken {displayId serverAddr randomId : String} {fingerprint token salt : Bytes} {ttl : Duration}
    {clock : SystemTime} {key : String} (hs : Apart statics s)
    (h : s.createClientWithToken formats displayId serverAddr fingerprint ttl clock randomId token salt = .ok ((client, key), s')) :
    Apart statics s' ↔ ¬NameTaken statics (trim displayId) := by
  simp only [createClientWithToken, bind_eq_ok, okOr_eq_ok, pure_eq_ok] at h
  obtain ⟨id, hid, prepared, -, -, -, -, -, -, -, s₁, hinsert, s₂, htoken, heq⟩ := h
  obtain rfl := (Prod.mk.inj heq).2
  obtain rfl := validateDisplayId_eq_ok hid
  obtain ⟨-, rfl⟩ := insertToken_eq_ok htoken
  rw [← foreign_newClient, ← apart_insertClient hinsert hs]
  exact ⟨fun h => ⟨h.clients, h.known⟩, fun h => ⟨h.clients, h.known⟩⟩

theorem apart_renameClient {internalId displayId : String} {expected : Nat} {clock : SystemTime} (hs : Apart statics s)
    (h : s.renameClient internalId displayId expected clock = .ok (client, s')) :
    Apart statics s' ↔ ¬NameTaken statics (trim displayId) := by
  simp only [renameClient, bind_eq_ok, okOr_eq_ok, pure_eq_ok] at h
  obtain ⟨id, hid, -, -, -, -, row, hfind, s₁, hupdate, -, -, heq⟩ := h
  obtain rfl := (Prod.mk.inj heq).2
  obtain rfl := validateDisplayId_eq_ok hid
  obtain ⟨hmem, -, -, hlive⟩ := findLive_eq_some hfind
  rw [apart_updateClient_of_live hupdate hmem hs hlive rfl, and_iff_left_iff_imp]
  rintro - key hkey ⟨c, hc, rfl⟩
  exact (hs.clients row hmem hlive c hc).2 hkey

/-- A change that leaves the names and the keys as they are, and revives no client. -/
theorem apart_of_quiet (hs : Apart statics s) (hupdate : s.updateClient old new = some s') (hold : old ∈ s.clients)
    (hnormalized : new.normalizedId = old.normalizedId) (hkey : new.publicKey = old.publicKey)
    (hlive : new.tombstoned = false → old.tombstoned = false) : Apart statics s' :=
  (apart_updateClient hupdate hold hs).mpr (foreign_of_eq (hs.clients old hold) hnormalized hkey hlive)

theorem apart_setClientEnabled {internalId : String} {enabled : Bool} {expected : Nat} {clock : SystemTime} (hs : Apart statics s)
    (h : s.setClientEnabled internalId enabled expected clock = .ok (client, s')) : Apart statics s' := by
  simp only [setClientEnabled, bind_eq_ok, okOr_eq_ok, pure_eq_ok] at h
  obtain ⟨-, -, -, -, -, -, row, hfind, s₁, hupdate, -, -, heq⟩ := h
  obtain rfl := (Prod.mk.inj heq).2
  have hs₁ := apart_of_quiet hs hupdate (findLive_eq_some hfind).1 rfl rfl id
  cases enabled with
  | true => exact hs₁
  | false => exact ⟨hs₁.clients, hs₁.known⟩

theorem apart_deleteClient {internalId : String} {expected : Nat} {clock : SystemTime} (hs : Apart statics s)
    (h : s.deleteClient internalId expected clock = .ok (client, s')) : Apart statics s' := by
  simp only [deleteClient, bind_eq_ok, okOr_eq_ok, pure_eq_ok] at h
  obtain ⟨now, -, -, -, -, -, row, hfind, s₁, hupdate, -, -, heq⟩ := h
  obtain rfl := (Prod.mk.inj heq).2
  have hs₁ := (apart_updateClient hupdate (findLive_eq_some hfind).1 hs).mpr (foreign_of_deleted rfl)
  exact ⟨hs₁.clients, hs₁.known⟩

theorem apart_redeemToken {t : TokenRow} {purpose : EnrollmentPurpose} {publicKey requestId : String} {now : Nat}
    {result : EnrollmentResult} (hs : Apart statics s) (hlowered : row.normalizedId = toAsciiLowercase row.displayId)
    (hrow : row ∈ s.clients) (h : s.redeemToken t row purpose publicKey requestId now = .ok (result, s')) :
    Apart statics s' ↔ ¬KeyTaken statics publicKey := by
  obtain ⟨-, hlive, -, -, s₁, hupdate, rfl⟩ := redeemToken_eq_ok h
  have hname := ((foreign_iff_of_live hlive hlowered).mp (hs.clients row hrow)).1
  have hiff : Apart statics s₁ ↔ ¬KeyTaken statics publicKey := by
    rw [apart_updateClient_of_live hupdate hrow hs hlive hlowered, and_iff_right hname]
    exact ⟨fun hkey => hkey publicKey rfl, fun hkey key heq => Option.some.inj heq ▸ hkey⟩
  rw [← hiff]
  exact ⟨fun h => ⟨h.clients, h.known⟩, fun h => ⟨h.clients, h.known⟩⟩

theorem apart_approveRequest {request : RequestRow} {randomId : String} {revision : Nat} (hs : Apart statics s)
    (hkey : ¬KeyTaken statics request.publicKey) (h : s.approveRequest request randomId = .ok (revision, s')) :
    Apart statics s' ↔ ¬NameTaken statics request.displayId := by
  have hfree : ∀ key, some request.publicKey = some key → ¬KeyTaken statics key := fun key heq => Option.some.inj heq ▸ hkey
  unfold approveRequest at h
  split at h
  · simp only [approveExisting, bind_eq_ok, require_eq_ok, okOr_eq_ok, pure_eq_ok] at h
    obtain ⟨expected, -, row, hquery, -, -, -, -, -, ⟨-, -, hnormalized⟩, s₁, hupdate, heq⟩ := h
    obtain rfl := (Prod.mk.inj heq).2
    have hs₁ := apart_updateClient_of_live hupdate (queryRow_eq_some hquery).1 hs rfl hnormalized
    rw [← and_iff_left (a := ¬NameTaken statics request.displayId) hfree, ← hs₁]
    exact ⟨fun h => ⟨h.clients, h.known⟩, fun h => ⟨h.clients, h.known⟩⟩
  · simp only [approveNew, bind_eq_ok, okOr_eq_ok, pure_eq_ok] at h
    obtain ⟨-, -, s₁, hinsert, heq⟩ := h
    obtain rfl := (Prod.mk.inj heq).2
    rw [apart_insertClient hinsert hs, foreign_iff_of_live rfl rfl, and_iff_left_iff_imp]
    exact fun _ => hfree

theorem apart_presented {p : ClientRow → Bool} {displayName localIp : Option String} (hs : Apart statics s) :
    Apart statics { s with clients := updateWhere p (presented displayName localIp) s.clients } := by
  refine ⟨fun c hc => ?_, hs.known⟩
  obtain ⟨c₀, hc₀, -, -, -, hnormalized, hkey, -, -, hdeleted⟩ := mem_presented hc
  exact foreign_of_eq (hs.clients c₀ hc₀) hnormalized hkey fun hlive => hdeleted.symm.trans hlive

/-- An operation that commits leaves the two kinds of clients apart if and only if it is careful. -/
theorem apart_attempt_iff (hconsistent : Consistent s) (hs : Apart statics s) (h : s.attempt formats op = .ok (outcome, s')) :
    Apart statics s' ↔ Careful statics s op := by
  cases op with
  | createClient displayId clock randomId =>
      obtain ⟨client, h⟩ := attempt_pair h
      exact apart_createClient hs h
  | createClientWithToken displayId serverAddr fingerprint ttl clock randomId token salt =>
      obtain ⟨client, h⟩ := attempt_pair h
      exact apart_createClientWithToken hs h
  | renameClient internalId displayId expected clock =>
      obtain ⟨client, h⟩ := attempt_pair h
      exact apart_renameClient hs h
  | issueToken internalId purpose serverAddr fingerprint ttl expected clock token salt =>
      obtain ⟨key, h⟩ := attempt_pair h
      simp only [issueToken, bind_eq_ok, okOr_eq_ok, pure_eq_ok] at h
      obtain ⟨prepared, -, row, -, -, -, -, -, -, -, s₂, htoken, heq⟩ := h
      obtain rfl := (Prod.mk.inj heq).2
      obtain ⟨-, rfl⟩ := insertToken_eq_ok htoken
      exact iff_of_true ⟨hs.clients, hs.known⟩ trivial
  | setClientEnabled internalId enabled expected clock =>
      obtain ⟨client, h⟩ := attempt_pair h
      exact iff_of_true (apart_setClientEnabled hs h) trivial
  | deleteClient internalId expected clock =>
      obtain ⟨client, h⟩ := attempt_pair h
      exact iff_of_true (apart_deleteClient hs h) trivial
  | consumeToken encoded publicKey requestId now =>
      obtain ⟨result, h⟩ := attempt_pair h
      obtain ⟨t, row, hjoin, -, ⟨hconsumed, -, rfl⟩ | ⟨hunconsumed, purpose, secs, h⟩⟩ := consumeToken_eq_ok h
      · refine iff_of_true hs fun t' row' hjoin' hunconsumed => absurd ?_ hconsumed
        obtain ⟨rfl, -⟩ := Prod.mk.inj (Option.some.inj (hjoin.symm.trans hjoin'))
        exact hunconsumed
      · obtain ⟨-, hrow, -⟩ := joinToken_eq_some hjoin
        rw [apart_redeemToken hs (hconsistent.clients.lowered row hrow) hrow h]
        exact ⟨fun hkey _ _ _ _ => hkey, fun hcareful => hcareful t row hjoin hunconsumed⟩
  | requestApproval request now randomId =>
      obtain ⟨answer, h⟩ := attempt_pair h
      obtain ⟨requests, rfl⟩ := requests_requestApproval h
      exact iff_of_true ⟨hs.clients, hs.known⟩ trivial
  | reviewApproval requestId approve clock randomId =>
      obtain ⟨result, h⟩ := attempt_pair h
      obtain ⟨r, hquery, hstatic, hcases⟩ := reviewApproval_eq_ok h
      have hsame : ∀ r', s.queryRequest requestId = some r' → r' = r := fun r' hr' => Option.some.inj (hr'.symm.trans hquery)
      obtain ⟨hname, hkey⟩ := (ensureNotStatic_eq_ok hs.known).mp hstatic
      obtain ⟨hdecided, -, rfl⟩ | ⟨-, hrejected, -, rfl⟩ | ⟨hpending, happrove, revision, s₁, happroved, -, rfl⟩ := hcases
      · exact iff_of_true hs fun r' hr' hpending => absurd (hsame r' hr' ▸ hpending) hdecided
      · exact iff_of_true ⟨hs.clients, hs.known⟩ fun _ _ _ happrove => absurd (hrejected.symm.trans happrove) (by decide)
      · have hiff := apart_approveRequest hs hkey happroved
        constructor
        · intro hs' r' hr' _ _ _
          exact hsame r' hr' ▸ hiff.mp ⟨hs'.clients, hs'.known⟩
        · intro hcareful
          have hs₁ : Apart statics s₁ := by
            refine hiff.mpr ?_
            cases hprofile : r.profileName.isSome with
            | true => exact hcareful r hquery hpending happrove hprofile
            | false => rwa [hprofile, if_neg Bool.false_ne_true] at hname
          exact ⟨hs₁.clients, hs₁.known⟩
  | purgeTombstones olderThan batchLimit =>
      obtain ⟨count, h⟩ := attempt_pair h
      simp only [purgeTombstones, bind_eq_ok, pure_eq_ok] at h
      obtain ⟨-, -, cutoff, -, -, -, heq⟩ := h
      obtain rfl := (Prod.mk.inj heq).2
      exact iff_of_true ⟨fun c hc => hs.clients c (List.mem_filter.mp hc).1, hs.known⟩ trivial
  | updateProfile internalId displayName localIp clock =>
      obtain ⟨s₁, hprofile, heq⟩ := map_eq_ok.mp h
      obtain rfl := (Prod.mk.inj heq).2
      simp only [updateProfile, bind_eq_ok, pure_eq_ok] at hprofile
      obtain ⟨name, -, ip, -, -, -, -, -, rfl⟩ := hprofile
      exact iff_of_true (apart_presented hs) trivial
  | validateStaticCollisions clients =>
      obtain ⟨s₁, hstatic, heq⟩ := map_eq_ok.mp h
      obtain rfl := (Prod.mk.inj heq).2
      obtain ⟨-, rfl⟩ := validateStaticCollisions_eq_ok.mp hstatic
      exact ⟨fun hs' => hs'.known, fun hsame => ⟨hs.clients, hsame⟩⟩

end Steps

section Runs

/-- Every operation is careful in the state that it meets. -/
def CarefulRun (formats : Formats) (statics : List AuthorizedClient) : DynamicClientStore → List Op → Prop
  | _, [] => True
  | s, op :: ops => Careful statics s op ∧ CarefulRun formats statics (s.perform formats op).2 ops

theorem apart_perform {op : Op} (hconsistent : Consistent s) (hs : Apart statics s) (hcareful : Careful statics s op) :
    Apart statics (s.perform formats op).2 := by
  unfold perform
  split
  · next h => exact (apart_attempt_iff hconsistent hs h).mpr hcareful
  · exact hs

theorem apart_performAll {ops : List Op} (hconsistent : Consistent s) (hs : Apart statics s)
    (hcareful : CarefulRun formats statics s ops) : Apart statics (s.performAll formats ops) := by
  induction ops generalizing s with
  | nil => exact hs
  | cons op ops ih =>
      obtain ⟨hop, hops⟩ := hcareful
      exact ih (keeps_perform formats s op hconsistent).1 (apart_perform hconsistent hs hop) hops

/-- No client of the store that is not deleted has a name or a key of the configuration, the configuration is accepted at the
next start, and no key of a client that it disables is let in. -/
structure Separate (keys : KeyFormats) (statics : List AuthorizedClient) (s : DynamicClientStore) : Prop where
  disjoint : ∀ row ∈ s.clients, row.Foreign statics
  accepted : s.validateStaticCollisions statics = .ok s
  refused : ∀ a n, Authenticator.newWithDynamic keys statics = .ok a → ∀ pending authentication identity,
    Authenticator.finish keys { a with nextSessionSequence := n } (some s) pending authentication = .ok identity →
      ∀ c ∈ statics, c.enabled = false → Auth.keyFromStr keys c.publicKey ≠ Auth.Authenticator.presentedKey keys authentication

theorem dynamicIdentity_of_apart {keys : KeyFormats} {key : Orchestration.DevicePublicKey} {c : AuthorizedClient} (hs : Apart statics s)
    (hc : c ∈ statics) (hkey : Auth.keyFromStr keys c.publicKey = some key) :
    Authenticator.dynamicIdentity keys (some s) key = none := by
  by_contra hsome
  obtain ⟨name, hname⟩ := Option.ne_none_iff_exists'.mp hsome
  obtain ⟨client, hclient, hlive⟩ := Option.bind_eq_some_iff.mp hname
  obtain ⟨row, hquery, rfl⟩ := Option.map_eq_some_iff.mp hclient
  obtain ⟨⟨-, hundeleted⟩, -⟩ := Option.ite_none_right_eq_some.mp hlive
  have hrow := List.find?_some hquery
  have howned : row.publicKey = some c.publicKey :=
    (of_decide_eq_true hrow).trans (congrArg some (Auth.displayKey_keyFromStr keys hkey))
  exact (hs.clients row (List.mem_of_find?_eq_some hquery) hundeleted c hc).2 howned

theorem separate_of_apart (keys : KeyFormats) (hs : Apart statics s) : Separate keys statics s := by
  refine ⟨hs.clients, apart_iff_validated.mp hs, fun a n ha pending authentication identity hfinish c hc hdisabled hkey => ?_⟩
  obtain ⟨key, hpresented, -, hstatic | hdynamic⟩ := Auth.Authenticator.finish_eq_ok hfinish
  · have hnone := Auth.Authenticator.staticIdentity_disabled ha hc hdisabled (hkey.trans hpresented) pending.clientName
    exact Option.some_ne_none _ (hstatic.symm.trans hnone)
  · have hnone := dynamicIdentity_of_apart hs hc (hkey.trans hpresented)
    exact Option.some_ne_none _ (hdynamic.symm.trans hnone)

/-- After every run of careful operations the clients of the store and of the configuration are apart, and an operation that
goes through without care ends that. -/
theorem static_identities_apart (keys : KeyFormats) (formats : Formats) (limits : EnrollmentStoreLimits) (before : List Op)
    (statics : List AuthorizedClient) (start : DynamicClientStore)
    (hvalid : ((DynamicClientStore.open limits).performAll formats before).validateStaticCollisions statics = .ok start)
    (ops : List Op) (hcareful : CarefulRun formats statics start ops) :
    Separate keys statics (start.performAll formats ops) ∧
      ∀ op outcome s', (start.performAll formats ops).attempt formats op = .ok (outcome, s') → Separate keys statics s' →
        Careful statics (start.performAll formats ops) op := by
  obtain ⟨hforeign, rfl⟩ := validateStaticCollisions_eq_ok.mp hvalid
  have hbefore := (keeps_performAll formats _ before (consistent_open limits)).1
  have hstart := (keeps_withStatic _ (identities statics) hbefore).1
  have hs := apart_performAll hstart ⟨hforeign, rfl⟩ hcareful
  refine ⟨separate_of_apart keys hs, fun op outcome s' hattempt hseparate => ?_⟩
  have hconsistent := (keeps_performAll formats _ ops hstart).1
  exact (apart_attempt_iff hconsistent hs hattempt).mp (apart_iff_validated.mpr hseparate.accepted)

section Sample

def sampleBytes : Bytes := [
  0xd7, 0x5a, 0x98, 0x01, 0x82, 0xb1, 0x0a, 0xb7, 0xd5, 0x4b, 0xfe, 0xd3, 0xc9, 0x64, 0x07, 0x3a,
  0x0e, 0xe1, 0x72, 0xf3, 0xda, 0xa6, 0x23, 0x25, 0xaf, 0x02, 0x1a, 0x68, 0xf7, 0x07, 0x51, 0x1a]

def sampleText : String := "11qYAYKxCrfVS/7TyWQHOg7hcvPapiMlrwIaaPcHURo="

/-- The formats, as far as the sample key goes, with no signature. -/
def sampleKeys : KeyFormats where
  encode bytes := if bytes = sampleBytes then sampleText else ""
  decode text := if text = sampleText then some sampleBytes else none
  encode_of_decode h := by
    obtain ⟨rfl, hbytes⟩ := Option.ite_none_right_eq_some.mp h
    exact if_pos (Option.some.inj hbytes).symm
  isKey _ := true
  verify _ _ _ := false

/-- A configuration that disables the only client it has. -/
def sampleStatics : List AuthorizedClient := [⟨"edge", sampleDevice, false⟩]

instance (statics : List AuthorizedClient) (name : String) : Decidable (NameTaken statics name) :=
  inferInstanceAs (Decidable (∃ c ∈ statics, toAsciiLowercase c.name = toAsciiLowercase name))

/-- A client of another name is created. -/
theorem static_identities_apart_sample :
    ∃ start, ((DynamicClientStore.open ⟨4, 4⟩).performAll sampleFormats []).validateStaticCollisions sampleStatics = .ok start ∧
      Separate sampleKeys sampleStatics (start.performAll sampleFormats [.createClient "node" 0 sampleId]) := by
  have hvalid : ((DynamicClientStore.open ⟨4, 4⟩).performAll sampleFormats []).validateStaticCollisions sampleStatics =
      .ok { DynamicClientStore.open ⟨4, 4⟩ with staticIdentities := identities sampleStatics } :=
    validateStaticCollisions_eq_ok.mpr ⟨fun _ hrow => absurd hrow List.not_mem_nil, rfl⟩
  have hfree : ¬NameTaken sampleStatics (trim "node") := by decide +kernel
  have hcareful : CarefulRun sampleFormats sampleStatics { DynamicClientStore.open ⟨4, 4⟩ with
      staticIdentities := identities sampleStatics } [.createClient "node" 0 sampleId] := ⟨hfree, trivial⟩
  exact ⟨_, hvalid, (static_identities_apart sampleKeys sampleFormats ⟨4, 4⟩ [] sampleStatics _ hvalid _ hcareful).1⟩

/-- A device with the key that the configuration disables enrolls as another client. -/
def disabledKeyEnrolls : List Op := [
  .createClientWithToken "node" "a:1" (List.replicate 32 0) (60 * 10 ^ 9) 0 sampleId
    ((List.range 32).map UInt8.ofNat) (List.replicate 16 0),
  .consumeToken sampleKey sampleDevice "request" 0]

/-- The key of a client that the configuration disables logs in under the name of a client of the store. -/
theorem disabled_key_admitted :
    ∃ start, (DynamicClientStore.open ⟨4, 4⟩).validateStaticCollisions sampleStatics = .ok start ∧
      ¬Separate sampleKeys sampleStatics (start.performAll sampleFormats disabledKeyEnrolls) ∧
      (Auth.keyFromStr sampleKeys sampleDevice).bind (Authenticator.dynamicIdentity sampleKeys
        (some (start.performAll sampleFormats disabledKeyEnrolls))) = some "node" := by
  have hvalid : (DynamicClientStore.open ⟨4, 4⟩).validateStaticCollisions sampleStatics =
      .ok { DynamicClientStore.open ⟨4, 4⟩ with staticIdentities := identities sampleStatics } :=
    validateStaticCollisions_eq_ok.mpr ⟨fun _ hrow => absurd hrow List.not_mem_nil, rfl⟩
  refine ⟨_, hvalid, fun hseparate => ?_, by decide +kernel⟩
  have hcollision : ({ DynamicClientStore.open ⟨4, 4⟩ with staticIdentities := identities sampleStatics }.performAll
      sampleFormats disabledKeyEnrolls).clients.any (fun row => !row.tombstoned && row.publicKey = some sampleDevice) = true := by
    decide +kernel
  obtain ⟨row, hrow, hbound⟩ := List.any_eq_true.mp hcollision
  obtain ⟨hlive, hkey⟩ := (Bool.and_eq_true _ _).mp hbound
  exact (hseparate.disjoint row hrow ((Bool.not_eq_true' _).mp hlive) _ (List.mem_singleton_self _)).2 (of_decide_eq_true hkey)

end Sample

end Runs

end DynamicClientStore

end Rustgo.Enrollment
