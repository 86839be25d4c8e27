import Rustgo.RevocationLogins
import Rustgo.Runs
import Rustgo.StaticIdentities

namespace Rustgo.Revocation.System

open Checks Enrollment Protocol Registry Rendezvous Rows Runs Tables
open Auth (Authenticator KeyFormats)
open DynamicClientStore (sampleDevice sampleFormats sampleId sampleKey)
open Postcard.Format (utf8)

variable {keys : KeyFormats} {formats : Formats} {s t : System} {name : String} {a q : Authority} {id : Nat} {change : Change}
  {row : ClientRow}

/-- A client has come to a revision, if it is there still. -/
def Reached (s : System) (q : Authority) : Prop :=
  q.client < s.store.serial ∧ ∀ row ∈ s.store.clients, row.serial = q.client → q.revision ≤ row.revision

/-- A rename that a login is older than, one of the first changes, has its termination to come. -/
def Renaming (s : System) (a : Authority) (order : Nat) : Prop :=
  ∃ id change, s.Changed id change ∧ change.renamed ≠ none ∧ change.order < order ∧ change.reached.client = a.client ∧
    a.revision < change.reached.revision

/-- The logins that a change revokes have the name that it looks up, unless a rename before it is going to look them up. -/
structure Accounted (s : System) (change : Change) : Prop where
  reached : s.Reached change.reached
  order : change.order < s.changes
  attached : change.renamed ≠ none → change.detached = false
  named : ∀ name a, s.LoggedIn name a → a.client = change.reached.client → a.revision < change.reached.revision →
    name = change.name ∨ s.Renaming a change.order

/-- No login is older than a change that was answered. -/
def Outdates (s : System) (q : Authority) : Prop := ∀ name a, s.LoggedIn name a → a.client = q.client → q.revision ≤ a.revision

structure Current (s : System) : Prop where
  consistent : Consistent s.store
  recorded : Recorded s
  logins : ∀ name a, s.LoggedIn name a → s.Reached a ∧
    ∀ row ∈ s.store.clients, row.serial = a.client → row.displayId = name ∨ s.Renaming a s.changes
  changes : ∀ id change, s.Changed id change → s.Accounted change
  returned : ∀ q ∈ s.returned, s.Reached q ∧ s.Outdates q

theorem reached_row (hs : Consistent s.store) (hrow : row ∈ s.store.clients) {revision : Nat} (hle : revision ≤ row.revision) :
    s.Reached ⟨row.serial, revision⟩ := by
  refine ⟨hs.clients.numbered row hrow, fun row' hrow' hserial => ?_⟩
  obtain rfl := hs.clients.serials.eq_of_key_eq hrow' hrow hserial
  exact hle

theorem Renaming.mono {m n : Nat} (h : s.Renaming a m) (hle : m ≤ n)
    (hkept : ∀ id change, s.Changed id change → change.renamed ≠ none → t.Changed id change) : t.Renaming a n := by
  obtain ⟨id, change, hchanged, hrenamed, horder, hclient, hlt⟩ := h
  exact ⟨id, change, hkept id change hchanged hrenamed, hrenamed, horder.trans_le hle, hclient, hlt⟩

/-- What a step may do: rows move on, and are renamed by a change only; logins are old ones, or of a client as it is. -/
structure Moves (s t : System) : Prop where
  consistent : Consistent t.store
  recorded : Recorded t
  serial : s.store.serial ≤ t.store.serial
  rows : ∀ row' ∈ t.store.clients, row'.serial < s.store.serial → ∃ row ∈ s.store.clients, row.serial = row'.serial ∧
    row.revision ≤ row'.revision ∧ (row.displayId = row'.displayId ∨ t.Renaming ⟨row.serial, row.revision⟩ t.changes)
  logins : ∀ name a, t.LoggedIn name a → s.LoggedIn name a ∨
    ∃ row ∈ t.store.clients, row.serial = a.client ∧ row.revision = a.revision ∧ row.displayId = name
  changes : s.changes ≤ t.changes
  carried : ∀ name a n, t.LoggedIn name a → s.Renaming a n → t.Renaming a n
  made : ∀ id change, t.Changed id change → s.Changed id change ∨ t.Accounted change
  returned : ∀ q ∈ t.returned, q ∈ s.returned ∨ t.Reached q ∧ t.Outdates q

theorem Moves.reached (h : Moves s t) (hq : s.Reached q) : t.Reached q := by
  refine ⟨hq.1.trans_le h.serial, fun row' hrow' hserial => ?_⟩
  obtain ⟨row, hrow, hsame, hrev, -⟩ := h.rows row' hrow' (hserial ▸ hq.1)
  exact (hq.2 row hrow (hsame.trans hserial)).trans hrev

theorem Current.moves (hs : Current s) (h : Moves s t) : Current t := by
  have houtdates : ∀ {q}, t.Reached q → s.Outdates q → t.Outdates q := by
    intro q hq hold name a hlogin hclient
    rcases h.logins name a hlogin with hbefore | ⟨row, hrow, hserial, hrev, -⟩
    · exact hold name a hbefore hclient
    · exact (hq.2 row hrow (hserial.trans hclient)).trans_eq hrev
  refine ⟨h.consistent, h.recorded, fun name a hlogin => ?_, fun id change hchanged => ?_, fun q hq => ?_⟩
  · rcases h.logins name a hlogin with hbefore | ⟨row, hrow, hserial, hrev, hname⟩
    · obtain ⟨hreached, hnamed⟩ := hs.logins name a hbefore
      refine ⟨h.reached hreached, fun row' hrow' hserial => ?_⟩
      obtain ⟨row, hrow, hsame, hrev, hname | ⟨id, change, hchanged, hrenamed, horder, hclient, hlt⟩⟩ :=
        h.rows row' hrow' (hserial ▸ hreached.1)
      · rcases hnamed row hrow (hsame.trans hserial) with hrow | hrenaming
        · exact .inl (hname.symm.trans hrow)
        · exact .inr ((h.carried name a s.changes hlogin hrenaming).mono h.changes fun _ _ hchanged _ => hchanged)
      · have hle := hreached.2 row hrow (hsame.trans hserial)
        exact .inr ⟨id, change, hchanged, hrenamed, horder, hclient.trans (hsame.trans hserial), hle.trans_lt hlt⟩
    · have hreached := reached_row h.consistent hrow hrev.ge
      rw [hserial] at hreached
      refine ⟨hreached, fun row' hrow' hserial' => ?_⟩
      obtain rfl := h.consistent.clients.serials.eq_of_key_eq hrow' hrow (hserial'.trans hserial.symm)
      exact .inl hname
  · rcases h.made id change hchanged with hbefore | hnew
    · have hchange := hs.changes id change hbefore
      refine ⟨h.reached hchange.reached, hchange.order.trans_le h.changes, hchange.attached, fun name a hlogin hclient hlt => ?_⟩
      rcases h.logins name a hlogin with hold | ⟨row, hrow, hserial, hrev, -⟩
      · exact (hchange.named name a hold hclient hlt).imp_right (h.carried name a _ hlogin)
      · have hle := (h.reached hchange.reached).2 row hrow (hserial.trans hclient)
        exact absurd (hle.trans_eq hrev) (Nat.not_le.mpr hlt)
    · exact hnew
  · rcases h.returned q hq with hbefore | hnew
    · obtain ⟨hreached, hold⟩ := hs.returned q hbefore
      exact ⟨h.reached hreached, houtdates (h.reached hreached) hold⟩
    · exact hnew

section Quiet

theorem moves_of_quiet (hs : Current s) (h : Quiet s t) : Moves s t where
  consistent := h.store ▸ hs.consistent
  recorded := h.recorded hs.recorded
  serial := by rw [h.store]
  rows row hrow _ := ⟨row, h.store ▸ hrow, rfl, le_refl _, .inl rfl⟩
  logins name a hlogin := .inl (h.logins name a hlogin)
  changes := h.changes.ge
  carried _ _ _ _ hrenaming := hrenaming.mono (le_refl _) fun id change hchanged _ => (h.changed id change).mpr hchanged
  made id change hchanged := .inl ((h.changed id change).mp hchanged)
  returned q hq := .inl (h.returned ▸ hq)

theorem quiet_lookup {call : ClientMutation} (hid : id ∉ s.calls) : Quiet s (s.lookup id call) := by
  unfold System.lookup
  split
  · next client _ =>
    refine ⟨rfl, rfl, rfl, fun id' change => ?_, fun _ _ h => h, fun h => ⟨h.1, h.2⟩⟩
    rw [changed_insert (t := { s with calls := s.calls.insert id (.found call client.internalId) }) rfl]
    constructor
    · rintro (⟨-, h⟩ | ⟨-, h⟩)
      · cases h
      · exact h
    · intro h
      refine .inr ⟨?_, h⟩
      rintro rfl
      exact hid (Finmap.mem_of_lookup_eq_some h)
  · exact .refl s

theorem moves_authenticate {conn : Nat} {pending : Auth.PendingAuthentication} {version : ProtocolVersion}
    {authentication : ClientAuthenticate} (hs : Current s) : Moves s (s.authenticate keys conn pending version authentication) := by
  have hfields : (s.authenticate keys conn pending version authentication).store = s.store ∧
      (s.authenticate keys conn pending version authentication).calls = s.calls ∧
      (s.authenticate keys conn pending version authentication).returned = s.returned ∧
      (s.authenticate keys conn pending version authentication).changes = s.changes ∧
      (s.authenticate keys conn pending version authentication).guards = s.guards ∧
      (s.authenticate keys conn pending version authentication).authorities = s.authorities := by
    unfold System.authenticate
    split
    · split <;> exact ⟨rfl, rfl, rfl, rfl, rfl, rfl⟩
    · exact ⟨rfl, rfl, rfl, rfl, rfl, rfl⟩
  have hlogins : ∀ name a, (s.authenticate keys conn pending version authentication).LoggedIn name a → s.LoggedIn name a ∨
      ∃ row ∈ s.store.clients, row.serial = a.client ∧ row.revision = a.revision ∧ row.displayId = name :=
    fun _ _ h => loggedIn_authenticate h
  generalize s.authenticate keys conn pending version authentication = t at *
  obtain ⟨hstore, hcalls, hreturned, hchanges, hguards, hauthorities⟩ := hfields
  have hchanged : ∀ id change, t.Changed id change ↔ s.Changed id change := by
    intro id change
    rw [Changed, hcalls]
    exact .rfl
  refine ⟨hstore ▸ hs.consistent, ?_, by rw [hstore], fun row hrow _ => ⟨row, hstore ▸ hrow, rfl, le_refl _, .inl rfl⟩, ?_, hchanges.ge,
    fun _ _ _ _ h => h.mono (le_refl _) fun id change hchange _ => (hchanged id change).mpr hchange,
    fun id change h => .inl ((hchanged id change).mp h), fun q hq => .inl (hreturned ▸ hq)⟩
  · exact recorded_of_within (hguards ▸ .refl _) hauthorities hs.recorded
  · rw [hstore]
    exact hlogins

end Quiet

section Changes

/-- No login of a client is there. -/
def Idle (s : System) (client : Nat) : Prop := ∀ name a, s.LoggedIn name a → a.client ≠ client

theorem moves_of_attempt {op : Op} {outcome : Outcome} (hs : Current s) (h : s.store.attempt formats op = .ok (outcome, t.store))
    (hlogins : ∀ name a, t.LoggedIn name a → s.LoggedIn name a) (hrecorded : Recorded t) (hchanges : s.changes ≤ t.changes)
    (hkept : ∀ id change, s.Changed id change → t.Changed id change)
    (hrenames : ∀ row ∈ s.store.clients, op.renames = some row.internalId → t.Renaming ⟨row.serial, row.revision⟩ t.changes)
    (hmade : ∀ id change, t.Changed id change → s.Changed id change ∨ t.Accounted change)
    (hreturned : ∀ q ∈ t.returned, q ∈ s.returned ∨ t.Reached q ∧ t.Outdates q) : Moves s t := by
  obtain ⟨hconsistent, hadvances⟩ := DynamicClientStore.keeps_attempt h hs.consistent
  refine ⟨hconsistent, hrecorded, hadvances.serial, fun row' hrow' hold => ?_, fun name a hlogin => .inl (hlogins name a hlogin), hchanges,
    fun _ _ _ _ hrenaming => hrenaming.mono (le_refl _) fun id change hchanged _ => hkept id change hchanged, hmade, hreturned⟩
  obtain ⟨row, hrow, hserial, -, hrev, hname⟩ := DynamicClientStore.row_before hs.consistent h hrow' hold
  exact ⟨row, hrow, hserial, hrev, hname.imp_right (hrenames row hrow)⟩

/-- A change that looks a client up under its id. -/
theorem Current.accounted (hs : Current s) (hrow : row ∈ s.store.clients) (hspelled : change.name = row.displayId ∨ s.Idle row.serial)
    (hclient : change.reached.client = row.serial) (hreached : t.Reached change.reached) (horder : change.order = s.changes)
    (hchanges : s.changes < t.changes) (hattached : change.renamed ≠ none → change.detached = false)
    (hlogins : ∀ name a, t.LoggedIn name a → s.LoggedIn name a) (hkept : ∀ id change, s.Changed id change → t.Changed id change) :
    t.Accounted change := by
  refine ⟨hreached, horder.trans_lt hchanges, hattached, fun name a hlogin ha _ => ?_⟩
  have hbefore := hlogins name a hlogin
  have hname : change.name = row.displayId := hspelled.resolve_right fun hidle => hidle name a hbefore (ha.trans hclient)
  rcases (hs.logins name a hbefore).2 row hrow (hclient.symm.trans ha.symm) with hdisplay | hrenaming
  · exact .inl (hdisplay.symm.trans hname.symm)
  · exact .inr (hrenaming.mono horder.ge fun id change hchanged _ => hkept id change hchanged)

theorem op_renames (call : ClientMutation) (internalId : String) (clock : SystemTime) :
    (call.op internalId clock).renames = if call.renames then some internalId else none := by
  unfold ClientMutation.op ClientMutation.renames
  cases call.mutation <;> rfl

theorem terminates_of_renames {call : ClientMutation} (h : call.renames = true) : call.terminates = true := by
  unfold ClientMutation.renames at h
  unfold ClientMutation.terminates
  cases hmutation : call.mutation with
  | rename newClientId => rfl
  | state enabled =>
      rw [hmutation] at h
      cases h
  | delete => rfl

theorem edited_mutation {store store' : DynamicClientStore} {call : ClientMutation} {internalId : String} {clock : SystemTime}
    {outcome : Outcome} (hs : Consistent store) (h : store.attempt formats (call.op internalId clock) = .ok (outcome, store')) :
    ∃ row ∈ store.clients, row.internalId = internalId ∧ DynamicClientStore.Edited store store' row := by
  have hfound : ∀ {row : ClientRow}, store.findLive internalId call.expectedRevision = some row →
      row ∈ store.clients ∧ row.internalId = internalId :=
    fun hfind => ⟨(DynamicClientStore.findLive_eq_some hfind).1, (DynamicClientStore.findLive_eq_some hfind).2.1⟩
  unfold ClientMutation.op at h
  split at h
  · obtain ⟨client, h⟩ := DynamicClientStore.attempt_pair h
    obtain ⟨row, hfind, hedited⟩ := DynamicClientStore.edited_renameClient hs h
    exact ⟨row, (hfound hfind).1, (hfound hfind).2, hedited⟩
  · obtain ⟨client, h⟩ := DynamicClientStore.attempt_pair h
    obtain ⟨row, hfind, hedited⟩ := DynamicClientStore.edited_setClientEnabled hs h
    exact ⟨row, (hfound hfind).1, (hfound hfind).2, hedited⟩
  · obtain ⟨client, h⟩ := DynamicClientStore.attempt_pair h
    obtain ⟨row, hfind, hedited⟩ := DynamicClientStore.edited_deleteClient hs h
    exact ⟨row, (hfound hfind).1, (hfound hfind).2, hedited⟩

/-- A change under the id that the client has, or of a client without a login. -/
theorem moves_mutate {call : ClientMutation} {internalId : String} {clock : SystemTime} (hs : Current s)
    (hcall : s.calls.lookup id = some (.found call internalId)) (h : s.mutate formats id call internalId clock = some t)
    (hcareful : ∀ row, call.terminates = true → s.store.queryRow internalId = some row →
      call.clientId = row.displayId ∨ s.Idle row.serial) : Moves s t := by
  have hother : ∀ id' change, s.Changed id' change → id' ≠ id := by
    rintro id' change hchanged rfl
    cases Option.some.inj (hcall.symm.trans hchanged)
  unfold System.mutate at h
  split at h
  · obtain rfl := Option.some.inj h
    refine moves_of_quiet hs ⟨rfl, rfl, rfl, fun id' change => ?_, fun _ _ h => h, fun h => ⟨h.1, h.2⟩⟩
    rw [changed_erase (t := { s with calls := s.calls.erase id }) rfl]
    exact ⟨fun h => h.2, fun h => ⟨hother id' change h, h⟩⟩
  · next outcome store hattempt =>
    obtain ⟨new, hnew, heq⟩ := Option.bind_eq_some_iff.mp h
    obtain ⟨row, hrow, rfl, hedited⟩ := edited_mutation hs.consistent hattempt
    obtain ⟨new', hmem, hnew', hserial, hrev⟩ := DynamicClientStore.queryRow_edited hs.consistent hrow hedited
    obtain rfl := Option.some.inj (hnew.symm.trans hnew')
    have hspelled := fun hterminates => hcareful row hterminates (hs.consistent.clients.ids.find?_eq_some.mpr ⟨hrow, rfl⟩)
    obtain rfl := Option.some.inj heq
    have hreached : System.Reached { s with store } ⟨new.serial, new.revision⟩ := reached_row hedited.consistent hmem (le_refl _)
    cases hterminates : call.terminates with
    | true =>
        rw [if_pos rfl]
        refine moves_of_attempt hs hattempt (fun _ _ h => h) ⟨hs.recorded.1, hs.recorded.2⟩ (Nat.le_succ _) (fun id' change h => ?_)
          (fun row' hrow' hop => ?_) (fun id' change h => ?_) fun q hq => .inl hq
        · exact (changed_insert rfl).mpr (.inr ⟨hother id' change h, h⟩)
        · rw [op_renames] at hop
          obtain ⟨hrenames, hid⟩ := Option.ite_none_right_eq_some.mp hop
          obtain rfl := hs.consistent.clients.ids.eq_of_key_eq hrow hrow' (Option.some.inj hid)
          refine ⟨id, _, (changed_insert rfl).mpr (.inl ⟨rfl, rfl⟩), ?_, Nat.lt_succ_self _, hserial, ?_⟩
          · rw [if_pos hrenames]
            exact Option.some_ne_none _
          · exact hrev ▸ Nat.lt_succ_self _
        · rcases (changed_insert rfl).mp h with ⟨-, heq⟩ | ⟨-, h⟩
          · obtain rfl := Call.changed.inj heq
            refine .inr (hs.accounted hrow (hspelled hterminates) hserial hreached rfl (Nat.lt_succ_self _) (fun _ => rfl)
              (fun _ _ h => h) fun id' change h => ?_)
            exact (changed_insert rfl).mpr (.inr ⟨hother id' change h, h⟩)
          · exact .inl h
    | false =>
        rw [if_neg Bool.false_ne_true]
        refine moves_of_attempt hs hattempt (fun _ _ h => h) ⟨hs.recorded.1, hs.recorded.2⟩ (Nat.le_succ _) (fun id' change h => ?_)
          (fun row' hrow' hop => ?_) (fun id' change h => ?_) fun q hq => .inl hq
        · exact (changed_erase rfl).mpr ⟨hother id' change h, h⟩
        · rw [op_renames] at hop
          obtain ⟨hrenames, -⟩ := Option.ite_none_right_eq_some.mp hop
          exact absurd (hterminates.symm.trans (terminates_of_renames hrenames)) Bool.false_ne_true
        · exact .inl ((changed_erase rfl).mp h).2

theorem reached_attempt {op : Op} {outcome : Outcome} (hs : Current s)
    (h : s.store.attempt formats op = .ok (outcome, t.store)) (hq : s.Reached q) : t.Reached q := by
  obtain ⟨-, hadvances⟩ := DynamicClientStore.keeps_attempt h hs.consistent
  refine ⟨hq.1.trans_le hadvances.serial, fun row' hrow' hserial => ?_⟩
  obtain ⟨row, hrow, hsame, -, hrev⟩ := hadvances.clients row' hrow' (hserial ▸ hq.1)
  exact (hq.2 row hrow (hsame.trans hserial)).trans hrev

/-- The client of a repeated approval is one of the store. -/
theorem reached_repeated {requestId : String} {approve : Bool} (hs : Current s) (h : repeated s.store requestId approve = some q) :
    s.Reached q := by
  obtain ⟨r, -, h⟩ := Option.bind_eq_some_iff.mp h
  obtain ⟨-, h⟩ := Option.ite_none_right_eq_some.mp h
  obtain ⟨row, hrow, rfl⟩ := Option.map_eq_some_iff.mp h
  exact reached_row hs.consistent (List.mem_of_find?_eq_some hrow) (le_refl _)

theorem moves_review (formats : Formats) {requestId randomId : String} {approve : Bool} {clock : SystemTime} (hs : Current s) (hid : id ∉ s.calls)
    (h : s.review id requestId approve clock randomId = some t)
    (hspelled : ∀ r internalId row, s.store.queryRequest requestId = some r → r.status = .pending → r.targetId = some internalId →
      s.store.queryRow internalId = some row → approve = true → r.displayId = row.displayId ∨ s.Idle row.serial)
    (hrepeated : ∀ q, repeated s.store requestId approve = some q → q ∈ s.returned ∨ s.Idle q.client) : Moves s t := by
  have hother : ∀ id' change, s.Changed id' change → id' ≠ id := by
    rintro id' change hchanged rfl
    exact hid (Finmap.mem_of_lookup_eq_some hchanged)
  have hattempt : ∀ {result store}, s.store.reviewApproval requestId approve clock randomId = .ok (result, store) →
      s.store.attempt formats (.reviewApproval requestId approve clock randomId) = .ok (.reviewed result, store) := by
    intro result store hreview
    exact congrArg (Prod.map Outcome.reviewed (fun store => store) <$> ·) hreview
  unfold System.review at h
  split at h
  · obtain rfl := Option.some.inj h
    exact moves_of_quiet hs (.refl s)
  · next store hreview =>
    obtain rfl := Option.some.inj h
    refine moves_of_attempt hs (hattempt hreview) (fun _ _ h => h) ⟨hs.recorded.1, hs.recorded.2⟩ (le_refl _) (fun _ _ h => h)
      (fun _ _ hop => absurd hop (Option.some_ne_none _).symm) (fun _ _ h => .inl h) fun q hq => ?_
    rcases List.mem_append.mp hq with hq | hq
    · have hq := Option.mem_toList.mp hq
      rcases hrepeated q hq with hbefore | hidle
      · exact .inl hbefore
      · exact .inr ⟨reached_attempt hs (hattempt hreview) (reached_repeated hs hq),
          fun name a hlogin hclient => absurd hclient (hidle name a hlogin)⟩
    · exact .inl hq
  · next result store hreview =>
    obtain ⟨new, hnew, heq⟩ := Option.bind_eq_some_iff.mp h
    obtain rfl := Option.some.inj heq
    have hconsistent := (DynamicClientStore.keeps_attempt (hattempt hreview) hs.consistent).1
    obtain ⟨r, new', hquery, hpending, happrove, hresult, hmem, hnew', hrev, hserial⟩ :=
      DynamicClientStore.queryNormalized_reviewed hs.consistent hconsistent hreview
    obtain rfl := Option.some.inj ((hresult ▸ hnew).symm.trans hnew')
    have hkept : ∀ id' change, s.Changed id' change → System.Changed { s with
        store, calls := s.calls.insert id (.changed ⟨result.displayId, none, true, ⟨new.serial, result.revision⟩, s.changes⟩),
        changes := s.changes + 1 } id' change :=
      fun id' change h => (changed_insert rfl).mpr (.inr ⟨hother id' change h, h⟩)
    refine moves_of_attempt hs (hattempt hreview) (fun _ _ h => h) ⟨hs.recorded.1, hs.recorded.2⟩ (Nat.le_succ _) hkept
      (fun _ _ hop => absurd hop (Option.some_ne_none _).symm) (fun id' change h => ?_) fun q hq => .inl hq
    rcases (changed_insert rfl).mp h with ⟨-, heq⟩ | ⟨-, h⟩
    · obtain rfl := Call.changed.inj heq
      have hreached : System.Reached { s with store } ⟨new.serial, result.revision⟩ := reached_row hconsistent hmem hrev.ge
      rcases hserial with hfresh | ⟨internalId, row, htarget, hrow, hsame⟩
      · refine .inr ⟨hreached, Nat.lt_succ_self _, fun h => absurd rfl h, fun name a hlogin hclient _ => ?_⟩
        exact absurd (hclient.trans hfresh) (hs.logins name a hlogin).1.1.ne
      · have hname := hspelled r internalId row hquery hpending htarget hrow happrove
        rw [← hresult] at hname
        exact .inr (hs.accounted (DynamicClientStore.queryRow_eq_some hrow).1 hname hsame hreached rfl (Nat.lt_succ_self _)
          (fun h => absurd rfl h) (fun _ _ h => h) hkept)
    · exact .inl h

theorem moves_consume {encoded publicKey requestId : String} {now : SystemTime} (hs : Current s) (hid : id ∉ s.calls)
    (h : s.consume formats id encoded publicKey requestId now = some t) : Moves s t := by
  have hother : ∀ id' change, s.Changed id' change → id' ≠ id := by
    rintro id' change hchanged rfl
    exact hid (Finmap.mem_of_lookup_eq_some hchanged)
  unfold System.consume at h
  split at h
  · obtain rfl := Option.some.inj h
    exact moves_of_quiet hs (.refl s)
  · next result store hconsume =>
    have hattempt : s.store.attempt formats (.consumeToken encoded publicKey requestId now) = .ok (.enrolled result, store) :=
      congrArg (Prod.map Outcome.enrolled (fun store => store) <$> ·) hconsume
    obtain ⟨new, hnew, heq⟩ := Option.bind_eq_some_iff.mp h
    obtain rfl := Option.some.inj heq
    have hconsistent := (DynamicClientStore.keeps_attempt hattempt hs.consistent).1
    obtain ⟨row, hrow, hdisplay, new', hmem, hnew', hserial, hrev⟩ :=
      DynamicClientStore.queryNormalized_consumed hs.consistent hconsistent hconsume
    obtain rfl := Option.some.inj (hnew.symm.trans hnew')
    by_cases hpurpose : formats.decodeKey encoded = some .reEnroll
    · rw [if_pos hpurpose]
      have hkept : ∀ id' change, s.Changed id' change → System.Changed { s with
          store, calls := s.calls.insert id (.changed ⟨result.displayId, none, true, ⟨new.serial, result.revision⟩, s.changes⟩),
          changes := s.changes + 1 } id' change :=
        fun id' change h => (changed_insert rfl).mpr (.inr ⟨hother id' change h, h⟩)
      refine moves_of_attempt hs hattempt (fun _ _ h => h) ⟨hs.recorded.1, hs.recorded.2⟩ (Nat.le_succ _) hkept
        (fun _ _ hop => absurd hop (Option.some_ne_none _).symm) (fun id' change h => ?_) fun q hq => .inl hq
      rcases (changed_insert rfl).mp h with ⟨-, heq⟩ | ⟨-, h⟩
      · obtain rfl := Call.changed.inj heq
        have hreached : System.Reached { s with store } ⟨new.serial, result.revision⟩ := reached_row hconsistent hmem hrev
        exact .inr (hs.accounted hrow (.inl hdisplay.symm) hserial hreached rfl (Nat.lt_succ_self _) (fun h => absurd rfl h)
          (fun _ _ h => h) hkept)
      · exact .inl h
    · rw [if_neg hpurpose]
      exact moves_of_attempt hs hattempt (fun _ _ h => h) ⟨hs.recorded.1, hs.recorded.2⟩ (Nat.le_succ _) (fun _ _ h => h)
        (fun _ _ hop => absurd hop (Option.some_ne_none _).symm) (fun _ _ h => .inl h) fun q hq => .inl hq

/-- The termination finds every login that its change revokes. -/
theorem moves_finish (hs : Current s) (hcall : s.Changed id change)
    (hwaiting : ∀ name a, s.Waiting name a → a.client = change.reached.client → change.reached.revision ≤ a.revision)
    (hfirst : ∀ id' earlier, s.Changed id' earlier → earlier.renamed ≠ none → earlier.reached.client = change.reached.client →
      change.order ≤ earlier.order) : Moves s (s.finish id change) := by
  have hquiet := quiet_finishChange s change
  have hchange := hs.changes id change hcall
  have houtdates : ∀ name a, (s.finishChange change).LoggedIn name a → a.client = change.reached.client →
      change.reached.revision ≤ a.revision := by
    intro name a hlogin hclient
    by_contra hlt
    rcases hchange.named name a (hquiet.logins name a hlogin) hclient (Nat.not_le.mp hlt) with rfl | ⟨id', earlier, hearlier, hrenamed, horder, hsame, -⟩
    · rcases hlogin with hwaits | hactive
      · exact hlt (hwaiting _ a (waiting_finishChange hwaits) hclient)
      · exact not_active_finishChange s change a hactive
    · exact absurd (hfirst id' earlier hearlier hrenamed (hsame.trans hclient)) (Nat.not_le.mpr horder)
  refine ⟨hquiet.store ▸ hs.consistent, ?_, hquiet.store.symm ▸ le_refl _,
    fun row hrow _ => ⟨row, hquiet.store ▸ hrow, rfl, le_refl _, .inl rfl⟩, fun name a hlogin => .inl (hquiet.logins name a hlogin),
    hquiet.changes.ge, ?_, fun id' other h => .inl ((changed_erase rfl).mp h).2, fun q hq => ?_⟩
  · exact ⟨(hquiet.recorded hs.recorded).1, (hquiet.recorded hs.recorded).2⟩
  · rintro name a n hlogin ⟨id', other, hother, hrenamed, horder, hclient, hlt⟩
    refine ⟨id', other, (changed_erase rfl).mpr ⟨?_, hother⟩, hrenamed, horder, hclient, hlt⟩
    rintro rfl
    obtain rfl := Call.changed.inj (Option.some.inj (hcall.symm.trans hother))
    exact absurd (houtdates name a hlogin hclient.symm) (Nat.not_le.mpr hlt)
  · rcases List.mem_cons.mp hq with rfl | hq
    · refine .inr ⟨?_, houtdates⟩
      have hreached := hchange.reached
      rwa [Reached, ← hquiet.store] at hreached
    · exact .inl hq

theorem moves_dropHandler (hs : Current s) (hcall : s.Changed id change) (hdetached : change.detached = true) :
    Moves s { s with calls := s.calls.erase id } := by
  refine ⟨hs.consistent, ⟨hs.recorded.1, hs.recorded.2⟩, le_refl _, fun row hrow _ => ⟨row, hrow, rfl, le_refl _, .inl rfl⟩,
    fun _ _ h => .inl h, le_refl _, fun name a n _ h => h.mono (le_refl _) fun id' other hother hrenamed => ?_,
    fun id' other h => .inl ((changed_erase rfl).mp h).2, fun q hq => .inl hq⟩
  refine (changed_erase rfl).mpr ⟨?_, hother⟩
  rintro rfl
  obtain rfl := Call.changed.inj (Option.some.inj (hcall.symm.trans hother))
  exact Bool.false_ne_true (((hs.changes _ _ hcall).attached hrenamed).symm.trans hdetached)

end Changes

section Runs

/-- What lets a revocation take effect: a client that has logins is renamed, disabled or deleted under its id as it is
spelled, and replaced at a request that spells it so; an approval is repeated after the approval that it repeats was
answered; and when the termination of a change comes, no handshake that is older than the change waits for its claim, and
no earlier rename of the client has its termination to come. -/
def Careful (s : System) : Action → Prop
  | .mutate id _ => ∀ call internalId row, s.calls.lookup id = some (.found call internalId) → call.terminates = true →
      s.store.queryRow internalId = some row → call.clientId = row.displayId ∨ s.Idle row.serial
  | .review _ requestId approve _ _ =>
      (∀ r internalId row, s.store.queryRequest requestId = some r → r.status = .pending → r.targetId = some internalId →
        s.store.queryRow internalId = some row → approve = true → r.displayId = row.displayId ∨ s.Idle row.serial) ∧
      ∀ q, repeated s.store requestId approve = some q → q ∈ s.returned ∨ s.Idle q.client
  | .terminate id => ∀ change, s.Changed id change →
      (∀ name a, s.Waiting name a → a.client = change.reached.client → change.reached.revision ≤ a.revision) ∧
      ∀ id' earlier, s.Changed id' earlier → earlier.renamed ≠ none → earlier.reached.client = change.reached.client →
        change.order ≤ earlier.order
  | _ => True

theorem moves_manage {op : Op} (hs : Current s) (hop : ordinary op = true) :
    Moves s { s with store := (s.store.perform formats op).2 } := by
  have hrenames : op.renames = none := by
    cases op with
    | renameClient _ _ _ _ => cases hop
    | _ => rfl
  unfold DynamicClientStore.perform
  split
  · next outcome store hattempt =>
    exact moves_of_attempt hs hattempt (fun _ _ h => h) ⟨hs.recorded.1, hs.recorded.2⟩ (le_refl _) (fun _ _ h => h)
      (fun _ _ h => absurd (hrenames.symm.trans h) (Option.some_ne_none _).symm) (fun _ _ h => .inl h) fun q hq => .inl hq
  · exact moves_of_quiet hs (.refl s)

theorem moves_step {action : Action} (hs : Current s) (hcareful : s.Careful action) (h : s.next keys formats action = some t) :
    Moves s t := by
  cases action with
  | hello conn hello version challenge random =>
      obtain ⟨-, heq⟩ := Option.ite_none_left_eq_some.mp h
      obtain rfl := Option.some.inj heq
      exact moves_of_quiet hs (quiet_hello s conn hello version challenge random)
  | authenticate conn version authentication =>
      simp only [System.next] at h
      split at h
      · obtain rfl := Option.some.inj h
        exact moves_authenticate hs
      · cases h
  | claim conn outbound nowUnixMillis =>
      simp only [System.next] at h
      split at h
      · next login hlookup =>
        obtain rfl := Option.some.inj h
        exact moves_of_quiet hs (quiet_claim hs.recorded hlookup outbound nowUnixMillis)
      · cases h
  | abandon conn =>
      obtain rfl := Option.some.inj h
      exact moves_of_quiet hs (quiet_erase s conn)
  | guard label => exact moves_of_quiet hs (quiet_guardStep h)
  | manage op =>
      obtain ⟨hop, heq⟩ := Option.ite_none_right_eq_some.mp h
      obtain rfl := Option.some.inj heq
      exact moves_manage hs hop
  | lookup id call =>
      obtain ⟨hid, heq⟩ := Option.ite_none_left_eq_some.mp h
      obtain rfl := Option.some.inj heq
      exact moves_of_quiet hs (quiet_lookup hid)
  | mutate id clock =>
      simp only [System.next] at h
      split at h
      · next call internalId hcall =>
        exact moves_mutate hs hcall h fun row hterminates hrow => hcareful call internalId row hcall hterminates hrow
      · cases h
  | review id requestId approve clock randomId =>
      obtain ⟨hid, h⟩ := Option.ite_none_left_eq_some.mp h
      exact moves_review formats hs hid h hcareful.1 hcareful.2
  | consume id encoded publicKey requestId now =>
      obtain ⟨hid, h⟩ := Option.ite_none_left_eq_some.mp h
      exact moves_consume hs hid h
  | terminate id =>
      simp only [System.next] at h
      split at h
      · next change hcall =>
        obtain rfl := Option.some.inj h
        obtain ⟨hwaiting, hfirst⟩ := hcareful change hcall
        exact moves_finish hs hcall hwaiting hfirst
      · cases h
  | dropHandler id =>
      simp only [System.next] at h
      split at h
      · next change hcall =>
        obtain ⟨hdetached, heq⟩ := Option.ite_none_right_eq_some.mp h
        obtain rfl := Option.some.inj heq
        exact moves_dropHandler hs hcall hdetached
      · cases h
  | terminateByName name =>
      obtain rfl := Option.some.inj h
      exact moves_of_quiet hs (quiet_terminateByName s name)

theorem current_new {store : DynamicClientStore} (hs : Consistent store) (authenticator : Authenticator) (maxClients : Nat) :
    Current (.new store authenticator maxClients) := by
  have hidle : ∀ name a, ¬(System.new store authenticator maxClients).LoggedIn name a := by
    rintro name a (⟨conn, login, hlookup, -⟩ | ⟨device, runtime, hlookup, -⟩)
    · exact absurd hlookup (by simp [System.new])
    · exact absurd hlookup (by simp [System.new, GuardSystem.new, ClientRegistry.new])
  refine ⟨hs, ⟨fun device runtime h => absurd h ?_, fun _ h => absurd h List.not_mem_nil⟩, fun name a h => absurd h (hidle name a),
    fun id change h => absurd h ?_, fun _ h => absurd h List.not_mem_nil⟩
  · simp [System.new, GuardSystem.new, ClientRegistry.new]
  · simp [Changed, System.new]

/-- No session that was authenticated before a change was answered goes on, but for one whose cancellation is triggered. -/
def Revoked (s : System) : Prop := ∀ q ∈ s.returned, ∀ name a, s.Active name a → a.client = q.client → q.revision ≤ a.revision

/-- In every state that careful steps lead to, revocations have taken effect. -/
theorem revocations_take_effect (keys : KeyFormats) (formats : Formats) (limits : EnrollmentStoreLimits) (before : List Op)
    (authenticator : Authenticator) (maxClients : Nat) (actions : List Action) (t : System)
    (h : Run (Restricted (Step keys formats) Careful)
      (.new ((DynamicClientStore.open limits).performAll formats before) authenticator maxClients) actions t) : t.Revoked := by
  have hstart := (DynamicClientStore.keeps_performAll formats _ before (consistent_open limits)).1
  have hcurrent : Current t := h.invariant (P := Current) (fun s action u hs hstep => hs.moves (moves_step hs hstep.2 hstep.1))
    (current_new hstart authenticator maxClients)
  exact fun q hq name a hactive => (hcurrent.returned q hq).2 name a (.inr hactive)

end Runs

section Sample

def sampleSignature : Bytes := [
  0x61, 0x42, 0x31, 0x8e, 0x57, 0x37, 0xe7, 0x88, 0x48, 0xe6, 0x3e, 0x9a, 0x22, 0xde, 0x56, 0xfc,
  0x47, 0x2a, 0xd5, 0xbe, 0xfc, 0xf4, 0x0c, 0xaa, 0x1e, 0x81, 0x02, 0xad, 0x7a, 0xfb, 0x0f, 0x27,
  0xa0, 0x1c, 0x6b, 0x73, 0x7a, 0x03, 0x3b, 0x1e, 0xcc, 0x3e, 0x43, 0x3f, 0xb5, 0xda, 0x5d, 0xcd,
  0x77, 0x4c, 0x77, 0x29, 0xfb, 0x35, 0x61, 0x5b, 0x33, 0x22, 0x9c, 0x09, 0x00, 0x34, 0xa9, 0x02]

def sampleVersion : ProtocolVersion := ⟨1, 5⟩

/-- The formats, as far as one key and one signature go. -/
def loginKeys : KeyFormats :=
  { DynamicClientStore.sampleKeys with
    verify := fun key message signature => key.bytes.toList = DynamicClientStore.sampleBytes ∧ signature = sampleSignature ∧
      (loginTranscript (List.replicate 32 0) (List.replicate 32 0) sampleVersion "node").map AuthTranscript.encoded = some message }

theorem sampleName_bounded : "node".utf8ByteSize ≤ maxClientNameBytes := by decide

def sampleFingerprint : Bytes := utf8 "21fe31dfa154a261626bf854046fd2271b7bed4b6abe45aa58877ef47f9721b9"

theorem sampleFingerprint_bounded : sampleFingerprint.length ≤ maxFingerprintBytes := by decide +kernel

theorem sampleDevice_bounded : (utf8 sampleDevice).length ≤ maxPublicKeyBytes := by decide +kernel

theorem sampleSignature_bounded : sampleSignature.length ≤ maxSignatureBytes := by decide

/-- The device of a client enrolls and logs in. -/
def sampleLogin : List Action := [
  .manage (.createClientWithToken "node" "a:1" (List.replicate 32 0) (60 * 10 ^ 9) 0 sampleId
    ((List.range 32).map UInt8.ofNat) (List.replicate 16 0)),
  .consume 0 sampleKey sampleDevice "request" 0,
  .hello 0 ⟨⟨"node", sampleName_bounded⟩, ⟨sampleFingerprint, sampleFingerprint_bounded⟩, 30⟩ sampleVersion
    (some (Vector.replicate 32 0)) (some (Vector.replicate 24 0)),
  .authenticate 0 sampleVersion ⟨⟨utf8 sampleDevice, sampleDevice_bounded⟩, ⟨sampleSignature, sampleSignature_bounded⟩⟩,
  .claim 0 (.channel 1024) 0]

/-- The administrator disables the client under an id. -/
def sampleDisable (clientId : String) : List Action := [.lookup 1 ⟨clientId, .state false, 2⟩, .mutate 1 0, .terminate 1]

/-- What suffices for care while nobody else is at work. -/
def attentive (s : System) : Action → Bool
  | .mutate id _ =>
      match s.calls.lookup id with
      | some (.found call internalId) => (s.store.queryRow internalId).all fun row => call.clientId = row.displayId
      | _ => true
  | .review _ _ _ _ _ => false
  | .terminate id => s.handshakes.keys = ∅ ∧ s.calls.keys ⊆ {id}
  | _ => true

theorem careful_of_attentive {action : Action} (h : s.attentive action = true) : s.Careful action := by
  cases action with
  | mutate id clock =>
      intro call internalId row hcall _ hrow
      simp only [attentive, hcall, hrow, Option.all_some, decide_eq_true_eq] at h
      exact .inl h
  | review _ _ _ _ _ => cases h
  | terminate id =>
      obtain ⟨hhandshakes, hcalls⟩ := of_decide_eq_true h
      refine fun change hchange => ⟨fun name a hwaits => ?_, fun id' earlier hearlier _ _ => ?_⟩
      · obtain ⟨conn, login, hlookup, -⟩ := hwaits
        have hmem := Finmap.mem_keys.mpr (Finmap.mem_of_lookup_eq_some hlookup)
        rw [hhandshakes] at hmem
        exact absurd hmem (Finset.notMem_empty conn)
      · obtain rfl := Finset.mem_singleton.mp (hcalls (Finmap.mem_keys.mpr (Finmap.mem_of_lookup_eq_some hearlier)))
        obtain rfl := Call.changed.inj (Option.some.inj (hchange.symm.trans hearlier))
        exact le_refl _
  | _ => trivial

/-- A client that is disabled under its id loses its session. -/
theorem revocations_take_effect_sample : ∃ t, Run (Restricted (Step loginKeys sampleFormats) Careful)
    (.new ((DynamicClientStore.open ⟨4, 4⟩).performAll sampleFormats []) ⟨∅, ∅, 0⟩ 4) (sampleLogin ++ sampleDisable "node") t ∧
      t.returned = [⟨0, 3⟩] ∧ t.Revoked := by
  have hnext : ∀ s action u, restrict (next loginKeys sampleFormats) (fun s action => s.attentive action = true) s action = some u →
      Restricted (Step loginKeys sampleFormats) (fun s action => s.attentive action = true) s action u :=
    restricted_of_restrict fun _ _ _ h => h
  obtain ⟨t, hrun, hreturned⟩ := run_of_exec_any (P := fun t : System => t.returned = [⟨0, 3⟩]) hnext
    (show (exec (restrict (next loginKeys sampleFormats) fun s action => s.attentive action = true)
      (.new ((DynamicClientStore.open ⟨4, 4⟩).performAll sampleFormats []) ⟨∅, ∅, 0⟩ 4)
      (sampleLogin ++ sampleDisable "node")).any _ = true by decide +kernel)
  have himp : ∀ s action u, Restricted (Step loginKeys sampleFormats) (fun s action => s.attentive action = true) s action u →
      Restricted (Step loginKeys sampleFormats) Careful s action u := fun _ _ _ h => ⟨h.1, careful_of_attentive h.2⟩
  have hcareful := hrun.imp himp
  exact ⟨t, hcareful, hreturned, revocations_take_effect loginKeys sampleFormats ⟨4, 4⟩ [] ⟨∅, ∅, 0⟩ 4 _ t hcareful⟩

/-- A session of the client, checked at its second revision, has not been cancelled. -/
def Overlooked (t : System) : Prop :=
  t.returned = [⟨0, 3⟩] ∧ (t.guards.registry.byName.lookup ⟨"node", sampleName_bounded⟩).any (fun runtime =>
    runtime.observabilityIdentity.generation ∉ t.cancelled ∧ (runtime.observabilityIdentity.generation, ⟨0, 2⟩) ∈ t.authorities) = true

instance : DecidablePred Overlooked := fun _ => inferInstanceAs (Decidable (_ ∧ _))

/-- A client that is disabled under another spelling of its id keeps its session. -/
theorem respelled_client_keeps_session : ∃ t, Run (Step loginKeys sampleFormats) (.new (.open ⟨4, 4⟩) ⟨∅, ∅, 0⟩ 4)
    (sampleLogin ++ sampleDisable "NODE") t ∧ ¬t.Revoked := by
  obtain ⟨t, hrun, hreturned, hsession⟩ := run_of_exec_any (P := Overlooked) (fun _ _ _ h => h)
    (show (exec (next loginKeys sampleFormats) (.new (.open ⟨4, 4⟩) ⟨∅, ∅, 0⟩ 4) (sampleLogin ++ sampleDisable "NODE")).any _ = true
      by decide +kernel)
  refine ⟨t, hrun, fun hrevoked => ?_⟩
  obtain ⟨runtime, hruntime, hfields⟩ := (Option.any_eq_true _ _).mp hsession
  obtain ⟨hlive, hauthority⟩ := of_decide_eq_true hfields
  have hold := hrevoked ⟨0, 3⟩ (hreturned ▸ List.mem_singleton_self _) "node" ⟨0, 2⟩ ⟨_, runtime, hruntime, rfl, hlive, hauthority⟩ rfl
  exact absurd hold (by decide)

end Sample


end Rustgo.Revocation.System
