import Rustgo.CoordinatorOwners
import Rustgo.RegistryGuards

namespace Rustgo.Coordinator

open Checks Protocol Registry Rendezvous Tables RendezvousCoordinator CoordinatorState Runs

section Removal

variable {identity : AuthenticatedClient} {state : CoordinatorState} {id : SessionId}

/-- What the removal of a device makes of a record. -/
def removedRecord (identity : AuthenticatedClient) : Option SessionRecord → Option SessionRecord
  | some (.active session) =>
      if Owns identity session then some (.tombstone (.fromSession session)) else some (.active session)
  | record => record

theorem removedRecord_tombstone (tombstone : SessionTombstone) :
    removedRecord identity (some (.tombstone tombstone)) = some (.tombstone tombstone) := rfl

theorem removedRecord_of_no_active (h : state.activeSession id = none) :
    removedRecord identity (state.sessions.lookup id) = state.sessions.lookup id := by
  cases hrecord : state.sessions.lookup id with
  | none => rfl
  | some record =>
      cases record with
      | active session => cases h.symm.trans (activeSession_eq_some.mpr hrecord)
      | tombstone => rfl

theorem removedRecord_of_not_owned {session : StoredSession} (h : state.activeSession id = some session) (howns : ¬Owns identity session) :
    removedRecord identity (state.sessions.lookup id) = state.sessions.lookup id := by
  rw [activeSession_eq_some.mp h, removedRecord, if_neg howns]

theorem removedRecord_of_owned {session : StoredSession} (h : state.activeSession id = some session) (howns : Owns identity session) :
    removedRecord identity (state.sessions.lookup id) = some (.tombstone (.fromSession session)) := by
  rw [activeSession_eq_some.mp h, removedRecord, if_pos howns]

theorem lookup_tombstoneSession {session : StoredSession} {other : SessionId} (h : state.activeSession other = some session) :
    (state.tombstoneSession other).1.sessions.lookup id =
      if id = other then some (.tombstone (.fromSession session)) else state.sessions.lookup id := by
  simp only [tombstoneSession, activeSession_eq_some.mp h]
  by_cases hid : id = other
  · rw [if_pos hid, hid, Finmap.lookup_insert]
  · rw [if_neg hid, Finmap.lookup_insert_of_ne _ hid]

/-- Every session of the device in `order` is entombed, and no other record changes. -/
theorem lookup_removeLoop (order : List SessionId) : (removeLoop identity order state).2.sessions.lookup id =
    if id ∈ order then removedRecord identity (state.sessions.lookup id) else state.sessions.lookup id := by
  induction order generalizing state with
  | nil => rfl
  | cons other order ih =>
      -- The head of the order counts only where its record changes.
      have hskip (hsame : removedRecord identity (state.sessions.lookup other) = state.sessions.lookup other) :
          (if id ∈ order then removedRecord identity (state.sessions.lookup id) else state.sessions.lookup id) =
            if id ∈ other :: order then removedRecord identity (state.sessions.lookup id) else state.sessions.lookup id := by
        by_cases hid : id = other
        · rw [hid, hsame, ite_self, ite_self]
        · simp only [List.mem_cons, hid, false_or]
      rw [removeLoop]
      split
      · next hnone =>
        rw [ih]
        exact hskip (removedRecord_of_no_active hnone)
      · next session hactive =>
        split
        · next howns =>
          dsimp only
          rw [ih, lookup_tombstoneSession hactive]
          by_cases hid : id = other
          · rw [if_pos hid, hid, if_pos List.mem_cons_self, removedRecord_of_owned hactive howns, removedRecord_tombstone, ite_self]
          · simp only [hid, if_false, List.mem_cons, false_or]
        · next howns =>
          rw [ih]
          exact hskip (removedRecord_of_not_owned hactive howns)

/-- The sessions that are removed were active, and the device was one of their owners. -/
theorem mem_removeLoop {order : List SessionId} {p : SessionId × StoredSession} (h : p ∈ (removeLoop identity order state).1) :
    state.activeSession p.1 = some p.2 ∧ Owns identity p.2 := by
  induction order generalizing state with
  | nil => cases h
  | cons other order ih =>
      rw [removeLoop] at h
      split at h
      · exact ih h
      · next session hactive =>
        split at h
        · next howns =>
          rcases List.mem_cons.mp h with rfl | hrest
          · exact ⟨hactive, howns⟩
          · obtain ⟨hp, howns'⟩ := ih hrest
            exact ⟨(active_tombstone hp).2, howns'⟩
        · exact ih h

theorem removeLoop_sublist (order : List SessionId) : ((removeLoop identity order state).1.map Prod.fst).Sublist order := by
  induction order generalizing state with
  | nil => exact List.Sublist.slnil
  | cons other order ih =>
      rw [removeLoop]
      split
      · exact ih.cons other
      · split
        · exact ih.cons_cons other
        · exact ih.cons other

/-- A session that is still active after a removal was active before, and the device does not own it. -/
theorem active_removeLoop {order : List SessionId} (horder : ∀ id, id ∈ order ↔ id ∈ state.sessions) {session : StoredSession}
    (h : (removeLoop identity order state).2.activeSession id = some session) :
    state.activeSession id = some session ∧ ¬Owns identity session := by
  rw [activeSession_eq_some, lookup_removeLoop] at h
  split at h
  · cases hactive : state.activeSession id with
    | none =>
        rw [removedRecord_of_no_active hactive] at h
        cases hactive.symm.trans (activeSession_eq_some.mpr h)
    | some old =>
        by_cases howns : Owns identity old
        · rw [removedRecord_of_owned hactive howns] at h
          cases h
        · rw [removedRecord_of_not_owned hactive howns] at h
          obtain rfl := Option.some.inj (hactive.symm.trans (activeSession_eq_some.mpr h))
          exact ⟨rfl, howns⟩
  · next hout =>
    exact absurd ((horder id).mpr (Finmap.mem_of_lookup_eq_some h)) hout

end Removal

namespace Departures

variable {c : RendezvousCoordinator} {s t : Departures} {l : DepartureLabel} {identity other : AuthenticatedClient}
  {task task' : ControlTask} {stage : Stage} {registry registry' : ClientRegistry}
  {tasks tasks' : AuthenticatedClient → Option ControlTask}

/-- The control sessions are in the registry for themselves, and a device that
leaves is no longer shown. -/
structure Shielded (registry : ClientRegistry) (tasks : AuthenticatedClient → Option ControlTask) : Prop where
  consistent : registry.Consistent
  named : ∀ {identity task}, tasks identity = some task → task.guard.identity = identity
  observed : ∀ {identity task runtime}, tasks identity = some task → registry.byName.lookup identity.name = some runtime →
    runtime.identity = identity → runtime.observabilityIdentity = task.guard.observabilityIdentity
  leaving : ∀ {identity task runtime}, tasks identity = some task → task.stage.Leaving →
    registry.byName.lookup identity.name = some runtime → runtime.identity = identity → runtime.available = false

theorem update_cases (h : Function.update tasks task.guard.identity (some { task with stage }) identity = some task') :
    (identity = task.guard.identity ∧ task' = { task with stage }) ∨ (identity ≠ task.guard.identity ∧ tasks identity = some task') := by
  by_cases heq : identity = task.guard.identity
  · rw [heq, Function.update_self] at h
    exact .inl ⟨heq, (Option.some.inj h).symm⟩
  · rw [Function.update_of_ne heq] at h
    exact .inr ⟨heq, h⟩

/-- The runtime that a guard marks is no longer shown. -/
theorem marked_before {guard : ControlSessionGuard} {name : DeviceName} {runtime' : SessionRuntime}
    (h : (registry.markUnavailable guard).byName.lookup name = some runtime') : ∃ runtime, registry.byName.lookup name = some runtime ∧
      runtime'.identity = runtime.identity ∧ runtime'.observabilityIdentity = runtime.observabilityIdentity ∧
      (name = guard.identity.name → runtime.observabilityIdentity = guard.observabilityIdentity → runtime'.available = false) ∧
      (runtime.available = false → runtime'.available = false) := by
  rw [ClientRegistry.markUnavailable, ClientRegistry.mapRuntime] at h
  split at h
  · next hnone =>
    refine ⟨runtime', h, rfl, rfl, fun hname => ?_, id⟩
    rw [hname, hnone] at h
    cases h
  · next runtime hruntime =>
    by_cases hname : name = guard.identity.name
    · rw [hname, Finmap.lookup_insert, Option.some.injEq] at h
      rw [← h, hname]
      refine ⟨runtime, hruntime, ?_⟩
      split
      · exact ⟨rfl, rfl, fun _ _ => rfl, fun _ => rfl⟩
      · next hother => exact ⟨rfl, rfl, fun _ hsame => absurd hsame hother, id⟩
    · rw [Finmap.lookup_insert_of_ne _ hname] at h
      exact ⟨runtime', h, rfl, rfl, fun hsame => absurd hsame hname, id⟩

namespace Shielded

theorem self (h : Shielded registry tasks) (htask : tasks identity = some task) : tasks task.guard.identity = some task := by
  rw [h.named htask]
  exact htask

theorem sameRuntimes (h : Shielded registry tasks) (hr : SameRuntimes registry registry') : Shielded registry' tasks where
  consistent := hr.consistent h.consistent
  named := h.named
  observed htask hruntime hidentity := by
    obtain ⟨runtime, hold, hidentity', hobserved, _⟩ := hr.before hruntime
    rw [hobserved]
    exact h.observed htask hold (hidentity' ▸ hidentity)
  leaving htask hleaving hruntime hidentity := by
    obtain ⟨runtime, hold, hidentity', _, havailable⟩ := hr.before hruntime
    rw [havailable]
    exact h.leaving htask hleaving hold (hidentity' ▸ hidentity)

/-- The task goes on, and leaves only if it was leaving. -/
theorem setStage (h : Shielded registry tasks) (htask : tasks identity = some task) (hleaving : stage.Leaving → task.stage.Leaving) :
    Shielded registry (Function.update tasks task.guard.identity (some { task with stage })) where
  consistent := h.consistent
  named hother := by
    rcases update_cases hother with ⟨rfl, rfl⟩ | ⟨_, hold⟩
    · rfl
    · exact h.named hold
  observed hother hruntime hidentity := by
    rcases update_cases hother with ⟨rfl, rfl⟩ | ⟨_, hold⟩
    · have hobserved := h.observed (h.self htask) hruntime hidentity
      exact hobserved
    · exact h.observed hold hruntime hidentity
  leaving hother hleaves hruntime hidentity := by
    rcases update_cases hother with ⟨rfl, rfl⟩ | ⟨_, hold⟩
    · exact h.leaving (h.self htask) (hleaving hleaves) hruntime hidentity
    · exact h.leaving hold hleaves hruntime hidentity

theorem markUnavailable (h : Shielded registry tasks) (htask : tasks identity = some task) :
    Shielded (registry.markUnavailable task.guard) (Function.update tasks task.guard.identity (some { task with stage })) where
  consistent := h.consistent.markUnavailable task.guard
  named hother := by
    rcases update_cases hother with ⟨rfl, rfl⟩ | ⟨_, hold⟩
    · rfl
    · exact h.named hold
  observed hother hruntime hidentity := by
    obtain ⟨runtime, hold, hidentity', hobserved, _⟩ := marked_before hruntime
    rw [hobserved]
    rcases update_cases hother with ⟨rfl, rfl⟩ | ⟨_, hother⟩
    · have hself := h.observed (h.self htask) hold (hidentity' ▸ hidentity)
      exact hself
    · exact h.observed hother hold (hidentity' ▸ hidentity)
  leaving hother hleaves hruntime hidentity := by
    obtain ⟨runtime, hold, hidentity', hobserved, havailable⟩ := marked_before hruntime
    rcases update_cases hother with ⟨rfl, rfl⟩ | ⟨_, hother⟩
    · exact havailable.1 rfl (h.observed (h.self htask) hold (hidentity' ▸ hidentity))
    · exact havailable.2 (h.leaving hother hleaves hold (hidentity' ▸ hidentity))

theorem release (h : Shielded registry tasks) (nowUnixMillis : UInt64) :
    Shielded (registry.finalizeDisconnect task.guard nowUnixMillis) tasks := by
  refine h.sameRuntimes ⟨fun hc => hc.finalizeDisconnect task.guard nowUnixMillis, fun {name runtime'} hruntime => ?_⟩
  rw [ClientRegistry.finalizeDisconnect, ClientRegistry.release] at hruntime
  split at hruntime
  · by_cases hname : name = task.guard.identity.name
    · rw [hname] at hruntime
      cases (Finmap.lookup_erase (a := task.guard.identity.name) (s := registry.byName)).symm.trans hruntime
    · exact ⟨runtime', (Finmap.lookup_erase_ne hname).symm.trans hruntime, rfl, rfl, rfl⟩
  · exact ⟨runtime', hruntime, rfl, rfl, rfl⟩

theorem claim (h : Shielded registry tasks) {guard : ControlSessionGuard} {outbound : Outbound} {version : ProtocolVersion}
    {nowUnixMillis : UInt64} (hfree : tasks identity = none)
    (hclaim : registry.claimWithOutbound identity outbound version nowUnixMillis = .ok (guard, registry')) :
    Shielded registry' (Function.update tasks identity (some ⟨guard, .idle⟩)) := by
  obtain ⟨_, _, rfl, _, _, _, _, claimed, hbyName, hclaimed, hobserved⟩ := GuardSystem.claimWithOutbound_eq_ok hclaim
  -- A runtime for another control session was there before.
  have hold {other : AuthenticatedClient} {runtime : SessionRuntime} (hne : other ≠ guard.identity)
      (hruntime : registry'.byName.lookup other.name = some runtime) (hidentity : runtime.identity = other) :
      registry.byName.lookup other.name = some runtime := by
    rw [hbyName] at hruntime
    by_cases hname : other.name = guard.identity.name
    · rw [hname, Finmap.lookup_insert, Option.some.injEq] at hruntime
      exact absurd (hidentity.symm.trans (hruntime ▸ hclaimed)) hne
    · rw [Finmap.lookup_insert_of_ne _ hname] at hruntime
      exact hruntime
  have hcases {other : AuthenticatedClient} {task : ControlTask}
      (hother : Function.update tasks guard.identity (some ⟨guard, .idle⟩) other = some task) :
      (other = guard.identity ∧ task = ⟨guard, .idle⟩) ∨ (other ≠ guard.identity ∧ tasks other = some task) := by
    by_cases heq : other = guard.identity
    · rw [heq, Function.update_self] at hother
      exact .inl ⟨heq, (Option.some.inj hother).symm⟩
    · rw [Function.update_of_ne heq] at hother
      exact .inr ⟨heq, hother⟩
  constructor
  case consistent => exact h.consistent.claimWithOutbound hclaim
  case named =>
    intro other task hother
    rcases hcases hother with ⟨rfl, rfl⟩ | ⟨_, hother⟩
    · rfl
    · exact h.named hother
  case observed =>
    intro other task runtime hother hruntime hidentity
    rcases hcases hother with ⟨rfl, rfl⟩ | ⟨hne, hother⟩
    · rw [hbyName, Finmap.lookup_insert, Option.some.injEq] at hruntime
      rw [← hruntime]
      exact hobserved
    · exact h.observed hother (hold hne hruntime hidentity) hidentity
  case leaving =>
    intro other task runtime hother hleaving hruntime hidentity
    rcases hcases hother with ⟨rfl, rfl⟩ | ⟨hne, hother⟩
    · exact absurd hleaving id
    · exact h.leaving hother hleaving (hold hne hruntime hidentity) hidentity

/-- A device that is shown as available is not leaving. -/
theorem not_leaving (h : Shielded registry tasks) (htask : tasks identity = some task) {owner : SessionOwner}
    (hroutable : Routable registry owner) (howner : owner.identity = identity) : ¬task.stage.Leaving := by
  intro hleaving
  obtain ⟨runtime, hruntime, havailable, hidentity, _⟩ := hroutable
  have hname : owner.name = identity.name := by rw [← howner]; rfl
  rw [hname] at hruntime
  cases (h.leaving htask hleaving hruntime (hidentity.trans howner)).symm.trans havailable

end Shielded

/-- The sessions of the device have been removed. -/
def Departed (s : Departures) (identity : AuthenticatedClient) : Prop := ∃ task, s.tasks identity = some task ∧ task.stage.Gone

/-- What holds of a task at its stage. -/
def Fit (s : Departures) (task : ControlTask) : Prop :=
  match task.stage with
  | .checked envelope _ => (∃ request, envelope.payload = .request request) ∧ envelope.target ≠ task.guard.identity.name
  | .found envelope candidate => (∃ request, envelope.payload = .request request) ∧ candidate.consumer = .fromControl task.guard ∧
      candidate.provider.name ≠ task.guard.identity.name
  | .admitted envelope plan => (∃ request, envelope.payload = .request request) ∧ s.holder = some task.guard.identity ∧ plan.consumer = .fromControl task.guard ∧
      plan.provider.name ≠ task.guard.identity.name ∧ ¬s.Departed plan.provider.identity
  | .removing | .removed | .released => ∀ id session, s.server.state.activeSession id = some session → ¬Owns task.guard.identity session
  | .idle | .opened _ | .unavailable => True

/-- No active session is left of a device that has departed. -/
structure Vacated (s : Departures) : Prop where
  fit : ∀ {identity task}, s.tasks identity = some task → Fit s task
  apart : ∀ {id session}, s.server.state.activeSession id = some session → session.consumer.name ≠ session.provider.name

/-- Every session that is active now was so before for the same owners, or belongs
to no device that has departed. -/
def Renews (s t : Departures) : Prop := ∀ id session', t.server.state.activeSession id = some session' →
  (∃ session, s.server.state.activeSession id = some session ∧ SameOwners session session') ∨
    session'.consumer.name ≠ session'.provider.name ∧ ∀ identity, s.Departed identity → ¬Owns identity session'

theorem Renews.of_state (h : t.server.state = s.server.state) : Renews s t := by
  intro id session' hactive
  rw [h] at hactive
  exact .inl ⟨session', hactive, rfl, rfl⟩

namespace Vacated

theorem gone (h : Vacated s) (hself : s.tasks task.guard.identity = some task) (hgone : task.stage.Gone) {id : SessionId}
    {session : StoredSession} (hactive : s.server.state.activeSession id = some session) : ¬Owns task.guard.identity session := by
  have hfit := h.fit hself
  rw [Fit] at hfit
  cases hstage : task.stage with
  | idle | checked | found | admitted | opened | unavailable =>
      rw [hstage] at hgone
      exact absurd hgone (fun h => h)
  | removing | removed | released =>
      rw [hstage] at hfit
      exact hfit id session hactive

/-- A task that does not move keeps its place while others do. -/
theorem fit_mono (h : Vacated s) (hself : s.tasks task.guard.identity = some task) (hrenews : Renews s t)
    (hholder : s.holder = some task.guard.identity → t.holder = s.holder)
    (hdeparted : s.holder = some task.guard.identity → ∀ identity, t.Departed identity → s.Departed identity) : Fit t task := by
  have hfit := h.fit hself
  have hgone (hstage : task.stage.Gone) : ∀ id session, t.server.state.activeSession id = some session → ¬Owns task.guard.identity session := by
    intro id session hactive
    rcases hrenews _ _ hactive with ⟨old, hold, hsame⟩ | ⟨_, hnone⟩
    · rw [hsame.owns_iff]
      exact h.gone hself hstage hold
    · exact hnone _ ⟨task, hself, hstage⟩
  rw [Fit] at hfit ⊢
  cases hstage : task.stage with
  | idle | opened | unavailable => trivial
  | checked | found =>
      rw [hstage] at hfit
      exact hfit
  | admitted envelope plan =>
      rw [hstage] at hfit
      obtain ⟨hpayload, hheld, hconsumer, hname, hprovider⟩ := hfit
      exact ⟨hpayload, (hholder hheld).trans hheld, hconsumer, hname, fun hd => hprovider (hdeparted hheld _ hd)⟩
  | removing | removed | released =>
      rw [hstage] at hgone
      exact hgone trivial

theorem apart_mono (h : Vacated s) (hrenews : Renews s t) {id : SessionId} {session : StoredSession}
    (hactive : t.server.state.activeSession id = some session) : session.consumer.name ≠ session.provider.name := by
  rcases hrenews _ _ hactive with ⟨old, hold, hconsumer, hprovider⟩ | ⟨hapart, _⟩
  · rw [hconsumer, hprovider]
    exact h.apart hold
  · exact hapart

/-- No task moves. -/
theorem stays (h : Vacated s) (hn : ∀ {identity task}, s.tasks identity = some task → task.guard.identity = identity)
    (htasks : t.tasks = s.tasks) (hrenews : Renews s t) (hholder : t.holder = s.holder) : Vacated t where
  fit hother := by
    rw [htasks] at hother
    refine h.fit_mono (by rw [hn hother]; exact hother) hrenews (fun _ => hholder) fun _ identity hd => ?_
    rw [Departed, htasks] at hd
    exact hd
  apart := h.apart_mono hrenews

/-- One task moves, and is fit for its new stage. -/
theorem moves (h : Vacated s) (stage : Stage) (hn : ∀ {identity task}, s.tasks identity = some task → task.guard.identity = identity)
    (hself : s.tasks task.guard.identity = some task)
    (htasks : t.tasks = Function.update s.tasks task.guard.identity (some { task with stage })) (hrenews : Renews s t)
    (hholder : ∀ other, other ≠ task.guard.identity → s.holder = some other → t.holder = s.holder)
    (hstage : stage.Gone → task.stage.Gone ∨ s.holder = none) (hfit : Fit t { task with stage }) : Vacated t where
  fit := by
    intro other task' hother
    rw [htasks] at hother
    rcases update_cases hother with ⟨rfl, rfl⟩ | ⟨hne, hother⟩
    · exact hfit
    · have hname := hn hother
      refine h.fit_mono (by rw [hname]; exact hother) hrenews (fun hheld => hholder other hne (hname ▸ hheld)) fun hheld identity hd => ?_
      obtain ⟨gone, hgone, hstaged⟩ := hd
      rw [htasks] at hgone
      rcases update_cases hgone with ⟨rfl, rfl⟩ | ⟨_, hgone⟩
      · rcases hstage hstaged with hbefore | hfree
        · exact ⟨task, hself, hbefore⟩
        · cases hfree.symm.trans hheld
      · exact ⟨gone, hgone, hstaged⟩
  apart := h.apart_mono hrenews

/-- A new control session begins with nothing to do. -/
theorem joins (h : Vacated s) (hn : ∀ {identity task}, s.tasks identity = some task → task.guard.identity = identity)
    {guard : ControlSessionGuard} (htasks : t.tasks = Function.update s.tasks guard.identity (some ⟨guard, .idle⟩))
    (hrenews : Renews s t) (hholder : t.holder = s.holder) : Vacated t where
  fit := by
    intro other task' hother
    rw [htasks] at hother
    rcases update_cases (show Function.update s.tasks (ControlTask.mk guard .idle).guard.identity _ other = _ from hother) with ⟨rfl, rfl⟩ | ⟨_, hother⟩
    · trivial
    · refine h.fit_mono (by rw [hn hother]; exact hother) hrenews (fun _ => hholder) fun _ identity hd => ?_
      obtain ⟨gone, hgone, hstage⟩ := hd
      rw [htasks] at hgone
      rcases update_cases (show Function.update s.tasks (ControlTask.mk guard .idle).guard.identity _ identity = _ from hgone) with ⟨_, rfl⟩ | ⟨_, hgone⟩
      · exact absurd hstage id
      · exact ⟨gone, hgone, hstage⟩
  apart := h.apart_mono hrenews

end Vacated

def keys (s : Departures) : List (SessionId × Nat) := s.pending.map RemovedSession.key ++ s.notices.map fun notice => notice.about.key

/-- No session is removed twice, and its survivor is told at most once. -/
structure Notified (s : Departures) : Prop where
  once : s.keys.Nodup
  spent : ∀ key ∈ s.keys, key.2 ≤ s.server.incarnation key.1 ∧
    ∀ session, s.server.state.activeSession key.1 = some session → key.2 < s.server.incarnation key.1
  pending : ∀ removed ∈ s.pending, Owns removed.disconnected removed.session ∧ removed.session.consumer.name ≠ removed.session.provider.name
  notices : ∀ notice ∈ s.notices, Owns notice.about.disconnected notice.about.session ∧
    notice.about.session.consumer.name ≠ notice.about.session.provider.name ∧
    notice.recipient = survivor notice.about.session notice.about.disconnected

namespace Notified

/-- Sessions come and go, and none is removed on behalf of a device. -/
theorem later (h : Notified s) (hpending : t.pending = s.pending) (hnotices : t.notices = s.notices)
    (hle : ∀ id, s.server.incarnation id ≤ t.server.incarnation id)
    (hactive : ∀ {id session}, t.server.state.activeSession id = some session → t.server.incarnation id = s.server.incarnation id →
      ∃ session, s.server.state.activeSession id = some session) : Notified t := by
  have hkeys : t.keys = s.keys := by rw [keys, keys, hpending, hnotices]
  refine ⟨hkeys ▸ h.once, ?_, hpending ▸ h.pending, hnotices ▸ h.notices⟩
  rw [hkeys]
  intro key hkey
  obtain ⟨hbound, hspent⟩ := h.spent key hkey
  refine ⟨hbound.trans (hle key.1), fun session hsession => ?_⟩
  by_cases hsame : t.server.incarnation key.1 = s.server.incarnation key.1
  · obtain ⟨old, hold⟩ := hactive hsession hsame
    rw [hsame]
    exact hspent old hold
  · have hle := hle key.1
    omega

theorem mem_noticeFor {r : ClientRegistry} {removed : RemovedSession} {notice : DisconnectNotice} (h : notice ∈ noticeFor r removed) :
    notice = ⟨removed, survivor removed.session removed.disconnected⟩ := by
  rw [noticeFor] at h
  split at h
  · exact List.mem_singleton.mp h
  · cases h

theorem noticeFor_sublist (r : ClientRegistry) (removed : RemovedSession) :
    (noticeFor r removed).Sublist [⟨removed, survivor removed.session removed.disconnected⟩] := by
  rw [noticeFor]
  split
  · exact List.Sublist.refl _
  · exact List.nil_sublist _

/-- A pending session is taken up, and its survivor may be told. -/
theorem notify (h : Notified s) {i : Nat} {removed : RemovedSession} (hremoved : s.pending[i]? = some removed) {r : ClientRegistry}
    (hpending : t.pending = s.pending.eraseIdx i) (hnotices : t.notices = s.notices ++ noticeFor r removed)
    (hstate : t.server.state = s.server.state) (hincarnation : ∀ id, t.server.incarnation id = s.server.incarnation id) : Notified t := by
  obtain ⟨hlt, rfl⟩ := List.getElem?_eq_some_iff.mp hremoved
  have hperm : (s.pending[i].key :: (s.pending.eraseIdx i).map RemovedSession.key).Perm (s.pending.map RemovedSession.key) :=
    (List.getElem_cons_eraseIdx_perm hlt).map RemovedSession.key
  -- The key of the session goes from the pending ones to the notices, or is forgotten.
  have hmoved : ((s.pending.eraseIdx i).map RemovedSession.key ++
      (s.notices.map (fun notice => notice.about.key) ++ [s.pending[i].key])).Perm s.keys := by
    rw [keys, ← List.append_assoc]
    refine List.perm_append_singleton _ _ |>.trans ?_
    rw [← List.cons_append]
    exact hperm.append_right _
  have hsub : t.keys.Sublist ((s.pending.eraseIdx i).map RemovedSession.key ++
      (s.notices.map (fun notice => notice.about.key) ++ [s.pending[i].key])) := by
    rw [keys, hpending, hnotices, List.map_append]
    refine (List.Sublist.refl _).append ((List.Sublist.refl _).append ?_)
    exact (noticeFor_sublist r s.pending[i]).map fun notice => notice.about.key
  refine ⟨hsub.nodup (hmoved.nodup_iff.mpr h.once), ?_, ?_, ?_⟩
  · intro key hkey
    rw [hstate, hincarnation]
    exact h.spent key (hmoved.subset (hsub.subset hkey))
  · rw [hpending]
    exact fun removed hmem => h.pending removed (List.mem_of_mem_eraseIdx hmem)
  · rw [hnotices]
    intro notice hmem
    rcases List.mem_append.mp hmem with hold | hnew
    · exact h.notices notice hold
    · obtain rfl := mem_noticeFor hnew
      obtain ⟨howns, hapart⟩ := h.pending _ (List.getElem_mem hlt)
      exact ⟨howns, hapart, rfl⟩

/-- Sessions that were active are removed on behalf of a device. -/
theorem remove (h : Notified s) (identity : AuthenticatedClient) {order : List SessionId} (hnodup : order.Nodup)
    (hapart : ∀ {id session}, s.server.state.activeSession id = some session → session.consumer.name ≠ session.provider.name)
    (hpending : t.pending = s.pending ++ (removeLoop identity order s.server.state).1.map fun p =>
      ⟨p.1, s.server.incarnation p.1, p.2, identity⟩)
    (hnotices : t.notices = s.notices) (hsessions : t.server.state = (removeLoop identity order s.server.state).2)
    (horder : ∀ id, id ∈ order ↔ id ∈ s.server.state.sessions)
    (hincarnation : ∀ id, t.server.incarnation id = s.server.incarnation id) : Notified t := by
  generalize hremoved : (removeLoop identity order s.server.state).1 = removed at hpending
  have hmem {p : SessionId × StoredSession} (hp : p ∈ removed) := mem_removeLoop (hremoved ▸ hp)
  have hperm : t.keys.Perm (removed.map (fun p => (p.1, s.server.incarnation p.1)) ++ s.keys) := by
    rw [keys, keys, hpending, hnotices, List.map_append, List.map_map, ← List.append_assoc]
    exact List.perm_append_comm.append_right _
  have hnew : (removed.map fun p => (p.1, s.server.incarnation p.1)).Nodup := by
    have hids : (removed.map Prod.fst).Nodup := hremoved ▸ (removeLoop_sublist order).nodup hnodup
    refine List.Nodup.of_map Prod.fst ?_
    rw [List.map_map]
    exact hids
  refine ⟨?_, ?_, ?_, hnotices ▸ h.notices⟩
  · rw [hperm.nodup_iff]
    refine List.nodup_append.mpr ⟨hnew, h.once, ?_⟩
    rintro _ hkey key hold rfl
    obtain ⟨p, hp, rfl⟩ := List.mem_map.mp hkey
    exact absurd ((h.spent _ hold).2 p.2 (hmem hp).1) (Nat.lt_irrefl _)
  · intro key hkey
    rw [hsessions, hincarnation]
    rcases List.mem_append.mp (hperm.subset hkey) with hnew | hold
    · obtain ⟨p, hp, rfl⟩ := List.mem_map.mp hnew
      refine ⟨Nat.le_refl _, fun session hactive => ?_⟩
      obtain ⟨hbefore, hother⟩ := active_removeLoop horder hactive
      obtain rfl := Option.some.inj ((hmem hp).1.symm.trans hbefore)
      exact absurd (hmem hp).2 hother
    · obtain ⟨hbound, hspent⟩ := h.spent key hold
      exact ⟨hbound, fun session hactive => hspent session (active_removeLoop horder hactive).1⟩
  · rw [hpending]
    intro entry hentry
    rcases List.mem_append.mp hentry with hold | hnew
    · exact h.pending entry hold
    · obtain ⟨p, hp, rfl⟩ := List.mem_map.mp hnew
      exact ⟨(hmem hp).2, hapart (hmem hp).1⟩

end Notified

end Departures

end Rustgo.Coordinator
