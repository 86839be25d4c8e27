import Rustgo.PathTokens

namespace Rustgo.Path

open Tables Runs

/-- How far a task has come with the path it looks for. -/
inductive Stage
  | idle
  | attempting
  | retreating
  | leaving
  | committed
  | over
  deriving DecidableEq

def Phase.stage : Phase → Stage
  | .sleeping | .beginning => .idle
  | .releasing _ .race | .starting | .racing _ | .won _ | .committing _ | .building | .retrying => .attempting
  | .cleaning _ (.error .cancelled) | .draining (.error .cancelled) => .retreating
  | .cleaning _ _ | .draining _ => .attempting
  | .shedding _ _ | .shed _ | .abandoning _ => .retreating
  | .closing _ => .leaving
  | .displacing _ _ | .displaced _ | .rechecking _ | .stopping _ _ | .finishing _ => .committed
  | .releasing _ (.wait _) | .cancelling _ _ | .waiting _ | .dropping | .done _ | .dropped => .over

/-- The answers of a recheck factory after which its recheck goes on. -/
def Choice.resumes : Choice → Bool
  | .created (.ok attempts) => !attempts.isEmpty
  | .created (.error error) => error ≠ .cancelled
  | _ => true

/-- The recheck that a reported failure waits for before its race. -/
def Phase.releases : Phase → Option OwnedRecheck
  | .releasing resources .race => resources.recheck
  | _ => none

/-- The manager is closed and its lifetime not cancelled yet. -/
def Phase.cancels : Phase → Bool
  | .cancelling _ _ => true
  | _ => false

/-- The origin without its generation, which stays as it is all through a task. -/
def Origin.bare : Origin → Origin
  | .background id cancellation _ => .background id cancellation 0
  | origin => origin

/-- The phases of a connect or a report of a failure. -/
def Phase.ofOperation : Phase → Bool
  | .sleeping | .beginning | .building | .retrying | .dropping | .dropped => false
  | _ => true

def Phase.ofRecheck : Phase → Bool
  | .sleeping | .beginning | .building | .retrying | .starting | .racing _ | .cleaning _ _ | .draining _ | .won _
  | .committing _ | .shedding _ _ | .shed _ | .displacing _ _ | .displaced _ | .done _ => true
  | _ => false

def Phase.ofClose : Phase → Bool
  | .closing _ | .cancelling _ _ | .releasing _ (.wait _) | .waiting _ | .done _ => true
  | _ => false

/-- Whoever may be in the one phase may be in the other. -/
def Phase.leads (phase next : Phase) : Bool :=
  (!phase.ofOperation || next.ofOperation) && (!phase.ofRecheck || next.ofRecheck) && (!phase.ofClose || next.ofClose)

namespace Task

def fits (task : Task) : Bool :=
  match task.origin with
  | .connect | .reportFailed => task.phase.ofOperation
  | .background _ _ _ => task.phase.ofRecheck
  | .close => task.phase.ofClose
  | .drop => false

/-- The operations in the record's count that the task stands for. -/
def guards (task : Task) : Nat :=
  match task.origin, task.phase.stage with
  | .connect, .attempting | .connect, .retreating | .connect, .committed => 1
  | .reportFailed, .attempting | .reportFailed, .retreating | .reportFailed, .committed => 1
  | _, _ => 0

/-- A reported failure that has neither a new path nor closed the manager. -/
def fails (task : Task) : Bool :=
  match task.origin, task.phase.stage with
  | .reportFailed, .attempting | .reportFailed, .retreating | .reportFailed, .leaving => true
  | _, _ => false

/-- A recheck that has begun and not given up. -/
def busy (task : Task) : Bool := task.isBackground && decide (task.phase.stage = .attempting)

/-- A reported failure that waits for the end of this recheck. -/
def Releases (task : Task) (recheck : OwnedRecheck) : Prop :=
  task.origin = .reportFailed ∧ task.phase.releases = some recheck

end Task

theorem Task.Releases.fails {task : Task} {recheck : OwnedRecheck} (h : task.Releases recheck) : task.fails = true := by
  obtain ⟨horigin, hreleases⟩ := h
  rw [Task.fails, horigin]
  cases hphase : task.phase with
  | releasing resources after =>
      cases after with
      | race => rfl
      | wait => cases hphase ▸ hreleases
  | _ => cases hphase ▸ hreleases

namespace System

variable {s t u : System} {id : TaskId} {before : Option Task} {task after : Task}

/-- The task is the installed recheck. -/
def Installed (s : System) (id : TaskId) : Prop := ∃ recheck, s.record.recheck = some recheck ∧ recheck.handle = id

def Releasing (s : System) (id : TaskId) : Prop :=
  ∃ other held recheck, s.tasks.lookup other = some held ∧ held.Releases recheck ∧ recheck.handle = id

/-- What an interleaving of the manager's methods keeps while no caller is cancelled. -/
structure Orderly (s : System) : Prop where
  callers : s.callers = []
  lifetime : s.lifetime = true → s.record.state = .closed
  fits : ∀ id task, s.tasks.lookup id = some task → task.fits = true
  cancelling : ∀ id task, s.tasks.lookup id = some task → task.phase.cancels = true → s.record.state = .closed
  guards : total (fun _ task => task.guards) s.tasks ≤ s.record.activeOperations
  installed : ∀ recheck, s.record.recheck = some recheck → ∃ task, s.tasks.lookup recheck.handle = some task ∧
    task.origin.bare = .background recheck.id recheck.cancellation 0
  fails : ∀ id task, s.tasks.lookup id = some task → task.fails = true →
    s.record.state = .closed ∨ s.record.state = .rechecking ∧ s.record.recheck = none
  alone : s.record.state ≠ .closed → ∀ id task other held, s.tasks.lookup id = some task → task.fails = true →
    s.tasks.lookup other = some held → held.fails = true → other = id
  running : ∀ id task, s.tasks.lookup id = some task → task.isBackground = true → task.phase.isFinished = false →
    s.record.state = .closed ∨ s.Installed id ∨ s.Releasing id
  attended : s.record.state = .rechecking → (∃ id task, s.tasks.lookup id = some task ∧ task.fails = true) ∨
    ∃ id task, s.Installed id ∧ s.tasks.lookup id = some task ∧ task.busy = true

/-- The state under a task that is put at `id` in place of `before`. -/
structure Puts (s u : System) (id : TaskId) (before : Option Task) (after : Task) : Prop where
  lookup : s.tasks.lookup id = before
  tasks : u.tasks = s.tasks
  callers : u.callers = s.callers
  closed : s.record.state = .closed → u.record.state = .closed
  lifetime : u.lifetime = true → s.lifetime = true ∨ u.record.state = .closed
  fits : after.fits = true
  cancelling : after.phase.cancels = true → u.record.state = .closed
  guards : after.guards + s.record.activeOperations ≤ before.elim 0 Task.guards + u.record.activeOperations
  bare : ∀ task, before = some task → after.origin.bare = task.origin.bare ∧ task.phase.isFinished = false
  release : ∀ task recheck, before = some task → task.Releases recheck →
    after.Releases recheck ∨ s.isFinished recheck.handle = true
  recheck : ∀ recheck, s.record.recheck = some recheck → u.record.recheck = some recheck ∨
    s.isFinished recheck.handle = true ∨ u.record.state = .closed ∨ after.Releases recheck
  installed : ∀ recheck, u.record.recheck = some recheck → s.record.recheck = some recheck ∨
    before = none ∧ recheck.handle = id ∧ after.origin.bare = .background recheck.id recheck.cancellation 0
  started : before = none → after.isBackground = true → ∃ recheck, u.record.recheck = some recheck ∧ recheck.handle = id

/-- The state and the recheck are as they were, and the task stands where it stood. -/
structure Stays (s u : System) (id : TaskId) (before : Option Task) (after : Task) : Prop where
  state : u.record.state = s.record.state
  recheck : u.record.recheck = s.record.recheck
  fails : after.fails = true ↔ ∃ task, before = some task ∧ task.fails = true
  busy : ∀ task, before = some task → task.busy = true → s.record.state = .rechecking → s.Installed id → after.busy = true

/-- The state may change, and no other task waits for what it was. -/
structure Shifts (s u : System) (id : TaskId) (after : Task) : Prop where
  others : ∀ other held, other ≠ id → s.tasks.lookup other = some held → held.fails = true → u.record.state = .closed
  fails : after.fails = true → u.record.state = .closed ∨ u.record.state = .rechecking ∧ u.record.recheck = none
  attended : u.record.state = .rechecking → after.fails = true ∨ after.busy = true ∧ u.Installed id

theorem isBackground_of_bare (h : after.origin.bare = task.origin.bare) : after.isBackground = task.isBackground := by
  rw [Task.isBackground, Task.isBackground]
  revert h
  cases after.origin <;> cases task.origin <;> simp [Origin.bare]

theorem isBackground_origin (h : task.isBackground = true) :
    ∃ recheckId cancellation generation, task.origin = .background recheckId cancellation generation := by
  rw [Task.isBackground] at h
  cases horigin : task.origin with
  | background recheckId cancellation generation => exact ⟨recheckId, cancellation, generation, rfl⟩
  | _ =>
      rw [horigin] at h
      cases h

theorem not_isFinished (hlookup : s.tasks.lookup id = some task) (h : task.phase.isFinished = false) : s.isFinished id ≠ true := by
  rw [isFinished, hlookup, Option.all_some, h]
  exact Bool.false_ne_true

theorem lookup_put {other : TaskId} {held : Task} (h : (u.put id after).tasks.lookup other = some held) :
    other = id ∧ held = after ∨ other ≠ id ∧ u.tasks.lookup other = some held := by
  by_cases hid : other = id
  · subst hid
    rw [put, Finmap.lookup_insert] at h
    exact .inl ⟨rfl, (Option.some.inj h).symm⟩
  · rw [put, Finmap.lookup_insert_of_ne _ hid] at h
    exact .inr ⟨hid, h⟩

@[simp] theorem lookup_put_self : (u.put id after).tasks.lookup id = some after := Finmap.lookup_insert _

theorem lookup_put_of_ne {other : TaskId} (h : other ≠ id) : (u.put id after).tasks.lookup other = u.tasks.lookup other :=
  Finmap.lookup_insert_of_ne _ h

theorem total_put (after : Task) (h : u.tasks.lookup id = before) :
    total (fun _ task => task.guards) (u.put id after).tasks + before.elim 0 Task.guards =
      total (fun _ task => task.guards) u.tasks + after.guards := by
  cases before with
  | none =>
      rw [put, total_insert (Finmap.lookup_eq_none.mp h), Option.elim_none]
      omega
  | some task => exact total_replace h

/-- A task that is put keeps everything in order. -/
theorem Orderly.put (before : Option Task) (h : Orderly s) (puts : Puts s u id before after)
    (mode : Stays s u id before after ∨ Shifts s u id after) : Orderly (u.put id after) := by
  have hother : ∀ {other held}, other ≠ id → u.tasks.lookup other = some held → s.tasks.lookup other = some held :=
    fun _ hlookup => puts.tasks ▸ hlookup
  have hrunning : ∀ other task, s.tasks.lookup other = some task → task.isBackground = true → task.phase.isFinished = false →
      u.record.state = .closed ∨ u.Installed other ∨ (u.put id after).Releasing other := by
    intro other task hlookup hbackground hlive
    obtain hclosed | ⟨recheck, hrecheck, rfl⟩ | ⟨op, held, recheck, hheld, hreleases, rfl⟩ :=
      h.running other task hlookup hbackground hlive
    · exact .inl (puts.closed hclosed)
    · obtain hkept | hfinished | hclosed | hreleases := puts.recheck recheck hrecheck
      · exact .inr (.inl ⟨recheck, hkept, rfl⟩)
      · exact absurd hfinished (not_isFinished hlookup hlive)
      · exact .inl hclosed
      · exact .inr (.inr ⟨id, after, recheck, lookup_put_self, hreleases, rfl⟩)
    · by_cases hid : op = id
      · subst hid
        obtain hreleases | hfinished := puts.release held recheck (puts.lookup.symm.trans hheld) hreleases
        · exact .inr (.inr ⟨op, after, recheck, lookup_put_self, hreleases, rfl⟩)
        · exact absurd hfinished (not_isFinished hlookup hlive)
      · refine .inr (.inr ⟨op, held, recheck, ?_, hreleases, rfl⟩)
        rw [lookup_put_of_ne hid, puts.tasks, hheld]
  constructor
  case callers => exact puts.callers.trans h.callers
  case lifetime =>
    intro hlifetime
    obtain hold | hclosed := puts.lifetime hlifetime
    · exact puts.closed (h.lifetime hold)
    · exact hclosed
  case fits =>
    intro other held hheld
    obtain ⟨-, rfl⟩ | ⟨hne, hheld⟩ := lookup_put hheld
    · exact puts.fits
    · exact h.fits other held (hother hne hheld)
  case cancelling =>
    intro other held hheld hphase
    obtain ⟨-, rfl⟩ | ⟨hne, hheld⟩ := lookup_put hheld
    · exact puts.cancelling hphase
    · exact puts.closed (h.cancelling other held (hother hne hheld) hphase)
  case guards =>
    have htotal := total_put after (puts.tasks ▸ puts.lookup)
    have hle := h.guards
    have hguards := puts.guards
    rw [puts.tasks] at htotal
    show _ ≤ u.record.activeOperations
    omega
  case installed =>
    intro recheck hrecheck
    obtain hold | ⟨-, rfl, hbare⟩ := puts.installed recheck hrecheck
    · obtain ⟨task, hlookup, hbare⟩ := h.installed recheck hold
      by_cases hid : recheck.handle = id
      · subst hid
        exact ⟨after, lookup_put_self, ((puts.bare task (puts.lookup.symm.trans hlookup)).1).trans hbare⟩
      · exact ⟨task, by rw [lookup_put_of_ne hid, puts.tasks, hlookup], hbare⟩
    · exact ⟨after, lookup_put_self, hbare⟩
  case fails =>
    intro other held hheld hfails
    obtain ⟨rfl, rfl⟩ | ⟨hne, hheld⟩ := lookup_put hheld
    · obtain stays | shifts := mode
      · obtain ⟨task, rfl, htask⟩ := stays.fails.mp hfails
        show u.record.state = _ ∨ u.record.state = _ ∧ u.record.recheck = _
        rw [stays.state, stays.recheck]
        exact h.fails other task puts.lookup htask
      · exact shifts.fails hfails
    · obtain stays | shifts := mode
      · show u.record.state = _ ∨ u.record.state = _ ∧ u.record.recheck = _
        rw [stays.state, stays.recheck]
        exact h.fails other held (hother hne hheld) hfails
      · exact .inl (shifts.others other held hne (hother hne hheld) hfails)
  case alone =>
    intro hopen
    have hopen' : s.record.state ≠ .closed := fun hclosed => hopen (puts.closed hclosed)
    intro other held other' held' hheld hfails hheld' hfails'
    obtain stays | shifts := mode
    · have hbefore : ∀ {other held}, (u.put id after).tasks.lookup other = some held → held.fails = true →
          ∃ task, s.tasks.lookup other = some task ∧ task.fails = true := by
        intro other held hheld hfails
        obtain ⟨rfl, rfl⟩ | ⟨hne, hheld⟩ := lookup_put hheld
        · obtain ⟨task, rfl, htask⟩ := stays.fails.mp hfails
          exact ⟨task, puts.lookup, htask⟩
        · exact ⟨held, hother hne hheld, hfails⟩
      obtain ⟨task, hlookup, htask⟩ := hbefore hheld hfails
      obtain ⟨task', hlookup', htask'⟩ := hbefore hheld' hfails'
      exact h.alone hopen' other task other' task' hlookup htask hlookup' htask'
    · have hself : ∀ {other held}, (u.put id after).tasks.lookup other = some held → held.fails = true → other = id := by
        intro other held hheld hfails
        obtain ⟨rfl, -⟩ | ⟨hne, hheld⟩ := lookup_put hheld
        · rfl
        · exact absurd (shifts.others other held hne (hother hne hheld) hfails) hopen
      exact (hself hheld' hfails').trans (hself hheld hfails).symm
  case running =>
    intro other held hheld hbackground hlive
    obtain ⟨rfl, rfl⟩ | ⟨hne, hheld⟩ := lookup_put hheld
    · cases before with
      | none => exact .inr (.inl (puts.started rfl hbackground))
      | some task =>
          obtain ⟨hbare, htask⟩ := puts.bare task rfl
          exact hrunning other task puts.lookup ((isBackground_of_bare hbare).symm.trans hbackground) htask
    · exact hrunning other held (hother hne hheld) hbackground hlive
  case attended =>
    intro hrechecking
    obtain stays | shifts := mode
    · obtain ⟨other, held, hheld, hfails⟩ | ⟨other, held, hinstalled, hheld, hbusy⟩ := h.attended (stays.state ▸ hrechecking)
      · by_cases hid : other = id
        · subst hid
          exact .inl ⟨other, after, lookup_put_self, stays.fails.mpr ⟨held, puts.lookup.symm.trans hheld, hfails⟩⟩
        · exact .inl ⟨other, held, by rw [lookup_put_of_ne hid, puts.tasks, hheld], hfails⟩
      · have hkept : u.Installed other := by
          obtain ⟨recheck, hrecheck, hhandle⟩ := hinstalled
          exact ⟨recheck, stays.recheck.trans hrecheck, hhandle⟩
        by_cases hid : other = id
        · subst hid
          exact .inr ⟨other, after, hkept, lookup_put_self,
            stays.busy held (puts.lookup.symm.trans hheld) hbusy (stays.state ▸ hrechecking) hinstalled⟩
        · exact .inr ⟨other, held, hkept, by rw [lookup_put_of_ne hid, puts.tasks, hheld], hbusy⟩
    · obtain hfails | ⟨hbusy, hinstalled⟩ := shifts.attended hrechecking
      · exact .inl ⟨id, after, lookup_put_self, hfails⟩
      · exact .inr ⟨id, after, hinstalled, lookup_put_self, hbusy⟩

/-- The state under a task that goes on, with the record's fields as they were. -/
structure Idles (s u : System) : Prop where
  record : s.record.Same u.record
  lifetime : u.lifetime = true → s.lifetime = true ∨ s.record.state = .closed
  callers : u.callers = s.callers
  tasks : u.tasks = s.tasks

/-- What the task goes on to, as far as the others can see. -/
structure Follows (s : System) (id : TaskId) (task after : Task) : Prop where
  lookup : s.tasks.lookup id = some task
  live : task.phase.isFinished = false
  bare : after.origin.bare = task.origin.bare
  fits : after.fits = true
  cancels : after.phase.cancels = false
  guards : after.guards ≤ task.guards
  fails : after.fails = task.fails
  release : ∀ recheck, task.Releases recheck → after.Releases recheck ∨ s.isFinished recheck.handle = true
  busy : task.busy = true → s.record.state = .rechecking → s.Installed id → after.busy = true

theorem Orderly.follow (h : Orderly s) (hidles : Idles s u) (follows : Follows s id task after) :
    Orderly (u.put id after) := by
  refine h.put (some task) ?_ (.inl ?_)
  · constructor
    case lookup => exact follows.lookup
    case tasks => exact hidles.tasks
    case callers => exact hidles.callers
    case closed => exact fun hclosed => hidles.record.state.trans hclosed
    case lifetime => exact fun hlifetime => (hidles.lifetime hlifetime).imp_right hidles.record.state.trans
    case fits => exact follows.fits
    case cancelling =>
      intro hcancels
      rw [follows.cancels] at hcancels
      cases hcancels
    case guards =>
      rw [hidles.record.activeOperations, Option.elim_some]
      exact Nat.add_le_add_right follows.guards _
    case bare =>
      rintro _ ⟨⟩
      exact ⟨follows.bare, follows.live⟩
    case release =>
      rintro _ recheck ⟨⟩ hreleases
      exact follows.release recheck hreleases
    case recheck => exact fun _ hrecheck => .inl (hidles.record.recheck.trans hrecheck)
    case installed => exact fun _ hrecheck => .inl (hidles.record.recheck ▸ hrecheck)
    case started => rintro ⟨⟩
  · refine ⟨hidles.record.state, hidles.record.recheck, ?_, ?_⟩
    · rw [follows.fails]
      exact ⟨fun hfails => ⟨task, rfl, hfails⟩, by rintro ⟨_, ⟨⟩, hfails⟩; exact hfails⟩
    · rintro _ ⟨⟩
      exact follows.busy

section Follows

variable {phase next : Phase}

theorem fits_move (h : task.fits = true) (hphase : task.phase = phase) (hleads : phase.leads next = true) :
    (task.move next).fits = true := by
  subst hphase
  simp only [Phase.leads, Bool.and_eq_true, Bool.or_eq_true, Bool.not_eq_true'] at hleads
  obtain ⟨⟨hoperation, hrecheck⟩, hclose⟩ := hleads
  rw [Task.fits] at h
  rw [Task.fits, Task.move]
  cases horigin : task.origin with
  | connect | reportFailed =>
      rw [horigin] at h
      exact hoperation.resolve_left fun hfalse => Bool.false_ne_true (hfalse.symm.trans h)
  | background =>
      rw [horigin] at h
      exact hrecheck.resolve_left fun hfalse => Bool.false_ne_true (hfalse.symm.trans h)
  | close =>
      rw [horigin] at h
      exact hclose.resolve_left fun hfalse => Bool.false_ne_true (hfalse.symm.trans h)
  | drop =>
      rw [horigin] at h
      exact h

theorem fits_of_operation (h : task.fits = true) (hphase : task.phase = phase) (hoperation : task.isBackground = false)
    (hclose : phase.ofClose = false) (hnext : next.ofOperation = true) : (task.move next).fits = true := by
  subst hphase
  rw [Task.isBackground] at hoperation
  rw [Task.fits] at h
  rw [Task.fits, Task.move]
  cases horigin : task.origin with
  | connect | reportFailed => exact hnext
  | background =>
      rw [horigin] at hoperation
      cases hoperation
  | close =>
      rw [horigin] at h
      cases hclose.symm.trans h
  | drop =>
      rw [horigin] at h
      cases h

/-- A task goes on within its stage. -/
theorem Follows.of_stage (hlookup : s.tasks.lookup id = some task) (hphase : task.phase = phase)
    (hfits : (task.move next).fits = true) (hlive : phase.isFinished = false) (hstage : next.stage = phase.stage)
    (hcancels : next.cancels = false)
    (hrelease : phase.releases = none ∨ next.releases = phase.releases ∨
      ∀ recheck, phase.releases = some recheck → s.isFinished recheck.handle = true) :
    Follows s id task (task.move next) := by
  subst hphase
  constructor
  case lookup => exact hlookup
  case live => exact hlive
  case bare => rfl
  case fits => exact hfits
  case cancels => exact hcancels
  case guards => exact (by rw [Task.guards, Task.guards, Task.move, hstage] : (task.move next).guards = task.guards).le
  case fails => rw [Task.fails, Task.fails, Task.move, hstage]
  case release =>
    rintro recheck ⟨horigin, hreleases⟩
    obtain hnone | hsame | hfinished := hrelease
    · cases hnone.symm.trans hreleases
    · exact .inl ⟨horigin, hsame.trans hreleases⟩
    · exact .inr (hfinished recheck hreleases)
  case busy =>
    intro hbusy _ _
    rwa [Task.busy, Task.isBackground, Task.move, hstage]

/-- A recheck goes on; only a busy one that is installed must stay busy. -/
theorem Follows.of_recheck (hlookup : s.tasks.lookup id = some task) (hbackground : task.isBackground = true)
    (hlive : task.phase.isFinished = false) (hbare : after.origin.bare = task.origin.bare) (hnext : after.phase.ofRecheck = true)
    (hbusy : task.busy = true → s.record.state = .rechecking → s.Installed id → after.phase.stage = .attempting) :
    Follows s id task after := by
  have hafter := (isBackground_of_bare hbare).trans hbackground
  obtain ⟨_, _, _, horigin⟩ := isBackground_origin hbackground
  obtain ⟨_, _, _, horigin'⟩ := isBackground_origin hafter
  constructor
  case lookup => exact hlookup
  case live => exact hlive
  case bare => exact hbare
  case fits =>
    rw [Task.fits, horigin']
    exact hnext
  case cancels =>
    cases hphase : after.phase with
    | cancelling =>
        rw [hphase] at hnext
        cases hnext
    | _ => rfl
  case guards =>
    rw [Task.guards, horigin']
    exact Nat.zero_le _
  case fails => rw [Task.fails, Task.fails, horigin, horigin']
  case release =>
    rintro recheck ⟨hreport, -⟩
    cases horigin.symm.trans hreport
  case busy =>
    intro htask hstate hinstalled
    rw [Task.busy, Bool.and_eq_true, decide_eq_true_eq]
    exact ⟨hafter, hbusy htask hstate hinstalled⟩

/-- An operation gives up the attempt at a path. -/
theorem Follows.of_retreat (hlookup : s.tasks.lookup id = some task) (hphase : task.phase = phase)
    (hfits : (task.move next).fits = true) (hoperation : task.isBackground = false) (hlive : phase.isFinished = false)
    (hstage : phase.stage = .attempting ∨ phase.stage = .retreating) (hnext : next.stage = .retreating)
    (hreleases : phase.releases = none) : Follows s id task (task.move next) := by
  subst hphase
  constructor
  case lookup => exact hlookup
  case live => exact hlive
  case bare => rfl
  case fits => exact hfits
  case cancels =>
    cases next with
    | cancelling => cases hnext
    | _ => rfl
  case guards =>
    rw [Task.guards, Task.guards, Task.move, hnext]
    obtain hstage | hstage := hstage
    · rw [hstage]
      cases task.origin <;> exact le_rfl
    · rw [hstage]
  case fails =>
    rw [Task.fails, Task.fails, Task.move, hnext]
    obtain hstage | hstage := hstage
    · rw [hstage]
      cases task.origin <;> rfl
    · rw [hstage]
  case release =>
    rintro recheck ⟨-, hsome⟩
    cases hreleases.symm.trans hsome
  case busy =>
    intro hbusy
    rw [Task.busy, hoperation] at hbusy
    cases hbusy

end Follows

end System

end Rustgo.Path
