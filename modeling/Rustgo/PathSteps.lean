import Rustgo.PathStage

namespace Rustgo.Path.System

open Tables Runs

variable {s t u : System} {id : TaskId} {task after : Task}

theorem installed_origin (h : Orderly s) (hinstalled : s.Installed id) (hlookup : s.tasks.lookup id = some task) :
    ∃ recheck generation, s.record.recheck = some recheck ∧
      task.origin = .background recheck.id recheck.cancellation generation := by
  obtain ⟨recheck, hrecheck, rfl⟩ := hinstalled
  obtain ⟨held, hheld, hbare⟩ := h.installed recheck hrecheck
  obtain rfl := Option.some.inj (hlookup.symm.trans hheld)
  cases horigin : task.origin with
  | background recheckId cancellation generation =>
      rw [horigin] at hbare
      cases hbare
      exact ⟨recheck, generation, hrecheck, rfl⟩
  | _ =>
      rw [horigin] at hbare
      cases hbare

theorem recheckId_of_installed (h : Orderly s) (hinstalled : s.Installed id) (hlookup : s.tasks.lookup id = some task) :
    ∃ recheckId, task.recheckId = some recheckId ∧ s.record.recheckId = some recheckId := by
  obtain ⟨recheck, generation, hrecheck, horigin⟩ := installed_origin h hinstalled hlookup
  refine ⟨recheck.id, ?_, ?_⟩
  · rw [Task.recheckId, horigin]
  · rw [ManagerRecord.recheckId, hrecheck, Option.map_some]

/-- Nothing stops the installed recheck before the manager is closed. -/
theorem not_stopped (hdistinct : Distinct s) (h : Orderly s) (hopen : s.record.state ≠ .closed) (hinstalled : s.Installed id)
    (hlookup : s.tasks.lookup id = some task) : s.stopped task = false := by
  obtain ⟨recheck, generation, hrecheck, horigin⟩ := installed_origin h hinstalled hlookup
  have hlifetime : s.lifetime = false := by
    rw [← Bool.not_eq_true]
    exact fun hlifetime => hopen (h.lifetime hlifetime)
  have hcancelled : recheck.cancellation ∉ s.cancelled := fun hmem => (hdistinct.recheck recheck hrecheck).2 (.inl hmem)
  simpa [stopped, horigin, h.callers, System.isCancelled, hlifetime] using hcancelled

/-- In an open manager with a reported failure at work no recheck is installed,
so a recheck that finds itself installed sees no failure. -/
theorem not_fails_of_recheckId (h : Orderly s) (hopen : s.record.state ≠ .closed) (hrecheck : s.record.recheckId ≠ none)
    (hlookup : s.tasks.lookup id = some task) : task.fails ≠ true := by
  intro hfails
  obtain hclosed | ⟨-, hnone⟩ := h.fails id task hlookup hfails
  · exact hopen hclosed
  · rw [ManagerRecord.recheckId, hnone] at hrecheck
    exact hrecheck rfl

theorem not_fails_of_state (h : Orderly s) (hopen : s.record.state ≠ .closed) (hstate : s.record.state ≠ .rechecking)
    (hlookup : s.tasks.lookup id = some task) : task.fails ≠ true := by
  intro hfails
  obtain hclosed | ⟨hrechecking, -⟩ := h.fails id task hlookup hfails
  · exact hopen hclosed
  · exact hstate hrechecking

theorem Idles.refl (s : System) : Idles s s := ⟨.refl s.record, .inl, rfl, rfl⟩

theorem Idles.of_cancel (s : System) (tokens : List Token) : Idles s (s.cancel tokens) := ⟨.refl s.record, .inl, rfl, rfl⟩

theorem Idles.of_failed (s : System) (attempt : RunningAttempt) : Idles s (s.attemptFailed attempt) :=
  ⟨s.record.recordEvent_same _, .inl, rfl, rfl⟩

theorem Idles.of_spawned {race spawned : Race} (h : Spawned s u race spawned) : Idles s u :=
  ⟨h.record, fun hlifetime => .inl (h.lifetime ▸ hlifetime), h.callers, h.tasks⟩

theorem lost_of_operation {error : PathError} (h : task.isBackground = false) : task.lost error = .abandoning error := by
  rw [Task.isBackground] at h
  rw [Task.lost]
  cases horigin : task.origin with
  | background =>
      rw [horigin] at h
      cases h
  | _ => rfl

theorem lost_of_recheck {error : PathError} (h : task.isBackground = true) :
    task.lost error = if error = .cancelled then .done (.error error) else .retrying := by
  obtain ⟨recheckId, cancellation, generation, horigin⟩ := isBackground_origin h
  rw [Task.lost, horigin]

theorem refused_of_operation {error : PathError} (h : task.isBackground = false) : task.refused error = .abandoning error := by
  rw [Task.isBackground] at h
  rw [Task.refused]
  cases horigin : task.origin with
  | background =>
      rw [horigin] at h
      cases h
  | _ => rfl

theorem refused_of_recheck {error : PathError} (h : task.isBackground = true) : task.refused error = .done (.error error) := by
  obtain ⟨recheckId, cancellation, generation, horigin⟩ := isBackground_origin h
  rw [Task.refused, horigin]

theorem installed_of_operation {path : SelectedPath} (h : task.isBackground = false) :
    task.installed path = if path.kind = .relay ∧ task.factory = true then .rechecking path else .finishing path := by
  rw [Task.isBackground] at h
  rw [Task.installed]
  cases horigin : task.origin with
  | background =>
      rw [horigin] at h
      cases h
  | _ => rfl

theorem installed_of_recheck {path : SelectedPath} (h : task.isBackground = true) :
    task.installed path = .done (.ok (some path)) := by
  obtain ⟨recheckId, cancellation, generation, horigin⟩ := isBackground_origin h
  rw [Task.installed, horigin]

/-- A recheck is installed under a relay path, with its task asleep. -/
theorem install_orderly {record : ManagerRecord} {recheck : OwnedRecheck} {handle : TaskId} (h : Orderly s)
    (hfresh : s.tasks.lookup handle = none) (hnone : s.record.recheck = none) (hstate : s.record.state = .relay)
    (hhandle : recheck.handle = handle) (hrecheck : record.recheck = some recheck) (hmoved : record.state = .relay)
    (hactive : record.activeOperations = s.record.activeOperations) (asleep : Task)
    (horigin : asleep.origin = .background recheck.id recheck.cancellation 1) (hphase : asleep.phase = .sleeping)
    (nextToken : Token) : Orderly ({ s with record := record, nextToken := nextToken }.put handle asleep) := by
  refine h.put none ?_ (.inr ?_)
  · constructor
    case lookup => exact hfresh
    case tasks | callers => rfl
    case closed =>
      intro hclosed
      cases hclosed.symm.trans hstate
    case lifetime => exact fun hlifetime => .inl hlifetime
    case fits =>
      rw [Task.fits, horigin, hphase]
      rfl
    case cancelling =>
      rw [hphase]
      rintro ⟨⟩
    case guards =>
      rw [Task.guards, horigin]
      exact Nat.add_le_add_left hactive.ge _
    case bare => rintro _ ⟨⟩
    case release => rintro _ _ ⟨⟩
    case recheck =>
      intro _ hr
      cases hnone.symm.trans hr
    case installed =>
      intro installed hr
      obtain rfl := Option.some.inj (hrecheck.symm.trans hr)
      exact .inr ⟨rfl, hhandle, by rw [horigin]; rfl⟩
    case started => exact fun _ _ => ⟨recheck, hrecheck, hhandle⟩
  · constructor
    case others =>
      intro other held _ hheld hfails
      exact absurd hfails (not_fails_of_state h (by simp [hstate]) (by simp [hstate]) hheld)
    case fails =>
      rw [Task.fails, horigin]
      rintro ⟨⟩
    case attended =>
      intro hrechecking
      cases hmoved.symm.trans hrechecking

theorem expected_open (h : s.record.state = task.expected) : s.record.state ≠ .closed := by
  rw [h, Task.expected]
  split <;> exact nofun

theorem guards_le_of_attempting {next : Phase} (h : task.phase.stage = .attempting) : (task.move next).guards ≤ task.guards := by
  rw [Task.guards, Task.guards, Task.move, h]
  cases task.origin with
  | connect | reportFailed => cases next.stage <;> decide
  | _ => exact le_rfl

theorem fails_of_stage {next : Phase} (h : next.stage = .committed ∨ next.stage = .over) : (task.move next).fails = false := by
  rw [Task.fails, Task.move]
  obtain h | h := h
  · rw [h]
    cases task.origin <;> rfl
  · rw [h]
    cases task.origin <;> rfl

theorem installed_stage (task : Task) (path : SelectedPath) :
    (task.installed path).stage = .committed ∨ (task.installed path).stage = .over := by
  rw [Task.installed]
  split
  · exact .inr rfl
  · split
    · exact .inl rfl
    · exact .inl rfl

theorem installed_cancels (task : Task) (path : SelectedPath) : (task.installed path).cancels = false := by
  rw [Task.installed]
  split
  · rfl
  · split <;> rfl

theorem installed_fits {phase : Phase} (h : task.fits = true) (hphase : task.phase = phase) (hclose : phase.ofClose = false)
    (path : SelectedPath) : (task.move (task.installed path)).fits = true := by
  cases hbackground : task.isBackground with
  | false =>
      refine fits_of_operation h hphase hbackground hclose ?_
      rw [installed_of_operation hbackground]
      split <;> rfl
  | true =>
      obtain ⟨recheckId, cancellation, generation, horigin⟩ := isBackground_origin hbackground
      rw [installed_of_recheck hbackground, Task.fits, Task.move, horigin]
      rfl

/-- The record moves under a task that does not fail, and the recheck stays. -/
theorem Orderly.shift {record : ManagerRecord} (h : Orderly s) (hlookup : s.tasks.lookup id = some task)
    (hlive : task.phase.isFinished = false) (hopen : s.record.state ≠ .closed) (hrecheck : record.recheck = s.record.recheck)
    (hguards : after.guards + s.record.activeOperations ≤ task.guards + record.activeOperations)
    (hbare : after.origin.bare = task.origin.bare) (hfits : after.fits = true) (hcancels : after.phase.cancels = false)
    (hreleases : task.phase.releases = none)
    (hothers : ∀ other held, other ≠ id → s.tasks.lookup other = some held → held.fails ≠ true) (hfails : after.fails = false)
    (hattended : record.state = .rechecking → after.busy = true ∧ s.Installed id) :
    Orderly ((s.setRecord record).put id after) := by
  refine h.put (some task) ?_ (.inr ?_)
  · constructor
    case lookup => exact hlookup
    case tasks | callers => rfl
    case closed => exact fun hclosed => absurd hclosed hopen
    case lifetime => exact fun hlifetime => .inl hlifetime
    case fits => exact hfits
    case cancelling =>
      intro hc
      rw [hcancels] at hc
      cases hc
    case guards => exact hguards
    case bare =>
      rintro _ ⟨⟩
      exact ⟨hbare, hlive⟩
    case release =>
      rintro _ recheck ⟨⟩ ⟨-, hsome⟩
      cases hreleases.symm.trans hsome
    case recheck => exact fun _ hr => .inl (hrecheck.trans hr)
    case installed => exact fun _ hr => .inl (hrecheck.symm.trans hr)
    case started => rintro ⟨⟩
  · constructor
    case others => exact fun other held hne hheld hf => absurd hf (hothers other held hne hheld)
    case fails =>
      intro hf
      rw [hfails] at hf
      cases hf
    case attended =>
      intro hrechecking
      obtain ⟨hbusy, recheck, hr, hhandle⟩ := hattended hrechecking
      exact .inr ⟨hbusy, recheck, hrecheck.trans hr, hhandle⟩

section Steps

variable (h : Orderly s) (hlookup : s.tasks.lookup id = some task)

include h hlookup

theorem release_orderly {resources : OwnedResources} {next : After} (hphase : task.phase = .releasing resources next)
    (hstep : s.release id task resources next = some t) : Orderly t := by
  have hfits := h.fits id task hlookup
  rw [release.eq_def] at hstep
  split at hstep
  case h_1 owner hselected =>
      obtain rfl := Option.some.inj hstep
      refine h.follow (.of_cancel s _) (.of_stage hlookup hphase (fits_move hfits hphase ?_) rfl ?_ rfl (.inr (.inl ?_)))
      · cases next <;> rfl
      · cases next <;> rfl
      · cases next <;> rfl
  case h_2 old hselected hrecheck =>
      split at hstep
      case isTrue hfinished =>
          obtain rfl := Option.some.inj hstep
          refine h.follow (.of_cancel s _) (.of_stage hlookup hphase (fits_move hfits hphase ?_) rfl ?_ rfl (.inr (.inr fun recheck hreleases => ?_)))
          · cases next <;> rfl
          · cases next <;> rfl
          · cases next with
            | race =>
                obtain rfl := Option.some.inj (hrecheck.symm.trans hreleases)
                exact hfinished
            | wait => cases hreleases
      · cases hstep
  case h_3 hselected hrecheck =>
      obtain rfl := Option.some.inj hstep
      cases next with
      | race => exact h.follow (.refl s) (.of_stage hlookup hphase (fits_move hfits hphase rfl) rfl rfl rfl (.inl hrecheck))
      | wait error => exact h.follow (.refl s) (.of_stage hlookup hphase (fits_move hfits hphase rfl) rfl rfl rfl (.inl rfl))

/-- An operation may be stopped in its race, an installed recheck may not. -/
theorem stop_orderly {race : Race} (hdistinct : Distinct s) (hphase : task.phase = .racing race) (hstopped : s.stopped task = true) :
    Orderly (s.put id (task.move (.cleaning race.running (.error .cancelled)))) := by
  refine h.follow (.refl s) (?_ : Follows s id task _)
  cases hbackground : task.isBackground with
  | false =>
      exact .of_retreat hlookup hphase (fits_of_operation (h.fits id task hlookup) hphase hbackground rfl rfl) hbackground rfl (.inl rfl) rfl rfl
  | true =>
      refine .of_recheck hlookup hbackground (by rw [hphase]; rfl) rfl rfl fun _ hstate hinstalled => ?_
      rw [not_stopped hdistinct h (by simp [hstate]) hinstalled hlookup] at hstopped
      cases hstopped

theorem raceRound_orderly {race : Race} {choice : Choice} (hdistinct : Distinct s) (hphase : task.phase = .racing race)
    (hstep : s.raceRound id task race choice = some t) : Orderly t := by
  have hfits := h.fits id task hlookup
  have hrace : ∀ {u : System} {rest : Race}, Idles s u → Orderly (u.put id (task.move (.racing rest))) :=
    fun hidles => h.follow hidles (.of_stage hlookup hphase (fits_move hfits hphase rfl) rfl rfl rfl (.inl rfl))
  rw [raceRound.eq_def] at hstep
  split at hstep
  case h_1 =>
      split at hstep
      · cases hstep
      · obtain rfl := Option.some.inj hstep
        exact hrace (.of_spawned (spawnGroup_spawned s _ _))
  case h_2 =>
      split at hstep
      · cases hstep
      split at hstep
      · obtain rfl := Option.some.inj hstep
        exact h.follow (.refl s) (.of_stage hlookup hphase (fits_move hfits hphase rfl) rfl rfl rfl (.inl rfl))
      split at hstep
      case h_1 =>
          split at hstep
          case isTrue hstopped =>
              obtain rfl := Option.some.inj hstep
              exact stop_orderly h hlookup hdistinct hphase hstopped
          · cases hstep
      case h_2 =>
          split at hstep
          case h_1 => cases hstep
          case h_2 completed hfind =>
              split at hstep
              case h_1 =>
                  split at hstep
                  · obtain rfl := Option.some.inj hstep
                    exact h.follow (.refl s) (.of_stage hlookup hphase (fits_move hfits hphase rfl) rfl rfl rfl (.inl rfl))
                  · obtain rfl := Option.some.inj hstep
                    exact hrace (.of_failed s _)
              case h_2 =>
                  obtain rfl := Option.some.inj hstep
                  exact hrace (.of_failed s _)
      case h_3 =>
          split at hstep
          case h_1 => cases hstep
          case h_2 failed hfind =>
              obtain rfl := Option.some.inj hstep
              exact hrace (.of_failed s _)
      case h_4 => cases hstep

/-- A recheck whose race was not stopped sleeps again; an operation that lost
its race gives up. -/
theorem lost_orderly {error : PathError} (hphase : task.phase = .draining (.error error)) :
    Orderly (s.put id (task.move (task.lost error))) := by
  refine h.follow (.refl s) (?_ : Follows s id task _)
  have hlive : task.phase.isFinished = false := by rw [hphase]; rfl
  cases hbackground : task.isBackground with
  | false =>
      rw [lost_of_operation hbackground]
      refine .of_retreat hlookup hphase (fits_of_operation (h.fits id task hlookup) hphase hbackground rfl rfl) hbackground rfl ?_ rfl rfl
      cases error <;> simp [Phase.stage]
  | true =>
      rw [lost_of_recheck hbackground]
      split
      case isTrue hcancelled =>
          refine .of_recheck hlookup hbackground hlive rfl rfl fun hbusy => ?_
          rw [Task.busy, hphase, hcancelled] at hbusy
          simp [Phase.stage] at hbusy
      case isFalse => exact .of_recheck hlookup hbackground hlive rfl rfl fun _ _ _ => rfl

/-- Giving up a winner: it does not happen to a recheck that is installed. -/
theorem shedding_orderly {owner : OwnedSelected} {error : PathError} {watches : List (Caller × Token)}
    (hphase : task.phase = .won owner.winner ∨ task.phase = .committing owner)
    (hinstalled : task.isBackground = true → s.record.state = .rechecking → ¬ s.Installed id) :
    Orderly ({ s with watches := watches }.put id (task.move (.shedding owner error))) := by
  refine h.follow ⟨.refl s.record, .inl, rfl, rfl⟩ (?_ : Follows s id task _)
  have hfits := h.fits id task hlookup
  cases hbackground : task.isBackground with
  | false =>
      obtain hphase | hphase := hphase
      · exact .of_retreat hlookup hphase (fits_of_operation hfits hphase hbackground rfl rfl) hbackground rfl (.inl rfl) rfl rfl
      · exact .of_retreat hlookup hphase (fits_of_operation hfits hphase hbackground rfl rfl) hbackground rfl (.inl rfl) rfl rfl
  | true =>
      refine .of_recheck hlookup hbackground ?_ rfl rfl fun _ hstate hi => absurd hi (hinstalled hbackground hstate)
      obtain hphase | hphase := hphase
      · exact hphase ▸ rfl
      · exact hphase ▸ rfl

theorem own_orderly {winner : RaceWinner} (hphase : task.phase = .won winner) : Orderly (s.own id task winner) := by
  rw [own]
  split
  case isTrue hcancelled =>
      refine shedding_orderly h hlookup (.inl hphase) fun _ hstate => ?_
      rw [h.callers] at hcancelled
      obtain hcaller | hlifetime := hcancelled
      · cases hcaller
      · cases (h.lifetime hlifetime).symm.trans hstate
  case isFalse =>
      exact h.follow ⟨.refl s.record, .inl, rfl, rfl⟩ (.of_stage hlookup hphase (fits_move (h.fits id task hlookup) hphase rfl) rfl rfl rfl (.inl rfl))

theorem refused_orderly {error : PathError} (hphase : task.phase = .shed error) :
    Orderly (s.put id (task.move (task.refused error))) := by
  refine h.follow (.refl s) (?_ : Follows s id task _)
  cases hbackground : task.isBackground with
  | false =>
      rw [refused_of_operation hbackground]
      exact .of_retreat hlookup hphase (fits_of_operation (h.fits id task hlookup) hphase hbackground rfl rfl) hbackground rfl (.inr rfl) rfl rfl
  | true =>
      rw [refused_of_recheck hbackground]
      refine .of_recheck hlookup hbackground (by rw [hphase]; rfl) rfl rfl fun hbusy => ?_
      rw [Task.busy, hphase] at hbusy
      simp [Phase.stage] at hbusy

theorem installed_orderly {path : SelectedPath} (hphase : task.phase = .displaced path) :
    Orderly (s.put id (task.move (task.installed path))) := by
  refine h.follow (.refl s) (?_ : Follows s id task _)
  have hfits := installed_fits (h.fits id task hlookup) hphase rfl path
  cases hbackground : task.isBackground with
  | false =>
      rw [installed_of_operation hbackground] at hfits ⊢
      split at hfits
      case isTrue hrelay =>
          rw [if_pos hrelay]
          exact .of_stage hlookup hphase hfits rfl rfl rfl (.inl rfl)
      case isFalse hdirect =>
          rw [if_neg hdirect]
          exact .of_stage hlookup hphase hfits rfl rfl rfl (.inl rfl)
  | true =>
      rw [installed_of_recheck hbackground]
      refine .of_recheck hlookup hbackground (by rw [hphase]; rfl) rfl rfl fun hbusy => ?_
      rw [Task.busy, hphase] at hbusy
      simp [Phase.stage] at hbusy

/-- Who else would fail: the task is the only failed report, or the recheck
that is installed. -/
theorem commits_alone {owner : OwnedSelected} (hphase : task.phase = .committing owner) (hstate : s.record.state = task.expected)
    (hid : ∀ recheckId, task.recheckId = some recheckId → s.record.recheckId = some recheckId) {other : TaskId} {held : Task}
    (hne : other ≠ id) (hheld : s.tasks.lookup other = some held) : held.fails ≠ true := by
  intro hfails
  have hfits := h.fits id task hlookup
  rw [Task.fits, hphase] at hfits
  rw [Task.expected] at hstate
  rw [Task.recheckId] at hid
  obtain hclosed | ⟨hrechecking, hnone⟩ := h.fails other held hheld hfails
  · rw [hclosed] at hstate
    cases horigin : task.origin <;> rw [horigin] at hstate <;> cases hstate
  cases horigin : task.origin with
  | connect =>
      rw [horigin, hrechecking] at hstate
      cases hstate
  | reportFailed =>
      have htask : task.fails = true := by
        rw [Task.fails, horigin, hphase]
        rfl
      exact hne (h.alone (by simp [hrechecking]) id task other held hlookup htask hheld hfails)
  | background recheckId =>
      rw [horigin] at hid
      have hsome := hid recheckId rfl
      rw [ManagerRecord.recheckId, hnone] at hsome
      cases hsome
  | close | drop =>
      rw [horigin] at hfits
      cases hfits

theorem commit_orderly {owner : OwnedSelected} (hphase : task.phase = .committing owner) : Orderly (s.commit id task owner) := by
  have hfits := h.fits id task hlookup
  have hlive : task.phase.isFinished = false := by rw [hphase]; rfl
  have hattempting : task.phase.stage = .attempting := by rw [hphase]; rfl
  have hreleases : task.phase.releases = none := by rw [hphase]; rfl
  have hkind : PathState.ofKind owner.path.kind ≠ .rechecking := by
    rw [PathState.ofKind]
    split <;> rintro ⟨⟩
  -- whichever phase follows, the task holds no more guards and fails no longer
  have hinstall : ∀ {displaced record next}, s.record.installWinner task.expected task.recheckId owner = .ok (displaced, record) →
      (task.move next).fits = true → next.cancels = false → next.stage = .committed ∨ next.stage = .over →
        Orderly ((s.setRecord record).put id (task.move next)) := by
    intro displaced record next hinstall hnext hcancels hstage
    obtain ⟨hstate, hid, -, hmoved, -, hrecheck, hactive⟩ := ManagerRecord.installWinner_installs hinstall
    refine h.shift hlookup hlive (expected_open hstate) hrecheck ?_ rfl hnext hcancels hreleases
      (fun other held => commits_alone h hlookup hphase hstate hid) (fails_of_stage hstage) fun hrechecking => ?_
    · rw [hactive]
      exact Nat.add_le_add_right (guards_le_of_attempting hattempting) _
    · exact absurd (hmoved.symm.trans hrechecking) hkind
  rw [commit]
  split
  case h_1 old record hok => exact hinstall hok (fits_move hfits hphase rfl) rfl (.inl rfl)
  case h_2 record hok => exact hinstall hok (installed_fits hfits hphase rfl owner.path) (installed_cancels task owner.path) (installed_stage task owner.path)
  case h_3 current hrefused =>
      refine shedding_orderly h hlookup (.inr hphase) fun hbackground hstate hinstalled => ?_
      obtain ⟨recheckId, hid, hrecordId⟩ := recheckId_of_installed h hinstalled hlookup
      obtain ⟨_, _, _, horigin⟩ := isBackground_origin hbackground
      rw [hid, Task.expected, horigin] at hrefused
      obtain hmoved | hother := ManagerRecord.installWinner_refuses hrefused
      · exact hmoved hstate
      · exact hother hrecordId

theorem isBackground_of_phase {phase : Phase} (hphase : task.phase = phase) (hoperation : phase.ofOperation = false)
    (hclose : phase.ofClose = false) : task.isBackground = true := by
  have hfits := h.fits id task hlookup
  rw [Task.fits, hphase] at hfits
  rw [Task.isBackground]
  cases horigin : task.origin with
  | background => rfl
  | connect | reportFailed =>
      rw [horigin] at hfits
      cases hoperation.symm.trans hfits
  | close =>
      rw [horigin] at hfits
      cases hclose.symm.trans hfits
  | drop =>
      rw [horigin] at hfits
      cases hfits

theorem not_isBackground_of_phase {phase : Phase} (hphase : task.phase = phase) (hrecheck : phase.ofRecheck = false) :
    task.isBackground = false := by
  have hfits := h.fits id task hlookup
  rw [Task.fits, hphase] at hfits
  rw [← Bool.not_eq_true]
  intro hbackground
  obtain ⟨_, _, _, horigin⟩ := isBackground_origin hbackground
  rw [horigin] at hfits
  cases hrecheck.symm.trans hfits

theorem operates_of_phase {phase : Phase} (hphase : task.phase = phase) (hrecheck : phase.ofRecheck = false)
    (hclose : phase.ofClose = false) : task.origin = .connect ∨ task.origin = .reportFailed := by
  have hfits := h.fits id task hlookup
  rw [Task.fits, hphase] at hfits
  cases horigin : task.origin with
  | connect => exact .inl rfl
  | reportFailed => exact .inr rfl
  | background =>
      rw [horigin] at hfits
      cases hrecheck.symm.trans hfits
  | close =>
      rw [horigin] at hfits
      cases hclose.symm.trans hfits
  | drop =>
      rw [horigin] at hfits
      cases hfits

/-- An operation gives back its guard. -/
theorem giveBack_orderly {phase next : Phase} (hphase : task.phase = phase) (hlive : phase.isFinished = false)
    (hrecheck : phase.ofRecheck = false) (hclose : phase.ofClose = false) (hnext : next.ofOperation = true)
    (hcancels : next.cancels = false) (hreleases : phase.releases = none)
    (hstage : phase.stage = .committed ∧ next.stage = .over ∨ phase.stage = .retreating ∧ next.stage = .leaving) :
    Orderly ((s.setRecord s.record.dropOperation).put id (task.move next)) := by
  have hbackground := not_isBackground_of_phase h hlookup hphase hrecheck
  have hfits := fits_of_operation (h.fits id task hlookup) hphase hbackground hclose hnext
  have horigin := operates_of_phase h hlookup hphase hrecheck hclose
  subst hphase
  have hguards : task.guards = 1 ∧ (task.move next).guards = 0 ∧ (task.move next).fails = task.fails := by
    rw [Task.guards, Task.guards, Task.fails, Task.fails, Task.move]
    obtain ⟨hbefore, hafter⟩ | ⟨hbefore, hafter⟩ := hstage
    · rw [hbefore, hafter]
      obtain horigin | horigin := horigin <;> rw [horigin] <;> exact ⟨rfl, rfl, rfl⟩
    · rw [hbefore, hafter]
      obtain horigin | horigin := horigin <;> rw [horigin] <;> exact ⟨rfl, rfl, rfl⟩
  refine h.put (some task) ?_ (.inl ?_)
  · constructor
    case lookup => exact hlookup
    case tasks | callers => rfl
    case closed => exact fun hclosed => hclosed
    case lifetime => exact fun hlifetime => .inl hlifetime
    case fits => exact hfits
    case cancelling =>
      intro hc
      cases hcancels.symm.trans hc
    case guards =>
      rw [hguards.2.1, Option.elim_some, hguards.1]
      show 0 + s.record.activeOperations ≤ 1 + (s.record.activeOperations - 1)
      omega
    case bare =>
      rintro _ ⟨⟩
      exact ⟨rfl, hlive⟩
    case release =>
      rintro _ recheck ⟨⟩ ⟨-, hsome⟩
      cases hreleases.symm.trans hsome
    case recheck => exact fun _ hr => .inl hr
    case installed => exact fun _ hr => .inl hr
    case started => rintro ⟨⟩
  · refine ⟨rfl, rfl, ?_, ?_⟩
    · rw [hguards.2.2]
      exact ⟨fun hfails => ⟨task, rfl, hfails⟩, by rintro ⟨_, ⟨⟩, hfails⟩; exact hfails⟩
    · rintro _ ⟨⟩ hbusy
      rw [Task.busy, hbackground] at hbusy
      cases hbusy

/-- The record lets go of its recheck, closed or with the recheck finished. -/
theorem drop_orderly {record : ManagerRecord} {cancelled : List Token} {next : Phase} (hlive : task.phase.isFinished = false)
    (hrecord : record.recheck = none ∧ record.activeOperations = s.record.activeOperations)
    (hfits : (task.move next).fits = true) (hcancels : next.cancels = true → record.state = .closed)
    (hguards : (task.move next).guards ≤ task.guards) (hreleases : task.phase.releases = none)
    (hstate : record.state = .closed ∨ record.state = .relay ∧ s.record.state = .relay ∧
      ∀ recheck, s.record.recheck = some recheck → s.isFinished recheck.handle = true)
    (hfails : (task.move next).fails = true → record.state = .closed) :
    Orderly ({ s with record := record, cancelled := cancelled }.put id (task.move next)) := by
  refine h.put (some task) ?_ (.inr ?_)
  · constructor
    case lookup => exact hlookup
    case tasks | callers => rfl
    case closed =>
      intro hclosed
      obtain hstate | ⟨-, hrelay, -⟩ := hstate
      · exact hstate
      · cases hclosed.symm.trans hrelay
    case lifetime => exact fun hlifetime => .inl hlifetime
    case fits => exact hfits
    case cancelling => exact hcancels
    case guards => exact (Nat.add_le_add_right hguards _).trans (Nat.add_le_add_left hrecord.2.ge _)
    case bare =>
      rintro _ ⟨⟩
      exact ⟨rfl, hlive⟩
    case release =>
      rintro _ recheck ⟨⟩ ⟨-, hsome⟩
      cases hreleases.symm.trans hsome
    case recheck =>
      intro recheck hr
      obtain hclosed | ⟨-, -, hfinished⟩ := hstate
      · exact .inr (.inr (.inl hclosed))
      · exact .inr (.inl (hfinished recheck hr))
    case installed =>
      intro recheck hr
      cases hrecord.1.symm.trans hr
    case started => rintro ⟨⟩
  · constructor
    case others =>
      intro other held _ hheld hheldFails
      obtain hclosed | ⟨-, hrelay, -⟩ := hstate
      · exact hclosed
      · exact absurd hheldFails (not_fails_of_state h (by simp [hrelay]) (by simp [hrelay]) hheld)
    case fails => exact fun hf => .inl (hfails hf)
    case attended =>
      intro hrechecking
      obtain hclosed | ⟨hrelay, -⟩ := hstate
      · cases hclosed.symm.trans hrechecking
      · cases hrelay.symm.trans hrechecking

theorem closeRecord_orderly {error : Option PathError} (hphase : task.phase = .closing error) :
    Orderly (s.closeRecord id task error) := by
  obtain ⟨moved, hclose, hstate, -, hrecheck, hactive⟩ := s.record.closeAtomic_closes
  rw [closeRecord, hclose]
  refine drop_orderly h hlookup (by rw [hphase]; rfl) ⟨hrecheck, hactive⟩ (fits_move (h.fits id task hlookup) hphase rfl)
    (fun _ => hstate) ?_ (by rw [hphase]; rfl) (.inl hstate) fun _ => hstate
  rw [Task.guards, Task.guards, Task.move, hphase]
  cases task.origin <;> exact le_rfl

theorem recheckRound_orderly {path : SelectedPath} {handle : TaskId} (hphase : task.phase = .rechecking path)
    (hstep : s.recheckRound id task path handle = some t) : Orderly t := by
  have hfits := h.fits id task hlookup
  rw [recheckRound] at hstep
  split at hstep
  · cases hstep
  case isFalse hfresh =>
      obtain hstop | ⟨old, hold, hfinished, hstate, hstart⟩ |
          ⟨recheck, moved, hnone, hstate, -, hhandle, hmoved, hmovedState, -, hactive, hstart⟩ :=
        s.record.startRecheck_cases s.isFinished s.nextToken handle
      · rw [hstop] at hstep
        obtain rfl := Option.some.inj hstep
        exact h.follow ⟨.refl s.record, .inl, rfl, rfl⟩ (.of_stage hlookup hphase (fits_move hfits hphase rfl) rfl rfl rfl (.inl rfl))
      · rw [hstart] at hstep
        obtain rfl := Option.some.inj hstep
        refine drop_orderly h hlookup (by rw [hphase]; rfl) ⟨rfl, rfl⟩ (fits_move hfits hphase rfl) ?_ ?_ (by rw [hphase]; rfl)
          (.inr ⟨hstate, hstate, ?_⟩) ?_
        · rintro ⟨⟩
        · rw [Task.guards, Task.guards, Task.move, hphase]
          cases task.origin <;> exact le_rfl
        · intro recheck hr
          obtain rfl := Option.some.inj (hold.symm.trans hr)
          exact hfinished
        · intro hfails
          rw [fails_of_stage (.inl rfl)] at hfails
          cases hfails
      · rw [hstart] at hstep
        obtain rfl := Option.some.inj hstep
        have hne : id ≠ handle := by
          rintro rfl
          rw [hlookup] at hfresh
          exact hfresh (by rintro ⟨⟩)
        have hinstalled := install_orderly h (not_not.mp hfresh) hnone hstate hhandle hmoved hmovedState hactive
          { origin := .background recheck.id recheck.cancellation 1
            caller := task.caller
            factory := true
            attempts := []
            phase := .sleeping } rfl rfl (s.nextToken + 1)
        refine hinstalled.follow (.refl _) (.of_stage ?_ hphase (fits_move hfits hphase rfl) rfl rfl rfl (.inl rfl))
        exact (lookup_put_of_ne hne).trans hlookup

/-- A recheck begins: it is the installed one, and the state leaves its relay path. -/
theorem beginning_orderly (hphase : task.phase = .beginning)
    (hstep : s.recheckSection id task s.record.beginBackgroundRecheck .building = some t) : Orderly t := by
  have hbackground := isBackground_of_phase h hlookup hphase rfl rfl
  have hlive : task.phase.isFinished = false := by rw [hphase]; rfl
  have hfits := h.fits id task hlookup
  rw [recheckSection] at hstep
  split at hstep
  case h_1 => cases hstep
  case h_2 recheckId _ =>
      obtain hrefused | ⟨moved, hbegun, -, hstate, hmoved, -, hrecheck, hactive⟩ := s.record.beginBackgroundRecheck_cases recheckId
      · rw [hrefused] at hstep
        obtain rfl := Option.some.inj hstep
        refine h.follow (.refl s) (.of_recheck hlookup hbackground hlive rfl rfl fun hbusy => ?_)
        rw [Task.busy, hphase] at hbusy
        simp [Phase.stage] at hbusy
      · rw [hbegun] at hstep
        obtain rfl := Option.some.inj hstep
        have hopen : s.record.state ≠ .closed := by simp [hstate]
        have hothers : ∀ other held, s.tasks.lookup other = some held → held.fails ≠ true := fun other held hheld =>
          not_fails_of_state h hopen (by simp [hstate]) hheld
        have hinstalled : s.Installed id := by
          obtain hclosed | hinstalled | ⟨op, held, recheck, hheld, hreleases, -⟩ := h.running id task hlookup hbackground hlive
          · exact absurd hclosed hopen
          · exact hinstalled
          · exact absurd hreleases.fails (hothers op held hheld)
        obtain ⟨_, _, _, horigin⟩ := isBackground_origin hbackground
        refine h.shift hlookup hlive hopen hrecheck ?_ rfl (fits_move hfits hphase rfl) rfl (by rw [hphase]; rfl)
          (fun other held _ => hothers other held) ?_ fun _ => ⟨?_, hinstalled⟩
        · rw [hactive, Task.guards, Task.move, horigin]
          exact Nat.add_le_add_right (Nat.zero_le _) _
        · rw [Task.fails, Task.move, horigin]
        · rw [Task.busy, Bool.and_eq_true]
          exact ⟨hbackground, rfl⟩

/-- A recheck that found nothing gives the relay path back. -/
theorem retrying_orderly (hphase : task.phase = .retrying)
    (hstep : s.recheckSection id task s.record.finishFailedRecheck .sleeping = some t) : Orderly t := by
  have hbackground := isBackground_of_phase h hlookup hphase rfl rfl
  have hlive : task.phase.isFinished = false := by rw [hphase]; rfl
  have hfits := h.fits id task hlookup
  rw [recheckSection] at hstep
  split at hstep
  case h_1 => cases hstep
  case h_2 recheckId hid =>
      obtain ⟨hsection, hrefused⟩ | ⟨moved, hsection, hrecordId, hstate, hmoved, -, hrecheck, hactive⟩ :=
        s.record.finishFailedRecheck_cases recheckId
      · rw [hsection] at hstep
        obtain rfl := Option.some.inj hstep
        refine h.follow (.refl s) (.of_recheck hlookup hbackground hlive rfl rfl fun _ hrechecking hinstalled => ?_)
        obtain ⟨recheckId', hid', hrecordId⟩ := recheckId_of_installed h hinstalled hlookup
        obtain rfl := Option.some.inj (hid.symm.trans hid')
        obtain hother | hother := hrefused
        · exact absurd hrecordId hother
        · exact absurd hrechecking hother
      · rw [hsection] at hstep
        obtain rfl := Option.some.inj hstep
        have hopen : s.record.state ≠ .closed := by simp [hstate]
        obtain ⟨_, _, _, horigin⟩ := isBackground_origin hbackground
        refine h.shift hlookup hlive hopen hrecheck ?_ rfl (fits_move hfits hphase rfl) rfl (by rw [hphase]; rfl)
          (fun other held _ hheld => not_fails_of_recheckId h hopen (by simp [hrecordId]) hheld) ?_ fun hrechecking => ?_
        · rw [hactive, Task.guards, Task.move, horigin]
          exact Nat.add_le_add_right (Nat.zero_le _) _
        · rw [Task.fails, Task.move, horigin]
        · cases hmoved.symm.trans hrechecking

theorem stopBackground_orderly (hdistinct : Distinct s) (hbackground : task.isBackground = true)
    (hlive : task.phase.isFinished = false) (hstep : s.stopBackground id task = some t) : Orderly t := by
  rw [stopBackground] at hstep
  split at hstep
  case isTrue hstopped =>
      obtain rfl := Option.some.inj hstep
      refine h.follow (.refl s) (.of_recheck hlookup hbackground hlive rfl rfl fun _ hstate hinstalled => ?_)
      rw [not_stopped hdistinct h (by simp [hstate]) hinstalled hlookup] at hstopped
      cases hstopped
  case isFalse => cases hstep

theorem sleepRound_orderly {choice : Choice} (hdistinct : Distinct s) (hphase : task.phase = .sleeping)
    (hstep : s.sleepRound id task choice = some t) : Orderly t := by
  have hbackground := isBackground_of_phase h hlookup hphase rfl rfl
  rw [sleepRound.eq_def] at hstep
  split at hstep
  case h_1 => exact stopBackground_orderly h hlookup hdistinct hbackground (by rw [hphase]; rfl) hstep
  case h_2 =>
      obtain rfl := Option.some.inj hstep
      exact h.follow (.refl s) (.of_stage hlookup hphase (fits_move (h.fits id task hlookup) hphase rfl) rfl rfl rfl (.inl rfl))
  case h_3 => cases hstep

/-- The factory's answer lets the recheck go on, or the manager is closed. -/
theorem buildRound_orderly {choice : Choice} (hdistinct : Distinct s) (hphase : task.phase = .building)
    (hanswer : s.record.state = .closed ∨ choice.resumes = true) (hstep : s.buildRound id task choice = some t) : Orderly t := by
  have hbackground := isBackground_of_phase h hlookup hphase rfl rfl
  have hlive : task.phase.isFinished = false := by rw [hphase]; rfl
  have hended : ∀ {result}, choice.resumes = false → Orderly (s.put id (task.move (.done result))) := by
    intro result hfalse
    refine h.follow (.refl s) (.of_recheck hlookup hbackground hlive rfl rfl fun _ hrechecking _ => ?_)
    obtain hclosed | htrue := hanswer
    · cases hclosed.symm.trans hrechecking
    · cases hfalse.symm.trans htrue
  have hbare : task.advanceGeneration.origin.bare = task.origin.bare := by
    obtain ⟨_, _, _, horigin⟩ := isBackground_origin hbackground
    simp only [Task.advanceGeneration, horigin, Origin.bare]
  rw [buildRound.eq_def] at hstep
  split at hstep
  case h_1 => exact stopBackground_orderly h hlookup hdistinct hbackground hlive hstep
  case h_2 attempts =>
      split at hstep
      case isTrue hempty =>
          obtain rfl := Option.some.inj hstep
          exact hended (by rw [Choice.resumes, hempty]; rfl)
      case isFalse =>
          obtain rfl := Option.some.inj hstep
          exact h.follow (.refl s) (.of_recheck hlookup hbackground hlive hbare rfl fun _ _ _ => rfl)
  case h_3 error =>
      split at hstep
      case isTrue hcancelled =>
          obtain rfl := Option.some.inj hstep
          exact hended (by rw [hcancelled]; rfl)
      case isFalse =>
          obtain rfl := Option.some.inj hstep
          exact h.follow (.refl s) (.of_recheck hlookup hbackground hlive hbare rfl fun _ _ _ => rfl)
  case h_4 => cases hstep

theorem cancel_orderly {resources : OwnedResources} {error : Option PathError} (hphase : task.phase = .cancelling resources error) :
    Orderly (s.cancelLifetime.put id (task.move (if task.origin = .drop then .dropping else .releasing resources (.wait error)))) := by
  have hfits := h.fits id task hlookup
  have hdrop : task.origin ≠ .drop := by
    intro hdrop
    rw [Task.fits, hdrop] at hfits
    cases hfits
  rw [if_neg hdrop]
  have hclosed := h.cancelling id task hlookup (by rw [hphase]; rfl)
  exact h.follow ⟨.refl s.record, fun _ => .inr hclosed, rfl, rfl⟩
    (.of_stage hlookup hphase (fits_move hfits hphase rfl) rfl rfl rfl (.inl rfl))

theorem finish_orderly {path : SelectedPath} (hphase : task.phase = .finishing path) : Orderly (s.finish id task path) := by
  have hgive : ∀ result, Orderly ((s.setRecord s.record.dropOperation).put id (task.move (.done result))) := fun _ =>
    giveBack_orderly h hlookup hphase rfl rfl rfl rfl rfl rfl (.inl ⟨rfl, rfl⟩)
  rw [finish]
  split
  case h_1 record hfinish =>
      obtain ⟨-, rfl⟩ := Prod.mk.inj hfinish
      exact hgive _
  case h_2 record hfinish =>
      obtain ⟨-, rfl⟩ := Prod.mk.inj hfinish
      exact hgive _

theorem waitRound_orderly {error : Option PathError} (hphase : task.phase = .waiting error)
    (hstep : s.waitRound id task error = some t) : Orderly t := by
  rw [waitRound.eq_def] at hstep
  split at hstep
  · obtain rfl := Option.some.inj hstep
    exact h.follow (.refl s) (.of_stage hlookup hphase (fits_move (h.fits id task hlookup) hphase rfl) rfl rfl rfl (.inl rfl))
  · cases hstep

theorem returned_orderly {winner : RaceWinner} (hphase : task.phase = .draining (.ok winner)) :
    Orderly (s.returnRace id task (.ok winner)) := by
  have hput : Orderly (s.put id (task.move (.won winner))) :=
    h.follow (.refl s) (.of_stage hlookup hphase (fits_move (h.fits id task hlookup) hphase rfl) rfl rfl rfl (.inl rfl))
  exact ⟨hput.callers, hput.lifetime, hput.fits, hput.cancelling, hput.guards, hput.installed, hput.fails, hput.alone,
    hput.running, hput.attended⟩

theorem advance_orderly {choice : Choice} (hdistinct : Distinct s)
    (hanswer : task.phase = .building → s.record.state = .closed ∨ choice.resumes = true)
    (hstep : s.advance id task choice = some t) : Orderly t := by
  have hfits := h.fits id task hlookup
  rw [advance] at hstep
  cases hphase : task.phase with
  | releasing resources after =>
      rw [hphase] at hstep
      exact release_orderly h hlookup hphase hstep
  | starting =>
      rw [hphase] at hstep
      obtain rfl := Option.some.inj hstep
      exact h.follow (.of_spawned (spawnGroup_spawned s _ _))
        (.of_stage hlookup hphase (fits_move hfits hphase rfl) rfl rfl rfl (.inl rfl))
  | racing race =>
      rw [hphase] at hstep
      exact raceRound_orderly h hlookup hdistinct hphase hstep
  | cleaning running outcome =>
      rw [hphase] at hstep
      obtain rfl := Option.some.inj hstep
      refine h.follow (.of_cancel s _) (.of_stage hlookup hphase (fits_move hfits hphase rfl) rfl ?_ rfl (.inl rfl))
      cases outcome with
      | ok winner => rfl
      | error error => cases error <;> rfl
  | draining outcome =>
      rw [hphase] at hstep
      obtain rfl := Option.some.inj hstep
      cases outcome with
      | ok winner => exact returned_orderly h hlookup hphase
      | error error => exact lost_orderly h hlookup hphase
  | won winner =>
      rw [hphase] at hstep
      obtain rfl := Option.some.inj hstep
      exact own_orderly h hlookup hphase
  | committing owner =>
      rw [hphase] at hstep
      obtain rfl := Option.some.inj hstep
      exact commit_orderly h hlookup hphase
  | shedding owner error =>
      rw [hphase] at hstep
      obtain rfl := Option.some.inj hstep
      exact h.follow (.of_cancel s _) (.of_stage hlookup hphase (fits_move hfits hphase rfl) rfl rfl rfl (.inl rfl))
  | shed error =>
      rw [hphase] at hstep
      obtain rfl := Option.some.inj hstep
      exact refused_orderly h hlookup hphase
  | displacing old path =>
      rw [hphase] at hstep
      obtain rfl := Option.some.inj hstep
      exact h.follow (.of_cancel s _) (.of_stage hlookup hphase (fits_move hfits hphase rfl) rfl rfl rfl (.inl rfl))
  | displaced path =>
      rw [hphase] at hstep
      obtain rfl := Option.some.inj hstep
      exact installed_orderly h hlookup hphase
  | rechecking path =>
      rw [hphase] at hstep
      cases choice with
      | spawned handle => exact recheckRound_orderly h hlookup hphase hstep
      | _ => cases hstep
  | stopping recheck path =>
      rw [hphase] at hstep
      obtain rfl := Option.some.inj hstep
      exact h.follow (.of_cancel s _) (.of_stage hlookup hphase (fits_move hfits hphase rfl) rfl rfl rfl (.inl rfl))
  | finishing path =>
      rw [hphase] at hstep
      obtain rfl := Option.some.inj hstep
      exact finish_orderly h hlookup hphase
  | abandoning error =>
      rw [hphase] at hstep
      obtain rfl := Option.some.inj hstep
      exact giveBack_orderly h hlookup hphase rfl rfl rfl rfl rfl rfl (.inr ⟨rfl, rfl⟩)
  | closing error =>
      rw [hphase] at hstep
      obtain rfl := Option.some.inj hstep
      exact closeRecord_orderly h hlookup hphase
  | cancelling resources error =>
      rw [hphase] at hstep
      obtain rfl := Option.some.inj hstep
      exact cancel_orderly h hlookup hphase
  | waiting error =>
      rw [hphase] at hstep
      exact waitRound_orderly h hlookup hphase hstep
  | sleeping =>
      rw [hphase] at hstep
      exact sleepRound_orderly h hlookup hdistinct hphase hstep
  | beginning =>
      rw [hphase] at hstep
      exact beginning_orderly h hlookup hphase hstep
  | building =>
      rw [hphase] at hstep
      exact buildRound_orderly h hlookup hdistinct hphase (hanswer hphase) hstep
  | retrying =>
      rw [hphase] at hstep
      exact retrying_orderly h hlookup hphase hstep
  | dropping =>
      rw [Task.fits, hphase] at hfits
      cases horigin : task.origin <;> rw [horigin] at hfits <;> cases hfits
  | done result | dropped =>
      rw [hphase] at hstep
      cases hstep

end Steps

end Rustgo.Path.System
