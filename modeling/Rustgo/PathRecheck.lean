import Rustgo.PathSteps

namespace Rustgo.Path

open Tables Runs

/-- No caller is cancelled, and neither a call nor the manager is dropped. -/
def Label.ordinary : Label → Bool
  | .connect _ _ _ _ | .reportFailed _ _ _ _ | .close _ | .watch _ _ | .run _ _ => true
  | .dropManager _ | .cancelCaller _ | .drop _ => false

namespace System

variable {s t u : System} {id : TaskId} {task after : Task}

/-- A call that starts without touching the record: one that is refused, or a close. -/
theorem start_orderly (h : Orderly s) (hfresh : s.tasks.lookup id = none) (horigin : after.isBackground = false)
    (hfits : after.fits = true) (hcancels : after.phase.cancels = false) (hguards : after.guards = 0)
    (hfails : after.fails = false) : Orderly (s.put id after) := by
  refine h.put none ?_ (.inl ?_)
  · constructor
    case lookup => exact hfresh
    case tasks | callers => rfl
    case closed => exact fun hclosed => hclosed
    case lifetime => exact fun hlifetime => .inl hlifetime
    case fits => exact hfits
    case cancelling =>
      intro hc
      cases hcancels.symm.trans hc
    case guards => rw [hguards, Option.elim_none]
    case bare => rintro _ ⟨⟩
    case release => rintro _ _ ⟨⟩
    case recheck => exact fun _ hr => .inl hr
    case installed => exact fun _ hr => .inl hr
    case started =>
      intro _ hbackground
      cases horigin.symm.trans hbackground
  · refine ⟨rfl, rfl, ?_, ?_⟩
    · rw [hfails]
      constructor
      · rintro ⟨⟩
      · rintro ⟨_, ⟨⟩, -⟩
    · rintro _ ⟨⟩

theorem connect_orderly {caller : Caller} {factory : Bool} {attempts : List PathKind} (h : Orderly s)
    (hstep : s.next (.connect id caller factory attempts) = some t) : Orderly t := by
  simp only [next] at hstep
  split at hstep
  · cases hstep
  case isFalse hadmits =>
      have hfresh := lookup_of_admits hadmits
      split at hstep
      case h_1 record hbegin =>
          obtain rfl := Option.some.inj hstep
          obtain ⟨hstate, hmoved, -, hrecheck, hactive⟩ := ManagerRecord.begin_starts hbegin
          refine h.put none ?_ (.inr ?_)
          · constructor
            case lookup => exact hfresh
            case tasks | callers | fits => rfl
            case closed =>
              intro hclosed
              cases hclosed.symm.trans hstate
            case lifetime => exact fun hlifetime => .inl hlifetime
            case cancelling => rintro ⟨⟩
            case guards =>
              show 1 + s.record.activeOperations ≤ 0 + record.activeOperations
              omega
            case bare => rintro _ ⟨⟩
            case release => rintro _ _ ⟨⟩
            case recheck => exact fun _ hr => .inl (hrecheck.trans hr)
            case installed => exact fun _ hr => .inl (hrecheck.symm.trans hr)
            case started => rintro - ⟨⟩
          · constructor
            case others =>
              intro other held _ hheld hfails
              exact absurd hfails (not_fails_of_state h (by simp [hstate]) (by simp [hstate]) hheld)
            case fails => rintro ⟨⟩
            case attended =>
              intro hrechecking
              cases hmoved.symm.trans hrechecking
      case h_2 =>
          obtain rfl := Option.some.inj hstep
          exact start_orderly h hfresh rfl rfl rfl rfl rfl

theorem reportFailed_orderly {caller : Caller} {factory : Bool} {attempts : List PathKind} (h : Orderly s)
    (hstep : s.next (.reportFailed id caller factory attempts) = some t) : Orderly t := by
  simp only [next] at hstep
  split at hstep
  · cases hstep
  case isFalse hadmits =>
      have hfresh := lookup_of_admits hadmits
      split at hstep
      case h_1 resources record hbegin =>
          obtain rfl := Option.some.inj hstep
          obtain ⟨hstate, hmoved, hresources, -, hrecheck, hactive⟩ := ManagerRecord.beginFailure_starts hbegin
          have hopen : s.record.state ≠ .closed ∧ s.record.state ≠ .rechecking := by
            obtain hstate | hstate := hstate
            · simp [hstate]
            · simp [hstate]
          refine h.put none ?_ (.inr ?_)
          · constructor
            case lookup => exact hfresh
            case tasks | callers | fits => rfl
            case closed => exact fun hclosed => absurd hclosed hopen.1
            case lifetime => exact fun hlifetime => .inl hlifetime
            case cancelling => rintro ⟨⟩
            case guards =>
              show 1 + s.record.activeOperations ≤ 0 + record.activeOperations
              omega
            case bare => rintro _ ⟨⟩
            case release => rintro _ _ ⟨⟩
            case recheck =>
              intro recheck hr
              refine .inr (.inr (.inr ⟨rfl, ?_⟩))
              rw [hresources]
              exact hr
            case installed =>
              intro recheck hr
              cases hrecheck.symm.trans hr
            case started => rintro - ⟨⟩
          · constructor
            case others =>
              intro other held _ hheld hfails
              exact absurd hfails (not_fails_of_state h hopen.1 hopen.2 hheld)
            case fails => exact fun _ => .inr ⟨hmoved, hrecheck⟩
            case attended => exact fun _ => .inl rfl
      case h_2 =>
          obtain rfl := Option.some.inj hstep
          exact start_orderly h hfresh rfl rfl rfl rfl rfl

/-- An operation is active: it is in the record's count, or has left the count
to close the manager next. -/
def Active (s : System) : Prop :=
  0 < s.record.activeOperations ∨
    ∃ id task error, s.tasks.lookup id = some task ∧ task.origin = .reportFailed ∧ task.phase = .closing error

/-- A manager in `rechecking` has someone who takes it out of there. -/
def Attended (s : System) : Prop :=
  s.record.state = .rechecking → s.Active ∨
    ∃ recheck task, s.record.recheck = some recheck ∧ s.tasks.lookup recheck.handle = some task ∧
      task.recheckId = some recheck.id ∧ task.phase.isFinished = false

theorem closing_of_leaving {phase : Phase} (h : phase.stage = .leaving) : ∃ error, phase = .closing error := by
  cases phase with
  | closing error => exact ⟨error, rfl⟩
  | releasing resources after => cases after <;> cases h
  | cleaning running outcome | draining outcome =>
      cases outcome with
      | ok => cases h
      | error error => cases error <;> cases h
  | _ => cases h

/-- A reported failure holds its guard until it leaves to close the manager. -/
theorem active_of_fails (h : Orderly s) (hlookup : s.tasks.lookup id = some task) (hfails : task.fails = true) : s.Active := by
  have hle := (le_total (fun _ task => task.guards) hlookup).trans h.guards
  rw [Task.fails] at hfails
  rw [Task.guards] at hle
  cases horigin : task.origin with
  | reportFailed =>
      rw [horigin] at hfails hle
      cases hstage : task.phase.stage with
      | attempting | retreating =>
          rw [hstage] at hle
          exact .inl hle
      | leaving =>
          obtain ⟨error, hphase⟩ := closing_of_leaving hstage
          exact .inr ⟨id, task, error, hlookup, horigin, hphase⟩
      | _ =>
          rw [hstage] at hfails
          cases hfails
  | _ =>
      rw [horigin] at hfails
      cases hfails

theorem Orderly.isAttended (h : Orderly s) : s.Attended := by
  intro hrechecking
  obtain ⟨id, task, hlookup, hfails⟩ | ⟨id, task, hinstalled, hlookup, hbusy⟩ := h.attended hrechecking
  · exact .inl (active_of_fails h hlookup hfails)
  · obtain ⟨recheck, hrecheck, rfl⟩ := hinstalled
    obtain ⟨_, hid, hrecordId⟩ := recheckId_of_installed h ⟨recheck, hrecheck, rfl⟩ hlookup
    rw [ManagerRecord.recheckId, hrecheck, Option.map_some] at hrecordId
    refine .inr ⟨recheck, task, hrecheck, hlookup, hid.trans hrecordId.symm, ?_⟩
    rw [Task.busy, Bool.and_eq_true, decide_eq_true_eq] at hbusy
    cases hphase : task.phase with
    | done | dropped =>
        rw [hphase] at hbusy
        cases hbusy.2
    | _ => rfl

/-- The factory of a recheck that asks it answers with attempts, or with an
error that is not a cancellation; in a closed manager it may answer anything. -/
def answered (s : System) : Label → Bool
  | .run id choice => s.record.state = .closed || (s.tasks.lookup id).all fun task => task.phase ≠ .building || choice.resumes
  | _ => true

theorem step_orderly {l : Label} (hdistinct : Distinct s) (h : Orderly s) (hordinary : l.ordinary = true)
    (hanswered : s.answered l = true) (hstep : Step s l t) : Distinct t ∧ Orderly t := by
  cases l with
  | connect id caller factory attempts => exact ⟨hdistinct.step (connect_hands hstep), connect_orderly h hstep⟩
  | reportFailed id caller factory attempts =>
      exact ⟨hdistinct.step (reportFailed_hands hstep), reportFailed_orderly h hstep⟩
  | close id =>
      simp only [Step, next] at hstep
      split at hstep
      · cases hstep
      case isFalse hadmits =>
          obtain rfl := Option.some.inj hstep
          have hfresh := lookup_of_admits hadmits
          exact ⟨hdistinct.step (.of_fresh ⟨rfl, rfl, rfl, rfl⟩ rfl rfl), start_orderly h hfresh rfl rfl rfl rfl rfl⟩
  | watch caller token =>
      simp only [Step, next, h.callers] at hstep
      split at hstep
      case isTrue hwatch => cases hwatch.2
      case isFalse => cases hstep
  | run id choice =>
      simp only [Step, next] at hstep
      split at hstep
      case h_1 => cases hstep
      case h_2 task hlookup =>
          refine ⟨hdistinct.step (advance_hands hlookup hstep), advance_orderly h hlookup hdistinct (fun hphase => ?_) hstep⟩
          simpa [answered, hlookup, hphase] using hanswered
  | dropManager | cancelCaller | drop => cases hordinary

theorem orderly_of_run {labels : List Label} (h : Run (Restricted Step fun s l => l.ordinary = true ∧ s.answered l = true) new labels s) :
    Distinct s ∧ Orderly s := by
  refine h.invariant (P := fun s => Distinct s ∧ Orderly s) (fun s l t hs hstep => ?_) ⟨⟨?_, ?_⟩, ?_⟩
  · exact step_orderly hs.1 hs.2 hstep.2.1 hstep.2.2 hstep.1
  · rintro token (hcancelled | hselected | ⟨id, task, hlookup, -⟩)
    · cases hcancelled
    · cases hselected
    · cases hlookup
  · rintro recheck ⟨⟩
  · constructor
    case callers | guards => rfl
    case lifetime | attended => rintro ⟨⟩
    case installed => rintro _ ⟨⟩
    case fits | cancelling | fails | running => rintro _ _ ⟨⟩
    case alone => rintro _ _ _ _ _ ⟨⟩

/-- While no caller is cancelled and every factory that is asked answers with
attempts or an error other than a cancellation, a manager in `rechecking` has
an active operation or an unfinished task that is its installed recheck. -/
theorem rechecking_attended {labels : List Label}
    (h : Run (Restricted Step fun s l => l.ordinary = true ∧ s.answered l = true) new labels s) : s.Attended :=
  (orderly_of_run h).2.isAttended

/-- One task connects over its relay attempt and installs a recheck, which
sleeps once and asks its factory. -/
def relayRecheck : List Label :=
  [.connect 0 0 true [.relay], .run 0 .go, .run 0 .relayDue, .run 0 (.joined 0 (.ok ⟨.relay⟩)), .run 0 .go, .run 0 .go,
    .run 0 .go, .run 0 .go, .run 0 (.spawned 1), .run 0 .go, .run 1 .slept, .run 1 .go]

theorem rechecking_attended_while_racing :
    ∃ s, Run (Restricted Step fun s l => l.ordinary = true ∧ s.answered l = true) new
        (relayRecheck ++ [.run 1 (.created (.ok [.quicV4]))]) s ∧ s.record.state = .rechecking ∧ s.Attended := by
  obtain ⟨s, hrun, hstate⟩ := run_of_exec_any (P := fun s => s.record.state = .rechecking)
    (restricted_of_restrict fun _ _ _ h => h)
    (show (exec (restrict next fun s l => l.ordinary = true ∧ s.answered l = true) new
      (relayRecheck ++ [.run 1 (.created (.ok [.quicV4]))])).any _ = true by decide +kernel)
  exact ⟨s, hrun, hstate, rechecking_attended hrun⟩

theorem not_attended_of_finished (hstate : s.record.state = .rechecking) (hactive : s.record.activeOperations = 0)
    (hfinished : ∀ id ∈ s.tasks.keys, s.isFinished id = true) : ¬ s.Attended := by
  have hall : ∀ id task, s.tasks.lookup id = some task → task.phase.isFinished = true := by
    intro id task hlookup
    have hid := hfinished id (Finmap.mem_keys.mpr (Finmap.mem_of_lookup_eq_some hlookup))
    rwa [isFinished, hlookup, Option.all_some] at hid
  intro h
  obtain (hpos | ⟨id, task, error, hlookup, -, hphase⟩) | ⟨recheck, task, -, hlookup, -, hlive⟩ := h hstate
  · exact absurd hactive hpos.ne'
  · cases (hphase ▸ hall id task hlookup :)
  · cases hlive.symm.trans (hall _ task hlookup)

/-- A factory with no direct attempt to offer answers with none, and leaves the
relay path in `rechecking`, where a reported failure is refused. -/
theorem empty_answer_unattended :
    ∃ s, Run (Restricted Step fun _ l => l.ordinary = true) new (relayRecheck ++ [.run 1 (.created (.ok []))]) s ∧
      ¬ s.Attended ∧ ∃ t, s.next (.reportFailed 2 0 true [.relay]) = some t ∧
        t.tasks.lookup 2 = some ⟨.reportFailed, 0, true, [.relay], .done (.error (.illegalTransition .rechecking .rechecking))⟩ := by
  obtain ⟨s, hrun, ⟨hstate, hactive, hfinished⟩, hrefused⟩ := run_of_exec_any
    (P := fun s => (s.record.state = .rechecking ∧ s.record.activeOperations = 0 ∧
        ∀ id ∈ s.tasks.keys, s.isFinished id = true) ∧
      (s.next (.reportFailed 2 0 true [.relay])).any (fun t => t.tasks.lookup 2 =
        some ⟨.reportFailed, 0, true, [.relay], .done (.error (.illegalTransition .rechecking .rechecking))⟩) = true)
    (restricted_of_restrict fun _ _ _ h => h)
    (show (exec (restrict next fun _ l => l.ordinary = true) new (relayRecheck ++ [.run 1 (.created (.ok []))])).any _ = true by
      decide +kernel)
  refine ⟨s, hrun, not_attended_of_finished hstate hactive hfinished, ?_⟩
  obtain ⟨t, ht, hlookup⟩ := Option.any_eq_true _ _ |>.mp hrefused
  exact ⟨t, ht, of_decide_eq_true hlookup⟩

end System

end Rustgo.Path
