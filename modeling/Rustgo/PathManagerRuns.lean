import Rustgo.PathManager
import Rustgo.Runs

namespace Rustgo.Path.System

open Tables Runs

variable {s t u : System} {id : TaskId} {task : Task} {winner : RaceWinner}

def Selected (s : System) (winner : RaceWinner) : Prop := s.record.selected.map OwnedSelected.winner = some winner

def Cancelled (s : System) (winner : RaceWinner) : Prop := s.isCancelled winner.cancellation = true

/-- The task is between taking the path and installing or cancelling it. -/
def HeldBy (s : System) (id : TaskId) (winner : RaceWinner) : Prop :=
  ∃ task, s.tasks.lookup id = some task ∧ task.phase.held = some winner

def Accounted (s : System) (winner : RaceWinner) : Prop :=
  s.Selected winner ∨ s.Cancelled winner ∨ ∃ id, s.HeldBy id winner

/-- What every step respects. -/
structure Effect (s t : System) : Prop where
  record : s.record.Moves t.record
  accounted : ∀ winner, s.Accounted winner → t.Accounted winner
  returned : ∀ winner ∈ t.returned, winner ∈ s.returned ∨ t.Accounted winner

theorem Effect.trans (hs : Effect s t) (ht : Effect t u) : Effect s u where
  record := ⟨fun h => ht.record.agrees (hs.record.agrees h), fun h => ht.record.closed (hs.record.closed h)⟩
  accounted winner h := ht.accounted winner (hs.accounted winner h)
  returned winner h := by
    obtain hold | hnew := ht.returned winner h
    · exact (hs.returned winner hold).imp_right (ht.accounted winner)
    · exact .inr hnew

/-- The tasks and the selected path are as they were, and no token comes back. -/
structure Grows (s u : System) : Prop where
  record : s.record.Moves u.record
  selected : u.record.selected = s.record.selected
  cancelled : ∀ token, s.isCancelled token = true → u.isCancelled token = true
  tasks : u.tasks = s.tasks
  returned : u.returned = s.returned

namespace Grows

theorem refl (s : System) : Grows s s := ⟨.of_eq rfl rfl rfl, rfl, fun _ h => h, rfl, rfl⟩

theorem of_record {record : ManagerRecord} (h : s.record.Moves record ∧ record.selected = s.record.selected) :
    Grows s (s.setRecord record) := ⟨h.1, h.2, fun _ h => h, rfl, rfl⟩

end Grows

theorem isCancelled_cancel {tokens : List Token} {token : Token} (h : s.isCancelled token = true) :
    (s.cancel tokens).isCancelled token = true := by
  simp only [isCancelled, cancel, Bool.or_eq_true, List.contains_iff_mem, List.mem_append] at h ⊢
  exact h.imp_right .inl

theorem isCancelled_cancel_of_mem {tokens : List Token} {token : Token} (h : token ∈ tokens) :
    (s.cancel tokens).isCancelled token = true := by
  simp only [isCancelled, cancel, Bool.or_eq_true, List.contains_iff_mem, List.mem_append]
  exact .inr (.inr h)

theorem Grows.cancel (s : System) (tokens : List Token) : Grows s (s.cancel tokens) :=
  ⟨.of_eq rfl rfl rfl, rfl, fun _ h => isCancelled_cancel h, rfl, rfl⟩

theorem Grows.cancelLifetime (s : System) : Grows s s.cancelLifetime :=
  ⟨.of_eq rfl rfl rfl, rfl, fun _ _ => by simp [isCancelled, System.cancelLifetime], rfl, rfl⟩

theorem Grows.attemptFailed (s : System) (attempt : RunningAttempt) : Grows s (s.attemptFailed attempt) :=
  ⟨(s.record.recordEvent_moves _).1, (s.record.recordEvent_moves _).2, fun _ h => isCancelled_cancel h, rfl, rfl⟩

theorem Grows.trans (hs : Grows s t) (ht : Grows t u) : Grows s u where
  record := ⟨fun h => ht.record.agrees (hs.record.agrees h), fun h => ht.record.closed (hs.record.closed h)⟩
  selected := ht.selected.trans hs.selected
  cancelled token h := ht.cancelled token (hs.cancelled token h)
  tasks := ht.tasks.trans hs.tasks
  returned := ht.returned.trans hs.returned

theorem Grows.spawnGroup (s : System) (race : Race) (group : List PathKind) :
    Grows s (s.spawnGroup race group).1 := by
  induction group generalizing s race with
  | nil => exact .refl s
  | cons kind group ih =>
      have hone : Grows s
          { s with record := s.record.recordEvent (.attemptStarted kind), nextToken := s.nextToken + 1 } :=
        ⟨(s.record.recordEvent_moves _).1, (s.record.recordEvent_moves _).2, fun _ h => h, rfl, rfl⟩
      exact hone.trans (ih _ _)

theorem HeldBy.put_of_ne {other : TaskId} (h : s.HeldBy other winner) (hne : other ≠ id) :
    (s.put id task).HeldBy other winner := by
  obtain ⟨held, hlookup, hheld⟩ := h
  exact ⟨held, (Finmap.lookup_insert_of_ne _ hne).trans hlookup, hheld⟩

theorem heldBy_put (h : task.phase.held = some winner) : (s.put id task).HeldBy id winner :=
  ⟨task, Finmap.lookup_insert _, h⟩

/-- The state under a task's new phase has grown, and what the task held is
accounted for. -/
theorem Effect.of_grows (h : Grows s u) (hheld : ∀ winner, s.HeldBy id winner → (u.put id task).Accounted winner) :
    Effect s (u.put id task) where
  record := h.record
  accounted winner ha := by
    obtain hselected | hcancelled | ⟨other, hother⟩ := ha
    · refine .inl ?_
      rw [Selected, put, h.selected]
      exact hselected
    · exact .inr (.inl (h.cancelled _ hcancelled))
    · by_cases hid : other = id
      · subst hid
        exact hheld winner hother
      · have hu : u.HeldBy other winner := by
          obtain ⟨held, hlookup, hphase⟩ := hother
          exact ⟨held, by rw [h.tasks, hlookup], hphase⟩
        exact .inr (.inr ⟨other, hu.put_of_ne hid⟩)
  returned winner hw := .inl (h.returned ▸ hw)

theorem not_heldBy (hlookup : s.tasks.lookup id = some task) (hfree : task.phase.held = none) :
    ¬ s.HeldBy id winner := by
  rintro ⟨held, hheld, hphase⟩
  obtain rfl := Option.some.inj (hlookup.symm.trans hheld)
  rw [hfree] at hphase
  cases hphase

theorem not_heldBy_fresh (hlookup : s.tasks.lookup id = none) : ¬ s.HeldBy id winner := by
  rintro ⟨held, hheld, -⟩
  rw [hlookup] at hheld
  cases hheld

/-- A task that held nothing goes on. -/
theorem Effect.of_free {after : Task} (hlookup : s.tasks.lookup id = some task) (hfree : task.phase.held = none)
    (h : Grows s u) : Effect s (u.put id after) :=
  .of_grows h fun _ hheld => absurd hheld (not_heldBy hlookup hfree)

theorem Effect.of_fresh (hlookup : s.tasks.lookup id = none) (h : Grows s u) : Effect s (u.put id task) :=
  .of_grows h fun _ hheld => absurd hheld (not_heldBy_fresh hlookup)

/-- The selected path is given up: the record lets go of it and its token is cancelled. -/
theorem Effect.of_taken {record : ManagerRecord} {resources : OwnedResources} {after : Task}
    (hfree : ∀ winner, ¬ s.HeldBy id winner)
    (h : s.record.Moves record ∧ resources = s.record.resources ∧ record.selected = none) :
    Effect s (((s.setRecord record).cancel resources.tokens).put id after) where
  record := h.1
  accounted winner ha := by
    obtain ⟨-, rfl, -⟩ := h
    obtain hselected | hcancelled | ⟨other, hother⟩ := ha
    · obtain ⟨owner, howner, rfl⟩ := Option.map_eq_some_iff.mp hselected
      have hmem : owner.cancellation ∈ s.record.resources.tokens := by
        simp [OwnedResources.tokens, ManagerRecord.resources, howner]
      have hcancelled : ((s.setRecord record).cancel s.record.resources.tokens).isCancelled owner.cancellation = true :=
        isCancelled_cancel_of_mem hmem
      exact .inr (.inl hcancelled)
    · exact .inr (.inl (isCancelled_cancel hcancelled))
    · have hne : other ≠ id := by
        rintro rfl
        exact hfree winner hother
      have hu : ((s.setRecord record).cancel s.record.resources.tokens).HeldBy other winner := hother
      exact .inr (.inr ⟨other, hu.put_of_ne hne⟩)
  returned winner hw := .inl hw

theorem heldBy_eq {held : RaceWinner} (hlookup : s.tasks.lookup id = some task) (hphase : task.phase.held = some held)
    (h : s.HeldBy id winner) : winner = held := by
  obtain ⟨found, hfound, hwinner⟩ := h
  obtain rfl := Option.some.inj (hlookup.symm.trans hfound)
  exact Option.some.inj (hwinner.symm.trans hphase)

theorem raceRound_effect {race : Race} {choice : Choice} (hlookup : s.tasks.lookup id = some task)
    (hfree : task.phase.held = none) (h : s.raceRound id task race choice = some t) : Effect s t := by
  rw [raceRound.eq_def] at h
  split at h
  case h_1 =>
      split at h
      · cases h
      · obtain rfl := Option.some.inj h
        exact .of_free hlookup hfree (.spawnGroup s _ _)
  case h_2 =>
      split at h
      · cases h
      split at h
      · obtain rfl := Option.some.inj h
        exact .of_free hlookup hfree (.refl s)
      split at h
      case h_1 =>
          split at h
          · obtain rfl := Option.some.inj h
            exact .of_free hlookup hfree (.refl s)
          · cases h
      case h_2 =>
          split at h
          case h_1 => cases h
          case h_2 =>
              split at h
              case h_1 =>
                  split at h
                  · obtain rfl := Option.some.inj h
                    exact .of_free hlookup hfree (.refl s)
                  · obtain rfl := Option.some.inj h
                    exact .of_free hlookup hfree (.attemptFailed s _)
              case h_2 =>
                  obtain rfl := Option.some.inj h
                  exact .of_free hlookup hfree (.attemptFailed s _)
      case h_3 =>
          split at h
          case h_1 => cases h
          case h_2 =>
              obtain rfl := Option.some.inj h
              exact .of_free hlookup hfree (.attemptFailed s _)
      case h_4 => cases h

theorem recheckRound_effect {path : SelectedPath} {handle : TaskId} (hlookup : s.tasks.lookup id = some task)
    (hfree : task.phase.held = none) (h : s.recheckRound id task path handle = some t) : Effect s t := by
  have hmoves := s.record.startRecheck_moves s.isFinished s.nextToken handle
  rw [recheckRound] at h
  split at h
  · cases h
  case isFalse hfresh =>
      split at h
      case h_1 record hstart =>
          rw [hstart] at hmoves
          obtain rfl := Option.some.inj h
          exact .of_free hlookup hfree (.of_record hmoves)
      case h_2 recheck record hstart =>
          rw [hstart] at hmoves
          obtain rfl := Option.some.inj h
          exact .of_free hlookup hfree (.of_record hmoves)
      case h_3 recheck record hstart =>
          rw [hstart] at hmoves
          obtain rfl := Option.some.inj h
          have hgrows : Grows s { s with record := record, nextToken := s.nextToken + 1 } :=
            ⟨hmoves.1, hmoves.2, fun _ h => h, rfl, rfl⟩
          have hne : id ≠ handle := by
            rintro rfl
            rw [hlookup] at hfresh
            exact hfresh nofun
          refine Effect.trans (.of_fresh (not_not.mp hfresh) hgrows) (.of_free ?_ hfree (.refl _))
          exact (Finmap.lookup_insert_of_ne _ hne).trans hlookup

theorem own_effect {held : RaceWinner} (hlookup : s.tasks.lookup id = some task) (hphase : task.phase = .won held) :
    Effect s (s.own id task held) := by
  have hheld : task.phase.held = some held := by rw [hphase, Phase.held]
  have hgrows : Grows s { s with watches := s.watches ++ [(task.caller, held.cancellation)] } :=
    ⟨.of_eq rfl rfl rfl, rfl, fun _ h => h, rfl, rfl⟩
  rw [own]
  split
  · refine .of_grows hgrows fun winner hw => .inr (.inr ⟨id, ?_⟩)
    rw [heldBy_eq hlookup hheld hw]
    exact heldBy_put rfl
  · refine .of_grows hgrows fun winner hw => .inr (.inr ⟨id, ?_⟩)
    rw [heldBy_eq hlookup hheld hw]
    exact heldBy_put rfl

/-- The winner is installed, and the path it displaces is in the hands of the task. -/
theorem Effect.of_installed {record : ManagerRecord} {owner : OwnedSelected} {displaced : Option OwnedSelected}
    {after : Task} (hlookup : s.tasks.lookup id = some task) (hheld : task.phase.held = some owner.winner)
    (h : s.record.Moves record ∧ displaced = s.record.selected ∧ record.selected = some owner)
    (hafter : after.phase.held = displaced.map OwnedSelected.winner) :
    Effect s ((s.setRecord record).put id after) where
  record := h.1
  accounted winner ha := by
    obtain ⟨-, rfl, hselected⟩ := h
    obtain hold | hcancelled | ⟨other, hother⟩ := ha
    · exact .inr (.inr ⟨id, heldBy_put (hafter.trans hold)⟩)
    · exact .inr (.inl hcancelled)
    · by_cases hid : other = id
      · subst hid
        refine .inl ?_
        rw [heldBy_eq hlookup hheld hother, Selected, put, setRecord, hselected, Option.map_some]
      · have hu : (s.setRecord record).HeldBy other winner := hother
        exact .inr (.inr ⟨other, hu.put_of_ne hid⟩)
  returned winner hw := .inl hw

theorem installed_held (task : Task) (path : SelectedPath) : (task.installed path).held = none := by
  rw [Task.installed]
  split
  · rfl
  · split <;> rfl

theorem commit_effect {owner : OwnedSelected} (hlookup : s.tasks.lookup id = some task)
    (hphase : task.phase = .committing owner) : Effect s (s.commit id task owner) := by
  have hheld : task.phase.held = some owner.winner := by rw [hphase, Phase.held]
  rw [commit]
  split
  case h_1 displaced record hinstall =>
      exact .of_installed hlookup hheld (ManagerRecord.installWinner_moves hinstall) rfl
  case h_2 record hinstall =>
      exact .of_installed hlookup hheld (ManagerRecord.installWinner_moves hinstall) (installed_held task owner.path)
  case h_3 =>
      refine .of_grows (.refl s) fun winner hw => .inr (.inr ⟨id, ?_⟩)
      rw [heldBy_eq hlookup hheld hw]
      exact heldBy_put rfl

/-- A task cancels the path it holds. -/
theorem Effect.of_cancelled {owner : OwnedSelected} {after : Task} (hlookup : s.tasks.lookup id = some task)
    (hheld : task.phase.held = some owner.winner) : Effect s ((s.cancel [owner.cancellation]).put id after) := by
  refine .of_grows (.cancel s _) fun winner hw => .inr (.inl ?_)
  rw [heldBy_eq hlookup hheld hw]
  have hcancelled : (s.cancel [owner.cancellation]).isCancelled owner.cancellation = true :=
    isCancelled_cancel_of_mem (List.mem_singleton_self _)
  exact hcancelled

/-- A race that returns its winner hands it to the task. -/
theorem Effect.of_returned {held : RaceWinner} {after : Task} (hlookup : s.tasks.lookup id = some task)
    (hfree : task.phase.held = none) (hafter : after.phase.held = some held) :
    Effect s { s.put id after with returned := s.returned ++ [held] } where
  record := .of_eq rfl rfl rfl
  accounted winner ha := (Effect.of_free hlookup hfree (.refl s)).accounted winner ha
  returned winner hw := by
    obtain hold | hnew := List.mem_append.mp hw
    · exact .inl hold
    · obtain rfl := List.mem_singleton.mp hnew
      have hheld : (s.put id after).HeldBy id winner := heldBy_put hafter
      exact .inr (.inr (.inr ⟨id, hheld⟩))

section Free

variable (hlookup : s.tasks.lookup id = some task) (hfree : task.phase.held = none)

include hlookup hfree

theorem release_effect {resources : OwnedResources} {after : After} (h : s.release id task resources after = some t) :
    Effect s t := by
  rw [release.eq_def] at h
  split at h
  case h_1 =>
      obtain rfl := Option.some.inj h
      exact .of_free hlookup hfree (.cancel s _)
  case h_2 =>
      split at h
      · obtain rfl := Option.some.inj h
        exact .of_free hlookup hfree (.cancel s _)
      · cases h
  case h_3 =>
      obtain rfl := Option.some.inj h
      exact .of_free hlookup hfree (.refl s)

theorem returnRace_effect (outcome : Except PathError RaceWinner) : Effect s (s.returnRace id task outcome) := by
  cases outcome with
  | ok winner => exact .of_returned hlookup hfree rfl
  | error error => exact .of_free hlookup hfree (.refl s)

theorem finish_effect (path : SelectedPath) : Effect s (s.finish id task path) := by
  have hmoves := s.record.dropOperation_moves
  rw [finish]
  split
  case h_1 record hfinish =>
      obtain ⟨-, rfl⟩ := Prod.mk.inj hfinish
      exact .of_free hlookup hfree (.of_record hmoves)
  case h_2 record hfinish =>
      obtain ⟨-, rfl⟩ := Prod.mk.inj hfinish
      exact .of_free hlookup hfree (.of_record hmoves)

theorem closeRecord_effect (error : Option PathError) : Effect s (s.closeRecord id task error) := by
  rw [closeRecord]
  split
  case h_1 resources record hclose =>
      exact .of_taken (fun _ => not_heldBy hlookup hfree) (ManagerRecord.closeAtomic_moves hclose)
  case h_2 => exact .of_free hlookup hfree (.refl s)

theorem dropRecord_effect : Effect s (s.dropRecord id task) :=
  .of_taken (fun _ => not_heldBy hlookup hfree) s.record.dropManager_moves

theorem stopBackground_effect (h : s.stopBackground id task = some t) : Effect s t := by
  rw [stopBackground] at h
  split at h
  · obtain rfl := Option.some.inj h
    exact .of_free hlookup hfree (.refl s)
  · cases h

theorem sleepRound_effect {choice : Choice} (h : s.sleepRound id task choice = some t) : Effect s t := by
  rw [sleepRound.eq_def] at h
  split at h
  case h_1 => exact stopBackground_effect hlookup hfree h
  case h_2 =>
      obtain rfl := Option.some.inj h
      exact .of_free hlookup hfree (.refl s)
  case h_3 => cases h

theorem recheckSection_effect {lockSection : UInt64 → Bool × ManagerRecord} {phase : Phase}
    (hsection : ∀ recheckId, s.record.Moves (lockSection recheckId).2 ∧
      (lockSection recheckId).2.selected = s.record.selected)
    (h : s.recheckSection id task lockSection phase = some t) : Effect s t := by
  rw [recheckSection] at h
  split at h
  case h_1 => cases h
  case h_2 recheckId _ =>
      have hmoves := hsection recheckId
      split at h
      case h_1 record hrecord =>
          rw [hrecord] at hmoves
          obtain rfl := Option.some.inj h
          exact .of_free hlookup hfree (.of_record hmoves)
      case h_2 record hrecord =>
          rw [hrecord] at hmoves
          obtain rfl := Option.some.inj h
          exact .of_free hlookup hfree (.of_record hmoves)

theorem buildRound_effect {choice : Choice} (h : s.buildRound id task choice = some t) : Effect s t := by
  rw [buildRound.eq_def] at h
  split at h
  case h_1 => exact stopBackground_effect hlookup hfree h
  case h_2 =>
      split at h
      · obtain rfl := Option.some.inj h
        exact .of_free hlookup hfree (.refl s)
      · obtain rfl := Option.some.inj h
        exact .of_free hlookup hfree (.refl s)
  case h_3 =>
      split at h
      · obtain rfl := Option.some.inj h
        exact .of_free hlookup hfree (.refl s)
      · obtain rfl := Option.some.inj h
        exact .of_free hlookup hfree (.refl s)
  case h_4 => cases h

theorem waitRound_effect {error : Option PathError} (h : s.waitRound id task error = some t) : Effect s t := by
  rw [waitRound.eq_def] at h
  split at h
  · obtain rfl := Option.some.inj h
    exact .of_free hlookup hfree (.refl s)
  · cases h

end Free

theorem advance_effect {choice : Choice} (hlookup : s.tasks.lookup id = some task)
    (h : s.advance id task choice = some t) : Effect s t := by
  rw [advance] at h
  cases hphase : task.phase with
  | releasing resources after =>
      rw [hphase] at h
      exact release_effect hlookup (by rw [hphase]; rfl) h
  | starting =>
      rw [hphase] at h
      obtain rfl := Option.some.inj h
      exact .of_free hlookup (by rw [hphase]; rfl) (.spawnGroup s _ _)
  | racing race =>
      rw [hphase] at h
      exact raceRound_effect hlookup (by rw [hphase]; rfl) h
  | cleaning running outcome =>
      rw [hphase] at h
      obtain rfl := Option.some.inj h
      exact .of_free hlookup (by rw [hphase]; rfl) (.cancel s _)
  | draining outcome =>
      rw [hphase] at h
      obtain rfl := Option.some.inj h
      exact returnRace_effect hlookup (by rw [hphase]; rfl) outcome
  | won winner =>
      rw [hphase] at h
      obtain rfl := Option.some.inj h
      exact own_effect hlookup hphase
  | committing owner =>
      rw [hphase] at h
      obtain rfl := Option.some.inj h
      exact commit_effect hlookup hphase
  | shedding owner error =>
      rw [hphase] at h
      obtain rfl := Option.some.inj h
      exact .of_cancelled hlookup (by rw [hphase]; rfl)
  | displacing displaced path =>
      rw [hphase] at h
      obtain rfl := Option.some.inj h
      exact .of_cancelled hlookup (by rw [hphase]; rfl)
  | shed error | displaced path =>
      rw [hphase] at h
      obtain rfl := Option.some.inj h
      exact .of_free hlookup (by rw [hphase]; rfl) (.refl s)
  | rechecking path =>
      rw [hphase] at h
      cases choice with
      | spawned handle => exact recheckRound_effect hlookup (by rw [hphase]; rfl) h
      | _ => cases h
  | stopping recheck path =>
      rw [hphase] at h
      obtain rfl := Option.some.inj h
      exact .of_free hlookup (by rw [hphase]; rfl) (.cancel s _)
  | finishing path =>
      rw [hphase] at h
      obtain rfl := Option.some.inj h
      exact finish_effect hlookup (by rw [hphase]; rfl) path
  | abandoning error =>
      rw [hphase] at h
      obtain rfl := Option.some.inj h
      exact .of_free hlookup (by rw [hphase]; rfl) (.of_record s.record.dropOperation_moves)
  | closing error =>
      rw [hphase] at h
      obtain rfl := Option.some.inj h
      exact closeRecord_effect hlookup (by rw [hphase]; rfl) error
  | cancelling resources error =>
      rw [hphase] at h
      obtain rfl := Option.some.inj h
      exact .of_free hlookup (by rw [hphase]; rfl) (.cancelLifetime s)
  | waiting error =>
      rw [hphase] at h
      exact waitRound_effect hlookup (by rw [hphase]; rfl) h
  | sleeping =>
      rw [hphase] at h
      exact sleepRound_effect hlookup (by rw [hphase]; rfl) h
  | beginning =>
      rw [hphase] at h
      exact recheckSection_effect hlookup (by rw [hphase]; rfl) s.record.beginBackgroundRecheck_moves h
  | building =>
      rw [hphase] at h
      exact buildRound_effect hlookup (by rw [hphase]; rfl) h
  | retrying =>
      rw [hphase] at h
      exact recheckSection_effect hlookup (by rw [hphase]; rfl) s.record.finishFailedRecheck_moves h
  | dropping =>
      rw [hphase] at h
      obtain rfl := Option.some.inj h
      exact dropRecord_effect hlookup (by rw [hphase]; rfl)
  | done result | dropped =>
      rw [hphase] at h
      cases h

theorem lookup_of_admits (h : ¬ s.admits id = false) : s.tasks.lookup id = none := by
  rw [Bool.not_eq_false, admits, Bool.and_eq_true, Option.isNone_iff_eq_none] at h
  exact h.1

theorem awaits_held {phase : Phase} (h : ¬ phase.awaits = false) : phase.held = none := by
  cases phase with
  | won | committing | shedding | displacing => exact absurd rfl h
  | _ => rfl

theorem connect_effect {caller : Caller} {factory : Bool} {attempts : List PathKind}
    (h : s.next (.connect id caller factory attempts) = some t) : Effect s t := by
  simp only [next] at h
  split at h
  · cases h
  case isFalse hadmits =>
      have hfresh := lookup_of_admits hadmits
      split at h
      case h_1 record hbegin =>
          obtain rfl := Option.some.inj h
          exact .of_fresh hfresh (.of_record (ManagerRecord.begin_moves hbegin))
      case h_2 =>
          obtain rfl := Option.some.inj h
          exact .of_fresh hfresh (.refl s)

theorem reportFailed_effect {caller : Caller} {factory : Bool} {attempts : List PathKind}
    (h : s.next (.reportFailed id caller factory attempts) = some t) : Effect s t := by
  simp only [next] at h
  split at h
  · cases h
  case isFalse hadmits =>
      have hfresh := lookup_of_admits hadmits
      split at h
      case h_1 resources record hbegin =>
          obtain rfl := Option.some.inj h
          exact .of_taken (fun _ => not_heldBy_fresh hfresh) (ManagerRecord.beginFailure_moves hbegin)
      case h_2 =>
          obtain rfl := Option.some.inj h
          exact .of_fresh hfresh (.refl s)

theorem dropManager_effect (h : s.next (.dropManager id) = some t) : Effect s t := by
  simp only [next] at h
  split at h
  · cases h
  case isFalse hadmits =>
      split at h
      · obtain rfl := Option.some.inj h
        have hput : Effect s (s.put id ⟨.drop, 0, false, [], .cancelling ⟨none, none⟩ none⟩) :=
          .of_fresh (lookup_of_admits hadmits) (.refl s)
        exact ⟨hput.record, hput.accounted, hput.returned⟩
      · cases h

theorem drop_effect (h : s.next (.drop id) = some t) : Effect s t := by
  simp only [next] at h
  split at h
  case h_1 => cases h
  case h_2 task hlookup =>
      split at h
      · cases h
      case isFalse hawaits =>
          obtain rfl := Option.some.inj h
          refine .of_free hlookup (awaits_held hawaits) (.of_record ?_)
          split
          · exact s.record.dropOperation_moves
          · exact ⟨.of_eq rfl rfl rfl, rfl⟩

theorem step_effect {l : Label} (h : Step s l t) : Effect s t := by
  cases l with
  | connect id caller factory attempts => exact connect_effect h
  | reportFailed id caller factory attempts => exact reportFailed_effect h
  | close id =>
      simp only [Step, next] at h
      split at h
      · cases h
      case isFalse hadmits =>
          obtain rfl := Option.some.inj h
          exact .of_fresh (lookup_of_admits hadmits) (.refl s)
  | dropManager id => exact dropManager_effect h
  | cancelCaller caller =>
      obtain rfl := Option.some.inj h
      exact ⟨.of_eq rfl rfl rfl, fun _ ha => ha, fun _ hw => .inl hw⟩
  | watch caller token =>
      simp only [Step, next] at h
      split at h
      · obtain rfl := Option.some.inj h
        exact ⟨.of_eq rfl rfl rfl, fun _ ha => ha.imp_right (.imp_left isCancelled_cancel), fun _ hw => .inl hw⟩
      · cases h
  | run id choice =>
      simp only [Step, next] at h
      split at h
      case h_1 => cases h
      case h_2 task hlookup => exact advance_effect hlookup h
  | drop id => exact drop_effect h

/-- The record agrees with its selected path, and every path that a race has
returned is accounted for. -/
structure Sound (s : System) : Prop where
  agrees : s.record.Agrees
  accounted : ∀ winner ∈ s.returned, s.Accounted winner

theorem Sound.step {l : Label} (h : Sound s) (hstep : Step s l t) : Sound t := by
  have heffect := step_effect hstep
  constructor
  · exact heffect.record.agrees h.agrees
  · intro winner hw
    obtain hold | hnew := heffect.returned winner hw
    · exact heffect.accounted winner (h.accounted winner hold)
    · exact hnew

theorem Sound.of_run {labels : List Label} (h : Run Step new labels s) : Sound s :=
  h.invariant (fun _ _ _ hs hstep => hs.step hstep) ⟨.new, fun _ hw => nomatch hw⟩

theorem closed_of_run {labels : List Label} (h : Run Step s labels t) (hs : s.record.state = .closed) :
    t.record.state = .closed :=
  h.invariant (P := fun u => u.record.state = .closed) (fun _ _ _ hu hstep => (step_effect hstep).record.closed hu) hs

def patience (s : System) (id : TaskId) : Nat := (s.tasks.lookup id).elim 0 fun task => task.phase.patience

/-- The holder is not at a wait, and with its next step the path is selected,
cancelled or nearer to it. -/
def Settles (s : System) (id : TaskId) (winner : RaceWinner) : Prop :=
  s.next (.drop id) = none ∧
    ∃ t, (∀ choice, s.next (.run id choice) = some t) ∧
      (t.Selected winner ∨ t.Cancelled winner ∨ t.HeldBy id winner ∧ t.patience id < s.patience id)

theorem settles_of_phase (hlookup : s.tasks.lookup id = some task) (hawaits : task.phase.awaits = false)
    (hrun : ∀ choice, s.advance id task choice = some t)
    (ht : t.Selected winner ∨ t.Cancelled winner ∨ t.HeldBy id winner ∧ t.patience id < s.patience id) :
    s.Settles id winner := by
  refine ⟨?_, t, fun choice => ?_, ht⟩
  · simp only [next, hlookup, hawaits, if_true]
  · simp only [next, hlookup, hrun]

@[simp] theorem patience_put (s : System) (id : TaskId) (task : Task) :
    (s.put id task).patience id = task.phase.patience := by
  rw [patience, put, Finmap.lookup_insert, Option.elim_some]

theorem own_settles {held : RaceWinner} (hlookup : s.tasks.lookup id = some task) (hphase : task.phase = .won held) :
    s.Settles id held := by
  have hpatience : s.patience id = 3 := by rw [patience, hlookup, Option.elim_some, hphase, Phase.patience]
  refine settles_of_phase hlookup (by rw [hphase]; rfl) (fun choice => by rw [advance, hphase]) (.inr (.inr ?_))
  rw [own, hpatience]
  split
  · exact ⟨heldBy_put rfl, by simp [Task.move, Phase.patience]⟩
  · exact ⟨heldBy_put rfl, by simp [Task.move, Phase.patience]⟩

theorem commit_settles {owner : OwnedSelected} (hlookup : s.tasks.lookup id = some task)
    (hphase : task.phase = .committing owner) : s.Settles id owner.winner := by
  have hpatience : s.patience id = 2 := by rw [patience, hlookup, Option.elim_some, hphase, Phase.patience]
  refine settles_of_phase hlookup (by rw [hphase]; rfl) (fun choice => by rw [advance, hphase]) ?_
  rw [commit, hpatience]
  split
  case h_1 displaced record hinstall =>
      left
      rw [Selected, put, setRecord, (ManagerRecord.installWinner_moves hinstall).2.2, Option.map_some]
  case h_2 record hinstall =>
      left
      rw [Selected, put, setRecord, (ManagerRecord.installWinner_moves hinstall).2.2, Option.map_some]
  case h_3 => exact .inr (.inr ⟨heldBy_put rfl, by simp [Task.move, Phase.patience]⟩)

theorem cancelled_of_cancel {owner : OwnedSelected} {after : Task} :
    ((s.cancel [owner.cancellation]).put id after).Cancelled owner.winner := by
  have hcancelled : (s.cancel [owner.cancellation]).isCancelled owner.cancellation = true :=
    isCancelled_cancel_of_mem (List.mem_singleton_self _)
  exact hcancelled

theorem HeldBy.settles (h : s.HeldBy id winner) : s.Settles id winner := by
  obtain ⟨task, hlookup, hheld⟩ := h
  cases hphase : task.phase with
  | won held =>
      rw [hphase] at hheld
      obtain rfl := Option.some.inj hheld
      exact own_settles hlookup hphase
  | committing owner =>
      rw [hphase] at hheld
      obtain rfl := Option.some.inj hheld
      exact commit_settles hlookup hphase
  | shedding owner error =>
      rw [hphase] at hheld
      obtain rfl := Option.some.inj hheld
      exact settles_of_phase hlookup (by rw [hphase]; rfl) (fun choice => by rw [advance, hphase])
        (.inr (.inl cancelled_of_cancel))
  | displacing displaced path =>
      rw [hphase] at hheld
      obtain rfl := Option.some.inj hheld
      exact settles_of_phase hlookup (by rw [hphase]; rfl) (fun choice => by rw [advance, hphase])
        (.inr (.inl cancelled_of_cancel))
  | _ =>
      rw [hphase] at hheld
      cases hheld

/-- In every state of every interleaving the state and the selected path fit,
a closed manager stays closed with no recheck installed, and every path a race
has returned is selected, cancelled, or with a task that is about to do one of
the two without waiting. -/
theorem manager_accounts_for_paths {labels : List Label} (h : Run Step new labels s) :
    (s.record.state = .direct → ∃ owner, s.record.selected = some owner ∧ owner.path.kind.isDirect = true) ∧
      (s.record.state = .relay → ∃ owner, s.record.selected = some owner ∧ owner.path.kind = .relay) ∧
      (s.record.state = .discovering ∨ s.record.state = .checking ∨ s.record.state = .closed →
        s.record.selected = none) ∧
      (s.record.state = .closed → s.record.recheck = none ∧
        ∀ labels t, Run Step s labels t → t.record.state = .closed) ∧
      ∀ winner ∈ s.returned,
        s.Selected winner ∨ s.Cancelled winner ∨ ∃ id, s.HeldBy id winner ∧ s.Settles id winner := by
  have hsound := Sound.of_run h
  refine ⟨hsound.agrees.direct, hsound.agrees.relay, hsound.agrees.unselected, fun hclosed => ?_, fun winner hw => ?_⟩
  · exact ⟨hsound.agrees.closed hclosed, fun _ _ hrun => closed_of_run hrun hclosed⟩
  · obtain hselected | hcancelled | ⟨id, hheld⟩ := hsound.accounted winner hw
    · exact .inl hselected
    · exact .inr (.inl hcancelled)
    · exact .inr (.inr ⟨id, hheld, hheld.settles⟩)

/-- One task connects over a relay attempt up to the return of its race. -/
def relayRace : List Label :=
  [.connect 0 0 false [.relay], .run 0 .go, .run 0 .relayDue, .run 0 (.joined 0 (.ok ⟨.relay⟩)), .run 0 .go, .run 0 .go]

instance (s : System) (winner : RaceWinner) : Decidable (s.Selected winner) :=
  inferInstanceAs (Decidable (_ = _))

instance (s : System) (winner : RaceWinner) : Decidable (s.Cancelled winner) :=
  inferInstanceAs (Decidable (_ = _))

theorem manager_accounts_for_relay_path :
    ∃ s, Run Step new (relayRace ++ [.run 0 .go, .run 0 .go, .run 0 .go]) s ∧ s.returned = [⟨⟨.relay⟩, 0⟩] ∧
      s.record.state = .relay ∧ ∃ owner, s.record.selected = some owner ∧ owner.path.kind = .relay := by
  obtain ⟨s, hrun, hreturned, hstate⟩ :=
    run_of_exec_any (P := fun s => s.returned = [⟨⟨.relay⟩, 0⟩] ∧ s.record.state = .relay) (fun _ _ _ h => h)
      (show (exec next new (relayRace ++ [.run 0 .go, .run 0 .go, .run 0 .go])).any _ = true by decide +kernel)
  exact ⟨s, hrun, hreturned, hstate, (manager_accounts_for_paths hrun).2.1 hstate⟩

/-- Between the return of the race and the commit the path is neither selected
nor cancelled. -/
theorem returned_path_in_flight :
    ∃ s, Run Step new relayRace s ∧ ∃ winner ∈ s.returned, ¬ s.Selected winner ∧ ¬ s.Cancelled winner := by
  obtain ⟨s, hrun, hreturned, hselected, hcancelled⟩ :=
    run_of_exec_any (P := fun s => s.returned = [⟨⟨.relay⟩, 0⟩] ∧ ¬ s.Selected ⟨⟨.relay⟩, 0⟩ ∧
        ¬ s.Cancelled ⟨⟨.relay⟩, 0⟩) (fun _ _ _ h => h)
      (show (exec next new relayRace).any _ = true by decide +kernel)
  exact ⟨s, hrun, _, by simp [hreturned], hselected, hcancelled⟩

end Rustgo.Path.System
