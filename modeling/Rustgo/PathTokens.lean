import Rustgo.PathManagerRuns

namespace Rustgo.Path

open Tables Runs

/-- The token of the path that a race came back with. -/
def outcomeTokens : Except PathError RaceWinner → List Token
  | .ok winner => [winner.cancellation]
  | .error _ => []

/-- The tokens that a task in this phase cancels or installs later. -/
def Phase.tokens : Phase → List Token
  | .releasing resources _ | .cancelling resources _ => resources.tokens
  | .racing race => race.running.map RunningAttempt.cancellation
  | .cleaning running outcome => running.map RunningAttempt.cancellation ++ outcomeTokens outcome
  | .draining outcome => outcomeTokens outcome
  | .won winner => [winner.cancellation]
  | .committing owner | .shedding owner _ => [owner.cancellation]
  | .displacing old _ => [old.cancellation]
  | .stopping recheck _ => [recheck.cancellation]
  | _ => []

namespace System

variable {s t u : System} {id : TaskId} {task after : Task} {token : Token}

/-- The token is cancelled, or something other than the installed recheck has it. -/
def Loose (s : System) (token : Token) : Prop :=
  token ∈ s.cancelled ∨ s.record.selected.map OwnedSelected.cancellation = some token ∨
    ∃ id task, s.tasks.lookup id = some task ∧ token ∈ task.phase.tokens

/-- Where a token that is loose after a step was before it. -/
def Handed (s u : System) (token : Token) : Prop :=
  s.Loose token ∨ (s.nextToken ≤ token ∧ token < u.nextToken) ∨
    ∃ recheck, s.record.recheck = some recheck ∧ recheck.cancellation = token ∧ u.record.recheck = none

/-- What a step does with the tokens. -/
structure Hands (s t : System) : Prop where
  next : s.nextToken ≤ t.nextToken
  loose : ∀ token, t.Loose token → s.Handed t token
  recheck : ∀ recheck, t.record.recheck = some recheck → s.record.recheck = some recheck ∨
    recheck.cancellation = s.nextToken ∧ s.nextToken < t.nextToken ∧ ∀ token, t.Loose token → s.Loose token

/-- Nothing but the installed recheck has its token, and no token is given out twice. -/
structure Distinct (s : System) : Prop where
  fresh : ∀ token, s.Loose token → token < s.nextToken
  recheck : ∀ recheck, s.record.recheck = some recheck →
    recheck.cancellation < s.nextToken ∧ ¬ s.Loose recheck.cancellation

theorem Distinct.step (h : Distinct s) (hands : Hands s t) : Distinct t := by
  constructor
  · intro token hloose
    obtain hold | ⟨-, hnew⟩ | ⟨recheck, hrecheck, rfl, -⟩ := hands.loose token hloose
    · exact (h.fresh token hold).trans_le hands.next
    · exact hnew
    · exact (h.recheck recheck hrecheck).1.trans_le hands.next
  · intro recheck hinstalled
    obtain hold | ⟨htoken, hnext, hkept⟩ := hands.recheck recheck hinstalled
    · obtain ⟨hlt, hown⟩ := h.recheck recheck hold
      refine ⟨hlt.trans_le hands.next, fun hloose => ?_⟩
      obtain hloose | ⟨hle, -⟩ | ⟨_, -, -, hnone⟩ := hands.loose _ hloose
      · exact hown hloose
      · exact absurd hlt (not_lt.mpr hle)
      · cases hinstalled.symm.trans hnone
    · rw [htoken]
      exact ⟨hnext, fun hloose => absurd (h.fresh _ (hkept _ hloose)) (lt_irrefl _)⟩

theorem Handed.of_phase (hlookup : s.tasks.lookup id = some task) (h : token ∈ task.phase.tokens) : s.Handed u token :=
  .inl (.inr (.inr ⟨id, task, hlookup, h⟩))

theorem Handed.of_selected {owner : OwnedSelected} (h : s.record.selected = some owner) : s.Handed u owner.cancellation :=
  .inl (.inr (.inl (by rw [h, Option.map_some])))

theorem Loose.of_put (h : (u.put id after).Loose token) :
    token ∈ u.cancelled ∨ u.record.selected.map OwnedSelected.cancellation = some token ∨
      token ∈ after.phase.tokens ∨ ∃ other task, other ≠ id ∧ u.tasks.lookup other = some task ∧ token ∈ task.phase.tokens := by
  obtain hcancelled | hselected | ⟨other, held, hheld, htoken⟩ := h
  · exact .inl hcancelled
  · exact .inr (.inl hselected)
  · by_cases hid : other = id
    · subst hid
      rw [put, Finmap.lookup_insert] at hheld
      obtain rfl := Option.some.inj hheld
      exact .inr (.inr (.inl htoken))
    · rw [put, Finmap.lookup_insert_of_ne _ hid] at hheld
      exact .inr (.inr (.inr ⟨other, held, hid, hheld, htoken⟩))

theorem Loose.of_bare (hafter : after.phase.tokens = []) (h : (u.put id after).Loose token) : u.Loose token := by
  obtain h | h | h | ⟨other, held, -, hheld, h⟩ := h.of_put
  · exact .inl h
  · exact .inr (.inl h)
  · rw [hafter] at h
    cases h
  · exact .inr (.inr ⟨other, held, hheld, h⟩)

/-- A step that puts one task: what the new phase, the selected path and the
list of cancelled tokens have was handed over. -/
theorem Hands.of_put (htasks : u.tasks = s.tasks) (hnext : s.nextToken ≤ u.nextToken)
    (hrecheck : ∀ recheck, u.record.recheck = some recheck → s.record.recheck = some recheck)
    (hcancelled : ∀ token ∈ u.cancelled, s.Handed u token)
    (hselected : ∀ owner, u.record.selected = some owner → s.Handed u owner.cancellation)
    (hphase : ∀ token ∈ after.phase.tokens, s.Handed u token) : Hands s (u.put id after) where
  next := hnext
  loose token h := by
    obtain h | h | h | ⟨other, held, -, hheld, htoken⟩ := h.of_put
    · exact hcancelled token h
    · obtain ⟨owner, howner, rfl⟩ := Option.map_eq_some_iff.mp h
      exact hselected owner howner
    · exact hphase token h
    · rw [htasks] at hheld
      exact .of_phase hheld htoken
  recheck recheck h := .inl (hrecheck recheck h)

/-- The record has the same path and recheck, and no token was made. -/
structure Still (s u : System) : Prop where
  tasks : u.tasks = s.tasks
  selected : u.record.selected = s.record.selected
  recheck : u.record.recheck = s.record.recheck
  nextToken : u.nextToken = s.nextToken

theorem Hands.of_still (hstill : Still s u) (hcancelled : ∀ token ∈ u.cancelled, s.Handed u token)
    (hphase : ∀ token ∈ after.phase.tokens, s.Handed u token) : Hands s (u.put id after) :=
  .of_put hstill.tasks hstill.nextToken.ge (fun _ h => hstill.recheck ▸ h) hcancelled
    (fun _ h => .of_selected (hstill.selected ▸ h)) hphase

/-- A task goes on to a phase that has no token it did not have. -/
theorem Hands.of_phase (hlookup : s.tasks.lookup id = some task) (hstill : Still s u) (hcancelled : u.cancelled = s.cancelled)
    (hphase : ∀ token ∈ after.phase.tokens, token ∈ task.phase.tokens) : Hands s (u.put id after) :=
  .of_still hstill (fun _ h => .inl (.inl (hcancelled ▸ h))) fun token h => .of_phase hlookup (hphase token h)

/-- A task cancels some of its tokens. -/
theorem Hands.of_cancel {tokens : List Token} (hlookup : s.tasks.lookup id = some task)
    (htokens : ∀ token ∈ tokens, token ∈ task.phase.tokens)
    (hphase : ∀ token ∈ after.phase.tokens, token ∈ task.phase.tokens) : Hands s ((s.cancel tokens).put id after) := by
  refine .of_still ⟨rfl, rfl, rfl, rfl⟩ (fun token h => ?_) fun token h => .of_phase hlookup (hphase token h)
  obtain hold | hnew := List.mem_append.mp h
  · exact .inl (.inl hold)
  · exact .of_phase hlookup (htokens token hnew)

/-- What the start of a group of attempts changes. -/
structure Spawned (s u : System) (race spawned : Race) : Prop where
  record : s.record.Same u.record
  lifetime : u.lifetime = s.lifetime
  cancelled : u.cancelled = s.cancelled
  callers : u.callers = s.callers
  tasks : u.tasks = s.tasks
  next : s.nextToken ≤ u.nextToken
  running : ∀ token ∈ spawned.running.map RunningAttempt.cancellation,
    token ∈ race.running.map RunningAttempt.cancellation ∨ s.nextToken ≤ token ∧ token < u.nextToken

theorem spawnGroup_spawned (s : System) (race : Race) (group : List PathKind) :
    Spawned s (s.spawnGroup race group).1 race (s.spawnGroup race group).2 := by
  induction group generalizing s race with
  | nil => exact ⟨.refl s.record, rfl, rfl, rfl, rfl, le_rfl, fun _ h => .inl h⟩
  | cons kind group ih =>
      have hrest := ih { s with record := s.record.recordEvent (.attemptStarted kind), nextToken := s.nextToken + 1 }
        { race with running := race.running ++ [⟨race.nextId, kind, s.nextToken⟩], nextId := race.nextId + 1 }
      refine ⟨(s.record.recordEvent_same _).trans hrest.record, hrest.lifetime, hrest.cancelled, hrest.callers, hrest.tasks,
        (Nat.le_succ _).trans hrest.next, fun token h => ?_⟩
      obtain hold | ⟨hle, hlt⟩ := hrest.running token h
      · rw [List.map_append, List.mem_append] at hold
        obtain hold | hnew := hold
        · exact .inl hold
        · obtain rfl := List.mem_singleton.mp hnew
          exact .inr ⟨le_rfl, hrest.next⟩
      · exact .inr ⟨(Nat.le_succ _).trans hle, hlt⟩

theorem Hands.of_spawned {race spawned : Race} (hlookup : s.tasks.lookup id = some task) (h : Spawned s u race spawned)
    (hrace : ∀ token ∈ race.running.map RunningAttempt.cancellation, token ∈ task.phase.tokens) :
    Hands s (u.put id (task.move (.racing spawned))) := by
  refine .of_put h.tasks h.next (fun _ hr => h.record.recheck ▸ hr) (fun _ hc => .inl (.inl (h.cancelled ▸ hc)))
    (fun _ ho => .of_selected (h.record.selected ▸ ho)) fun token htoken => ?_
  obtain hold | hnew := h.running token htoken
  · exact .of_phase hlookup (hrace token hold)
  · exact .inr (.inl hnew)

theorem Hands.of_failed {attempt : RunningAttempt} (hlookup : s.tasks.lookup id = some task)
    (hattempt : attempt.cancellation ∈ task.phase.tokens)
    (hphase : ∀ token ∈ after.phase.tokens, token ∈ task.phase.tokens) : Hands s ((s.attemptFailed attempt).put id after) := by
  have hsame := s.record.recordEvent_same (.attemptFailed attempt.kind)
  refine .of_still ⟨rfl, hsame.selected, hsame.recheck, rfl⟩ (fun token h => ?_) fun token h => .of_phase hlookup (hphase token h)
  obtain hold | hnew := List.mem_append.mp h
  · exact .inl (.inl hold)
  · obtain rfl := List.mem_singleton.mp hnew
    exact .of_phase hlookup hattempt

@[simp] theorem decrementActive_running (race : Race) (kind : PathKind) :
    (race.decrementActive kind).running = race.running := by
  rw [Race.decrementActive]
  split <;> rfl

theorem raceRound_hands {race : Race} {choice : Choice} (hlookup : s.tasks.lookup id = some task)
    (hphase : task.phase = .racing race) (h : s.raceRound id task race choice = some t) : Hands s t := by
  have htokens : task.phase.tokens = race.running.map RunningAttempt.cancellation := by rw [hphase, Phase.tokens]
  have hrest : ∀ (p : RunningAttempt → Bool) (kind : PathKind), ∀ token ∈
      ((Race.decrementActive { race with running := race.running.eraseP p } kind).running.map RunningAttempt.cancellation),
        token ∈ task.phase.tokens := by
    intro p kind token htoken
    rw [decrementActive_running] at htoken
    rw [htokens]
    exact (List.eraseP_sublist.map _).subset htoken
  have hstopped : ∀ error : PathError, ∀ token ∈ (task.move (.cleaning race.running (.error error))).phase.tokens,
      token ∈ task.phase.tokens := by
    intro error token htoken
    rw [htokens]
    exact (List.mem_append.mp htoken).resolve_right List.not_mem_nil
  rw [raceRound.eq_def] at h
  split at h
  case h_1 =>
      split at h
      · cases h
      · obtain rfl := Option.some.inj h
        exact .of_spawned hlookup (spawnGroup_spawned s _ _) fun _ ht => htokens ▸ ht
  case h_2 =>
      split at h
      · cases h
      split at h
      · obtain rfl := Option.some.inj h
        exact .of_phase hlookup ⟨rfl, rfl, rfl, rfl⟩ rfl (hstopped _)
      split at h
      case h_1 =>
          split at h
          · obtain rfl := Option.some.inj h
            exact .of_phase hlookup ⟨rfl, rfl, rfl, rfl⟩ rfl (hstopped _)
          · cases h
      case h_2 =>
          split at h
          case h_1 => cases h
          case h_2 completed hfind =>
              have hcompleted : completed.cancellation ∈ task.phase.tokens :=
                htokens ▸ List.mem_map_of_mem (List.mem_of_find?_eq_some hfind)
              split at h
              case h_1 =>
                  split at h
                  · obtain rfl := Option.some.inj h
                    refine .of_phase hlookup ⟨rfl, rfl, rfl, rfl⟩ rfl fun token htoken => ?_
                    obtain hrunning | houtcome := List.mem_append.mp htoken
                    · exact hrest _ _ token hrunning
                    · exact List.mem_singleton.mp houtcome ▸ hcompleted
                  · obtain rfl := Option.some.inj h
                    exact .of_failed hlookup hcompleted (hrest _ _)
              case h_2 =>
                  obtain rfl := Option.some.inj h
                  exact .of_failed hlookup hcompleted (hrest _ _)
      case h_3 =>
          split at h
          case h_1 => cases h
          case h_2 failed hfind =>
              obtain rfl := Option.some.inj h
              exact .of_failed hlookup (htokens ▸ List.mem_map_of_mem (List.mem_of_find?_eq_some hfind)) (hrest _ _)
      case h_4 => cases h

/-- Phases after the race, in which a task has nothing to cancel. -/
theorem Hands.of_bare (hlookup : s.tasks.lookup id = some task) (hstill : Still s u) (hcancelled : u.cancelled = s.cancelled)
    (hphase : after.phase.tokens = []) : Hands s (u.put id after) :=
  .of_phase hlookup hstill hcancelled fun token h => absurd h (hphase ▸ List.not_mem_nil)

theorem lost_tokens (task : Task) (error : PathError) : (task.lost error).tokens = [] := by
  rw [Task.lost]
  split
  · split <;> rfl
  · rfl

theorem refused_tokens (task : Task) (error : PathError) : (task.refused error).tokens = [] := by
  rw [Task.refused]
  split <;> rfl

theorem installed_tokens (task : Task) (path : SelectedPath) : (task.installed path).tokens = [] := by
  rw [Task.installed]
  split
  · rfl
  · split <;> rfl

theorem release_hands {resources : OwnedResources} {next : After} (hlookup : s.tasks.lookup id = some task)
    (hphase : task.phase = .releasing resources next) (h : s.release id task resources next = some t) : Hands s t := by
  have htokens : task.phase.tokens = resources.tokens := by rw [hphase, Phase.tokens]
  obtain ⟨selected, recheck⟩ := resources
  rw [release.eq_def] at h
  split at h
  case h_1 owner hselected =>
      obtain rfl := Option.some.inj h
      obtain rfl : selected = some owner := hselected
      refine .of_cancel hlookup (fun token ht => htokens ▸ List.mem_append_left _ ht) fun token ht => ?_
      exact htokens ▸ List.mem_append_right _ ht
  case h_2 old hselected hrecheck =>
      split at h
      · obtain rfl := Option.some.inj h
        obtain rfl : recheck = some old := hrecheck
        exact .of_cancel hlookup (fun token ht => htokens ▸ List.mem_append_right _ ht) (by rintro _ ⟨⟩)
      · cases h
  case h_3 =>
      obtain rfl := Option.some.inj h
      refine .of_bare hlookup ⟨rfl, rfl, rfl, rfl⟩ rfl ?_
      cases next <;> rfl

/-- The tokens of given up resources were the selected path's and the recheck's. -/
theorem Handed.of_resources (hnone : u.record.recheck = none) (h : token ∈ s.record.resources.tokens) : s.Handed u token := by
  rw [OwnedResources.tokens, List.mem_append, Option.mem_toList, Option.mem_toList] at h
  obtain hselected | hrecheck := h
  · exact .inl (.inr (.inl hselected))
  · obtain ⟨recheck, hinstalled, rfl⟩ := Option.map_eq_some_iff.mp hrecheck
    exact .inr (.inr ⟨recheck, hinstalled, rfl, hnone⟩)

theorem Hands.of_taken {record : ManagerRecord} (hselected : record.selected = none) (hrecheck : record.recheck = none)
    (hphase : ∀ token ∈ after.phase.tokens, token ∈ s.record.resources.tokens) :
    Hands s (((s.setRecord record).cancel s.record.resources.tokens).put id after) := by
  refine .of_put rfl le_rfl (fun _ h => ?_) (fun token h => ?_) (fun _ h => ?_) fun token h => .of_resources hrecheck (hphase token h)
  · cases hrecheck.symm.trans h
  · obtain hold | hnew := List.mem_append.mp h
    · exact .inl (.inl hold)
    · exact .of_resources hrecheck hnew
  · cases hselected.symm.trans h

/-- A recheck is installed with the next token; neither its task nor the one
that starts it has a token to cancel. -/
theorem Hands.of_installed {moved : ManagerRecord} {recheck : OwnedRecheck} {handle : TaskId} {asleep : Task}
    (hselected : moved.selected = s.record.selected) (hmoved : moved.recheck = some recheck)
    (htoken : recheck.cancellation = s.nextToken) (hasleep : asleep.phase.tokens = []) (hafter : after.phase.tokens = []) :
    Hands s ((({ s with record := moved, nextToken := s.nextToken + 1 } : System).put handle asleep).put id after) := by
  have hkept : ∀ token,
      ((({ s with record := moved, nextToken := s.nextToken + 1 } : System).put handle asleep).put id after).Loose token →
        s.Loose token := by
    intro token hloose
    obtain h | h | h := Loose.of_bare hasleep (Loose.of_bare hafter hloose)
    · exact .inl h
    · exact .inr (.inl (hselected ▸ h))
    · exact .inr (.inr h)
  refine ⟨Nat.le_succ _, fun token hloose => .inl (hkept token hloose), fun installed hi => .inr ?_⟩
  obtain rfl := Option.some.inj (hmoved.symm.trans hi)
  exact ⟨htoken, Nat.lt_succ_self _, hkept⟩

theorem recheckRound_hands {path : SelectedPath} {handle : TaskId} (hlookup : s.tasks.lookup id = some task)
    (h : s.recheckRound id task path handle = some t) : Hands s t := by
  rw [recheckRound] at h
  split at h
  · cases h
  case isFalse hfresh =>
      obtain hstop | ⟨old, hold, -, -, hfinished⟩ | ⟨recheck, moved, hnone, -, htoken, -, hmoved, -, hselected, -, hinstalled⟩ :=
        s.record.startRecheck_cases s.isFinished s.nextToken handle
      · rw [hstop] at h
        obtain rfl := Option.some.inj h
        exact .of_bare hlookup ⟨rfl, rfl, rfl, rfl⟩ rfl rfl
      · rw [hfinished] at h
        obtain rfl := Option.some.inj h
        refine .of_put rfl le_rfl (fun _ h => by cases h) (fun _ h => .inl (.inl h)) (fun _ h => .of_selected h) fun token htoken => ?_
        obtain rfl := List.mem_singleton.mp htoken
        exact .inr (.inr ⟨old, hold, rfl, rfl⟩)
      · rw [hinstalled] at h
        obtain rfl := Option.some.inj h
        exact .of_installed hselected hmoved htoken rfl rfl

theorem own_hands {winner : RaceWinner} (hlookup : s.tasks.lookup id = some task) (hphase : task.phase = .won winner) :
    Hands s (s.own id task winner) := by
  have htokens : ∀ token ∈ [winner.cancellation], token ∈ task.phase.tokens := fun _ h => by rwa [hphase, Phase.tokens]
  rw [own]
  split
  · exact .of_phase hlookup ⟨rfl, rfl, rfl, rfl⟩ rfl htokens
  · exact .of_phase hlookup ⟨rfl, rfl, rfl, rfl⟩ rfl htokens

theorem commit_hands {owner : OwnedSelected} (hlookup : s.tasks.lookup id = some task)
    (hphase : task.phase = .committing owner) : Hands s (s.commit id task owner) := by
  have htoken : ∀ {u}, s.Handed u owner.cancellation := by
    refine .of_phase hlookup ?_
    rw [hphase, Phase.tokens]
    exact List.mem_singleton_self _
  rw [commit]
  split
  case h_1 old record hinstall =>
      obtain ⟨-, -, hold, -, hselected, hrecheck, -⟩ := ManagerRecord.installWinner_installs hinstall
      refine .of_put rfl le_rfl (fun _ h => hrecheck ▸ h) (fun _ h => .inl (.inl h)) (fun _ h => ?_) fun token h => ?_
      · obtain rfl := Option.some.inj (hselected.symm.trans h)
        exact htoken
      · obtain rfl := List.mem_singleton.mp h
        exact .of_selected hold.symm
  case h_2 record hinstall =>
      obtain ⟨-, -, -, -, hselected, hrecheck, -⟩ := ManagerRecord.installWinner_installs hinstall
      refine .of_put rfl le_rfl (fun _ h => hrecheck ▸ h) (fun _ h => .inl (.inl h)) (fun _ h => ?_) fun token h => ?_
      · obtain rfl := Option.some.inj (hselected.symm.trans h)
        exact htoken
      · rw [show (task.move (task.installed owner.path)).phase.tokens = [] from installed_tokens task owner.path] at h
        cases h
  case h_3 =>
      refine .of_phase hlookup ⟨rfl, rfl, rfl, rfl⟩ rfl fun token h => ?_
      rwa [hphase]

theorem finish_hands (path : SelectedPath) (hlookup : s.tasks.lookup id = some task) : Hands s (s.finish id task path) := by
  rw [finish]
  split
  case h_1 record hfinish =>
      obtain ⟨-, rfl⟩ := Prod.mk.inj hfinish
      exact .of_bare hlookup ⟨rfl, rfl, rfl, rfl⟩ rfl rfl
  case h_2 record hfinish =>
      obtain ⟨-, rfl⟩ := Prod.mk.inj hfinish
      exact .of_bare hlookup ⟨rfl, rfl, rfl, rfl⟩ rfl rfl

theorem closeRecord_hands (error : Option PathError) : Hands s (s.closeRecord id task error) := by
  obtain ⟨moved, hclose, -, hselected, hrecheck, -⟩ := s.record.closeAtomic_closes
  rw [closeRecord, hclose]
  exact .of_taken hselected hrecheck fun _ h => h

theorem recheckSection_hands {lockSection : UInt64 → Bool × ManagerRecord} {phase : Phase}
    (hlookup : s.tasks.lookup id = some task) (hphase : phase.tokens = [])
    (hsection : ∀ recheckId, (lockSection recheckId).2.selected = s.record.selected ∧
      (lockSection recheckId).2.recheck = s.record.recheck)
    (h : s.recheckSection id task lockSection phase = some t) : Hands s t := by
  rw [recheckSection] at h
  split at h
  case h_1 => cases h
  case h_2 recheckId _ =>
      obtain ⟨hselected, hrecheck⟩ := hsection recheckId
      split at h
      case h_1 record hrecord =>
          rw [hrecord] at hselected hrecheck
          obtain rfl := Option.some.inj h
          exact .of_bare hlookup ⟨rfl, hselected, hrecheck, rfl⟩ rfl hphase
      case h_2 record hrecord =>
          rw [hrecord] at hselected hrecheck
          obtain rfl := Option.some.inj h
          exact .of_bare hlookup ⟨rfl, hselected, hrecheck, rfl⟩ rfl rfl

theorem dropRecord_hands : Hands s (s.dropRecord id task) := by
  obtain ⟨-, hresources, hselected⟩ := s.record.dropManager_moves
  rw [dropRecord, hresources]
  exact .of_taken hselected rfl nofun

theorem returned_hands {winner : RaceWinner} (hlookup : s.tasks.lookup id = some task)
    (hphase : task.phase = .draining (.ok winner)) : Hands s (s.returnRace id task (.ok winner)) := by
  have hput : Hands s (s.put id (task.move (.won winner))) :=
    .of_phase hlookup ⟨rfl, rfl, rfl, rfl⟩ rfl fun token ht => by rwa [hphase]
  exact ⟨hput.next, hput.loose, hput.recheck⟩

theorem stopBackground_hands (hlookup : s.tasks.lookup id = some task) (h : s.stopBackground id task = some t) : Hands s t := by
  rw [stopBackground] at h
  split at h
  · obtain rfl := Option.some.inj h
    exact .of_bare hlookup ⟨rfl, rfl, rfl, rfl⟩ rfl rfl
  · cases h

theorem sleepRound_hands {choice : Choice} (hlookup : s.tasks.lookup id = some task)
    (h : s.sleepRound id task choice = some t) : Hands s t := by
  rw [sleepRound.eq_def] at h
  split at h
  case h_1 => exact stopBackground_hands hlookup h
  case h_2 =>
      obtain rfl := Option.some.inj h
      exact .of_bare hlookup ⟨rfl, rfl, rfl, rfl⟩ rfl rfl
  case h_3 => cases h

theorem waitRound_hands {error : Option PathError} (hlookup : s.tasks.lookup id = some task)
    (h : s.waitRound id task error = some t) : Hands s t := by
  rw [waitRound.eq_def] at h
  split at h
  · obtain rfl := Option.some.inj h
    exact .of_bare hlookup ⟨rfl, rfl, rfl, rfl⟩ rfl rfl
  · cases h

theorem buildRound_hands {choice : Choice} (hlookup : s.tasks.lookup id = some task)
    (h : s.buildRound id task choice = some t) : Hands s t := by
  rw [buildRound.eq_def] at h
  split at h
  case h_1 => exact stopBackground_hands hlookup h
  case h_2 =>
      split at h
      · obtain rfl := Option.some.inj h
        exact .of_bare hlookup ⟨rfl, rfl, rfl, rfl⟩ rfl rfl
      · obtain rfl := Option.some.inj h
        exact .of_bare hlookup ⟨rfl, rfl, rfl, rfl⟩ rfl rfl
  case h_3 =>
      split at h
      · obtain rfl := Option.some.inj h
        exact .of_bare hlookup ⟨rfl, rfl, rfl, rfl⟩ rfl rfl
      · obtain rfl := Option.some.inj h
        exact .of_bare hlookup ⟨rfl, rfl, rfl, rfl⟩ rfl rfl
  case h_4 => cases h

theorem advance_hands {choice : Choice} (hlookup : s.tasks.lookup id = some task)
    (h : s.advance id task choice = some t) : Hands s t := by
  rw [advance] at h
  cases hphase : task.phase with
  | releasing resources after =>
      rw [hphase] at h
      exact release_hands hlookup hphase h
  | starting =>
      rw [hphase] at h
      obtain rfl := Option.some.inj h
      exact .of_spawned hlookup (spawnGroup_spawned s _ _) (fun _ h => by cases h)
  | racing race =>
      rw [hphase] at h
      exact raceRound_hands hlookup hphase h
  | cleaning running outcome =>
      rw [hphase] at h
      obtain rfl := Option.some.inj h
      refine .of_cancel hlookup (fun token ht => ?_) fun token ht => ?_
      · rw [hphase]
        exact List.mem_append_left _ ht
      · rw [hphase]
        exact List.mem_append_right _ ht
  | draining outcome =>
      rw [hphase] at h
      obtain rfl := Option.some.inj h
      cases outcome with
      | ok winner => exact returned_hands hlookup hphase
      | error error => exact .of_bare hlookup ⟨rfl, rfl, rfl, rfl⟩ rfl (lost_tokens task error)
  | won winner =>
      rw [hphase] at h
      obtain rfl := Option.some.inj h
      exact own_hands hlookup hphase
  | committing owner =>
      rw [hphase] at h
      obtain rfl := Option.some.inj h
      exact commit_hands hlookup hphase
  | shedding owner error =>
      rw [hphase] at h
      obtain rfl := Option.some.inj h
      exact .of_cancel hlookup (fun token ht => by rwa [hphase]) (fun _ h => by cases h)
  | displacing old path =>
      rw [hphase] at h
      obtain rfl := Option.some.inj h
      exact .of_cancel hlookup (fun token ht => by rwa [hphase]) (fun _ h => by cases h)
  | shed error =>
      rw [hphase] at h
      obtain rfl := Option.some.inj h
      exact .of_bare hlookup ⟨rfl, rfl, rfl, rfl⟩ rfl (refused_tokens task error)
  | displaced path =>
      rw [hphase] at h
      obtain rfl := Option.some.inj h
      exact .of_bare hlookup ⟨rfl, rfl, rfl, rfl⟩ rfl (installed_tokens task path)
  | rechecking path =>
      rw [hphase] at h
      cases choice with
      | spawned handle => exact recheckRound_hands hlookup h
      | _ => cases h
  | stopping recheck path =>
      rw [hphase] at h
      obtain rfl := Option.some.inj h
      exact .of_cancel hlookup (fun token ht => by rwa [hphase]) (fun _ h => by cases h)
  | finishing path =>
      rw [hphase] at h
      obtain rfl := Option.some.inj h
      exact finish_hands path hlookup
  | abandoning error =>
      rw [hphase] at h
      obtain rfl := Option.some.inj h
      exact .of_bare hlookup ⟨rfl, rfl, rfl, rfl⟩ rfl rfl
  | closing error =>
      rw [hphase] at h
      obtain rfl := Option.some.inj h
      exact closeRecord_hands error
  | cancelling resources error =>
      rw [hphase] at h
      obtain rfl := Option.some.inj h
      refine .of_phase hlookup ⟨rfl, rfl, rfl, rfl⟩ rfl fun token ht => ?_
      rw [hphase]
      rw [Task.move] at ht
      split at ht
      · cases ht
      · exact ht
  | waiting error =>
      rw [hphase] at h
      exact waitRound_hands hlookup h
  | sleeping =>
      rw [hphase] at h
      exact sleepRound_hands hlookup h
  | beginning =>
      rw [hphase] at h
      refine recheckSection_hands hlookup rfl (fun recheckId => ?_) h
      obtain hsection | ⟨moved, hsection, -, -, -, hselected, hrecheck, -⟩ := s.record.beginBackgroundRecheck_cases recheckId
      · rw [hsection]
        exact ⟨rfl, rfl⟩
      · rw [hsection]
        exact ⟨hselected, hrecheck⟩
  | building =>
      rw [hphase] at h
      exact buildRound_hands hlookup h
  | retrying =>
      rw [hphase] at h
      refine recheckSection_hands hlookup rfl (fun recheckId => ?_) h
      obtain ⟨hsection, -⟩ | ⟨moved, hsection, -, -, -, hselected, hrecheck, -⟩ :=
        s.record.finishFailedRecheck_cases recheckId
      · rw [hsection]
        exact ⟨rfl, rfl⟩
      · rw [hsection]
        exact ⟨hselected, hrecheck⟩
  | dropping =>
      rw [hphase] at h
      obtain rfl := Option.some.inj h
      exact dropRecord_hands
  | done result | dropped =>
      rw [hphase] at h
      cases h

/-- A new task has no token to cancel. -/
theorem Hands.of_fresh (hstill : Still s u) (hcancelled : u.cancelled = s.cancelled) (hphase : after.phase.tokens = []) :
    Hands s (u.put id after) := by
  refine .of_still hstill (fun _ h => .inl (.inl (hcancelled ▸ h))) fun token h => ?_
  rw [hphase] at h
  cases h

theorem connect_hands {caller : Caller} {factory : Bool} {attempts : List PathKind}
    (h : s.next (.connect id caller factory attempts) = some t) : Hands s t := by
  simp only [next] at h
  split at h
  · cases h
  split at h
  case h_1 record hbegin =>
      obtain rfl := Option.some.inj h
      obtain ⟨-, -, hselected, hrecheck, -⟩ := ManagerRecord.begin_starts hbegin
      exact .of_fresh ⟨rfl, hselected, hrecheck, rfl⟩ rfl rfl
  case h_2 =>
      obtain rfl := Option.some.inj h
      exact .of_fresh ⟨rfl, rfl, rfl, rfl⟩ rfl rfl

theorem reportFailed_hands {caller : Caller} {factory : Bool} {attempts : List PathKind}
    (h : s.next (.reportFailed id caller factory attempts) = some t) : Hands s t := by
  simp only [next] at h
  split at h
  · cases h
  split at h
  case h_1 resources record hbegin =>
      obtain rfl := Option.some.inj h
      obtain ⟨-, -, rfl, hselected, hrecheck, -⟩ := ManagerRecord.beginFailure_starts hbegin
      exact .of_taken hselected hrecheck fun _ h => h
  case h_2 =>
      obtain rfl := Option.some.inj h
      exact .of_fresh ⟨rfl, rfl, rfl, rfl⟩ rfl rfl

end System

end Rustgo.Path
