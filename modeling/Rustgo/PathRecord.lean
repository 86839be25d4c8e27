import Rustgo.PathState

namespace Rustgo.Path

structure ManagerRecord where
  state : PathState
  selected : Option OwnedSelected
  recheck : Option OwnedRecheck
  nextRecheckId : UInt64
  activeOperations : Nat
  events : List PathEvent
  deriving DecidableEq

def maxRecordedEvents : Nat := 256

namespace ManagerRecord

def new : ManagerRecord := ⟨.discovering, none, none, 1, 0, []⟩

def pushEvent (record : ManagerRecord) (event : PathEvent) : ManagerRecord :=
  { record with
    events := (if record.events.length = maxRecordedEvents then record.events.tail else record.events) ++ [event] }

def transition (record : ManagerRecord) (next : PathState) : Except PathError ManagerRecord :=
  match record.state.transition next with
  | .ok state => .ok (pushEvent { record with state := state } (.stateChanged record.state next))
  | .error e => .error e

def recordEvent (record : ManagerRecord) (event : PathEvent) : ManagerRecord :=
  if record.state ≠ .closed then record.pushEvent event else record

def addOperation (record : ManagerRecord) : ManagerRecord :=
  { record with activeOperations := record.activeOperations + 1 }

def dropOperation (record : ManagerRecord) : ManagerRecord :=
  { record with activeOperations := record.activeOperations - 1 }

def resources (record : ManagerRecord) : OwnedResources := ⟨record.selected, record.recheck⟩

def takeResources (record : ManagerRecord) : ManagerRecord := { record with selected := none, recheck := none }

def begin (record : ManagerRecord) (next : PathState) : Except PathError ManagerRecord :=
  match record.transition next with
  | .ok record => .ok record.addOperation
  | .error e => .error e

def beginFailure (record : ManagerRecord) : Except PathError (OwnedResources × ManagerRecord) :=
  match record.transition .rechecking with
  | .ok record => .ok (record.resources, record.addOperation.takeResources)
  | .error e => .error e

def closeAtomic (record : ManagerRecord) : Except PathError (OwnedResources × ManagerRecord) :=
  if record.state ≠ .closed then
    match record.transition .closed with
    | .ok record => .ok (record.resources, (record.pushEvent .closed).takeResources)
    | .error e => .error e
  else .ok (record.resources, record.takeResources)

def recheckId (record : ManagerRecord) : Option UInt64 := record.recheck.map OwnedRecheck.id

def beginBackgroundRecheck (record : ManagerRecord) (id : UInt64) : Bool × ManagerRecord :=
  if record.recheckId ≠ some id ∨ record.state ≠ .relay then (false, record)
  else
    match record.transition .rechecking with
    | .ok record => (true, record.pushEvent .recheckStarted)
    | .error _ => (false, record)

def finishFailedRecheck (record : ManagerRecord) (id : UInt64) : Bool × ManagerRecord :=
  if record.recheckId ≠ some id ∨ record.state ≠ .rechecking then (false, record)
  else
    match record.transition .relay with
    | .ok record => (true, record.pushEvent .recheckScheduled)
    | .error _ => (false, record)

def finish (record : ManagerRecord) (expected : PathState) : Bool × ManagerRecord :=
  (record.state = expected, record.dropOperation)

/-- The part of `install_winner` under the lock: the path it displaces, or the
state that refused the winner. -/
def installWinner (record : ManagerRecord) (expected : PathState) (recheckId : Option UInt64)
    (owner : OwnedSelected) : Except PathState (Option OwnedSelected × ManagerRecord) :=
  let next := PathState.ofKind owner.path.kind
  let idMatches := recheckId.all fun id => record.recheckId = some id
  if record.state ≠ expected ∨ idMatches = false then .error record.state
  else
    match record.transition next with
    | .error _ => .error record.state
    | .ok moved =>
        let installed := { moved with selected := some owner }.pushEvent (.selected owner.path.kind)
        .ok (moved.selected,
          if next = .relay then installed.pushEvent .relayFallback
          else if recheckId.isSome then installed.pushEvent (.promoted owner.path.kind)
          else installed)

inductive RecheckStart
  | stop
  | finished (recheck : OwnedRecheck)
  | installed (recheck : OwnedRecheck)
  deriving DecidableEq

/-- What one round of `start_recheck` does under the lock, with the token and
the task it makes when it installs a recheck. -/
def startRecheck (record : ManagerRecord) (isFinished : TaskId → Bool) (cancellation : Token) (handle : TaskId) :
    RecheckStart × ManagerRecord :=
  if record.state ≠ .relay then (.stop, record)
  else
    match record.recheck with
    | some recheck =>
        if isFinished recheck.handle then (.finished recheck, { record with recheck := none }) else (.stop, record)
    | none =>
        let recheck : OwnedRecheck := ⟨record.nextRecheckId, cancellation, handle⟩
        (.installed recheck,
          { record with
            nextRecheckId := max (record.nextRecheckId + 1) 1
            recheck := some recheck })

def dropManager (record : ManagerRecord) : OwnedResources × ManagerRecord :=
  let closed :=
    if record.state ≠ .closed then
      (match record.transition .closed with
        | .ok moved => moved
        | .error _ => record).pushEvent .closed
    else record
  (closed.resources, closed.takeResources)

/-- The path in use fits the state, and a closed record holds nothing. A
background recheck runs while its relay path stays in use. -/
structure Agrees (record : ManagerRecord) : Prop where
  unselected : record.state = .discovering ∨ record.state = .checking ∨ record.state = .closed → record.selected = none
  direct : record.state = .direct → ∃ owner, record.selected = some owner ∧ owner.path.kind.isDirect = true
  relay : record.state = .relay → ∃ owner, record.selected = some owner ∧ owner.path.kind = .relay
  rechecking : record.state = .rechecking → record.recheck ≠ none →
    ∃ owner, record.selected = some owner ∧ owner.path.kind = .relay
  closed : record.state = .closed → record.recheck = none

namespace Agrees

variable {record moved : ManagerRecord}

theorem new : Agrees ManagerRecord.new where
  unselected _ := rfl
  direct h := nomatch h
  relay h := nomatch h
  rechecking h := nomatch h
  closed _ := rfl

/-- Only the state, the selected path and the recheck matter. -/
theorem of_eq (h : Agrees record) (hstate : moved.state = record.state) (hselected : moved.selected = record.selected)
    (hrecheck : moved.recheck = record.recheck) : Agrees moved := by
  obtain ⟨unselected, direct, relay, rechecking, closed⟩ := h
  constructor
  · rwa [hstate, hselected]
  · rwa [hstate, hselected]
  · rwa [hstate, hselected]
  · rwa [hstate, hselected, hrecheck]
  · rwa [hstate, hrecheck]

theorem of_direct {owner : OwnedSelected} (hstate : record.state = .direct) (hselected : record.selected = some owner)
    (hkind : owner.path.kind.isDirect = true) : Agrees record := by
  constructor
  · intro h
    simp [hstate] at h
  · intro _
    exact ⟨owner, hselected, hkind⟩
  · intro h
    simp [hstate] at h
  · intro h
    simp [hstate] at h
  · intro h
    simp [hstate] at h

theorem of_relay {owner : OwnedSelected} (hstate : record.state = .relay) (hselected : record.selected = some owner)
    (hkind : owner.path.kind = .relay) : Agrees record := by
  constructor
  · intro h
    simp [hstate] at h
  · intro h
    simp [hstate] at h
  · intro _
    exact ⟨owner, hselected, hkind⟩
  · intro h
    simp [hstate] at h
  · intro h
    simp [hstate] at h

theorem of_empty (hstate : record.state ≠ .direct ∧ record.state ≠ .relay) (hselected : record.selected = none)
    (hrecheck : record.recheck = none) : Agrees record := by
  constructor
  · intro _
    exact hselected
  · intro h
    exact absurd h hstate.1
  · intro h
    exact absurd h hstate.2
  · intro _ h
    exact absurd hrecheck h
  · intro _
    exact hrecheck

end Agrees

/-- The record moves on: what agreed still agrees, and a closed record stays closed. -/
structure Moves (record moved : ManagerRecord) : Prop where
  agrees : Agrees record → Agrees moved
  closed : record.state = .closed → moved.state = .closed

variable {record moved : ManagerRecord}

theorem Moves.of_eq (hstate : moved.state = record.state) (hselected : moved.selected = record.selected)
    (hrecheck : moved.recheck = record.recheck) : Moves record moved where
  agrees h := h.of_eq hstate hselected hrecheck
  closed h := by rw [hstate, h]

theorem Moves.of_open (hopen : record.state ≠ .closed) (h : Agrees record → Agrees moved) : Moves record moved :=
  ⟨h, fun hclosed => absurd hclosed hopen⟩

theorem transition_eq_ok {next : PathState} (h : record.transition next = .ok moved) :
    record.state.legal next = true ∧ moved.state = next ∧ moved.selected = record.selected ∧
      moved.recheck = record.recheck := by
  rw [transition] at h
  split at h
  case h_1 state hstate =>
      obtain ⟨hlegal, rfl⟩ := PathState.transition_eq_ok hstate
      obtain rfl := Except.ok.inj h
      exact ⟨hlegal, rfl, rfl, rfl⟩
  case h_2 => cases h

theorem transition_open {next : PathState} (h : record.transition next = .ok moved) : record.state ≠ .closed := by
  intro hclosed
  have hlegal := (transition_eq_ok h).1
  rw [hclosed, PathState.not_legal_of_closed] at hlegal
  cases hlegal

theorem transition_closed (h : record.state ≠ .closed) : ∃ moved, record.transition .closed = .ok moved := by
  rw [transition, PathState.transition, if_pos (PathState.legal_closed h)]
  exact ⟨_, rfl⟩

/-- Only the events may differ. -/
structure Same (record moved : ManagerRecord) : Prop where
  state : moved.state = record.state
  selected : moved.selected = record.selected
  recheck : moved.recheck = record.recheck
  activeOperations : moved.activeOperations = record.activeOperations

theorem Same.refl (record : ManagerRecord) : record.Same record := ⟨rfl, rfl, rfl, rfl⟩

theorem Same.trans {first second third : ManagerRecord} (h : first.Same second) (h' : second.Same third) :
    first.Same third where
  state := h'.state.trans h.state
  selected := h'.selected.trans h.selected
  recheck := h'.recheck.trans h.recheck
  activeOperations := h'.activeOperations.trans h.activeOperations

theorem recordEvent_same (record : ManagerRecord) (event : PathEvent) : record.Same (record.recordEvent event) := by
  rw [recordEvent]
  split
  · exact ⟨rfl, rfl, rfl, rfl⟩
  · exact .refl record

theorem recordEvent_moves (record : ManagerRecord) (event : PathEvent) :
    Moves record (record.recordEvent event) ∧ (record.recordEvent event).selected = record.selected := by
  rw [recordEvent]
  split
  · exact ⟨.of_eq rfl rfl rfl, rfl⟩
  · exact ⟨.of_eq rfl rfl rfl, rfl⟩

theorem dropOperation_moves (record : ManagerRecord) :
    Moves record record.dropOperation ∧ record.dropOperation.selected = record.selected :=
  ⟨.of_eq rfl rfl rfl, rfl⟩

theorem begin_moves (h : record.begin .checking = .ok moved) :
    Moves record moved ∧ moved.selected = record.selected := by
  rw [begin] at h
  split at h
  case h_1 changed hchanged =>
      obtain rfl := Except.ok.inj h
      obtain ⟨hlegal, hstate, hselected, hrecheck⟩ := transition_eq_ok hchanged
      have hstart : record.state = .discovering := by
        revert hlegal
        cases record.state <;> simp [PathState.legal]
      refine ⟨.of_open (transition_open hchanged) fun ha => ?_, hselected⟩
      have hnone : changed.selected = none := hselected.trans (ha.unselected (.inl hstart))
      constructor
      · intro _
        exact hnone
      · intro hd
        cases hstate.symm.trans hd
      · intro hr
        cases hstate.symm.trans hr
      · intro hr
        cases hstate.symm.trans hr
      · intro hc
        cases hstate.symm.trans hc
  case h_2 => cases h

theorem beginFailure_moves {resources : OwnedResources} (h : record.beginFailure = .ok (resources, moved)) :
    Moves record moved ∧ resources = record.resources ∧ moved.selected = none := by
  rw [beginFailure] at h
  split at h
  case h_1 changed hchanged =>
      obtain ⟨-, hstate, hselected, hrecheck⟩ := transition_eq_ok hchanged
      cases h
      refine ⟨.of_open (transition_open hchanged) fun _ => .of_empty ?_ rfl rfl, ?_, rfl⟩
      · simp [takeResources, addOperation, hstate]
      · rw [ManagerRecord.resources, ManagerRecord.resources, hselected, hrecheck]
  case h_2 => cases h

theorem takeResources_closed (h : record.state = .closed) : Moves record record.takeResources where
  agrees _ := .of_empty (by simp [takeResources, h]) rfl rfl
  closed _ := h

theorem closeAtomic_moves {resources : OwnedResources} (h : record.closeAtomic = .ok (resources, moved)) :
    Moves record moved ∧ resources = record.resources ∧ moved.selected = none := by
  rw [closeAtomic] at h
  split at h
  case isTrue hopen =>
      split at h
      case h_1 changed hchanged =>
          obtain ⟨-, hstate, hselected, hrecheck⟩ := transition_eq_ok hchanged
          cases h
          refine ⟨.of_open hopen fun _ => .of_empty ?_ rfl rfl, ?_, rfl⟩
          · simp [takeResources, pushEvent, hstate]
          · rw [ManagerRecord.resources, ManagerRecord.resources, hselected, hrecheck]
      case h_2 => cases h
  case isFalse hclosed =>
      cases h
      exact ⟨takeResources_closed (not_not.mp hclosed), rfl, rfl⟩

theorem dropManager_moves (record : ManagerRecord) :
    Moves record record.dropManager.2 ∧ record.dropManager.1 = record.resources ∧
      record.dropManager.2.selected = none := by
  by_cases hclosed : record.state = .closed
  · have hdrop : record.dropManager = (record.resources, record.takeResources) := by simp [dropManager, hclosed]
    rw [hdrop]
    exact ⟨takeResources_closed hclosed, rfl, rfl⟩
  · obtain ⟨changed, hchanged⟩ := transition_closed hclosed
    obtain ⟨-, hstate, hselected, hrecheck⟩ := transition_eq_ok hchanged
    simp only [dropManager, ne_eq, hclosed, not_false_eq_true, if_true, hchanged]
    refine ⟨.of_open hclosed fun _ => .of_empty ?_ rfl rfl, ?_, rfl⟩
    · simp [takeResources, pushEvent, hstate]
    · rw [resources, resources]
      simp only [pushEvent, hselected, hrecheck]

theorem beginBackgroundRecheck_moves (record : ManagerRecord) (id : UInt64) :
    Moves record (record.beginBackgroundRecheck id).2 ∧
      (record.beginBackgroundRecheck id).2.selected = record.selected := by
  rw [beginBackgroundRecheck]
  split
  case isTrue => exact ⟨.of_eq rfl rfl rfl, rfl⟩
  case isFalse hready =>
      obtain ⟨-, hrelay⟩ := not_or.mp hready
      split
      case h_1 changed hchanged =>
          obtain ⟨-, hstate, hselected, -⟩ := transition_eq_ok hchanged
          refine ⟨.of_open (transition_open hchanged) fun ha => ?_, hselected⟩
          obtain ⟨owner, howner, hkind⟩ := ha.relay (not_not.mp hrelay)
          constructor
          · intro h
            simp [pushEvent, hstate] at h
          · intro h
            simp [pushEvent, hstate] at h
          · intro h
            simp [pushEvent, hstate] at h
          · intro _ _
            exact ⟨owner, hselected.trans howner, hkind⟩
          · intro h
            simp [pushEvent, hstate] at h
      case h_2 => exact ⟨.of_eq rfl rfl rfl, rfl⟩

theorem finishFailedRecheck_moves (record : ManagerRecord) (id : UInt64) :
    Moves record (record.finishFailedRecheck id).2 ∧
      (record.finishFailedRecheck id).2.selected = record.selected := by
  rw [finishFailedRecheck]
  split
  case isTrue => exact ⟨.of_eq rfl rfl rfl, rfl⟩
  case isFalse hready =>
      obtain ⟨hid, hrechecking⟩ := not_or.mp hready
      split
      case h_1 changed hchanged =>
          obtain ⟨-, hstate, hselected, -⟩ := transition_eq_ok hchanged
          refine ⟨.of_open (transition_open hchanged) fun ha => ?_, hselected⟩
          have hrecheck : record.recheck ≠ none := by
            intro hnone
            simp [recheckId, hnone] at hid
          obtain ⟨owner, howner, hkind⟩ := ha.rechecking (not_not.mp hrechecking) hrecheck
          exact .of_relay hstate (hselected.trans howner) hkind
      case h_2 => exact ⟨.of_eq rfl rfl rfl, rfl⟩

theorem installWinner_moves {expected : PathState} {recheckId : Option UInt64} {owner : OwnedSelected}
    {displaced : Option OwnedSelected} (h : record.installWinner expected recheckId owner = .ok (displaced, moved)) :
    Moves record moved ∧ displaced = record.selected ∧ moved.selected = some owner := by
  simp only [installWinner] at h
  split at h
  case isTrue => cases h
  case isFalse =>
      split at h
      case h_1 => cases h
      case h_2 changed hchanged =>
          obtain ⟨-, hstate, hselected, -⟩ := transition_eq_ok hchanged
          obtain ⟨rfl, hmoved⟩ := Prod.mk.inj (Except.ok.inj h)
          have hfields : moved.state = PathState.ofKind owner.path.kind ∧ moved.selected = some owner := by
            rw [← hmoved]
            split
            · exact ⟨hstate, rfl⟩
            · split
              · exact ⟨hstate, rfl⟩
              · exact ⟨hstate, rfl⟩
          refine ⟨.of_open (transition_open hchanged) fun _ => ?_, hselected, hfields.2⟩
          by_cases hdirect : owner.path.kind.isDirect = true
          · exact .of_direct (by rw [hfields.1, PathState.ofKind, if_pos hdirect]) hfields.2 hdirect
          · have hrelay : owner.path.kind = .relay := by
              revert hdirect
              cases owner.path.kind <;> simp [PathKind.isDirect]
            exact .of_relay (by rw [hfields.1, PathState.ofKind, if_neg hdirect]) hfields.2 hrelay

theorem startRecheck_moves (record : ManagerRecord) (isFinished : TaskId → Bool) (cancellation : Token)
    (handle : TaskId) :
    Moves record (record.startRecheck isFinished cancellation handle).2 ∧
      (record.startRecheck isFinished cancellation handle).2.selected = record.selected := by
  rw [startRecheck]
  split
  case isTrue => exact ⟨.of_eq rfl rfl rfl, rfl⟩
  case isFalse hstate =>
      have hrelay := not_not.mp hstate
      have hopen : record.state ≠ .closed := by simp [hrelay]
      split
      case h_1 =>
          split
          · refine ⟨.of_open hopen fun ha => ?_, rfl⟩
            obtain ⟨owner, howner, hkind⟩ := ha.relay hrelay
            exact .of_relay hrelay howner hkind
          · exact ⟨.of_eq rfl rfl rfl, rfl⟩
      case h_2 =>
          refine ⟨.of_open hopen fun ha => ?_, rfl⟩
          obtain ⟨owner, howner, hkind⟩ := ha.relay hrelay
          exact .of_relay hrelay howner hkind

theorem transition_activeOperations {next : PathState} (h : record.transition next = .ok moved) :
    moved.activeOperations = record.activeOperations := by
  rw [transition] at h
  split at h
  · obtain rfl := Except.ok.inj h
    rfl
  · cases h

theorem transition_of_legal {next : PathState} (h : record.state.legal next = true) :
    ∃ moved, record.transition next = .ok moved := by
  rw [transition, PathState.transition, if_pos h]
  exact ⟨_, rfl⟩

theorem begin_starts (h : record.begin .checking = .ok moved) :
    record.state = .discovering ∧ moved.state = .checking ∧ moved.selected = record.selected ∧
      moved.recheck = record.recheck ∧ moved.activeOperations = record.activeOperations + 1 := by
  rw [begin] at h
  split at h
  case h_1 changed hchanged =>
      obtain rfl := Except.ok.inj h
      obtain ⟨hlegal, hstate, hselected, hrecheck⟩ := transition_eq_ok hchanged
      refine ⟨?_, hstate, hselected, hrecheck, congrArg (· + 1) (transition_activeOperations hchanged)⟩
      revert hlegal
      cases record.state <;> simp [PathState.legal]
  case h_2 => cases h

theorem beginFailure_starts {resources : OwnedResources} (h : record.beginFailure = .ok (resources, moved)) :
    (record.state = .direct ∨ record.state = .relay) ∧ moved.state = .rechecking ∧ resources = record.resources ∧
      moved.selected = none ∧ moved.recheck = none ∧ moved.activeOperations = record.activeOperations + 1 := by
  rw [beginFailure] at h
  split at h
  case h_1 changed hchanged =>
      obtain ⟨hlegal, hstate, hselected, hrecheck⟩ := transition_eq_ok hchanged
      cases h
      refine ⟨?_, hstate, ?_, rfl, rfl, congrArg (· + 1) (transition_activeOperations hchanged)⟩
      · revert hlegal
        cases record.state <;> simp [PathState.legal]
      · rw [ManagerRecord.resources, ManagerRecord.resources, hselected, hrecheck]
  case h_2 => cases h

theorem closeAtomic_closes (record : ManagerRecord) :
    ∃ moved, record.closeAtomic = .ok (record.resources, moved) ∧ moved.state = .closed ∧ moved.selected = none ∧
      moved.recheck = none ∧ moved.activeOperations = record.activeOperations := by
  by_cases hclosed : record.state = .closed
  · exact ⟨record.takeResources, by rw [closeAtomic, if_neg (not_not.mpr hclosed)], hclosed, rfl, rfl, rfl⟩
  · obtain ⟨changed, hchanged⟩ := transition_closed hclosed
    obtain ⟨-, hstate, hselected, hrecheck⟩ := transition_eq_ok hchanged
    have hactive := transition_activeOperations hchanged
    refine ⟨(changed.pushEvent .closed).takeResources, ?_, hstate, rfl, rfl, hactive⟩
    rw [closeAtomic, if_pos hclosed, hchanged]
    simp only [resources, hselected, hrecheck]

theorem beginBackgroundRecheck_cases (record : ManagerRecord) (id : UInt64) :
    record.beginBackgroundRecheck id = (false, record) ∨
    ∃ moved, record.beginBackgroundRecheck id = (true, moved) ∧ record.recheckId = some id ∧ record.state = .relay ∧
      moved.state = .rechecking ∧ moved.selected = record.selected ∧ moved.recheck = record.recheck ∧
        moved.activeOperations = record.activeOperations := by
  rw [beginBackgroundRecheck]
  split
  case isTrue => exact .inl rfl
  case isFalse hready =>
      obtain ⟨hid, hrelay⟩ := not_or.mp hready
      split
      case h_1 changed hchanged =>
          obtain ⟨-, hstate, hselected, hrecheck⟩ := transition_eq_ok hchanged
          have hactive := transition_activeOperations hchanged
          exact .inr ⟨_, rfl, not_not.mp hid, not_not.mp hrelay, hstate, hselected, hrecheck, hactive⟩
      case h_2 => exact .inl rfl

theorem finishFailedRecheck_cases (record : ManagerRecord) (id : UInt64) :
    (record.finishFailedRecheck id = (false, record) ∧ (record.recheckId ≠ some id ∨ record.state ≠ .rechecking)) ∨
    ∃ moved, record.finishFailedRecheck id = (true, moved) ∧ record.recheckId = some id ∧ record.state = .rechecking ∧
      moved.state = .relay ∧ moved.selected = record.selected ∧ moved.recheck = record.recheck ∧
        moved.activeOperations = record.activeOperations := by
  rw [finishFailedRecheck]
  split
  case isTrue hrefused => exact .inl ⟨rfl, hrefused⟩
  case isFalse hready =>
      obtain ⟨hid, hrechecking⟩ := not_or.mp hready
      obtain ⟨changed, hchanged⟩ : ∃ changed, record.transition .relay = .ok changed :=
        transition_of_legal (by rw [not_not.mp hrechecking]; rfl)
      obtain ⟨-, hstate, hselected, hrecheck⟩ := transition_eq_ok hchanged
      have hactive := transition_activeOperations hchanged
      rw [hchanged]
      exact .inr ⟨_, rfl, not_not.mp hid, not_not.mp hrechecking, hstate, hselected, hrecheck, hactive⟩

theorem installWinner_installs {expected : PathState} {recheckId : Option UInt64} {owner : OwnedSelected}
    {displaced : Option OwnedSelected} (h : record.installWinner expected recheckId owner = .ok (displaced, moved)) :
    record.state = expected ∧ (∀ id, recheckId = some id → record.recheckId = some id) ∧ displaced = record.selected ∧
      moved.state = PathState.ofKind owner.path.kind ∧ moved.selected = some owner ∧ moved.recheck = record.recheck ∧
      moved.activeOperations = record.activeOperations := by
  simp only [installWinner] at h
  split at h
  case isTrue => cases h
  case isFalse hready =>
      obtain ⟨hstate, hid⟩ := not_or.mp hready
      split at h
      case h_1 => cases h
      case h_2 changed hchanged =>
          obtain ⟨-, hchangedState, hselected, hrecheck⟩ := transition_eq_ok hchanged
          have hactive := transition_activeOperations hchanged
          obtain ⟨rfl, hmoved⟩ := Prod.mk.inj (Except.ok.inj h)
          refine ⟨not_not.mp hstate, ?_, hselected, ?_⟩
          · rintro id rfl
            simpa using hid
          · rw [← hmoved]
            split
            · exact ⟨hchangedState, rfl, hrecheck, hactive⟩
            · split
              · exact ⟨hchangedState, rfl, hrecheck, hactive⟩
              · exact ⟨hchangedState, rfl, hrecheck, hactive⟩

/-- A recheck that is still installed gets its path in. -/
theorem installWinner_refuses {recheckId : UInt64} {owner : OwnedSelected} {current : PathState}
    (h : record.installWinner .rechecking (some recheckId) owner = .error current) :
    record.state ≠ .rechecking ∨ record.recheckId ≠ some recheckId := by
  refine not_and_or.mp fun ⟨hstate, hid⟩ => ?_
  obtain ⟨changed, hchanged⟩ : ∃ changed, record.transition (PathState.ofKind owner.path.kind) = .ok changed := by
    refine transition_of_legal ?_
    rw [hstate, PathState.ofKind]
    split <;> rfl
  simp only [installWinner, hstate, hid, hchanged] at h
  simp at h

theorem startRecheck_cases (record : ManagerRecord) (isFinished : TaskId → Bool) (cancellation : Token) (handle : TaskId) :
    record.startRecheck isFinished cancellation handle = (.stop, record) ∨
    (∃ recheck, record.recheck = some recheck ∧ isFinished recheck.handle = true ∧ record.state = .relay ∧
      record.startRecheck isFinished cancellation handle = (.finished recheck, { record with recheck := none })) ∨
    ∃ recheck moved, record.recheck = none ∧ record.state = .relay ∧ recheck.cancellation = cancellation ∧
      recheck.handle = handle ∧ moved.recheck = some recheck ∧ moved.state = .relay ∧ moved.selected = record.selected ∧
      moved.activeOperations = record.activeOperations ∧
      record.startRecheck isFinished cancellation handle = (.installed recheck, moved) := by
  rw [startRecheck]
  split
  case isTrue => exact .inl rfl
  case isFalse hstate =>
      split
      case h_1 recheck hrecheck =>
          split
          case isTrue hfinished => exact .inr (.inl ⟨recheck, hrecheck, hfinished, not_not.mp hstate, rfl⟩)
          case isFalse => exact .inl rfl
      case h_2 hrecheck =>
          let recheck : OwnedRecheck := ⟨record.nextRecheckId, cancellation, handle⟩
          let moved : ManagerRecord :=
            { record with nextRecheckId := max (record.nextRecheckId + 1) 1, recheck := some recheck }
          exact .inr (.inr ⟨recheck, moved, hrecheck, not_not.mp hstate, rfl, rfl, rfl, not_not.mp hstate, rfl, rfl, rfl⟩)

end ManagerRecord

end Rustgo.Path
