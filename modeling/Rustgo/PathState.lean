import Mathlib.Logic.Basic

namespace Rustgo.Path

inductive PathKind
  | quicV6
  | quicV4
  | nativeTcp
  | relay
  deriving DecidableEq

def PathKind.isDirect : PathKind → Bool
  | .relay => false
  | .quicV6 | .quicV4 | .nativeTcp => true

inductive PathState
  | discovering
  | checking
  | direct
  | relay
  | rechecking
  | closed
  deriving DecidableEq

inductive PathError
  | illegalTransition (source target : PathState)
  | attemptFailed (kind : PathKind)
  | attemptTimedOut (kind : PathKind)
  | attemptTaskFailed
  | noViablePath
  | cancelled
  deriving DecidableEq

inductive PathEvent
  | stateChanged (source target : PathState)
  | attemptStarted (kind : PathKind)
  | attemptFailed (kind : PathKind)
  | selected (kind : PathKind)
  | relayFallback
  | recheckStarted
  | recheckScheduled
  | promoted (kind : PathKind)
  | closed
  deriving DecidableEq

namespace PathState

def legal : PathState → PathState → Bool
  | .discovering, .checking | .discovering, .closed => true
  | .checking, .direct | .checking, .relay | .checking, .closed => true
  | .direct, .rechecking | .direct, .closed | .relay, .rechecking | .relay, .closed => true
  | .rechecking, .direct | .rechecking, .relay | .rechecking, .closed => true
  | _, _ => false

def transition (current next : PathState) : Except PathError PathState :=
  if current.legal next then .ok next else .error (.illegalTransition current next)

theorem transition_eq_ok {current next reached : PathState} (h : current.transition next = .ok reached) :
    current.legal next = true ∧ reached = next := by
  rw [transition] at h
  split at h
  · exact ⟨‹_›, (Except.ok.inj h).symm⟩
  · cases h

theorem legal_closed {current : PathState} (h : current ≠ .closed) : current.legal .closed = true := by
  cases current with
  | closed => exact absurd rfl h
  | discovering | checking | direct | relay | rechecking => rfl

theorem not_legal_of_closed (next : PathState) : legal .closed next = false := by
  cases next <;> rfl

/-- The state in which a path of this kind is in use. -/
def ofKind (kind : PathKind) : PathState := if kind.isDirect then .direct else .relay

end PathState

structure SelectedPath where
  kind : PathKind
  deriving DecidableEq

/-- A cancellation token made as a child of the manager's lifetime. -/
abbrev Token := Nat

/-- A cancellation token a caller brings. -/
abbrev Caller := Nat

abbrev TaskId := Nat

structure RaceWinner where
  path : SelectedPath
  cancellation : Token
  deriving DecidableEq

structure OwnedSelected where
  path : SelectedPath
  cancellation : Token
  caller : Caller
  deriving DecidableEq

namespace OwnedSelected

def new (winner : RaceWinner) (caller : Caller) : OwnedSelected := ⟨winner.path, winner.cancellation, caller⟩

def winner (owner : OwnedSelected) : RaceWinner := ⟨owner.path, owner.cancellation⟩

@[simp] theorem winner_new (winner : RaceWinner) (caller : Caller) : (new winner caller).winner = winner := rfl

end OwnedSelected

structure OwnedRecheck where
  id : UInt64
  cancellation : Token
  handle : TaskId
  deriving DecidableEq

structure OwnedResources where
  selected : Option OwnedSelected
  recheck : Option OwnedRecheck
  deriving DecidableEq

/-- The tokens that giving up these resources cancels. -/
def OwnedResources.tokens (resources : OwnedResources) : List Token :=
  (resources.selected.map OwnedSelected.cancellation).toList ++
    (resources.recheck.map OwnedRecheck.cancellation).toList

end Rustgo.Path
