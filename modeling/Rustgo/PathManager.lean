import Rustgo.PathRecord
import Rustgo.Tables

namespace Rustgo.Path

open Tables

structure RunningAttempt where
  id : Nat
  kind : PathKind
  cancellation : Token
  deriving DecidableEq

structure Race where
  hasDirect : Bool
  relayGroup : List PathKind
  relayStarted : Bool
  running : List RunningAttempt
  nextId : Nat
  directActive : Nat
  relayActive : Nat
  deriving DecidableEq

namespace Race

def directGroups (attempts : List PathKind) : List PathKind :=
  attempts.filter (· = .quicV6) ++ attempts.filter (· = .quicV4) ++ attempts.filter (· = .nativeTcp)

def new (attempts : List PathKind) : Race :=
  { hasDirect := (directGroups attempts).isEmpty = false
    relayGroup := attempts.filter (· = .relay)
    relayStarted := false
    running := []
    nextId := 0
    directActive := (directGroups attempts).length
    relayActive := 0 }

def decrementActive (race : Race) (kind : PathKind) : Race :=
  if kind = .relay then { race with relayActive := race.relayActive - 1 }
  else { race with directActive := race.directActive - 1 }

def exhausted (race : Race) : Bool := race.directActive = 0 ∧ race.relayStarted = true ∧ race.relayActive = 0

end Race

/-- Whose code a task runs. -/
inductive Origin
  | connect
  | reportFailed
  | background (id : UInt64) (cancellation : Token) (generation : UInt64)
  | close
  | drop
  deriving DecidableEq

/-- What follows the release of resources. -/
inductive After
  | race
  | wait (error : Option PathError)
  deriving DecidableEq

/-- How far a task has come: what it does in its next step. -/
inductive Phase
  | releasing (resources : OwnedResources) (after : After)
  | starting
  | racing (race : Race)
  | cleaning (running : List RunningAttempt) (outcome : Except PathError RaceWinner)
  | draining (outcome : Except PathError RaceWinner)
  | won (winner : RaceWinner)
  | committing (owner : OwnedSelected)
  | shedding (owner : OwnedSelected) (error : PathError)
  | shed (error : PathError)
  | displacing (displaced : OwnedSelected) (path : SelectedPath)
  | displaced (path : SelectedPath)
  | rechecking (path : SelectedPath)
  | stopping (recheck : OwnedRecheck) (path : SelectedPath)
  | finishing (path : SelectedPath)
  | abandoning (error : PathError)
  | closing (error : Option PathError)
  | cancelling (resources : OwnedResources) (error : Option PathError)
  | waiting (error : Option PathError)
  | sleeping
  | beginning
  | building
  | retrying
  | dropping
  | done (result : Except PathError (Option SelectedPath))
  | dropped
  deriving DecidableEq

namespace Phase

/-- The path a task took from a race or displaced, and has neither installed
nor cancelled yet. -/
def held : Phase → Option RaceWinner
  | .won winner => some winner
  | .committing owner | .shedding owner _ => some owner.winner
  | .displacing old _ => some old.winner
  | _ => none

/-- How many more steps a task takes with the path it holds. -/
def patience : Phase → Nat
  | .won _ => 3
  | .committing _ => 2
  | .shedding _ _ | .displacing _ _ => 1
  | _ => 0

def isFinished : Phase → Bool
  | .done _ | .dropped => true
  | _ => false

/-- The points at which a task waits, and so the only ones at which its future
can be dropped. -/
def awaits : Phase → Bool
  | .releasing _ _ | .racing _ | .draining _ | .shed _ | .displaced _ | .waiting _ | .sleeping | .building => true
  | _ => false

/-- Waits that come after the operation's guard was given back. -/
def unguarded : Phase → Bool
  | .releasing _ (.wait _) | .waiting _ => true
  | _ => false

end Phase

structure Task where
  origin : Origin
  caller : Caller
  factory : Bool
  attempts : List PathKind
  phase : Phase
  deriving DecidableEq

namespace Task

def move (task : Task) (phase : Phase) : Task := { task with phase := phase }

def isBackground (task : Task) : Bool :=
  match task.origin with
  | .background _ _ _ => true
  | _ => false

def hasGuard (task : Task) : Bool :=
  match task.origin with
  | .connect | .reportFailed => !task.phase.unguarded
  | _ => false

/-- The state in which the task expects the record at its commit. -/
def expected (task : Task) : PathState :=
  match task.origin with
  | .connect => .checking
  | _ => .rechecking

def recheckId (task : Task) : Option UInt64 :=
  match task.origin with
  | .background id _ _ => some id
  | _ => none

/-- Where a task goes on from a race it did not win. -/
def lost (task : Task) (error : PathError) : Phase :=
  match task.origin with
  | .background _ _ _ => if error = .cancelled then .done (.error error) else .retrying
  | _ => .abandoning error

/-- Where a task goes on from a winner it could not install. -/
def refused (task : Task) (error : PathError) : Phase :=
  match task.origin with
  | .background _ _ _ => .done (.error error)
  | _ => .abandoning error

/-- Where a task goes on from a winner it installed. -/
def installed (task : Task) (path : SelectedPath) : Phase :=
  match task.origin with
  | .background _ _ _ => .done (.ok (some path))
  | _ => if path.kind = .relay ∧ task.factory = true then .rechecking path else .finishing path

/-- The background task after its factory has been asked once more. -/
def advanceGeneration (task : Task) : Task :=
  match task.origin with
  | .background id cancellation generation =>
      { task with origin := .background id cancellation (max (generation + 1) 1) }
  | _ => task

end Task

/-- The manager with its tokens and the tasks that run on it. `returned` keeps
the winner of every race that has returned one. -/
structure System where
  record : ManagerRecord
  lifetime : Bool
  cancelled : List Token
  callers : List Caller
  watches : List (Caller × Token)
  nextToken : Token
  tasks : Table TaskId Task
  managerDropped : Bool
  returned : List RaceWinner

namespace System

def new : System := ⟨.new, false, [], [], [], 0, ∅, false, []⟩

/-- A child of the lifetime is cancelled with it. -/
def isCancelled (s : System) (token : Token) : Bool := s.lifetime || s.cancelled.contains token

def cancel (s : System) (tokens : List Token) : System := { s with cancelled := s.cancelled ++ tokens }

def cancelLifetime (s : System) : System := { s with lifetime := true }

def put (s : System) (id : TaskId) (task : Task) : System := { s with tasks := s.tasks.insert id task }

def setRecord (s : System) (record : ManagerRecord) : System := { s with record := record }

def isFinished (s : System) (id : TaskId) : Bool := (s.tasks.lookup id).all fun task => task.phase.isFinished

/-- Whether anything that stops the task's race or wait is cancelled. -/
def stopped (s : System) (task : Task) : Bool :=
  s.callers.contains task.caller ||
    match task.origin with
    | .background _ cancellation _ => s.isCancelled cancellation
    | _ => s.lifetime

/-- `spawn_group`: every attempt gets its own child of the lifetime. -/
def spawnGroup (s : System) (race : Race) : List PathKind → System × Race
  | [] => (s, race)
  | kind :: group =>
      spawnGroup
        { s with
          record := s.record.recordEvent (.attemptStarted kind)
          nextToken := s.nextToken + 1 }
        { race with
          running := race.running ++ [⟨race.nextId, kind, s.nextToken⟩]
          nextId := race.nextId + 1 }
        group

/-- The attempt has failed: its token is cancelled and the failure recorded. -/
def attemptFailed (s : System) (attempt : RunningAttempt) : System :=
  (s.cancel [attempt.cancellation]).setRecord (s.record.recordEvent (.attemptFailed attempt.kind))

end System

/-- What the surroundings decide in a step of a task. -/
inductive Choice
  | go
  | stop
  | relayDue
  | joined (attempt : Nat) (result : Except PathError SelectedPath)
  | crashed (attempt : Nat)
  | slept
  | created (attempts : Except PathError (List PathKind))
  | spawned (handle : TaskId)
  deriving DecidableEq

namespace System

/-- One round of the loop of `race_attempts`. -/
def raceRound (s : System) (id : TaskId) (task : Task) (race : Race) : Choice → Option System
  | .relayDue =>
      if race.relayStarted then none
      else
        let spawned := s.spawnGroup { race with relayStarted := true, relayActive := race.relayGroup.length }
          race.relayGroup
        some (spawned.1.put id (task.move (.racing spawned.2)))
  | choice =>
      if race.relayStarted = false ∧ race.hasDirect = false then none
      else if race.exhausted then some (s.put id (task.move (.cleaning race.running (.error .noViablePath))))
      else
        match choice with
        | .stop => if s.stopped task then some (s.put id (task.move (.cleaning race.running (.error .cancelled)))) else none
        | .joined attempt result =>
            match race.running.find? (·.id = attempt) with
            | none => none
            | some completed =>
                let rest := { race with running := race.running.eraseP (·.id = attempt) }.decrementActive completed.kind
                match result with
                | .ok path =>
                    if path.kind = completed.kind then
                      some (s.put id (task.move (.cleaning rest.running (.ok ⟨path, completed.cancellation⟩))))
                    else some ((s.attemptFailed completed).put id (task.move (.racing rest)))
                | .error _ => some ((s.attemptFailed completed).put id (task.move (.racing rest)))
        | .crashed attempt =>
            match race.running.find? (·.id = attempt) with
            | none => none
            | some failed =>
                let rest := { race with running := race.running.eraseP (·.id = attempt) }.decrementActive failed.kind
                some ((s.attemptFailed failed).put id (task.move (.racing rest)))
        | _ => none

/-- One round of `start_recheck`. -/
def recheckRound (s : System) (id : TaskId) (task : Task) (path : SelectedPath) (handle : TaskId) : Option System :=
  if s.tasks.lookup handle ≠ none then none
  else
    match s.record.startRecheck s.isFinished s.nextToken handle with
    | (.stop, record) => some ((s.setRecord record).put id (task.move (.finishing path)))
    | (.finished recheck, record) => some ((s.setRecord record).put id (task.move (.stopping recheck path)))
    | (.installed recheck, record) =>
        some
          ((({ s with record := record, nextToken := s.nextToken + 1 } : System).put handle
            { origin := .background recheck.id recheck.cancellation 1
              caller := task.caller
              factory := true
              attempts := []
              phase := .sleeping }).put id (task.move (.finishing path)))

/-- `shutdown_resources`: the selected path first, then the recheck task. -/
def release (s : System) (id : TaskId) (task : Task) (resources : OwnedResources) (after : After) : Option System :=
  match resources.selected, resources.recheck with
  | some selected, _ =>
      some ((s.cancel [selected.cancellation]).put id
        (task.move (.releasing { resources with selected := none } after)))
  | none, some recheck =>
      if s.isFinished recheck.handle then
        some ((s.cancel [recheck.cancellation]).put id (task.move (.releasing ⟨none, none⟩ after)))
      else none
  | none, none => some (s.put id (task.move (match after with | .race => .starting | .wait error => .waiting error)))

def returnRace (s : System) (id : TaskId) (task : Task) : Except PathError RaceWinner → System
  | .ok winner => { s.put id (task.move (.won winner)) with returned := s.returned ++ [winner] }
  | .error error => s.put id (task.move (task.lost error))

/-- `install_winner` up to its lock. -/
def own (s : System) (id : TaskId) (task : Task) (winner : RaceWinner) : System :=
  let owner := OwnedSelected.new winner task.caller
  let watched := { s with watches := s.watches ++ [(task.caller, winner.cancellation)] }
  if s.callers.contains task.caller ∨ s.lifetime = true then
    watched.put id (task.move (.shedding owner .cancelled))
  else watched.put id (task.move (.committing owner))

/-- `install_winner` under its lock. -/
def commit (s : System) (id : TaskId) (task : Task) (owner : OwnedSelected) : System :=
  match s.record.installWinner task.expected task.recheckId owner with
  | .ok (some displaced, record) => (s.setRecord record).put id (task.move (.displacing displaced owner.path))
  | .ok (none, record) => (s.setRecord record).put id (task.move (task.installed owner.path))
  | .error current =>
      let refusal :=
        if current = .closed then .cancelled else .illegalTransition current (PathState.ofKind owner.path.kind)
      s.put id (task.move (.shedding owner refusal))

def finish (s : System) (id : TaskId) (task : Task) (path : SelectedPath) : System :=
  match s.record.finish (PathState.ofKind path.kind) with
  | (true, record) => (s.setRecord record).put id (task.move (.done (.ok (some path))))
  | (false, record) => (s.setRecord record).put id (task.move (.done (.error .cancelled)))

def closeRecord (s : System) (id : TaskId) (task : Task) (error : Option PathError) : System :=
  match s.record.closeAtomic with
  | .ok (resources, record) =>
      ((s.setRecord record).cancel resources.tokens).put id (task.move (.cancelling resources error))
  | .error refusal => s.put id (task.move (.done (.error refusal)))

def dropRecord (s : System) (id : TaskId) (task : Task) : System :=
  ((s.setRecord s.record.dropManager.2).cancel s.record.dropManager.1.tokens).put id (task.move (.done (.ok none)))

/-- A background task ends when its caller or its own token is cancelled. -/
def stopBackground (s : System) (id : TaskId) (task : Task) : Option System :=
  if s.stopped task then some (s.put id (task.move (.done (.error .cancelled)))) else none

def sleepRound (s : System) (id : TaskId) (task : Task) : Choice → Option System
  | .stop => s.stopBackground id task
  | .slept => some (s.put id (task.move .beginning))
  | _ => none

/-- A section under the lock that a background task runs for its recheck. -/
def recheckSection (s : System) (id : TaskId) (task : Task) (lockSection : UInt64 → Bool × ManagerRecord)
    (phase : Phase) : Option System :=
  match task.recheckId with
  | none => none
  | some recheckId =>
      match lockSection recheckId with
      | (true, record) => some ((s.setRecord record).put id (task.move phase))
      | (false, record) => some ((s.setRecord record).put id (task.move (.done (.ok none))))

def buildRound (s : System) (id : TaskId) (task : Task) : Choice → Option System
  | .stop => s.stopBackground id task
  | .created (.ok attempts) =>
      if attempts.isEmpty then some (s.put id (task.move (.done (.ok none))))
      else some (s.put id { task.advanceGeneration with attempts := attempts, phase := .starting })
  | .created (.error error) =>
      if error = .cancelled then some (s.put id (task.move (.done (.error error))))
      else some (s.put id (task.advanceGeneration.move .retrying))
  | _ => none

def waitRound (s : System) (id : TaskId) (task : Task) (error : Option PathError) : Option System :=
  if s.record.activeOperations = 0 then
    some (s.put id (task.move (.done (match error with | some error => .error error | none => .ok none))))
  else none

/-- One step of a task: the code between two points at which it takes the lock,
touches a token or waits. -/
def advance (s : System) (id : TaskId) (task : Task) (choice : Choice) : Option System :=
  match task.phase with
  | .releasing resources after => s.release id task resources after
  | .starting =>
      let spawned := s.spawnGroup (.new task.attempts) (Race.directGroups task.attempts)
      some (spawned.1.put id (task.move (.racing spawned.2)))
  | .racing race => s.raceRound id task race choice
  | .cleaning running outcome =>
      some ((s.cancel (running.map RunningAttempt.cancellation)).put id (task.move (.draining outcome)))
  | .draining outcome => some (s.returnRace id task outcome)
  | .won winner => some (s.own id task winner)
  | .committing owner => some (s.commit id task owner)
  | .shedding owner error => some ((s.cancel [owner.cancellation]).put id (task.move (.shed error)))
  | .shed error => some (s.put id (task.move (task.refused error)))
  | .displacing displaced path => some ((s.cancel [displaced.cancellation]).put id (task.move (.displaced path)))
  | .displaced path => some (s.put id (task.move (task.installed path)))
  | .rechecking path =>
      match choice with
      | .spawned handle => s.recheckRound id task path handle
      | _ => none
  | .stopping recheck path => some ((s.cancel [recheck.cancellation]).put id (task.move (.rechecking path)))
  | .finishing path => some (s.finish id task path)
  | .abandoning error => some ((s.setRecord s.record.dropOperation).put id (task.move (.closing (some error))))
  | .closing error => some (s.closeRecord id task error)
  | .cancelling resources error =>
      some (s.cancelLifetime.put id
        (task.move (if task.origin = .drop then .dropping else .releasing resources (.wait error))))
  | .waiting error => s.waitRound id task error
  | .sleeping => s.sleepRound id task choice
  | .beginning => s.recheckSection id task s.record.beginBackgroundRecheck .building
  | .building => s.buildRound id task choice
  | .retrying => s.recheckSection id task s.record.finishFailedRecheck .sleeping
  | .dropping => some (s.dropRecord id task)
  | .done _ | .dropped => none

end System

inductive Label
  | connect (id : TaskId) (caller : Caller) (factory : Bool) (attempts : List PathKind)
  | reportFailed (id : TaskId) (caller : Caller) (factory : Bool) (attempts : List PathKind)
  | close (id : TaskId)
  | dropManager (id : TaskId)
  | cancelCaller (caller : Caller)
  | watch (caller : Caller) (token : Token)
  | run (id : TaskId) (choice : Choice)
  | drop (id : TaskId)
  deriving DecidableEq

namespace System

/-- A method of the manager can start: nothing else has its task's id, and the
manager is still there. -/
def admits (s : System) (id : TaskId) : Bool := (s.tasks.lookup id).isNone && !s.managerDropped

def next (s : System) : Label → Option System
  | .connect id caller factory attempts =>
      if s.admits id = false then none
      else
        match s.record.begin .checking with
        | .ok record => some ((s.setRecord record).put id ⟨.connect, caller, factory, attempts, .starting⟩)
        | .error e => some (s.put id ⟨.connect, caller, factory, attempts, .done (.error e)⟩)
  | .reportFailed id caller factory attempts =>
      if s.admits id = false then none
      else
        match s.record.beginFailure with
        | .ok (resources, record) =>
            some (((s.setRecord record).cancel resources.tokens).put id
              ⟨.reportFailed, caller, factory, attempts, .releasing resources .race⟩)
        | .error e => some (s.put id ⟨.reportFailed, caller, factory, attempts, .done (.error e)⟩)
  | .close id =>
      if s.admits id = false then none
      else some (s.put id ⟨.close, 0, false, [], .closing none⟩)
  | .dropManager id =>
      if s.admits id = false then none
      else if ∀ key ∈ s.tasks.keys, (s.tasks.lookup key).all fun task => task.isBackground || task.phase.isFinished then
        some { s.put id ⟨.drop, 0, false, [], .cancelling ⟨none, none⟩ none⟩ with managerDropped := true }
      else none
  | .cancelCaller caller => some { s with callers := s.callers ++ [caller] }
  | .watch caller token =>
      if (caller, token) ∈ s.watches ∧ caller ∈ s.callers then some (s.cancel [token]) else none
  | .run id choice =>
      match s.tasks.lookup id with
      | none => none
      | some task => s.advance id task choice
  | .drop id =>
      match s.tasks.lookup id with
      | none => none
      | some task =>
          if task.phase.awaits = false then none
          else
            let record := if task.hasGuard then s.record.dropOperation else s.record
            some ((s.setRecord record).put id (task.move .dropped))

def Step (s : System) (l : Label) (t : System) : Prop := s.next l = some t

end System

end Rustgo.Path
