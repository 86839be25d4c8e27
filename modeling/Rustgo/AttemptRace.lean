import Rustgo.PathState
import Rustgo.Runs

namespace Rustgo.AttemptRace

open Path Runs

/-- One of the attempts of the list, which is known by its handle. -/
structure Attempt where
  handle : Nat
  kind : PathKind
  deriving DecidableEq

structure PathManagerConfig where
  directTimeout : Nat
  relayGrace : Nat
  attemptTimeout : Nat

structure RunningAttempt where
  id : Nat
  taskId : Nat
  kind : PathKind
  cancellation : Token
  deriving DecidableEq

/-- How a task ends. -/
inductive Outcome
  | result (result : Except PathError SelectedPath)
  | panicked
  deriving DecidableEq

/-- A task of the set that was not joined yet. -/
structure AttemptTask where
  entry : RunningAttempt
  deadline : Nat
  outcome : Option Outcome
  deriving DecidableEq

inductive Phase
  /-- At the head of the loop. -/
  | looping
  | selecting
  /-- Before `cleanup` cancels the tokens of the running attempts. -/
  | cleaning (result : Except PathError RaceWinner)
  | draining (result : Except PathError RaceWinner)
  | returned (result : Except PathError RaceWinner)
  deriving DecidableEq

/-- An attempt that was started, with its token and the time of its start. -/
structure Started where
  attempt : Attempt
  cancellation : Token
  startedAt : Nat
  deriving DecidableEq

structure Race where
  now : Nat
  relayGroup : List Attempt
  relayStart : Nat
  tasks : List AttemptTask
  running : List RunningAttempt
  nextId : Nat
  nextTask : Nat
  directActive : Nat
  relayActive : Nat
  relayStarted : Bool
  nextToken : Token
  /-- The tokens that the race or a task has cancelled. -/
  cancelled : List Token
  callerCancelled : Bool
  operationCancelled : Bool
  lifetimeCancelled : Bool
  events : List PathEvent
  phase : Phase
  /-- Every attempt that was started, at the place of its id. -/
  started : List Started
  /-- What the loop has taken from the set of tasks. -/
  joined : List (Nat × Outcome)

inductive Event
  | tick (now : Nat)
  | cancelCaller
  | cancelOperation
  | cancelLifetime
  | finish (taskId : Nat) (outcome : Outcome)
  | expire (taskId : Nat)
  | round
  | stop
  | wake
  | join (taskId : Nat)
  | cleanup
  | drained

def groupOf (attempts : List Attempt) (kind : PathKind) : List Attempt := attempts.filter (·.kind = kind)

/-- The groups in the order of `group_index`, without the relay attempts. -/
def directGroups (attempts : List Attempt) : List Attempt :=
  groupOf attempts .quicV6 ++ groupOf attempts .quicV4 ++ groupOf attempts .nativeTcp

namespace Race

def spawn (deadline : Nat) (s : Race) (attempt : Attempt) : Race :=
  let entry : RunningAttempt := ⟨s.nextId, s.nextTask, attempt.kind, s.nextToken⟩
  { s with
    nextId := s.nextId + 1
    nextTask := s.nextTask + 1
    nextToken := s.nextToken + 1
    events := s.events ++ [.attemptStarted attempt.kind]
    tasks := s.tasks ++ [⟨entry, deadline, none⟩]
    running := s.running ++ [entry]
    started := s.started ++ [⟨attempt, s.nextToken, s.now⟩] }

def spawnGroup (s : Race) (deadline : Nat) (group : List Attempt) : Race := group.foldl (spawn deadline) s

/-- The race before its first attempt is started. -/
def prepare (config : PathManagerConfig) (attempts : List Attempt) (now firstTask : Nat) (firstToken : Token) : Race where
  now
  relayGroup := groupOf attempts .relay
  relayStart := if (directGroups attempts).isEmpty then now else now + config.relayGrace
  tasks := []
  running := []
  nextId := 0
  nextTask := firstTask
  directActive := (directGroups attempts).length
  relayActive := 0
  relayStarted := false
  nextToken := firstToken
  cancelled := []
  callerCancelled := false
  operationCancelled := false
  lifetimeCancelled := false
  events := []
  phase := .looping
  started := []
  joined := []

/-- The race before its loop. -/
def start (config : PathManagerConfig) (attempts : List Attempt) (now firstTask : Nat) (firstToken : Token) : Race :=
  (prepare config attempts now firstTask firstToken).spawnGroup
    (min (now + config.directTimeout) (now + config.attemptTimeout)) (directGroups attempts)

def decrementActive (s : Race) (kind : PathKind) : Race :=
  if kind = .relay then { s with relayActive := s.relayActive - 1 } else { s with directActive := s.directActive - 1 }

/-- The relay attempts are started as soon as their time has come. -/
def startRelays (config : PathManagerConfig) (s : Race) : Race :=
  if s.relayStarted = false ∧ s.relayStart ≤ s.now then
    spawnGroup { s with relayStarted := true, relayActive := s.relayGroup.length } (s.now + config.attemptTimeout) s.relayGroup
  else s

def exhausted (s : Race) : Bool := s.directActive = 0 ∧ s.relayStarted = true ∧ s.relayActive = 0

/-- The loop up to its `select!`. -/
def round (config : PathManagerConfig) (s : Race) : Race :=
  let s := s.startRelays config
  { s with phase := if s.exhausted then .cleaning (.error .noViablePath) else .selecting }

/-- The outcome of a task is settled, unless it was settled before. -/
def settle (s : Race) (taskId : Nat) (outcome : Outcome) : Race :=
  { s with tasks := s.tasks.map fun task =>
      if task.entry.taskId = taskId ∧ task.outcome = none then { task with outcome := some outcome } else task }

/-- The attempt has failed: its token is cancelled. -/
def fail (s : Race) (attempt : RunningAttempt) : Race :=
  { s with
    cancelled := s.cancelled ++ [attempt.cancellation]
    events := s.events ++ [.attemptFailed attempt.kind]
    phase := .looping }

/-- What the loop does with an outcome that it took from the set. -/
def take (s : Race) (task : AttemptTask) (outcome : Outcome) : Race :=
  let s := { s with
    tasks := s.tasks.erase task
    joined := s.joined ++ [(task.entry.id, outcome)] }
  match outcome with
  | .result result =>
      match s.running.find? (·.id = task.entry.id) with
      | none => { s with phase := .looping }
      | some completed =>
          let s := { s with running := s.running.erase completed }.decrementActive task.entry.kind
          match result with
          | .ok path =>
              if path.kind = task.entry.kind then { s with phase := .cleaning (.ok ⟨path, completed.cancellation⟩) }
              else s.fail completed
          | .error _ => s.fail completed
  | .panicked =>
      match s.running.find? (·.taskId = task.entry.taskId) with
      | none => { s with phase := .looping }
      | some failed => ({ s with running := s.running.erase failed }.decrementActive failed.kind).fail failed

def findTask (s : Race) (taskId : Nat) : Option AttemptTask := s.tasks.find? (·.entry.taskId = taskId)

/-- A cancellation or a sleep may come about after its branch was polled. -/
def next (config : PathManagerConfig) (s : Race) (event : Event) : Option Race :=
  match event, s.phase with
  | .tick now, _ => if s.now ≤ now then some { s with now } else none
  | .cancelCaller, _ => some { s with callerCancelled := true }
  | .cancelOperation, _ => some { s with operationCancelled := true }
  | .cancelLifetime, _ => some { s with lifetimeCancelled := true }
  | .finish taskId outcome, _ => if (s.findTask taskId).isSome then some (s.settle taskId outcome) else none
  | .expire taskId, _ =>
      (s.findTask taskId).bind fun task =>
        if task.outcome = none ∧ task.deadline ≤ s.now then
          some { s.settle taskId (.result (.error (.attemptTimedOut task.entry.kind))) with
            cancelled := s.cancelled ++ [task.entry.cancellation] }
        else none
  | .round, .looping => some (s.round config)
  | .stop, .selecting =>
      if s.callerCancelled ∨ s.operationCancelled ∨ s.lifetimeCancelled then
        some { s with phase := .cleaning (.error .cancelled) }
      else none
  | .wake, .selecting => if s.relayStarted = false ∧ s.relayStart ≤ s.now then some { s with phase := .looping } else none
  | .join taskId, .selecting => (s.findTask taskId).bind fun task => task.outcome.map (s.take task)
  | .cleanup, .cleaning result =>
      some { s with cancelled := s.cancelled ++ s.running.map RunningAttempt.cancellation, phase := .draining result }
  | .drained, .draining result => some { s with tasks := [], phase := .returned result }
  | _, _ => none

def Step (config : PathManagerConfig) (s : Race) (event : Event) (t : Race) : Prop := s.next config event = some t

def isLooping (s : Race) : Bool :=
  match s.phase with
  | .looping | .selecting => true
  | _ => false

/-- What the race is going to return. -/
def result? (s : Race) : Option (Except PathError RaceWinner) :=
  match s.phase with
  | .looping | .selecting => none
  | .cleaning result | .draining result | .returned result => some result

/-- Whether the tokens of the running attempts are cancelled. -/
def isClean (s : Race) : Bool :=
  match s.phase with
  | .draining _ | .returned _ => true
  | _ => false

/-- The outcome does not make an attempt of the kind win. -/
def Fails (kind : PathKind) : Outcome → Prop
  | .result (.ok path) => path.kind ≠ kind
  | .result (.error _) => True
  | .panicked => True

/-- The attempt was taken from the set, has failed, and its token is cancelled. -/
def Spent (s : Race) (i : Nat) : Prop :=
  ∃ st outcome, s.started[i]? = some st ∧ (i, outcome) ∈ s.joined ∧ Fails st.attempt.kind outcome ∧ st.cancellation ∈ s.cancelled

/-- The attempt has returned the path of the winner. -/
def Won (s : Race) (winner : RaceWinner) (i : Nat) : Prop :=
  ∃ st, s.started[i]? = some st ∧ (i, .result (.ok winner.path)) ∈ s.joined ∧ winner.path.kind = st.attempt.kind ∧
    winner.cancellation = st.cancellation ∧ i ∉ s.running.map RunningAttempt.id

/-- The tables of the race agree with each other. -/
structure Booked (s : Race) : Prop where
  entries : ∀ task ∈ s.tasks, task.entry ∈ s.running
  ids : (s.running.map RunningAttempt.id).Nodup
  taskIds : (s.running.map RunningAttempt.taskId).Nodup
  taskIds_lt : ∀ entry ∈ s.running, entry.taskId < s.nextTask
  known : ∀ entry ∈ s.running, ∃ st, s.started[entry.id]? = some st ∧ st.attempt.kind = entry.kind ∧
    st.cancellation = entry.cancellation
  count : s.started.length = s.nextId
  tokens : (s.started.map Started.cancellation).Nodup
  tokens_lt : ∀ st ∈ s.started, st.cancellation < s.nextToken
  cancelled_lt : ∀ token ∈ s.cancelled, token < s.nextToken
  listed : s.isLooping = true → s.running = s.tasks.map AttemptTask.entry
  fresh : s.isLooping = true → ∀ task ∈ s.tasks, (∀ error, task.outcome ≠ some (.result (.error error))) →
    task.entry.cancellation ∉ s.cancelled

/-- Every attempt that was started is running, has failed, or has won. -/
structure Resolved (s : Race) : Prop where
  each : ∀ i < s.nextId, i ∈ s.running.map RunningAttempt.id ∨ s.Spent i ∨ ∃ winner, s.result? = some (.ok winner) ∧ s.Won winner i
  won : ∀ winner, s.result? = some (.ok winner) → winner.cancellation ∉ s.cancelled ∧ ∃ i, s.Won winner i
  cleaned : s.isClean = true → ∀ entry ∈ s.running, entry.cancellation ∈ s.cancelled
  exhausted : s.result? = some (.error .noViablePath) → s.relayStarted = true ∧ s.running = []

/-- The counters agree with the running attempts. -/
structure Counted (s : Race) : Prop where
  direct : s.directActive = s.running.countP fun entry => entry.kind ≠ .relay
  relay : s.relayActive = s.running.countP fun entry => entry.kind = .relay

/-- The attempts are started in the order of their groups, the relay attempts last and in time. -/
structure Ordered (config : PathManagerConfig) (attempts : List Attempt) (begun : Nat) (s : Race) : Prop where
  relayGroup : s.relayGroup = groupOf attempts .relay
  relayStart : s.relayStart = if directGroups attempts = [] then begun else begun + config.relayGrace
  lists : s.started.map Started.attempt = directGroups attempts ++ if s.relayStarted then groupOf attempts .relay else []
  times : ∀ st ∈ s.started, st.attempt.kind = .relay → s.relayStart ≤ st.startedAt

structure Sound (config : PathManagerConfig) (attempts : List Attempt) (begun : Nat) (s : Race) : Prop where
  booked : s.Booked
  resolved : s.Resolved
  counted : s.Counted
  ordered : s.Ordered config attempts begun

end Race

end Rustgo.AttemptRace
