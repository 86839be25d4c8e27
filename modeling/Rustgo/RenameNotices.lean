import Rustgo.FrameCodec
import Rustgo.HandshakeState
import Rustgo.Runs

namespace Rustgo.ActiveControl

open Protocol Runs

/-- Why the cancellation token of a session was cancelled. -/
inductive Cause
  | rename
  | other
  deriving DecidableEq

inductive EndReason
  | listenerGenerationTerminated
  | heartbeatTimeout
  | closed
  | failed
  | shutdown
  deriving DecidableEq

/-- The branches of the loop's `select!`, in the order in which they are polled. -/
inductive Branch
  | cancelled
  | deadline
  | outbound
  | frame
  deriving DecidableEq

inductive Phase
  /-- Before `run_active_control`. -/
  | setup
  | polling (branch : Branch)
  /-- Every branch is pending. -/
  | waiting
  | writing (message : Message)
  /-- A frame of the client is handled, its answer is written. -/
  | handling
  | ended (reason : EndReason)
  deriving DecidableEq

/-- How far a call of `notify_rename_and_terminate` has come. -/
inductive Notifier
  | idle
  | notified
  | terminated
  deriving DecidableEq

/-- The task of a control session and the two things through which a rename reaches it. -/
structure SessionTask where
  state : ClientHandshakeState
  phase : Phase
  outbound : List Message
  cancelled : Option Cause
  notifier : Notifier
  /-- Every message that the queue has accepted, in order. -/
  queued : List Message
  /-- The messages of the queue that were written to the client. -/
  written : List Message
  /-- The place of the notice among the queued messages. -/
  noticeAt : Option Nat

structure Runtime where
  sessionId : Bytes
  capacity : Nat

inductive Event
  | send (message : Message)
  | notify (newName : String) (revision : Nat)
  | terminate
  | terminateByName
  | start (state : ClientHandshakeState)
  | pass
  | elapse
  | receive
  | disconnect
  | frame
  | handled (state : ClientHandshakeState)
  | wake
  | wrote
  | fail
  | shutdown

namespace SessionTask

def initial (state : ClientHandshakeState) : SessionTask := ⟨state, .setup, [], none, .idle, [], [], none⟩

def isEnded (s : SessionTask) : Bool :=
  match s.phase with
  | .ended _ => true
  | _ => false

/-- `try_send`: the receiver is dropped with the task. -/
def trySend (runtime : Runtime) (s : SessionTask) (message : Message) : Option SessionTask :=
  if s.isEnded = false ∧ s.outbound.length < runtime.capacity then
    some { s with outbound := s.outbound ++ [message], queued := s.queued ++ [message] }
  else none

/-- The token keeps its first cause. -/
def cancel (s : SessionTask) (cause : Cause) : SessionTask := { s with cancelled := some (s.cancelled.getD cause) }

def renameDetail (newName : String) (revision : Nat) : String :=
  "identity-renamed:" ++ newName ++ ":" ++ toString revision

/-- `session_id` is replaced by zeros where it does not have 32 bytes. -/
def renameNotice (runtime : Runtime) (detail : BoundedString maxErrorDetailBytes) : Message :=
  .serverNotice ⟨(toVector 32 runtime.sessionId).getD (Vector.replicate 32 0), 1001, detail, none⟩

/-- The first half of `notify_rename_and_terminate`. A notice that is too long or finds no room is left out. -/
def notify (runtime : Runtime) (s : SessionTask) (newName : String) (revision : Nat) : SessionTask :=
  let notified := { s with notifier := .notified }
  match BoundedString.tryFrom maxErrorDetailBytes (renameDetail newName revision) with
  | .error _ => notified
  | .ok detail =>
      match notified.trySend runtime (renameNotice runtime detail) with
      | none => notified
      | some t => { t with noticeAt := some s.queued.length }

def finish (s : SessionTask) (reason : EndReason) : SessionTask := { s with phase := .ended reason }

/-- The branch that is polled when `branch` is pending. -/
def afterPending : Branch → Phase
  | .cancelled => .polling .deadline
  | .deadline => .polling .outbound
  | .outbound => .polling .frame
  | .frame => .waiting

/-- What the branch of the queue does with the next message. -/
def take (s : SessionTask) : Option SessionTask :=
  match s.outbound with
  | [] => none
  | message :: rest =>
      match s.state.transition message with
      | .ok state => some { s with state, outbound := rest, phase := .writing message }
      | .error _ => some ({ s with outbound := rest }.finish .failed)

def next (runtime : Runtime) (s : SessionTask) (event : Event) : Option SessionTask :=
  match event, s.phase with
  | .send message, _ => s.trySend runtime message
  | .notify newName revision, _ => if s.notifier = .idle then some (s.notify runtime newName revision) else none
  | .terminate, _ => if s.notifier = .notified then some { s.cancel .rename with notifier := .terminated } else none
  | .terminateByName, _ => some (s.cancel .other)
  | .start state, .setup => some { s with state, phase := .polling .cancelled }
  | .pass, .polling .cancelled =>
      if s.cancelled = none then some { s with phase := afterPending .cancelled }
      else some (s.finish .listenerGenerationTerminated)
  | .pass, .polling .outbound => if s.outbound = [] then some { s with phase := afterPending .outbound } else none
  | .pass, .polling branch => some { s with phase := afterPending branch }
  | .elapse, .polling .deadline => some (s.finish .heartbeatTimeout)
  | .elapse, .writing _ => some (s.finish .heartbeatTimeout)
  | .elapse, .handling => some (s.finish .heartbeatTimeout)
  | .receive, .polling .outbound => s.take
  | .disconnect, .polling .outbound => if s.outbound = [] then some (s.finish .closed) else none
  | .frame, .polling .frame => some { s with phase := .handling }
  | .handled state, .handling => some { s with state, phase := .polling .cancelled }
  | .wake, .waiting => some { s with phase := .polling .cancelled }
  | .wrote, .writing message => some { s with written := s.written ++ [message], phase := .polling .cancelled }
  | .fail, .setup => some (s.finish .failed)
  | .fail, .polling .frame => some (s.finish .failed)
  | .fail, .writing _ => some (s.finish .failed)
  | .fail, .handling => some (s.finish .failed)
  | .shutdown, _ => if s.isEnded = false then some (s.finish .shutdown) else none
  | _, _ => none

def Step (runtime : Runtime) (s : SessionTask) (event : Event) (t : SessionTask) : Prop := s.next runtime event = some t

/-- The task ended because of the rename. -/
def EndedByRename (s : SessionTask) : Prop :=
  s.phase = .ended .listenerGenerationTerminated ∧ s.cancelled = some .rename

/-- The notice and whatever was queued before it are written. -/
def NoticeWritten (s : SessionTask) : Prop := ∀ i ∈ s.noticeAt, i < s.written.length ∧ s.written <+: s.queued

/-- The number of messages that have left the queue. -/
def taken (s : SessionTask) : Nat := s.queued.length - s.outbound.length

/-- The notice has left the queue, or the task takes it before it looks at the token again. -/
def NoticeTaken (s : SessionTask) : Prop :=
  ∀ i ∈ s.noticeAt, i < s.taken ∨ (i = s.taken ∧ (s.phase = .polling .deadline ∨ s.phase = .polling .outbound))

/-- A session is terminated for a rename only when its task has taken the notice. -/
def TerminatedInTime (s : SessionTask) : Event → Prop
  | .terminate => s.cancelled = none → s.NoticeTaken
  | _ => True

/-- The task is running, or the token has ended it. -/
def Live (s : SessionTask) : Prop := ∀ reason, s.phase = .ended reason → reason = .listenerGenerationTerminated

/-- The message that is being written. -/
def inFlight (s : SessionTask) : List Message :=
  match s.phase with
  | .writing message => [message]
  | _ => []

/-- What holds in every state of a run in which sessions are terminated in time. -/
structure InTime (s : SessionTask) : Prop where
  fifo : s.Live → s.queued = s.written ++ (s.inFlight ++ s.outbound)
  placed : ∀ i ∈ s.noticeAt, i < s.queued.length
  idle : s.notifier = .idle → s.noticeAt = none
  cancelled : s.cancelled = some .rename → s.notifier = .terminated
  taken : s.Live → s.cancelled = some .rename → s.NoticeTaken

section Steps

variable {runtime : Runtime} {s t : SessionTask} {message : Message}

theorem live_finish {reason : EndReason} (h : reason ≠ .listenerGenerationTerminated) : ¬(s.finish reason).Live :=
  fun hlive => h (hlive reason rfl)

/-- An end that is not by the token leaves nothing to prove of the queue. -/
theorem InTime.finish (h : s.InTime) {reason : EndReason} (hreason : reason ≠ .listenerGenerationTerminated) :
    (s.finish reason).InTime :=
  { fifo := fun hlive => absurd hlive (live_finish hreason)
    placed := h.placed
    idle := h.idle
    cancelled := h.cancelled
    taken := fun hlive => absurd hlive (live_finish hreason) }

theorem InTime.trySend (h : s.InTime) (hsend : s.trySend runtime message = some t) : t.InTime := by
  rw [SessionTask.trySend] at hsend
  split at hsend
  · obtain rfl := Option.some.inj hsend
    exact
      { fifo := fun hlive => by
          have hfifo := h.fifo hlive
          simp only [inFlight] at hfifo ⊢
          simp [hfifo]
        placed := fun i hi => by
          have hlt := h.placed i hi
          simp only [List.length_append, List.length_singleton]
          omega
        idle := h.idle
        cancelled := h.cancelled
        taken := fun hlive hrename i hi => by
          have htaken := h.taken hlive hrename i hi
          simpa [SessionTask.taken] using htaken }
  · cases hsend

theorem trySend_eq (hsend : s.trySend runtime message = some t) :
    t = { s with outbound := s.outbound ++ [message], queued := s.queued ++ [message] } := by
  rw [SessionTask.trySend] at hsend
  split at hsend
  · exact (Option.some.inj hsend).symm
  · cases hsend

/-- The notice takes the last place of the queue. -/
theorem InTime.notify (h : s.InTime) (hidle : s.notifier = .idle) (newName : String) (revision : Nat) :
    (s.notify runtime newName revision).InTime := by
  have hrename : s.cancelled ≠ some .rename := fun hcancelled => by
    have hterminated := h.cancelled hcancelled
    rw [hidle] at hterminated
    cases hterminated
  have hnotified : InTime { s with notifier := .notified } :=
    { fifo := h.fifo
      placed := h.placed
      idle := fun hno => by cases hno
      cancelled := fun hcancelled => absurd hcancelled hrename
      taken := fun _ hcancelled => absurd hcancelled hrename }
  rw [SessionTask.notify]
  split
  · exact hnotified
  · split
    · exact hnotified
    · next t hsend =>
      have ht := hnotified.trySend hsend
      obtain rfl := trySend_eq hsend
      exact
        { fifo := ht.fifo
          placed := fun i hi => by
            obtain rfl := Option.some.inj hi
            simp
          idle := fun hno => by cases hno
          cancelled := fun hcancelled => absurd hcancelled hrename
          taken := fun _ hcancelled => absurd hcancelled hrename }

/-- A token that is cancelled for another reason first stays so. -/
theorem InTime.terminateByName (h : s.InTime) : (s.cancel .other).InTime := by
  have hrename : (s.cancel .other).cancelled = some .rename → s.cancelled = some .rename := by
    cases hcancelled : s.cancelled with
    | none => simp [cancel, hcancelled]
    | some cause => simp [cancel, hcancelled]
  exact
    { fifo := h.fifo
      placed := h.placed
      idle := h.idle
      cancelled := fun hcancelled => h.cancelled (hrename hcancelled)
      taken := fun hlive hcancelled => h.taken hlive (hrename hcancelled) }

theorem InTime.terminate (h : s.InTime) (hnotified : s.notifier = .notified) (htime : s.TerminatedInTime .terminate) :
    InTime { s.cancel .rename with notifier := .terminated } :=
  { fifo := h.fifo
    placed := h.placed
    idle := fun hno => by cases hno
    cancelled := fun _ => rfl
    taken := fun _ hcancelled => by
      cases hcause : s.cancelled with
      | none => exact htime hcause
      | some cause =>
          have hrename : cause = .rename := by simpa [cancel, hcause] using hcancelled
          have hterminated := h.cancelled (hrename ▸ hcause)
          rw [hnotified] at hterminated
          cases hterminated }

/-- The task goes on to another phase with its queue as it was. -/
theorem InTime.move (h : s.InTime) {phase : Phase} {state : ClientHandshakeState} (hlive : s.Live) (hfrom : s.inFlight = [])
    (hto : inFlight { s with phase, state } = [])
    (htaken : s.cancelled = some .rename → NoticeTaken { s with phase, state }) : InTime { s with phase, state } :=
  { fifo := fun _ => by
      have hfifo := h.fifo hlive
      rw [hfrom] at hfifo
      rw [hto]
      exact hfifo
    placed := h.placed
    idle := h.idle
    cancelled := h.cancelled
    taken := fun _ => htaken }

/-- A notice that the task takes in its next poll has left the queue in every other phase. -/
theorem noticeTaken_of_lt (h : ∀ i ∈ s.noticeAt, i < s.taken) : s.NoticeTaken := fun i hi => .inl (h i hi)

theorem InTime.lt_taken (h : s.InTime) (hlive : s.Live) (hrename : s.cancelled = some .rename)
    (hdeadline : s.phase ≠ .polling .deadline) (houtbound : s.phase ≠ .polling .outbound) : ∀ i ∈ s.noticeAt, i < s.taken :=
  fun i hi => (h.taken hlive hrename i hi).resolve_right fun hphase => hphase.2.elim hdeadline houtbound

theorem InTime.take (h : s.InTime) (hphase : s.phase = .polling .outbound) (htake : s.take = some t) : t.InTime := by
  have hlive : s.Live := fun reason hreason => by
    rw [hphase] at hreason
    cases hreason
  have hfifo := h.fifo hlive
  simp only [inFlight, hphase, List.nil_append] at hfifo
  rw [SessionTask.take] at htake
  split at htake
  · cases htake
  · next message rest hqueue =>
    split at htake
    · next state hstate =>
      obtain rfl := Option.some.inj htake
      exact
        { fifo := fun _ => by
            simp only [inFlight, List.singleton_append]
            rw [hfifo, hqueue]
          placed := h.placed
          idle := h.idle
          cancelled := h.cancelled
          taken := fun _ hrename => noticeTaken_of_lt fun i hi => by
            have hlt := h.placed i hi
            have hplace := h.taken hlive hrename i hi
            simp only [SessionTask.taken, hfifo, hqueue, List.length_append, List.length_cons] at hlt hplace ⊢
            omega }
    · obtain rfl := Option.some.inj htake
      exact
        { fifo := fun hlive => absurd hlive (live_finish (by decide))
          placed := h.placed
          idle := h.idle
          cancelled := h.cancelled
          taken := fun hlive => absurd hlive (live_finish (by decide)) }

theorem live_of_phase {phase : Phase} (h : s.phase = phase) (hphase : ∀ reason, phase ≠ .ended reason) : s.Live :=
  fun reason hreason => absurd (h.symm.trans hreason) (hphase reason)

theorem InTime.wrote (h : s.InTime) (hphase : s.phase = .writing message) :
    InTime { s with written := s.written ++ [message], phase := .polling .cancelled } := by
  have hlive := live_of_phase hphase (by simp)
  have hfifo := h.fifo hlive
  simp only [inFlight, hphase] at hfifo
  exact
    { fifo := fun _ => by
        rw [hfifo]
        simp [inFlight]
      placed := h.placed
      idle := h.idle
      cancelled := h.cancelled
      taken := fun _ hrename => noticeTaken_of_lt (h.lt_taken hlive hrename (by simp [hphase]) (by simp [hphase])) }

/-- A poll that finds its branch pending goes on to the next one. -/
theorem InTime.pass (h : s.InTime) {branch : Branch} (hphase : s.phase = .polling branch)
    (hcancelled : branch = .cancelled → s.cancelled = none) (houtbound : branch = .outbound → s.outbound = []) :
    InTime { s with phase := afterPending branch } := by
  have hlive := live_of_phase hphase (by simp)
  refine h.move hlive (by simp [inFlight, hphase]) (by cases branch <;> rfl) fun hrename => ?_
  cases branch with
  | cancelled =>
      rw [hcancelled rfl] at hrename
      cases hrename
  | deadline => exact fun i hi => (h.taken hlive hrename i hi).imp id fun hplace => ⟨hplace.1, .inr rfl⟩
  | outbound =>
      refine noticeTaken_of_lt fun i hi => ?_
      have hlt := h.placed i hi
      simp only [SessionTask.taken, houtbound rfl, List.length_nil]
      omega
  | frame => exact noticeTaken_of_lt (h.lt_taken hlive hrename (by simp [hphase]) (by simp [hphase]))

/-- The task comes back to the start of the loop, or handles a frame. -/
theorem InTime.again (h : s.InTime) {state : ClientHandshakeState} {after : Phase} (hlive : s.Live) (hflight : s.inFlight = [])
    (hdeadline : s.phase ≠ .polling .deadline) (houtbound : s.phase ≠ .polling .outbound)
    (hafter : after = .polling .cancelled ∨ after = .handling) : InTime { s with phase := after, state } := by
  refine h.move hlive hflight (by rcases hafter with rfl | rfl <;> rfl) fun hrename => ?_
  exact noticeTaken_of_lt (h.lt_taken hlive hrename hdeadline houtbound)

/-- The token ends the task at the start of the loop, where the notice has been taken already. -/
theorem InTime.terminated (h : s.InTime) (hphase : s.phase = .polling .cancelled) :
    (s.finish .listenerGenerationTerminated).InTime := by
  have hlive := live_of_phase hphase (by simp)
  have hfifo := h.fifo hlive
  simp only [inFlight, hphase] at hfifo
  exact
    { fifo := fun _ => hfifo
      placed := h.placed
      idle := h.idle
      cancelled := h.cancelled
      taken := fun _ hrename => noticeTaken_of_lt (h.lt_taken hlive hrename (by simp [hphase]) (by simp [hphase])) }

theorem InTime.step (h : s.InTime) {event : Event} (htime : s.TerminatedInTime event) (hstep : s.Step runtime event t) :
    t.InTime := by
  unfold Step next at hstep
  split at hstep
  · exact h.trySend hstep
  · split at hstep
    · next hidle =>
      obtain rfl := Option.some.inj hstep
      exact h.notify hidle _ _
    · cases hstep
  · split at hstep
    · next hnotified =>
      obtain rfl := Option.some.inj hstep
      exact h.terminate hnotified htime
    · cases hstep
  · obtain rfl := Option.some.inj hstep
    exact h.terminateByName
  · next hphase =>
    obtain rfl := Option.some.inj hstep
    exact h.again (live_of_phase hphase (by simp)) (by simp [inFlight, hphase]) (by simp [hphase]) (by simp [hphase]) (.inl rfl)
  · next hphase =>
    split at hstep
    · next hnone =>
      obtain rfl := Option.some.inj hstep
      exact h.pass hphase (fun _ => hnone) (by simp)
    · obtain rfl := Option.some.inj hstep
      exact h.terminated hphase
  · next hphase =>
    split at hstep
    · next hempty =>
      obtain rfl := Option.some.inj hstep
      exact h.pass hphase (by simp) (fun _ => hempty)
    · cases hstep
  · next branch hcancelled houtbound hphase =>
    obtain rfl := Option.some.inj hstep
    exact h.pass hphase (fun hbranch => (hcancelled hbranch).elim) (fun hbranch => (houtbound hbranch).elim)
  · obtain rfl := Option.some.inj hstep
    exact h.finish (by decide)
  · obtain rfl := Option.some.inj hstep
    exact h.finish (by decide)
  · obtain rfl := Option.some.inj hstep
    exact h.finish (by decide)
  · next hphase => exact h.take hphase hstep
  · split at hstep
    · obtain rfl := Option.some.inj hstep
      exact h.finish (by decide)
    · cases hstep
  · next hphase =>
    obtain rfl := Option.some.inj hstep
    exact h.again (live_of_phase hphase (by simp)) (by simp [inFlight, hphase]) (by simp [hphase]) (by simp [hphase]) (.inr rfl)
  · next hphase =>
    obtain rfl := Option.some.inj hstep
    exact h.again (live_of_phase hphase (by simp)) (by simp [inFlight, hphase]) (by simp [hphase]) (by simp [hphase]) (.inl rfl)
  · next hphase =>
    obtain rfl := Option.some.inj hstep
    exact h.again (live_of_phase hphase (by simp)) (by simp [inFlight, hphase]) (by simp [hphase]) (by simp [hphase]) (.inl rfl)
  · next hphase =>
    obtain rfl := Option.some.inj hstep
    exact h.wrote hphase
  · obtain rfl := Option.some.inj hstep
    exact h.finish (by decide)
  · obtain rfl := Option.some.inj hstep
    exact h.finish (by decide)
  · obtain rfl := Option.some.inj hstep
    exact h.finish (by decide)
  · obtain rfl := Option.some.inj hstep
    exact h.finish (by decide)
  · split at hstep
    · obtain rfl := Option.some.inj hstep
      exact h.finish (by decide)
    · cases hstep
  · cases hstep

theorem inTime_initial (state : ClientHandshakeState) : (initial state).InTime :=
  { fifo := fun _ => rfl
    placed := fun i hi => by cases hi
    idle := fun _ => rfl
    cancelled := fun hcancelled => by cases hcancelled
    taken := fun _ hcancelled => by cases hcancelled }

end Steps

section Delivery

variable {runtime : Runtime} {state : ClientHandshakeState} {events : List Event} {s : SessionTask}

theorem run_inTime (h : Run (Restricted (Step runtime) TerminatedInTime) (initial state) events s) : s.InTime :=
  h.invariant (fun _ _ _ hs hstep => hs.step hstep.2 hstep.1) (inTime_initial state)

/-- Where a session is terminated only after its task has taken the notice, the notice is written before
the session ends, and so is everything queued before it. -/
theorem notice_written (h : Run (Restricted (Step runtime) TerminatedInTime) (initial state) events s)
    (hend : s.EndedByRename) : s.NoticeWritten := by
  obtain ⟨hphase, hrename⟩ := hend
  have hinv := run_inTime h
  have hlive : s.Live := fun reason hreason => by
    rw [hphase] at hreason
    exact (Phase.ended.inj hreason).symm
  have hfifo := hinv.fifo hlive
  simp only [inFlight, hphase, List.nil_append] at hfifo
  intro i hi
  have hlt := hinv.lt_taken hlive hrename (by simp [hphase]) (by simp [hphase]) i hi
  rw [taken, hfifo, List.length_append, Nat.add_sub_cancel] at hlt
  exact ⟨hlt, hfifo ▸ List.prefix_append _ _⟩

end Delivery

section Samples

instance : DecidablePred NoticeTaken := fun s => inferInstanceAs (Decidable (∀ i ∈ s.noticeAt, _))

instance : DecidablePred NoticeWritten := fun s => inferInstanceAs (Decidable (∀ i ∈ s.noticeAt, _))

instance : DecidablePred EndedByRename := fun s => inferInstanceAs (Decidable (_ ∧ _))

instance (s : SessionTask) (event : Event) : Decidable (s.TerminatedInTime event) :=
  match event with
  | .terminate => inferInstanceAs (Decidable (s.cancelled = none → s.NoticeTaken))
  | .send _ | .notify .. | .terminateByName | .start _ | .pass | .elapse | .receive | .disconnect | .frame | .handled _
  | .wake | .wrote | .fail | .shutdown => inferInstanceAs (Decidable True)

theorem step_of_next (runtime : Runtime) (s : SessionTask) (event : Event) (t : SessionTask)
    (h : s.next runtime event = some t) : Step runtime s event t := h

def sampleState : ClientHandshakeState := .active ⟨[1], by decide⟩

def sampleRuntime : Runtime := ⟨List.replicate 32 1, 64⟩

/-- The task takes the notice before the token is cancelled. -/
def timely : List Event :=
  [.start sampleState, .pass, .pass, .notify "new-name" 7, .receive, .terminate, .wrote, .pass]

theorem notice_written_timely :
    ∃ s : SessionTask, (s.EndedByRename ∧ s.noticeAt = some 0) ∧ s.NoticeWritten := by
  obtain ⟨s, hrun, hs⟩ := run_of_exec_any (P := fun s => s.EndedByRename ∧ s.noticeAt = some 0)
    (restricted_of_restrict (step_of_next sampleRuntime))
    (show (exec (restrict (next sampleRuntime) TerminatedInTime) (initial sampleState) timely).any _ = true by decide +kernel)
  exact ⟨s, hs, notice_written hrun hs.1⟩

/-- A waiting task finds the token cancelled first, and leaves the notice in its queue. -/
def untimely : List Event :=
  [.start sampleState, .pass, .pass, .pass, .pass, .notify "new-name" 7, .terminate, .wake, .pass]

theorem notice_lost : ¬∀ runtime state events s,
    Run (Step runtime) (initial state) events s → s.EndedByRename → s.NoticeWritten := by
  intro h
  obtain ⟨s, hrun, hend, hlost⟩ := run_of_exec_any (P := fun s => s.EndedByRename ∧ ¬s.NoticeWritten)
    (step_of_next sampleRuntime)
    (show (exec (next sampleRuntime) (initial sampleState) untimely).any _ = true by decide +kernel)
  exact hlost (h _ _ _ s hrun hend)

end Samples

end SessionTask

end Rustgo.ActiveControl
