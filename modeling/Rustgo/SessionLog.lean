import Rustgo.CoordinatorCalls
import Rustgo.CoordinatorUpkeep
import Rustgo.Runs

namespace Rustgo.Coordinator

open Protocol Registry Rendezvous RendezvousCoordinator Runs

namespace HistoryEvent

def sessionId : HistoryEvent → SessionId
  | forwarded event => event.envelope.sessionId
  | relayed event => event.frame.sessionId
  | tombstoned sessionId _ => sessionId

def incarnation : HistoryEvent → Nat
  | forwarded event => event.incarnation
  | relayed event => event.incarnation
  | tombstoned _ incarnation => incarnation

def Of (id : SessionId) (k : Nat) (event : HistoryEvent) : Prop := event.sessionId = id ∧ event.incarnation = k

instance (id : SessionId) (k : Nat) : DecidablePred (Of id k) := fun _ => inferInstanceAs (Decidable (_ ∧ _))

def envelope? : HistoryEvent → Option Forwarded
  | forwarded event => some event
  | relayed _ | tombstoned _ _ => none

def frame? : HistoryEvent → Option Relayed
  | relayed event => some event
  | forwarded _ | tombstoned _ _ => none

/-- The session is over. -/
def Ends : HistoryEvent → Prop
  | forwarded event => IsClosing event.envelope.payload
  | relayed _ => False
  | tombstoned _ _ => True

end HistoryEvent

/-- What happened to one session, in order. -/
def Server.sessionLog (s : Server) (id : SessionId) (k : Nat) : List HistoryEvent :=
  s.history.filter (HistoryEvent.Of id k ·)

def envelopes (log : List HistoryEvent) : List Forwarded := log.filterMap HistoryEvent.envelope?

def frames (log : List HistoryEvent) : List Relayed := log.filterMap HistoryEvent.frame?

/-- The envelope that opened the session. -/
def opening : List HistoryEvent → Option Forwarded
  | .forwarded q :: _ => some q
  | _ => none

def windowFrames (log : List HistoryEvent) (started : Nat) : List Relayed :=
  (frames log).filter (·.windowStarted = started)

def windowBytes (log : List HistoryEvent) (started : Nat) : Nat :=
  ((windowFrames log started).map fun r => r.frame.ciphertext.bytes.length).sum

/-- The provider of the session that `q` opened accepts it. -/
def Accepts (q : Forwarded) (protocol : TunnelProtocol) (e : Forwarded) : Prop :=
  e.envelope.payload = .providerDecision (.accepted protocol) ∧ e.sender = q.recipient

def Announces (identity : AuthenticatedClient) (generation : CandidateGeneration) (e : Forwarded) : Prop :=
  (∃ set, e.envelope.payload = .candidateSetV2 set) ∧ e.sender = identity ∧ e.envelope.generation = generation

def AsksRelay (identity : AuthenticatedClient) (e : Forwarded) : Prop :=
  (∃ request, e.envelope.payload = .relayRequest request) ∧ e.sender = identity

/-- From one participant to the other. -/
def Crosses (q : Forwarded) (sender recipient : AuthenticatedClient) : Prop :=
  (sender = q.sender ∧ recipient = q.recipient) ∨ (sender = q.recipient ∧ recipient = q.sender)

/-- The first envelope of a generation. -/
def firstOf (log : List HistoryEvent) (generation : CandidateGeneration) : Option Forwarded :=
  (envelopes log).find? (·.envelope.generation = generation)

/-- What has to precede an envelope of the next generation. -/
structure Advances (log : List HistoryEvent) (q last e : Forwarded) : Prop where
  next : e.envelope.generation.value.toNat = last.envelope.generation.value.toNat + 1
  most : e.envelope.generation.value ≤ 32
  candidates : ∃ set, e.envelope.payload = .candidateSetV2 set ∧ set.ownerIsInitiator = decide (e.sender = q.sender)
  consumer : ∃ a ∈ envelopes log, Announces q.sender last.envelope.generation a
  provider : ∃ a ∈ envelopes log, Announces q.recipient last.envelope.generation a
  waited : ∃ first, firstOf log last.envelope.generation = some first ∧
    first.moment.instant + 250 * millisecond ≤ e.moment.instant

/-- An envelope may be passed on in the session that `q` opened, after `last`. -/
structure Passes (log : List HistoryEvent) (q last e : Forwarded) : Prop where
  opening : opening log = some q
  request : q.IsRequest
  running : ∀ event ∈ log, ¬event.Ends
  latest : (envelopes log).getLast? = some last
  step : ∀ e' ∈ envelopes log, e'.envelope.step < e.envelope.step
  generation : e.envelope.generation = last.envelope.generation ∨ Advances log q last e
  accepted : IsForwardable e.envelope.payload → ∃ protocol, ∃ d ∈ envelopes log, Accepts q protocol d
  timely : e.moment.unixSecs < q.envelope.expiresUnixSecs
  crosses : Crosses q e.sender e.recipient

/-- A frame may be relayed in the session that `q` opened. -/
structure Relays (timely : Prop) (log : List HistoryEvent) (q : Forwarded) (r : Relayed) : Prop where
  opening : opening log = some q
  request : q.IsRequest
  running : ∀ event ∈ log, ¬event.Ends
  accepted : ∃ protocol, (∃ d ∈ envelopes log, Accepts q protocol d) ∧
    FlagsMatch r.frame.flags (decide (protocol = .UDP))
  consumer : ∃ a ∈ envelopes log, AsksRelay q.sender a
  provider : ∃ a ∈ envelopes log, AsksRelay q.recipient a
  expiry : timely → r.moment.unixSecs < q.envelope.expiresUnixSecs
  crosses : Crosses q r.sender r.recipient
  window : r.moment.instant < r.windowStarted + second
  count : (windowFrames log r.windowStarted).length < RelayAdmission.maxFramesPerSecond
  bytes : windowBytes log r.windowStarted + r.frame.ciphertext.bytes.length ≤ RelayAdmission.maxBytesPerSecond

/-- What may happen next in a session with the given log. -/
inductive Allowed (timely : Prop) : List HistoryEvent → HistoryEvent → Prop
  | opens {q} (h : q.IsRequest) (ht : q.moment.unixSecs < q.envelope.expiresUnixSecs) :
      Allowed timely [] (.forwarded q)
  | passes {log q last e} (h : Passes log q last e) : Allowed timely log (.forwarded e)
  | relays {log q r} (h : Relays timely log q r) : Allowed timely log (.relayed r)
  | ends {log id k} : Allowed timely log (.tombstoned id k)

section Append

variable (log : List HistoryEvent) (event : HistoryEvent)

theorem envelopes_append : envelopes (log ++ [event]) = envelopes log ++ event.envelope?.toList := by
  rw [envelopes, List.filterMap_append]
  cases event <;> rfl

theorem frames_append : frames (log ++ [event]) = frames log ++ event.frame?.toList := by
  rw [frames, List.filterMap_append]
  cases event <;> rfl

variable {log} in
theorem opening_append {q : Forwarded} (h : opening log = some q) : opening (log ++ [event]) = some q := by
  cases log with
  | nil => exact nomatch h
  | cons first rest => cases first <;> exact h

variable {log event} in
theorem running_append (h : ∀ e ∈ log, ¬e.Ends) (he : ¬event.Ends) : ∀ e ∈ log ++ [event], ¬e.Ends := by
  intro e hmem
  rcases List.mem_append.mp hmem with hold | hnew
  · exact h e hold
  · obtain rfl := List.mem_singleton.mp hnew
    exact he

theorem windowFrames_append_of_ne {started : Nat} (h : ∀ r ∈ event.frame?, r.windowStarted ≠ started) :
    windowFrames (log ++ [event]) started = windowFrames log started := by
  rw [windowFrames, frames_append, List.filter_append, windowFrames]
  cases hf : event.frame? with
  | none => simp
  | some r => simp [h r (by rw [hf]; rfl)]

theorem windowFrames_append_relayed (r : Relayed) :
    windowFrames (log ++ [.relayed r]) r.windowStarted = windowFrames log r.windowStarted ++ [r] := by
  rw [windowFrames, frames_append, List.filter_append, windowFrames]
  simp [HistoryEvent.frame?]

theorem windowBytes_append_relayed (r : Relayed) :
    windowBytes (log ++ [.relayed r]) r.windowStarted =
      windowBytes log r.windowStarted + r.frame.ciphertext.bytes.length := by
  simp [windowBytes, windowFrames_append_relayed]

variable {log} in
theorem firstOf_append {generation : CandidateGeneration} {first : Forwarded}
    (h : firstOf log generation = some first) : firstOf (log ++ [event]) generation = some first := by
  rw [firstOf] at h
  rw [firstOf, envelopes_append, List.find?_append, h]
  rfl

end Append

section Guarded

variable {timely : Prop} {log : List HistoryEvent}

theorem Passes.generation_le {q last e : Forwarded} (h : Passes log q last e) :
    last.envelope.generation.value ≤ e.envelope.generation.value := by
  rcases h.generation with heq | hadv
  · rw [heq]
    exact UInt64.le_refl _
  · rw [UInt64.le_iff_toNat_le, hadv.next]
    exact Nat.le_succ _

/-- The last envelope has the highest generation. -/
theorem generation_le_last (h : Guarded (Allowed timely) log) {last e : Forwarded}
    (hlast : (envelopes log).getLast? = some last) (he : e ∈ envelopes log) :
    e.envelope.generation.value ≤ last.envelope.generation.value := by
  induction h generalizing last e with
  | nil => exact nomatch he
  | @snoc log event _ ha ih =>
      rw [envelopes_append] at hlast he
      cases ha with
      | opens _ _ =>
          obtain rfl := List.mem_singleton.mp he
          obtain rfl := Option.some.inj hlast
          exact UInt64.le_refl _
      | @passes _ q before e' hp =>
          rw [HistoryEvent.envelope?, Option.toList_some, List.getLast?_concat] at hlast
          obtain rfl := Option.some.inj hlast
          rcases List.mem_append.mp he with hold | hnew
          · exact UInt64.le_trans (ih hp.latest hold) hp.generation_le
          · obtain rfl := List.mem_singleton.mp hnew
            exact UInt64.le_refl _
      | relays _ | ends =>
          rw [HistoryEvent.envelope?, Option.toList_none, List.append_nil] at hlast he
          exact ih hlast he

/-- The steps of a session increase, and its generation never falls. -/
theorem envelopes_pairwise (h : Guarded (Allowed timely) log) : (envelopes log).Pairwise fun e e' =>
    e.envelope.step < e'.envelope.step ∧ e.envelope.generation.value ≤ e'.envelope.generation.value := by
  induction h with
  | nil => exact .nil
  | @snoc log event hg ha ih =>
      rw [envelopes_append, List.pairwise_append]
      refine ⟨ih, by cases event <;> simp [HistoryEvent.envelope?], ?_⟩
      intro e he e' he'
      cases ha with
      | opens _ _ => exact nomatch he
      | passes hp =>
          obtain rfl := List.mem_singleton.mp he'
          exact ⟨hp.step e he, UInt64.le_trans (generation_le_last hg hp.latest he) hp.generation_le⟩
      | relays _ | ends => exact nomatch he'

/-- No window of a session takes more than its share. -/
theorem window_bounded (h : Guarded (Allowed timely) log) (started : Nat) :
    (windowFrames log started).length ≤ RelayAdmission.maxFramesPerSecond ∧
      windowBytes log started ≤ RelayAdmission.maxBytesPerSecond := by
  induction h with
  | nil => exact ⟨Nat.zero_le _, Nat.zero_le _⟩
  | @snoc log event _ ha ih =>
      have hold (hne : ∀ r ∈ event.frame?, r.windowStarted ≠ started) :
          (windowFrames (log ++ [event]) started).length ≤ RelayAdmission.maxFramesPerSecond ∧
            windowBytes (log ++ [event]) started ≤ RelayAdmission.maxBytesPerSecond := by
        rw [windowBytes, windowFrames_append_of_ne log event hne]
        exact ih
      cases ha with
      | opens _ _ | passes _ | ends => exact hold fun _ hr => nomatch hr
      | @relays _ q r hr =>
          by_cases hw : r.windowStarted = started
          · obtain rfl := hw
            rw [windowFrames_append_relayed, windowBytes_append_relayed, List.length_append]
            exact ⟨hr.count, hr.bytes⟩
          · apply hold
            intro r' hr'
            obtain rfl := Option.some.inj hr'
            exact hw

end Guarded

end Rustgo.Coordinator
