import Rustgo.OrchestrationSteps

namespace Rustgo.Orchestration

open Coordinator Path Protocol Rendezvous Tables Runs

variable {runtime : Runtime} {why : SessionId → Session → IoError → Prop} {follows : Session → Prop}
  {marks : SessionId → Mark → Prop} {s t : Actor}

/-- No grant went to another session than the one whose request it answers. -/
def Trace.InOrder (trace : Trace) : Prop :=
  ∀ k < trace.granted.length, ∀ id ∈ (trace.granted[k]?).join, trace.requested[k]? = some id

instance (trace : Trace) : Decidable trace.InOrder := inferInstanceAs (Decidable (∀ k < _, ∀ id ∈ Option.join _, _))

/-- A grant that the actor takes has not expired and answers a request, and no
session still waits for one when a new control connection is attached. -/
def Label.Orderly (s : Actor) : Label → Prop
  | .input now (.event generation (.observationGrant grant) _ _) =>
      s.controlAvailable = true → s.generation = generation →
        now.unixSecs < grant.expiresUnixSecs ∧ s.trace.granted.length < s.trace.requested.length
  | .input _ (.controlAttached generation _) => s.generation < generation → s.observationWaiters = []
  | _ => True

instance (s : Actor) (l : Label) : Decidable (l.Orderly s) :=
  match l with
  | .input _ (.event _ (.observationGrant _) _ _) => inferInstanceAs (Decidable (_ → _ → _ ∧ _))
  | .input _ (.controlAttached _ _) => inferInstanceAs (Decidable (_ → _ = _))
  | .input _ (.event _ (.rendezvous _) _ _) | .input _ (.event _ (.peerIdentityBinding _) _ _)
  | .input _ (.event _ (.peerRelayFrame _) _ _) | .input _ (.event _ (.serverNotice _) _ _)
  | .input _ (.event _ (.punchGrant _) _ _) | .input _ (.opening ..) | .input _ (.controlDetached ..)
  | .input _ (.pathSelected ..) | .input _ (.promoted ..) | .input _ (.sessionFinished _) | .input _ (.relayAuthenticated _)
  | .input _ (.buildRecheck ..) | .input _ (.observationResult ..) | .input _ (.sweep _)
  | .cancelCaller _ | .sever _ | .transmit => isTrue trivial

abbrev OrderlyStep (runtime : Runtime) := Restricted (Step runtime) fun s l => l.Orderly s

/-- The sessions that wait are those whose requests have no grant yet; behind
them wait those that could not send one. -/
structure Awaiting (runtime : Runtime) (s : Actor) : Prop where
  inOrder : s.trace.InOrder
  waiters : ∃ unsent, s.observationWaiters = s.trace.requested.drop s.trace.granted.length ++ unsent ∧
    (unsent ≠ [] → s.room = some 0)
  granted : s.trace.granted.length ≤ s.trace.requested.length
  silent : runtime.observationEndpoints = none → s.trace.requested = []

theorem Awaiting.congr (h : Awaiting runtime s) (hw : t.observationWaiters = s.observationWaiters)
    (hr : t.trace.requested = s.trace.requested) (hg : t.trace.granted = s.trace.granted)
    (hroom : s.room = some 0 → t.room = some 0) : Awaiting runtime t := by
  obtain ⟨hin, ⟨unsent, hwait, hunsent⟩, hlen, hsilent⟩ := h
  refine ⟨?_, ⟨unsent, ?_, fun hne => hroom (hunsent hne)⟩, ?_, ?_⟩
  · rwa [Trace.InOrder, hg, hr]
  · rw [hw, hr, hg, hwait]
  · rwa [hg, hr]
  · rwa [hr]

theorem Trace.InOrder.request {trace : Trace} (h : trace.InOrder) (hlen : trace.granted.length ≤ trace.requested.length)
    (id : SessionId) : Trace.InOrder { trace with requested := trace.requested ++ [id] } := by
  intro k hk id' hid
  rw [List.getElem?_append_left (hk.trans_le hlen)]
  exact h k hk id' hid

theorem Awaiting.request (h : Awaiting runtime s) (hend : runtime.observationEndpoints ≠ none)
    (hroom : s.room ≠ some 0) (id : SessionId) :
    Awaiting runtime
      { s with
        observationWaiters := s.observationWaiters ++ [id]
        outbox := s.outbox ++ [.observationGrantRequest]
        room := s.room.map (· - 1)
        trace := { s.trace with requested := s.trace.requested ++ [id] } } := by
  obtain ⟨hin, ⟨unsent, hwait, hunsent⟩, hlen, hsilent⟩ := h
  obtain rfl : unsent = [] := not_not.mp fun hne => hroom (hunsent hne)
  refine ⟨hin.request hlen id, ⟨[], ?_, fun hne => absurd rfl hne⟩, ?_, fun h => absurd h hend⟩
  · dsimp only
    rw [hwait, List.append_nil, List.append_nil, List.drop_append_of_le_length hlen]
  · simp only [List.length_append]
    omega

theorem Awaiting.requestFailed (h : Awaiting runtime s) (hroom : s.room = some 0) (id : SessionId) :
    Awaiting runtime { s with observationWaiters := s.observationWaiters ++ [id] } := by
  obtain ⟨hin, ⟨unsent, hwait, _⟩, hlen, hsilent⟩ := h
  exact ⟨hin, ⟨unsent ++ [id], by simp only [hwait, List.append_assoc], fun _ => hroom⟩, hlen, hsilent⟩

theorem Awaiting.change (h : Awaiting runtime s) (hc : Change runtime why follows marks s t) : Awaiting runtime t := by
  cases hc with
  | request id hend hroom => exact h.request hend hroom id
  | requestFailed id hroom => exact h.requestFailed hroom id
  | lookup _ hroom | announce _ _ hroom | post _ _ _ _ _ hroom | candidates _ _ _ _ _ _ hroom | resolve _ _ hroom
  | finishPost _ _ hroom =>
      exact h.congr rfl rfl rfl fun hzero => absurd hzero hroom
  | edit | fail | finish | follow | applied | emit | observe | graceOver | mark =>
      exact h.congr rfl rfl rfl id

theorem Awaiting.grant {id : SessionId} {rest : List SessionId} (h : Awaiting runtime s)
    (hw : s.observationWaiters = id :: rest) (hlen : s.trace.granted.length < s.trace.requested.length) :
    Awaiting runtime ({ s with observationWaiters := rest }.grant (some id)) := by
  obtain ⟨hin, ⟨unsent, hwait, hunsent⟩, _, hsilent⟩ := h
  rw [List.drop_eq_getElem_cons hlen, hw, List.cons_append, List.cons.injEq] at hwait
  obtain ⟨hid, hrest⟩ := hwait
  refine ⟨?_, ⟨unsent, ?_, hunsent⟩, ?_, hsilent⟩
  · intro k hk id' hid'
    simp only [Actor.grant, List.length_append, List.length_singleton] at hk hid' ⊢
    by_cases hlast : k = s.trace.granted.length
    · subst k
      rw [List.getElem?_append_right le_rfl] at hid'
      obtain rfl : id = id' := by simpa using hid'
      rw [List.getElem?_eq_getElem hlen, hid]
    · have hk : k < s.trace.granted.length := by omega
      rw [List.getElem?_append_left hk] at hid'
      exact hin k hk id' hid'
  · simpa only [Actor.grant, List.length_append, List.length_singleton] using hrest
  · simp only [Actor.grant, List.length_append, List.length_singleton]
    omega

theorem Awaiting.head {now : Moment} {i : Input} (h : Awaiting runtime s) (hu : Head runtime now i s t)
    (hl : (Label.input now i).Orderly s) : Awaiting runtime t := by
  cases hu with
  | attached version hgen =>
      have hnone : s.observationWaiters = [] := hl hgen
      exact ⟨fun k hk => absurd hk (Nat.not_lt_zero k), ⟨[], by simpa using hnone, fun hne => absurd rfl hne⟩, le_rfl,
        fun _ => rfl⟩
  | @ungranted _ grant bind full hav hnone =>
      obtain ⟨hlive, hlen⟩ := hl hav rfl
      rcases hnone with hexp | hend | hempty
      · exact absurd hlive (UInt64.not_lt.mpr hexp)
      · rw [h.silent hend] at hlen
        exact absurd hlen (Nat.not_lt_zero _)
      · obtain ⟨unsent, hwait, _⟩ := h.waiters
        rw [List.drop_eq_getElem_cons hlen, hempty] at hwait
        exact nomatch hwait
  | granted bind full hav _ hw => exact h.grant hw (hl hav rfl).2
  | skip | opened | answered | recheck | detached | bound | unobserved | observed => exact h.congr rfl rfl rfl id

theorem Awaiting.step {l : Label} (h : Awaiting runtime s) (hstep : OrderlyStep runtime s l t) : Awaiting runtime t := by
  obtain ⟨hstep, hl⟩ := hstep
  cases step_outcome hstep with
  | input _ hu ht =>
      have hchanges := ht.invariant (fun _ _ h hc => h.change hc) (h.head hu hl)
      exact hchanges.congr rfl rfl rfl id
  | cancelCaller => exact h.congr rfl rfl rfl id
  | sever hroom =>
      refine h.congr ?_ ?_ ?_ fun hzero => ?_
      · rfl
      · rfl
      · rfl
      · rw [hzero, Option.all_some, decide_eq_true_eq, Nat.le_zero] at hroom
        exact congrArg some hroom
  | transmit => exact h.congr rfl rfl rfl id

/-- The k-th grant of a control generation goes to the session of the k-th
request, or to none, as long as grants arrive in time and a control connection
is replaced only when no session waits. -/
theorem grants_follow_requests {generation : UInt64} {version : ProtocolVersion} {labels : List Label}
    (h : Run (OrderlyStep runtime) (.new generation version) labels s) : s.trace.InOrder := by
  have hnew : Awaiting runtime (.new generation version) :=
    ⟨fun k hk => absurd hk (Nat.not_lt_zero k), ⟨[], rfl, fun hne => absurd rfl hne⟩, le_rfl, fun _ => rfl⟩
  exact (h.invariant (fun _ _ _ h hstep => h.step hstep) hnew).inOrder

section Sample

/-- Two sessions ask for an observation each. -/
def sampleAsked : List Label := [
  .input (sampleMoment 0) (.opening (sampleId 1) "b" "ssh" false 1),
  .input (sampleMoment 0) (.opening (sampleId 2) "b" "ssh" false 2)]

def sampleGrant (secs : Nat) (expires : UInt64) : Label :=
  .input (sampleMoment secs) (.event 1 (.observationGrant ⟨expires⟩) (.bound (samplePort 6001)) false)

theorem grants_follow_two_requests : ∃ s, Run (OrderlyStep (sampleRuntime "a" true)) (.new 1 sampleVersion)
    (sampleAsked ++ [sampleGrant 1 1020, sampleGrant 1 1020]) s ∧
      s.trace.granted = [some (sampleId 1), some (sampleId 2)] ∧ s.trace.InOrder := by
  obtain ⟨s, hrun, hg⟩ := run_of_exec_any (P := fun s : Actor => s.trace.granted = [some (sampleId 1), some (sampleId 2)])
    (restricted_of_restrict fun _ _ _ h => h) (show (exec (restrict (next (sampleRuntime "a" true)) fun s l => l.Orderly s)
      (.new 1 sampleVersion) (sampleAsked ++ [sampleGrant 1 1020, sampleGrant 1 1020])).any _ = true by decide +kernel)
  exact ⟨s, hrun, hg, grants_follow_requests hrun⟩

/-- A grant that has expired leaves its session in line, and the next grant goes to it. -/
theorem expired_grant_shifts : ∃ s, Run (Step (sampleRuntime "a" true)) (.new 1 sampleVersion)
    (sampleAsked ++ [sampleGrant 1 1001, sampleGrant 1 1020]) s ∧ ¬ s.trace.InOrder :=
  run_of_exec_any (fun _ _ _ h => h) (show (exec (next (sampleRuntime "a" true)) (.new 1 sampleVersion)
    (sampleAsked ++ [sampleGrant 1 1001, sampleGrant 1 1020])).any (fun s => ¬ s.trace.InOrder) = true by decide +kernel)

end Sample

end Rustgo.Orchestration
