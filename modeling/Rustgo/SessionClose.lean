import Rustgo.CoordinatorHistory
import Rustgo.OrchestrationBindings
import Rustgo.OrchestrationNumbers
import Mathlib.Data.List.Sort

namespace Rustgo.SessionClose

open Checks Coordinator Protocol Registry Rendezvous Tables RendezvousCoordinator Runs

variable {c : RendezvousCoordinator} {w w' : Server} {guard : ControlSessionGuard} {record : StoredSession} {target : SessionOwner}
  {runtime : Orchestration.Runtime} {s t : Orchestration.Actor} {session : Orchestration.Session} {id : SessionId}
  {now later : Moment} {envelope : RendezvousEnvelope}

/-- The coordinator holds the session of a client, active and in the same
generation; their control connection is current, and of what the coordinator
passed on in the session nothing is on its way to the client. -/
structure Held (runtime : Orchestration.Runtime) (s : Orchestration.Actor) (w : Server) (now : Moment)
    (guard : ControlSessionGuard) (id : SessionId) (session : Orchestration.Session) (record : StoredSession)
    (target : SessionOwner) : Prop where
  connected : w.registry.isActiveSession guard.identity = true
  name : guard.identity.name.str = runtime.name
  version : guard.protocolVersion = s.version
  supported : supportsV02 s.version
  active : w.state.activeSession id = some record
  between : Between record guard.identity target
  peer : target.name.str = session.peer
  expiry : session.expiry = record.metadata.expiresUnixSecs
  unexpired : now.unixSecs < record.metadata.expiresUnixSecs
  generation : session.generation = record.state.generation
  settled : ∀ e ∈ envelopes (w.sessionLog id (w.incarnation id)), e.envelope ∈ s.seen

section Server

theorem tombstoneSession_of_active {state : CoordinatorState} (h : state.sessions.lookup id = some (.active record)) :
    state.tombstoneSession id =
      ({ state with sessions := state.sessions.insert id (.tombstone (.fromSession record)) }, some record) := by
  rw [CoordinatorState.tombstoneSession, h]

/-- An accepted close entombs the record, and is queued for the other participant. -/
theorem closeSession_tells (hactive : w.state.activeSession envelope.sessionId = some record)
    (hbetween : Between record guard.identity target)
    (h : c.closeSession now guard envelope w = some (.ok (), w')) :
    w'.state.sessions.lookup envelope.sessionId = some (.tombstone (.fromSession record)) ∧
      ∃ message runtime, envelope.toProtocolMessage = .ok message ∧ w'.registry.byName.lookup target.name = some runtime ∧
        message ∈ runtime.outbound.queued := by
  rcases closeSession_cases h with ⟨_, h, _⟩ | ⟨plan, permit, hplan, hpermit, _, rfl⟩
  · exact nomatch h
  have hc := closePlan_eq_ok hplan
  obtain rfl : plan.session = record := Option.some.inj (hc.session.symm.trans hactive)
  obtain rfl : plan.target = target := Except.ok.inj ((opposite_eq_ok.mpr hc.between).symm.trans (opposite_eq_ok.mpr hbetween))
  obtain ⟨⟨runtime, hl, _, _, hroom⟩, hidentity⟩ := reserveTo_eq_ok.mp hpermit
  have hname : permit.identity.name = plan.target.name := congrArg AuthenticatedClient.name hidentity
  have hput : (w.put envelope.sessionId { plan.session with state := plan.next }).state.sessions.lookup
      envelope.sessionId = some (.active { plan.session with state := plan.next }) := Finmap.lookup_insert _
  have htomb := tombstoneSession_of_active hput
  refine ⟨?_, ?_⟩
  · exact (congrArg (·.1.sessions.lookup envelope.sessionId) htomb).trans (Finmap.lookup_insert _)
  · rw [htomb, hname]
    have hobserved : (observeP2pClose c w.registry { plan.session with state := plan.next } "closed" now).byName.lookup
        plan.target.name = some runtime := by
      rw [byName_observeP2pClose]
      exact hl
    refine ⟨plan.message, _, hc.message, ClientRegistry.lookup_trySend hobserved, ?_⟩
    rw [Outbound.trySend, dif_pos hroom]
    exact List.mem_append_right _ (List.mem_singleton_self _)

end Server

section Accepted

theorem sessionId_of_log {e : Forwarded} {k : Nat} (h : e ∈ envelopes (w.sessionLog id k)) : e.envelope.sessionId = id := by
  obtain ⟨event, hevent, he⟩ := List.mem_filterMap.mp h
  obtain ⟨hof, _⟩ := of_decide_eq_true (List.mem_filter.mp hevent).2
  cases event with
  | forwarded e' =>
      obtain rfl := Option.some.inj he
      exact hof
  | relayed | tombstoned => exact nomatch he

theorem lt_saturatingAdd {step : UInt64} (h : step.toNat + 1 < 2 ^ 64) : step < saturatingAdd step 1 := by
  have hadd : checkedAdd step 1 = some (step + 1) := if_pos h
  have hnext : (step + 1).toNat = step.toNat + 1 := checkedAdd_eq_some hadd
  rw [saturatingAdd, hadd, Option.getD_some, UInt64.lt_iff_toNat_lt, hnext]
  exact Nat.lt_succ_self _

/-- A finished session leaves at most its close, in the first generation. -/
theorem finished_close (hl : s.sessions.lookup id = some session)
    (hstep : Orchestration.Step runtime s (.input now (.sessionFinished id)) t)
    (hsent : t.trace.sent = s.trace.sent ++ [envelope]) :
    Orchestration.signedEnvelope runtime (s.drop id) id session.peer session.nextStep session.expiry (.close ⟨none⟩) =
      .ok envelope := by
  obtain ⟨⟨_, u⟩, hu, rfl⟩ := Option.map_eq_some_iff.mp hstep
  rcases Orchestration.finishSession_cases hu with ⟨hnone, _⟩ | ⟨session', hl', _, _, hsame | ⟨close, hclose, hsigned⟩⟩
  · exact nomatch hl.symm.trans hnone
  · exact absurd (hsent.symm.trans hsame) (by simp)
  · obtain rfl := Option.some.inj (hl.symm.trans hl')
    obtain rfl : envelope = close := List.singleton_inj.mp (List.append_cancel_left (hsent.symm.trans hclose))
    exact hsigned

/-- In every run of a client and of the coordinator: the close of a session that
the coordinator holds just like the client is accepted if and only if the
session is still in its first generation, there is room for the close on its
way to the peer, and the peer has not used up the steps; then the session is
entombed and the peer is told. -/
theorem close_accepted_iff_initial {n : Nat} {generation : UInt64} {version : ProtocolVersion}
    {labels : List Orchestration.Label} {ops : List Operation}
    (hs : Run (Restricted (Orchestration.Step runtime) Orchestration.Unmet) (.new generation version) labels s)
    (hw : Run (Coordinator.Step c) (.new n) ops w) (hl : s.sessions.lookup id = some session)
    (hheld : Held runtime s w later guard id session record target)
    (hstep : Orchestration.Step runtime s (.input now (.sessionFinished id)) t)
    (hsent : t.trace.sent = s.trace.sent ++ [envelope]) :
    ((∃ w', c.closeSession later guard envelope w = some (.ok (), w')) ↔
      session.generation = .INITIAL ∧ Routable w.registry target ∧ record.state.lastStep.toNat + 1 < 2 ^ 64) ∧
    ∀ w', c.closeSession later guard envelope w = some (.ok (), w') →
      w'.state.sessions.lookup id = some (.tombstone (.fromSession record)) ∧
        ∃ message runtime, envelope.toProtocolMessage = .ok message ∧
          w'.registry.byName.lookup target.name = some runtime ∧ message ∈ runtime.outbound.queued := by
  have hsigned := Orchestration.signedEnvelope_spec (finished_close hl hstep hsent)
  obtain rfl : envelope.sessionId = id := hsigned.sessionId
  have hinitial : envelope.generation = .INITIAL := by
    rw [hsigned.generation, Orchestration.lookup_drop_self]
    rfl
  refine ⟨⟨?_, ?_⟩, fun w' h => closeSession_tells hheld.active hheld.between h⟩
  · rintro ⟨w', h⟩
    rcases closeSession_cases h with ⟨_, h, _⟩ | ⟨plan, permit, hplan, hpermit, _, _⟩
    · exact nomatch h
    have hc := closePlan_eq_ok hplan
    obtain rfl : plan.session = record := Option.some.inj (hc.session.symm.trans hheld.active)
    obtain rfl : plan.target = target :=
      Except.ok.inj ((opposite_eq_ok.mpr hc.between).symm.trans (opposite_eq_ok.mpr hheld.between))
    refine ⟨?_, (reserveTo_eq_ok.mp hpermit).1, ?_⟩
    · rw [hheld.generation, ← hc.generation, hinitial]
    · exact Nat.lt_of_le_of_lt (UInt64.lt_iff_toNat_lt.mp hc.step) envelope.step.toNat_lt
  · rintro ⟨hgeneration, hroutable, hlast⟩
    obtain ⟨q, hq⟩ := (recorded_run hw).tracks hheld.active
    obtain ⟨e, hin, hreached⟩ := hq.reached
    have hnumbered := Orchestration.numbered_run hs _ session hl e.envelope (hheld.settled e hin) (sessionId_of_log hin)
    have horigin : validateOrigin w later guard envelope = .ok () := by
      refine validateOrigin_eq_ok.mpr ⟨⟨hheld.connected, ?_, ?_⟩, ?_, ?_⟩
      · exact BoundedString.str_inj (hsigned.sender.trans hheld.name.symm)
      · exact hsigned.version.trans hheld.version.symm
      · rw [hsigned.version]
        exact hheld.supported
      · rw [hsigned.expires, hheld.expiry]
        exact hheld.unexpired
    have hstep : record.state.lastStep < envelope.step := by
      rw [hsigned.step]
      rw [hreached] at hnumbered
      exact UInt64.lt_of_lt_of_le (lt_saturatingAdd hlast) hnumbered
    obtain ⟨message, _, hplan⟩ := closePlan_of_checks horigin (hsigned.payload ▸ trivial) hheld.active hheld.unexpired
      hheld.between (BoundedString.str_inj (hheld.peer.trans hsigned.target.symm))
      ((recorded_run hw).kept.coherent hheld.active).stateId.symm
      (hinitial.trans (hgeneration.symm.trans hheld.generation)) hstep
    have hpermit : reserveTo w.registry target = .ok ⟨target.identity⟩ := reserveTo_eq_ok.mpr ⟨hroutable, rfl⟩
    exact closeSession_of_plan hplan hpermit

end Accepted

section Sample

instance : Decidable (Held runtime s w now guard id session record target) :=
  decidable_of_iff ((w.registry.isActiveSession guard.identity = true ∧ guard.identity.name.str = runtime.name ∧
      guard.protocolVersion = s.version ∧ supportsV02 s.version) ∧ w.state.activeSession id = some record ∧
      opposite record guard.identity = .ok target ∧ target.name.str = session.peer ∧
      session.expiry = record.metadata.expiresUnixSecs ∧ now.unixSecs < record.metadata.expiresUnixSecs ∧
      session.generation = record.state.generation ∧
      ∀ e ∈ envelopes (w.sessionLog id (w.incarnation id)), e.envelope ∈ s.seen)
    ⟨fun ⟨⟨connected, name, version, supported⟩, active, between, peer, expiry, unexpired, generation, settled⟩ =>
      ⟨connected, name, version, supported, active, opposite_eq_ok.mp between, peer, expiry, unexpired, generation, settled⟩,
    fun h => ⟨⟨h.connected, h.name, h.version, h.supported⟩, h.active, opposite_eq_ok.mpr h.between, h.peer, h.expiry,
      h.unexpired, h.generation, h.settled⟩⟩

instance (r : ClientRegistry) (owner : SessionOwner) : Decidable (Routable r owner) :=
  decidable_of_iff ((r.byName.lookup owner.name).any (fun runtime => runtime.available = true ∧
      runtime.identity = owner.identity ∧ runtime.outbound.HasRoom) = true)
    (by simp only [Option.any_eq_true, decide_eq_true_eq, Routable])

def sampleSubmit (envelope : RendezvousEnvelope) : Operation :=
  let now := sampleMoment (100 * envelope.step.toNat)
  let guard := if envelope.sender = deviceA.identity.name then deviceA else deviceB
  match envelope.payload with
  | .request _ => .request now guard envelope
  | .providerDecision _ => .providerDecision now guard envelope
  | .close _ | .error _ => .closeSession now guard envelope
  | _ => .forwardEnvelope now sampleToken guard envelope

/-- The coordinator passes on what the client has sent and applied, in the order of the steps. -/
def sampleServed (s : Orchestration.Actor) : List Operation :=
  sampleConnect ++ (s.seen.insertionSort fun a b => a.step ≤ b.step).map sampleSubmit

abbrev sampleClient : Orchestration.Runtime := Orchestration.sampleRuntime "a" false

def sampleFinish : Orchestration.Label := .input (Orchestration.sampleMoment 1) (.sessionFinished (sampleId 1))

structure Finish where
  server : Server
  after : Orchestration.Actor
  session : Orchestration.Session
  record : StoredSession
  envelope : RendezvousEnvelope

/-- What becomes of a session that is finished after all its envelopes are passed on. -/
def sampleEnd (s : Orchestration.Actor) : Option Finish := do
  let server ← exec (Coordinator.next sampleCoordinator) (.new 8) (sampleServed s)
  let after ← Orchestration.next sampleClient s sampleFinish
  let session ← s.sessions.lookup (sampleId 1)
  let record ← server.state.activeSession (sampleId 1)
  let envelope ← after.trace.sent.getLast?
  pure ⟨server, after, session, record, envelope⟩

def sampleHolds (s : Orchestration.Actor) (f : Finish) : Prop :=
  Held sampleClient s f.server (sampleMoment 700) deviceA (sampleId 1) f.session f.record f.record.provider ∧
    f.after.trace.sent = s.trace.sent ++ [f.envelope]

instance (s : Orchestration.Actor) (f : Finish) : Decidable (sampleHolds s f) := inferInstanceAs (Decidable (_ ∧ _))

theorem finish_of_exec {labels : List Orchestration.Label} {P : Finish → Prop} [DecidablePred P]
    (h : (exec (restrict (Orchestration.next sampleClient) Orchestration.Unmet) (.new 1 v02) labels).any (fun s =>
      (sampleEnd s).any (fun f => sampleHolds s f ∧ P f) = true) = true) :
    ∃ s f, Run (Restricted (Orchestration.Step sampleClient) Orchestration.Unmet) (.new 1 v02) labels s ∧
      Run (Coordinator.Step sampleCoordinator) (.new 8) (sampleServed s) f.server ∧
      s.sessions.lookup (sampleId 1) = some f.session ∧ Orchestration.Step sampleClient s sampleFinish f.after ∧
      sampleHolds s f ∧ P f := by
  obtain ⟨s, hrun, hend⟩ := run_of_exec_any (restricted_of_restrict fun _ _ _ h => h) h
  obtain ⟨f, hf, hholds⟩ := Option.any_eq_true _ _ |>.mp hend
  obtain ⟨hholds, hp⟩ := of_decide_eq_true hholds
  simp only [sampleEnd, Option.bind_eq_bind, Option.bind_eq_some_iff, Option.pure_def, Option.some.injEq] at hf
  obtain ⟨server, hserver, after, hafter, session, hl, _, _, _, _, rfl⟩ := hf
  exact ⟨s, ⟨_, _, _, _, _⟩, hrun, run_of_exec (fun _ _ _ => step_of_next) hserver, hl, hafter, hholds, hp⟩

def sampleOpened : List Orchestration.Label := Orchestration.sampleBound.take 1

/-- A session that was only asked for is closed at the coordinator. -/
theorem close_accepted_at_once : ∃ (s : Orchestration.Actor) (f : Finish) (w' : Server),
    Run (Restricted (Orchestration.Step sampleClient) Orchestration.Unmet) (.new 1 v02)
      sampleOpened s ∧ Orchestration.Step sampleClient s sampleFinish f.after ∧
    Run (Coordinator.Step sampleCoordinator) (.new 8) (sampleServed s) f.server ∧
    sampleCoordinator.closeSession (sampleMoment 700) deviceA f.envelope f.server = some (.ok (), w') ∧
    w'.state.sessions.lookup (sampleId 1) = some (.tombstone (.fromSession f.record)) := by
  have hexec : (exec (restrict (Orchestration.next sampleClient) Orchestration.Unmet) (.new 1 v02) sampleOpened).any (fun s =>
      (sampleEnd s).any (fun f => sampleHolds s f ∧ f.session.generation = .INITIAL ∧
        Routable f.server.registry f.record.provider ∧
        f.record.state.lastStep.toNat + 1 < 2 ^ 64) = true) = true := by decide +kernel
  obtain ⟨s, f, hrun, hserved, hl, hstep, ⟨hheld, hsent⟩, hgeneration, hroutable, hlast⟩ := finish_of_exec hexec
  obtain ⟨haccepted, htold⟩ := close_accepted_iff_initial hrun hserved hl hheld hstep hsent
  obtain ⟨w', hw'⟩ := haccepted.mpr ⟨hgeneration, hroutable, hlast⟩
  exact ⟨s, f, w', hrun, hstep, hserved, hw', (htold w' hw').1⟩

def samplePeer (step : UInt64) (payload : RendezvousPayload) : Orchestration.Label :=
  Orchestration.sampleArrival (Orchestration.sampleAnswer step payload)

/-- Both ends announce their candidates, and the initiator begins the next generation. -/
def sampleRechecked : List Orchestration.Label := Orchestration.sampleBound ++ [
  samplePeer 2 (.providerDecision (.accepted .TCP)),
  samplePeer 3 (.candidateSetV2 (sampleSet false)),
  .input (Orchestration.sampleMoment 0) (.buildRecheck (sampleId 1) 1 false 7)]

/-- The close of a session in its second generation bears the first, and is refused. -/
theorem close_after_recheck_refused : ¬ ∀ labels s ops w session record target t envelope,
    Run (Restricted (Orchestration.Step sampleClient) Orchestration.Unmet) (.new 1 v02) labels s →
      Run (Coordinator.Step sampleCoordinator) (.new 8) ops w → s.sessions.lookup (sampleId 1) = some session →
      Held sampleClient s w (sampleMoment 700) deviceA (sampleId 1) session record target →
      Orchestration.Step sampleClient s sampleFinish t → t.trace.sent = s.trace.sent ++ [envelope] →
        ∃ w', sampleCoordinator.closeSession (sampleMoment 700) deviceA envelope w = some (.ok (), w') := by
  intro h
  have hexec : (exec (restrict (Orchestration.next sampleClient) Orchestration.Unmet) (.new 1 v02) sampleRechecked).any (fun s =>
      (sampleEnd s).any (fun f => sampleHolds s f ∧
        (sampleCoordinator.closeSession (sampleMoment 700) deviceA f.envelope f.server).map Prod.fst = some (.error .invalidState)) =
          true) = true := by decide +kernel
  obtain ⟨s, f, hrun, hserved, hl, hstep, ⟨hheld, hsent⟩, hrefused⟩ := finish_of_exec hexec
  obtain ⟨w', hw'⟩ := h _ _ _ _ _ _ _ _ _ hrun hserved hl hheld hstep hsent
  rw [hw'] at hrefused
  exact nomatch hrefused

end Sample

end Rustgo.SessionClose
