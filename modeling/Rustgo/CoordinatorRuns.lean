import Rustgo.CoordinatorChanges
import Rustgo.Sha256

namespace Rustgo.Coordinator

open Checks Protocol Registry Rendezvous Tables RendezvousCoordinator Runs

/-- Everything that can happen to the server: calls of the coordinator, and
what control sessions and other tasks do to the registry and the queues. -/
inductive Operation
  | request (now : Moment) (authenticated : ControlSessionGuard) (envelope : RendezvousEnvelope)
  | providerDecision (now : Moment) (authenticated : ControlSessionGuard) (envelope : RendezvousEnvelope)
  | forwardEnvelope (now : Moment) (token : Vector UInt8 32) (authenticated : ControlSessionGuard)
      (envelope : RendezvousEnvelope)
  | closeSession (now : Moment) (authenticated : ControlSessionGuard) (envelope : RendezvousEnvelope)
  | forwardRelayFrame (now : Moment) (authenticated : ControlSessionGuard) (frame : PeerRelayFrame)
  | expireNow (now : Moment) (order : List SessionId)
  | removeDevice (now : Moment) (identity : AuthenticatedClient) (order : List SessionId)
  | claim (now : Moment) (identity : AuthenticatedClient) (outbound : Outbound) (version : ProtocolVersion)
  | markUnavailable (guard : ControlSessionGuard)
  | finalizeDisconnect (now : Moment) (guard : ControlSessionGuard)
  | enqueue (name : DeviceName) (message : Message)
  | receive (name : DeviceName)
  | closeOutbound (name : DeviceName)
  | installObservabilitySink

def onRegistry (f : ClientRegistry → ClientRegistry) : Op Unit := .update fun s => { s with registry := f s.registry }

def claim (now : Moment) (identity : AuthenticatedClient) (outbound : Outbound) (version : ProtocolVersion)
    (r : ClientRegistry) : ClientRegistry :=
  match r.claimWithOutbound identity outbound version now.unixMillis with
  | .ok (_, r) => r
  | .error _ => r

def perform (c : RendezvousCoordinator) : Operation → Op Unit
  | .request now authenticated envelope => do
      let _ ← c.request now authenticated envelope
      pure ()
  | .providerDecision now authenticated envelope => RendezvousCoordinator.providerDecision now authenticated envelope
  | .forwardEnvelope now token authenticated envelope => c.forwardEnvelope now token authenticated envelope
  | .closeSession now authenticated envelope => c.closeSession now authenticated envelope
  | .forwardRelayFrame now authenticated frame => c.forwardRelayFrame now authenticated frame
  | .expireNow now order => c.expireNow now order
  | .removeDevice now identity order => c.removeDevice now identity order
  | .claim now identity outbound version => onRegistry (claim now identity outbound version)
  | .markUnavailable guard => onRegistry fun r => r.markUnavailable guard
  | .finalizeDisconnect now guard => onRegistry fun r => r.finalizeDisconnect guard now.unixMillis
  | .enqueue name message => onRegistry fun r => r.trySend name message
  | .receive name => onRegistry fun r => r.mapRuntime name fun runtime =>
      { runtime with outbound := runtime.outbound.receive }
  | .closeOutbound name => onRegistry fun r => r.mapRuntime name fun runtime =>
      { runtime with outbound := runtime.outbound.close }
  | .installObservabilitySink => onRegistry ClientRegistry.installObservabilitySink

/-- The map of the sessions is iterated in some order, each session once. -/
def Operation.Iterates (s : Server) : Operation → Prop
  | .expireNow _ order | .removeDevice _ _ order => order.Nodup ∧ ∀ id, id ∈ order ↔ id ∈ s.state.sessions
  | _ => True

def Step (c : RendezvousCoordinator) (s : Server) (op : Operation) (s' : Server) : Prop :=
  op.Iterates s ∧ ∃ result, perform c op s = some (result, s')

def Server.new (maxClients : Nat) : Server := ⟨.new maxClients, .default, []⟩

variable {c : RendezvousCoordinator} {timely : Prop} {s s' : Server} {op : Operation}

/-- The session of a frame either has not expired or is within the reach of the expiry batch. -/
def Operation.WithinBatch (s : Server) : Operation → Prop
  | .forwardRelayFrame now _ frame => ∀ session, s.state.activeSession frame.sessionId = some session →
      now.unixSecs < session.metadata.expiresUnixSecs ∨
        s.state.expiry.ahead ⟨session.metadata.expiresUnixSecs, frame.sessionId⟩ < expiryMaintenanceBatch
  | _ => True

theorem onRegistry_changes {f : ClientRegistry → ClientRegistry} {result : Except RendezvousErrorCode Unit}
    (h : onRegistry f s = some (result, s')) (hf : s.registry.Consistent → (f s.registry).Consistent) :
    Changes c timely s s' := by
  obtain ⟨_, rfl⟩ := Prod.mk.inj (Option.some.inj h)
  exact Changes.registry .refl hf

theorem claim_consistent {now : Moment} {identity : AuthenticatedClient} {outbound : Outbound}
    {version : ProtocolVersion} {r : ClientRegistry} (hc : r.Consistent) :
    (claim now identity outbound version r).Consistent := by
  rw [claim]
  split
  · next h => exact hc.claimWithOutbound h
  · exact hc

/-- Every operation is a sequence of elementary changes. -/
theorem perform_changes {result : Except RendezvousErrorCode Unit} (h : perform c op s = some (result, s'))
    (hl : ∀ now authenticated frame t session, op = .forwardRelayFrame now authenticated frame →
      c.expireSessionsBatch now s = some (.ok (), t) → t.state.activeSession frame.sessionId = some session →
        timely → now.unixSecs < session.metadata.expiresUnixSecs) : Changes c timely s s' := by
  cases op with
  | request now authenticated envelope =>
      rw [perform, Call.bind_apply] at h
      obtain ⟨⟨r₁, t⟩, ht, h⟩ := Option.bind_eq_some_iff.mp h
      cases r₁ with
      | ok _ =>
          obtain ⟨_, rfl⟩ := Prod.mk.inj (Option.some.inj h)
          exact request_changes ht
      | error _ =>
          obtain ⟨_, rfl⟩ := Prod.mk.inj (Option.some.inj h)
          exact request_changes ht
  | providerDecision now authenticated envelope => exact providerDecision_changes h
  | forwardEnvelope now token authenticated envelope => exact forwardEnvelope_changes h
  | closeSession now authenticated envelope => exact closeSession_changes h
  | forwardRelayFrame now authenticated frame =>
      exact forwardRelayFrame_changes h fun t session => hl now authenticated frame t session rfl
  | expireNow now order => exact expireNow_changes h
  | removeDevice now identity order => exact removeDevice_changes h
  | claim now identity outbound version =>
      rw [perform] at h
      exact onRegistry_changes h fun hc => claim_consistent hc
  | markUnavailable guard =>
      rw [perform] at h
      exact onRegistry_changes h fun hc => hc.markUnavailable guard
  | finalizeDisconnect now guard =>
      rw [perform] at h
      exact onRegistry_changes h fun hc => hc.finalizeDisconnect guard _
  | enqueue name message =>
      rw [perform] at h
      exact onRegistry_changes h fun hc => hc.trySend name message
  | receive name | closeOutbound name =>
      rw [perform] at h
      exact onRegistry_changes h fun hc => hc.mapRuntime name fun _ => rfl
  | installObservabilitySink =>
      rw [perform] at h
      exact onRegistry_changes h fun hc => hc.of_eq rfl rfl

/-- What every elementary change keeps holds in every state that is reached. -/
theorem run_invariant {P : Server → Prop} (hstep : ∀ s s', P s → Change c False s s' → P s')
    {ops : List Operation} (h : Run (Step c) s ops s') (hs : P s) : P s' := by
  apply h.invariant _ hs
  rintro s op t hs ⟨_, result, h⟩
  exact Changes.invariant hstep (perform_changes h fun _ _ _ _ _ _ _ _ => False.elim) hs

theorem registry_consistent_change (hc : s.registry.Consistent) (h : Change c timely s s') :
    s'.registry.Consistent := by
  cases h with
  | registry r hr => exact hr hc
  | opened | decided | forwarded | closed | entombed | admitted | relayed | flushed | discarded | purged => exact hc

section Executions

instance (s : Server) : (op : Operation) → Decidable (op.Iterates s)
  | .expireNow _ order | .removeDevice _ _ order =>
      decidable_of_iff (order.Nodup ∧ order.toFinset = s.state.sessions.keys) (by
        simp [Operation.Iterates, Finset.ext_iff, Finmap.mem_keys])
  | .request .. | .providerDecision .. | .forwardEnvelope .. | .closeSession .. | .forwardRelayFrame ..
  | .claim .. | .markUnavailable _ | .finalizeDisconnect .. | .enqueue .. | .receive _ | .closeOutbound _
  | .installObservabilitySink => isTrue trivial

/-- The server after an operation, whatever the operation returns. -/
def next (c : RendezvousCoordinator) (s : Server) (op : Operation) : Option Server :=
  if op.Iterates s then (perform c op s).map Prod.snd else none

theorem step_of_next (h : next c s op = some s') : Step c s op s' := by
  rw [next] at h
  split at h
  · next hiter =>
    obtain ⟨⟨result, t⟩, hp, rfl⟩ := Option.map_eq_some_iff.mp h
    exact ⟨hiter, result, hp⟩
  · exact nomatch h

end Executions

section Sample

def sampleControl (name : DeviceName) (hn : name.str ≠ "") (generation : UInt64) (hg : generation ≠ 0) :
    ControlSessionGuard :=
  ⟨⟨name, name.str, be 8 generation.toNat⟩, ⟨name, generation, hn, hg⟩, v02⟩

def deviceA : ControlSessionGuard := sampleControl ⟨"a", by decide⟩ (by decide) 1 CandidateGeneration.one_ne_zero
def deviceB : ControlSessionGuard := sampleControl ⟨"b", by decide⟩ (by decide) 2 (by decide)
def deviceC : ControlSessionGuard := sampleControl ⟨"c", by decide⟩ (by decide) 3 (by decide)
def deviceD : ControlSessionGuard := sampleControl ⟨"d", by decide⟩ (by decide) 4 (by decide)

theorem sampleExport_bounded : "ssh".utf8ByteSize ≤ maxExportNameBytes := by decide

def sampleCoordinator : RendezvousCoordinator where
  directory := [deviceA, deviceB, deviceC, deviceD].foldl (fun m guard =>
    m.insert guard.identity.name ⟨"unused-by-coordinator", true⟩) ∅
  limits := ⟨4096, 1024, 300⟩
  sha256 := Sha256.digest

/-- A moment that is the given number of milliseconds into the sample runs. -/
def sampleMoment (millis : Nat) : Moment :=
  ⟨UInt64.ofNat (1000 + millis / 1000), UInt64.ofNat (1000000 + millis), millis * millisecond⟩

def sampleConnect : List Operation := [deviceA, deviceB, deviceC, deviceD].map fun guard =>
  .claim (sampleMoment 0) guard.identity (.channel 1024) guard.protocolVersion

def sampleEnvelope (sessionId : SessionId) (sender target : ControlSessionGuard) (step generation : UInt64)
    (hg : generation ≠ 0) (payload : RendezvousPayload) : RendezvousEnvelope :=
  ⟨v02, sessionId, sender.identity.name, target.identity.name, step, ⟨generation, hg⟩, 1100, payload, ⟨[], by decide⟩⟩

/-- One device asks another for a session, and the other accepts. -/
def sampleAccepted (sessionId : SessionId) (consumer provider : ControlSessionGuard) : List Operation := [
  .request (sampleMoment 0) consumer
    (sampleEnvelope sessionId consumer provider 1 1 CandidateGeneration.one_ne_zero (.request ⟨⟨"ssh", by decide⟩⟩)),
  .providerDecision (sampleMoment 10) provider
    (sampleEnvelope sessionId provider consumer 2 1 CandidateGeneration.one_ne_zero (.providerDecision (.accepted .TCP)))]

def sampleId (byte : UInt8) : SessionId := ⟨Vector.replicate 32 byte⟩

def sampleToken : Vector UInt8 32 := Vector.replicate 32 0

def sampleSet (ownerIsInitiator : Bool) : CandidateSetV2 :=
  ⟨ownerIsInitiator, ⟨[⟨.quicUdp, ⟨List.replicate 32 9, by decide⟩⟩], by decide⟩, ⟨[], by decide⟩⟩

example : (sampleSet true).validate = .ok () := by decide

def sampleCandidates (sender target : ControlSessionGuard) (step generation : UInt64) (hg : generation ≠ 0)
    (ownerIsInitiator : Bool) : RendezvousEnvelope :=
  sampleEnvelope (sampleId 1) sender target step generation hg (.candidateSetV2 (sampleSet ownerIsInitiator))

end Sample

end Rustgo.Coordinator
