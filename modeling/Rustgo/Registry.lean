import Rustgo.RendezvousState
import Rustgo.Tables

namespace Rustgo.Registry

open Checks Protocol Rendezvous Tables

abbrev DeviceName := BoundedString maxDeviceNameBytes

structure AuthenticatedClient where
  name : DeviceName
  fingerprint : String
  sessionId : Bytes
  deriving DecidableEq

@[ext]
structure AuthenticatedClientIdentity where
  name : DeviceName
  generation : UInt64
  nonempty : name.str ≠ ""
  nonzero : generation ≠ 0

instance : DecidableEq AuthenticatedClientIdentity := fun _ _ =>
  decidable_of_iff _ AuthenticatedClientIdentity.ext_iff.symm

def AuthenticatedClientIdentity.fromServerAuthentication (name : DeviceName) (generation : UInt64) :
    Option AuthenticatedClientIdentity :=
  if h : name.str ≠ "" ∧ generation ≠ 0 then some ⟨name, generation, h.1, h.2⟩ else none

inductive SessionPath
  | relay
  | p2pDirect
  | p2pFallback
  deriving DecidableEq

structure TrafficCounters where
  receivedBytes : UInt64
  sentBytes : UInt64
  deriving DecidableEq

def TrafficCounters.default : TrafficCounters := ⟨0, 0⟩

/-- The events that the control sessions and the coordinator publish. -/
inductive ObservationEvent
  | clientAuthenticated (client : AuthenticatedClientIdentity) (version : String) (authenticatedUnixMillis : UInt64)
  | clientDisconnected (client : AuthenticatedClientIdentity) (disconnectedUnixMillis : UInt64)
  | p2pSessionOpened (client : AuthenticatedClientIdentity) (sessionId : String) (peer : String)
      (exportName : Option String) (path : SessionPath) (openedUnixMillis : UInt64)
  | p2pSessionClosed (client : AuthenticatedClientIdentity) (sessionId : String) (closedUnixMillis : UInt64)
      (terminalReason : Option String)
  | byteCounterDelta (client : AuthenticatedClientIdentity) (sessionId : Option String) (counters : TrafficCounters)
  deriving DecidableEq

/-- The queue of messages for one control session. -/
structure Outbound where
  capacity : Nat
  queued : List Message
  closed : Bool
  fits : queued.length ≤ capacity
  deriving DecidableEq

namespace Outbound

def channel (capacity : Nat) : Outbound := ⟨capacity, [], false, Nat.zero_le _⟩

def HasRoom (q : Outbound) : Prop := q.closed = false ∧ q.queued.length < q.capacity

instance (q : Outbound) : Decidable q.HasRoom := inferInstanceAs (Decidable (_ ∧ _))

def trySend (q : Outbound) (message : Message) : Option Outbound :=
  if h : q.HasRoom then some { q with
    queued := q.queued ++ [message]
    fits := by rw [List.length_append]; exact h.2 }
  else none

def receive (q : Outbound) : Outbound :=
  { q with queued := q.queued.tail, fits := (List.length_tail ▸ Nat.sub_le _ 1).trans q.fits }

def close (q : Outbound) : Outbound := { q with closed := true }

theorem trySend_eq_none {q : Outbound} {message : Message} : q.trySend message = none ↔ ¬q.HasRoom := by
  by_cases h : q.HasRoom <;> simp [trySend, h]

theorem trySend_queued {q q' : Outbound} {message : Message} (h : q.trySend message = some q') :
    q'.queued = q.queued ++ [message] ∧ q'.capacity = q.capacity ∧ q'.closed = q.closed := by
  rw [trySend] at h
  split at h
  · obtain rfl := Option.some.inj h
    exact ⟨rfl, rfl, rfl⟩
  · exact absurd h (by simp)

end Outbound

structure SessionRuntime where
  client : DeviceName
  fingerprint : String
  sessionId : Bytes
  observabilityIdentity : AuthenticatedClientIdentity
  outbound : Outbound
  available : Bool
  protocolVersion : ProtocolVersion
  deriving DecidableEq

def SessionRuntime.identity (runtime : SessionRuntime) : AuthenticatedClient :=
  ⟨runtime.client, runtime.fingerprint, runtime.sessionId⟩

structure ActiveSession where
  name : DeviceName
  sessionId : Bytes
  deriving DecidableEq

structure ActiveControlSession where
  identity : AuthenticatedClient
  outbound : Outbound
  protocolVersion : ProtocolVersion
  observabilityIdentity : AuthenticatedClientIdentity

/-- What a control session shows of itself to the coordinator. -/
structure ControlSessionGuard where
  identity : AuthenticatedClient
  observabilityIdentity : AuthenticatedClientIdentity
  protocolVersion : ProtocolVersion
  deriving DecidableEq

inductive RegistryError
  | binding
  | alreadyConnected
  | capacityReached
  | generationExhausted
  | invalidConfiguration
  deriving DecidableEq

/-- `observability` holds the events published so far, once a sink is installed. -/
structure ClientRegistry where
  active : Table String ActiveSession
  byName : Table DeviceName SessionRuntime
  nextObservabilityGeneration : UInt64
  observability : Option (List ObservationEvent)
  maxClients : Nat

namespace ClientRegistry

def new (maxClients : Nat) : ClientRegistry := ⟨∅, ∅, 0, none, maxClients⟩

def observabilityEnabled (r : ClientRegistry) : Bool := r.observability.isSome

def installObservabilitySink (r : ClientRegistry) : ClientRegistry :=
  { r with observability := some (r.observability.getD []) }

def tryObserve (r : ClientRegistry) (event : ObservationEvent) : ClientRegistry :=
  { r with observability := r.observability.map (· ++ [event]) }

def isActiveSession (r : ClientRegistry) (identity : AuthenticatedClient) : Bool :=
  (r.active.lookup identity.fingerprint).any fun active =>
    active.name = identity.name ∧ active.sessionId = identity.sessionId ∧
      (r.byName.lookup active.name).any fun runtime => runtime.available

def activeControlSession (r : ClientRegistry) (name : DeviceName) : Option ActiveControlSession :=
  (r.byName.lookup name).bind fun runtime =>
    if runtime.available then
      some ⟨runtime.identity, runtime.outbound, runtime.protocolVersion, runtime.observabilityIdentity⟩
    else none

def claimWithOutbound (r : ClientRegistry) (identity : AuthenticatedClient) (outbound : Outbound)
    (protocolVersion : ProtocolVersion) (nowUnixMillis : UInt64) :
    Except RegistryError (ControlSessionGuard × ClientRegistry) := do
  require (identity.name.str ≠ "" ∧ identity.sessionId ≠ [] ∧ identity.sessionId.length ≤ maxSessionIdBytes) .binding
  require (identity.fingerprint ∉ r.active ∧ identity.name ∉ r.byName) .alreadyConnected
  require (len r.active < r.maxClients) .capacityReached
  let generation ← okOr (checkedAdd r.nextObservabilityGeneration 1) .generationExhausted
  let observabilityIdentity ← okOr (AuthenticatedClientIdentity.fromServerAuthentication identity.name generation)
    .invalidConfiguration
  let runtime : SessionRuntime :=
    ⟨identity.name, identity.fingerprint, identity.sessionId, observabilityIdentity, outbound, true, protocolVersion⟩
  let r := { r with
    nextObservabilityGeneration := generation
    active := r.active.insert identity.fingerprint ⟨identity.name, identity.sessionId⟩
    byName := r.byName.insert identity.name runtime }
  let version := toString protocolVersion.major ++ "." ++ toString protocolVersion.minor
  pure (⟨identity, observabilityIdentity, protocolVersion⟩,
    r.tryObserve (.clientAuthenticated observabilityIdentity version nowUnixMillis))

def mapRuntime (r : ClientRegistry) (name : DeviceName) (f : SessionRuntime → SessionRuntime) : ClientRegistry :=
  match r.byName.lookup name with
  | none => r
  | some runtime => { r with byName := r.byName.insert name (f runtime) }

/-- The runtime of a guard that was released is no longer reached by name. -/
def markUnavailable (r : ClientRegistry) (guard : ControlSessionGuard) : ClientRegistry :=
  r.mapRuntime guard.identity.name fun runtime =>
    if runtime.observabilityIdentity = guard.observabilityIdentity then { runtime with available := false }
    else runtime

def release (r : ClientRegistry) (identity : AuthenticatedClient) : ClientRegistry :=
  if r.active.lookup identity.fingerprint = some ⟨identity.name, identity.sessionId⟩ then
    { r with active := r.active.erase identity.fingerprint, byName := r.byName.erase identity.name }
  else r

def finalizeDisconnect (r : ClientRegistry) (guard : ControlSessionGuard) (nowUnixMillis : UInt64) :
    ClientRegistry :=
  (r.release guard.identity).tryObserve (.clientDisconnected guard.observabilityIdentity nowUnixMillis)

/-- The message is dropped when the queue is full or closed. -/
def trySend (r : ClientRegistry) (name : DeviceName) (message : Message) : ClientRegistry :=
  r.mapRuntime name fun runtime =>
    { runtime with outbound := (runtime.outbound.trySend message).getD runtime.outbound }

/-- Both maps hold the same sessions, each under its own name and fingerprint. -/
structure Consistent (r : ClientRegistry) : Prop where
  named : ∀ {name runtime}, r.byName.lookup name = some runtime →
    runtime.client = name ∧ r.active.lookup runtime.fingerprint = some ⟨name, runtime.sessionId⟩
  listed : ∀ {fingerprint active}, r.active.lookup fingerprint = some active →
    ∃ runtime, r.byName.lookup active.name = some runtime ∧ runtime.fingerprint = fingerprint ∧
      runtime.sessionId = active.sessionId

variable {r r' : ClientRegistry} {identity : AuthenticatedClient} {name : DeviceName} {runtime : SessionRuntime}

theorem isActiveSession_iff : r.isActiveSession identity = true ↔
    r.active.lookup identity.fingerprint = some ⟨identity.name, identity.sessionId⟩ ∧
      ∃ runtime, r.byName.lookup identity.name = some runtime ∧ runtime.available = true := by
  simp only [isActiveSession, Option.any_eq_true, decide_eq_true_eq]
  constructor
  · rintro ⟨active, ha, hn, hs, runtime, hr, hav⟩
    rw [hn] at hr
    exact ⟨by rw [ha, ← hn, ← hs], runtime, hr, hav⟩
  · rintro ⟨ha, runtime, hr, hav⟩
    exact ⟨_, ha, rfl, rfl, runtime, hr, hav⟩

theorem activeControlSession_eq_some {active : ActiveControlSession}
    (h : r.activeControlSession name = some active) : ∃ runtime, r.byName.lookup name = some runtime ∧
      runtime.available = true ∧ active = ⟨runtime.identity, runtime.outbound, runtime.protocolVersion,
        runtime.observabilityIdentity⟩ := by
  obtain ⟨runtime, hr, h⟩ := Option.bind_eq_some_iff.mp h
  split at h
  · next hav => exact ⟨runtime, hr, hav, (Option.some.inj h).symm⟩
  · exact absurd h (by simp)

theorem activeControlSession_of_lookup (hr : r.byName.lookup name = some runtime) (hav : runtime.available = true) :
    r.activeControlSession name = some ⟨runtime.identity, runtime.outbound, runtime.protocolVersion,
      runtime.observabilityIdentity⟩ := by
  simp only [activeControlSession, hr, Option.bind_some, hav, if_true]

theorem lookup_trySend_ne {other : DeviceName} {message : Message} (h : other ≠ name) :
    (r.trySend name message).byName.lookup other = r.byName.lookup other := by
  rw [trySend, mapRuntime]
  split
  · rfl
  · exact Finmap.lookup_insert_of_ne _ h

theorem lookup_trySend {message : Message} (hr : r.byName.lookup name = some runtime) :
    (r.trySend name message).byName.lookup name =
      some { runtime with outbound := (runtime.outbound.trySend message).getD runtime.outbound } := by
  simp only [trySend, mapRuntime, hr]
  exact Finmap.lookup_insert _

/-- A message that is taken from the queue at once leaves no trace. -/
theorem trySend_receive (hr : r.byName.lookup name = some runtime) (hempty : runtime.outbound.queued = [])
    (hroom : runtime.outbound.HasRoom) (message : Message) :
    (r.trySend name message).mapRuntime name (fun runtime => { runtime with outbound := runtime.outbound.receive }) =
      r := by
  have hsame : r.byName.insert name runtime = r.byName := by
    apply Finmap.ext_lookup
    intro x
    by_cases hx : x = name
    · rw [hx, Finmap.lookup_insert, hr]
    · rw [Finmap.lookup_insert_of_ne _ hx]
  have hqueue : ((runtime.outbound.trySend message).getD runtime.outbound).receive = runtime.outbound := by
    generalize runtime.outbound = q at hempty hroom
    obtain ⟨capacity, queued, closed, fits⟩ := q
    obtain rfl : queued = [] := hempty
    rw [Outbound.trySend, dif_pos hroom]
    rfl
  simp only [trySend, mapRuntime, hr, Finmap.lookup_insert, Finmap.insert_insert, hqueue, hsame]

theorem consistent_new (maxClients : Nat) : (new maxClients).Consistent := by
  constructor
  · intro name runtime h
    exact absurd h (by simp [new])
  · intro fingerprint active h
    exact absurd h (by simp [new])

theorem Consistent.of_eq (hc : r.Consistent) (ha : r'.active = r.active) (hb : r'.byName = r.byName) :
    r'.Consistent := by
  constructor
  · intro name runtime h
    rw [hb] at h
    rw [ha]
    exact hc.named h
  · intro fingerprint active h
    rw [ha] at h
    rw [hb]
    exact hc.listed h

theorem Consistent.mapRuntime (hc : r.Consistent) (name : DeviceName) {f : SessionRuntime → SessionRuntime}
    (hf : ∀ runtime, (f runtime).identity = runtime.identity) : (r.mapRuntime name f).Consistent := by
  have hparts (runtime) : (f runtime).client = runtime.client ∧ (f runtime).fingerprint = runtime.fingerprint ∧
      (f runtime).sessionId = runtime.sessionId := by
    simpa only [SessionRuntime.identity, AuthenticatedClient.mk.injEq] using hf runtime
  rw [ClientRegistry.mapRuntime]
  split
  · exact hc
  · next runtime hr =>
    obtain ⟨hcl, hfp, hsid⟩ := hparts runtime
    constructor
    · intro n rt h
      by_cases hn : n = name
      · subst hn
        obtain rfl := Option.some.inj ((Finmap.lookup_insert _).symm.trans h)
        rw [hcl, hfp, hsid]
        exact hc.named hr
      · rw [Finmap.lookup_insert_of_ne _ hn] at h
        exact hc.named h
    · intro fingerprint active h
      obtain ⟨rt, hrt, hf', hs'⟩ := hc.listed h
      by_cases hn : active.name = name
      · rw [hn] at hrt ⊢
        obtain rfl := Option.some.inj (hr.symm.trans hrt)
        exact ⟨f runtime, Finmap.lookup_insert _, hfp.trans hf', hsid.trans hs'⟩
      · exact ⟨rt, by rw [Finmap.lookup_insert_of_ne _ hn]; exact hrt, hf', hs'⟩

theorem Consistent.tryObserve (hc : r.Consistent) (event : ObservationEvent) : (r.tryObserve event).Consistent :=
  hc.of_eq rfl rfl

theorem Consistent.trySend (hc : r.Consistent) (name : DeviceName) (message : Message) :
    (r.trySend name message).Consistent := hc.mapRuntime name fun _ => rfl

theorem Consistent.markUnavailable (hc : r.Consistent) (guard : ControlSessionGuard) :
    (r.markUnavailable guard).Consistent := by
  apply hc.mapRuntime
  intro runtime
  split <;> rfl

theorem Consistent.release (hc : r.Consistent) (identity : AuthenticatedClient) : (r.release identity).Consistent := by
  rw [ClientRegistry.release]
  split
  · next ha =>
    constructor
    · intro n rt h
      by_cases hn : n = identity.name
      · rw [hn, Finmap.lookup_erase] at h
        exact absurd h (by simp)
      · rw [Finmap.lookup_erase_ne hn] at h
        obtain ⟨hcl, hact⟩ := hc.named h
        refine ⟨hcl, ?_⟩
        rw [Finmap.lookup_erase_ne ?_]
        · exact hact
        · intro hfp
          rw [hfp, ha] at hact
          exact hn (congrArg ActiveSession.name (Option.some.inj hact)).symm
    · intro fingerprint active h
      by_cases hfp : fingerprint = identity.fingerprint
      · rw [hfp, Finmap.lookup_erase] at h
        exact absurd h (by simp)
      · rw [Finmap.lookup_erase_ne hfp] at h
        obtain ⟨rt, hrt, hf, hs⟩ := hc.listed h
        refine ⟨rt, ?_, hf, hs⟩
        rw [Finmap.lookup_erase_ne ?_]
        · exact hrt
        · intro hn
          obtain ⟨rt', hrt', hf', _⟩ := hc.listed ha
          rw [hn, hrt'] at hrt
          rw [← Option.some.inj hrt] at hf
          exact hfp (hf.symm.trans hf')
  · exact hc

theorem Consistent.finalizeDisconnect (hc : r.Consistent) (guard : ControlSessionGuard) (nowUnixMillis : UInt64) :
    (r.finalizeDisconnect guard nowUnixMillis).Consistent := (hc.release guard.identity).tryObserve _

theorem Consistent.claimWithOutbound (hc : r.Consistent) {outbound : Outbound} {version : ProtocolVersion}
    {nowUnixMillis : UInt64} {guard : ControlSessionGuard}
    (h : r.claimWithOutbound identity outbound version nowUnixMillis = .ok (guard, r')) : r'.Consistent := by
  simp only [ClientRegistry.claimWithOutbound, bind_eq_ok, require_eq_ok, okOr_eq_ok, pure_eq_ok, exists_const,
    Prod.mk.injEq] at h
  obtain ⟨_, ⟨hfp, hname⟩, _, generation, _, observed, _, _, rfl⟩ := h
  apply Consistent.tryObserve
  constructor
  · intro n rt h
    by_cases hn : n = identity.name
    · subst hn
      obtain rfl := Option.some.inj ((Finmap.lookup_insert _).symm.trans h)
      exact ⟨rfl, Finmap.lookup_insert _⟩
    · rw [Finmap.lookup_insert_of_ne _ hn] at h
      obtain ⟨hcl, hact⟩ := hc.named h
      refine ⟨hcl, ?_⟩
      rw [Finmap.lookup_insert_of_ne _ ?_]
      · exact hact
      · intro he
        exact hfp (he ▸ Finmap.mem_of_lookup_eq_some hact)
  · intro fingerprint active h
    by_cases hf : fingerprint = identity.fingerprint
    · subst hf
      obtain rfl := Option.some.inj ((Finmap.lookup_insert _).symm.trans h)
      exact ⟨_, Finmap.lookup_insert _, rfl, rfl⟩
    · rw [Finmap.lookup_insert_of_ne _ hf] at h
      obtain ⟨rt, hrt, hf', hs'⟩ := hc.listed h
      refine ⟨rt, ?_, hf', hs'⟩
      rw [Finmap.lookup_insert_of_ne _ ?_]
      · exact hrt
      · intro he
        exact hname (he ▸ Finmap.mem_of_lookup_eq_some hrt)

end ClientRegistry

end Rustgo.Registry
