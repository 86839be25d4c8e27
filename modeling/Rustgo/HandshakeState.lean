import Rustgo.Languages
import Rustgo.ProtocolMessage

namespace Rustgo.Protocol

open Checks Computability Languages

namespace ProtocolVersion

def V0_3 : ProtocolVersion := ⟨1, 2⟩
def V0_4 : ProtocolVersion := ⟨1, 3⟩
def V0_5 : ProtocolVersion := ⟨1, 4⟩

def supportsManagedConfiguration (version : ProtocolVersion) : Bool :=
  version.major = V0_4.major ∧ version.minor ≥ V0_4.minor

def supportsManagedEditing (version : ProtocolVersion) : Bool :=
  version.major = V0_5.major ∧ version.minor ≥ V0_5.minor

def supportsTelemetry (version : ProtocolVersion) : Bool :=
  version.major = V0_3.major ∧ version.minor ≥ V0_3.minor

end ProtocolVersion

inductive ControlMessageDirection
  | clientToServer
  | serverToClient
  deriving DecidableEq

inductive ClientHandshakeState
  | awaitingHello
  | awaitingChallenge
  | awaitingAuthenticate (sessionId : BoundedBytes maxSessionIdBytes)
  | awaitingAuthResult (sessionId : BoundedBytes maxSessionIdBytes)
  | awaitingTunnelRegistration (sessionId : BoundedBytes maxSessionIdBytes)
  | active (sessionId : BoundedBytes maxSessionIdBytes)
  | rejected
  deriving DecidableEq

def ProtocolErrorCode.INVALID_STATE : ProtocolErrorCode := ⟨5, by decide⟩

structure StateError where
  code : ProtocolErrorCode
  deriving DecidableEq

def StateError.invalidState : StateError := ⟨.INVALID_STATE⟩

namespace ClientHandshakeState

/-- The session a state belongs to. -/
def sessionId : ClientHandshakeState → Option (BoundedBytes maxSessionIdBytes)
  | .awaitingAuthenticate id | .awaitingAuthResult id | .awaitingTunnelRegistration id | .active id => some id
  | .awaitingHello | .awaitingChallenge | .rejected => none

def isAwaitingTunnelRegistration : ClientHandshakeState → Bool
  | .awaitingTunnelRegistration _ => true
  | _ => false

def isActive : ClientHandshakeState → Bool
  | .active _ => true
  | _ => false

def transition (self : ClientHandshakeState) (message : Message) : Except StateError ClientHandshakeState :=
  match self, message with
  | .awaitingHello, .clientHello _ => .ok .awaitingChallenge
  | .awaitingChallenge, .serverChallenge challenge => .ok (.awaitingAuthenticate challenge.sessionId)
  | .awaitingAuthenticate id, .clientAuthenticate _ => .ok (.awaitingAuthResult id)
  | .awaitingAuthResult id, .authResult result =>
      if result.accepted then .ok (.awaitingTunnelRegistration id) else .ok .rejected
  | .awaitingTunnelRegistration id, .registerTunnels _ => .ok (.active id)
  | .active id, .heartbeat _ | .active id, .openTcpStream _ | .active id, .openUdpChannel _
  | .active id, .tcpStreamReady _ | .active id, .error _ | .active id, .observationGrantRequest
  | .active id, .observationGrant _ | .active id, .serverNotice _ | .active id, .rendezvousRequest _
  | .active id, .rendezvousProviderDecision _ | .active id, .rendezvousCandidateSet _
  | .active id, .rendezvousCandidateSetV2 _ | .active id, .rendezvousConnectivityResult _
  | .active id, .rendezvousRelayRequest _ | .active id, .rendezvousClose _ | .active id, .rendezvousError _
  | .active id, .peerRelayFrame _ | .active id, .peerIdentityBinding _ | .active id, .peerIdentityLookup _
  | .active id, .punchGrant _ => .ok (.active id)
  | _, _ => .error .invalidState

def transitionControl (self : ClientHandshakeState) (version : ProtocolVersion) (direction : ControlMessageDirection)
    (message : Message) : Except StateError ClientHandshakeState :=
  match message with
  | .managedConfigUpdate _ =>
      if self.isAwaitingTunnelRegistration ∧ version.supportsManagedEditing ∧ direction = .clientToServer then .ok self
      else .error .invalidState
  | .managedConfigUpdateResult _ =>
      if self.isAwaitingTunnelRegistration ∧ version.supportsManagedEditing ∧ direction = .serverToClient then .ok self
      else .error .invalidState
  | .managedConfigRequest _ =>
      if version.supportsManagedConfiguration ∧ self.isAwaitingTunnelRegistration ∧ direction = .clientToServer then
        .ok self
      else .error .invalidState
  | .managedConfigSnapshot _ =>
      if version.supportsManagedConfiguration ∧ self.isAwaitingTunnelRegistration ∧ direction = .serverToClient then
        .ok self
      else .error .invalidState
  | .managedConfigReport _ =>
      if version.supportsManagedConfiguration ∧ (self.isActive ∨ self.isAwaitingTunnelRegistration) ∧
          direction = .clientToServer then .ok self
      else .error .invalidState
  | .telemetryReport _ =>
      if self.isActive ∧ direction = .clientToServer ∧ version.supportsTelemetry then .ok self
      else .error .invalidState
  | message => self.transition message

end ClientHandshakeState

/-- A control message with the way it goes. -/
abbrev Exchange := ControlMessageDirection × Message

def ClientHandshakeState.exchange (version : ProtocolVersion) (self : ClientHandshakeState) (e : Exchange) :
    Except StateError ClientHandshakeState := self.transitionControl version e.1 e.2

section Phases

def IsHello (e : Exchange) : Prop := ∃ hello, e.2 = .clientHello hello
def IsChallenge (e : Exchange) : Prop := ∃ challenge, e.2 = .serverChallenge challenge
def IsAuthenticate (e : Exchange) : Prop := ∃ authenticate, e.2 = .clientAuthenticate authenticate
def IsAuthResult (accepted : Bool) (e : Exchange) : Prop := ∃ result, e.2 = .authResult result ∧ result.accepted = accepted
def IsRegistration (e : Exchange) : Prop := ∃ tunnels, e.2 = .registerTunnels tunnels

variable (version : ProtocolVersion)

/-- What the two sides may say about a managed configuration before the tunnels are registered. -/
def IsManaged : Exchange → Prop
  | (.clientToServer, .managedConfigRequest _) | (.serverToClient, .managedConfigSnapshot _)
  | (.clientToServer, .managedConfigReport _) => version.supportsManagedConfiguration
  | (.clientToServer, .managedConfigUpdate _) | (.serverToClient, .managedConfigUpdateResult _) =>
      version.supportsManagedEditing
  | _ => False

def IsActivePhase : Exchange → Prop
  | (.clientToServer, .telemetryReport _) => version.supportsTelemetry
  | (.clientToServer, .managedConfigReport _) => version.supportsManagedConfiguration
  | (_, .heartbeat _) | (_, .openTcpStream _) | (_, .openUdpChannel _) | (_, .tcpStreamReady _) | (_, .error _)
  | (_, .observationGrantRequest) | (_, .observationGrant _) | (_, .serverNotice _) | (_, .rendezvousRequest _)
  | (_, .rendezvousProviderDecision _) | (_, .rendezvousCandidateSet _) | (_, .rendezvousCandidateSetV2 _)
  | (_, .rendezvousConnectivityResult _) | (_, .rendezvousRelayRequest _) | (_, .rendezvousClose _)
  | (_, .rendezvousError _) | (_, .peerRelayFrame _) | (_, .peerIdentityBinding _) | (_, .peerIdentityLookup _)
  | (_, .punchGrant _) => True
  | _ => False

def activePhase : Language Exchange := (letters (IsActivePhase version))∗

def established : Language Exchange := (letters (IsManaged version))∗ * (letters IsRegistration * activePhase version)

def answered : Language Exchange :=
  letters (IsAuthResult false) + letters (IsAuthResult true) * established version

def challenged : Language Exchange := letters IsChallenge * (letters IsAuthenticate * answered version)

/-- The whole conversations of a control connection. -/
def conversations : Language Exchange := letters IsHello * challenged version

end Phases

section Acceptance

open ClientHandshakeState

variable {version : ProtocolVersion} {id : BoundedBytes maxSessionIdBytes} {e : Exchange} {t : ClientHandshakeState}

theorem guarded_eq_ok {c : Prop} [Decidable c] {s : ClientHandshakeState} :
    (if c then .ok s else .error .invalidState : Except StateError ClientHandshakeState) = .ok t ↔ c ∧ s = t := by
  by_cases hc : c <;> simp [hc]

variable (version) in
/-- The exchanges a state lets through, each with the state after it. -/
def Lets : ClientHandshakeState → Exchange → ClientHandshakeState → Prop
  | .awaitingHello, e, t => IsHello e ∧ .awaitingChallenge = t
  | .awaitingChallenge, e, t => ∃ challenge, e.2 = .serverChallenge challenge ∧ .awaitingAuthenticate challenge.sessionId = t
  | .awaitingAuthenticate id, e, t => IsAuthenticate e ∧ .awaitingAuthResult id = t
  | .awaitingAuthResult id, e, t => IsAuthResult false e ∧ .rejected = t ∨ IsAuthResult true e ∧ .awaitingTunnelRegistration id = t
  | .awaitingTunnelRegistration id, e, t =>
      IsManaged version e ∧ .awaitingTunnelRegistration id = t ∨ IsRegistration e ∧ .active id = t
  | .active id, e, t => IsActivePhase version e ∧ .active id = t
  | .rejected, _, _ => False

theorem exchange_eq_ok {s : ClientHandshakeState} : exchange version s e = .ok t ↔ Lets version s e t := by
  obtain ⟨direction, message⟩ := e
  cases s with
  | awaitingHello =>
      cases message <;>
        simp [Lets, exchange, transitionControl, transition, IsHello, isAwaitingTunnelRegistration, isActive]
  | awaitingChallenge =>
      cases message <;> simp [Lets, exchange, transitionControl, transition, isAwaitingTunnelRegistration, isActive]
  | awaitingAuthenticate id =>
      cases message <;>
        simp [Lets, exchange, transitionControl, transition, IsAuthenticate, isAwaitingTunnelRegistration, isActive]
  | awaitingAuthResult id =>
      cases message with
      | authResult result =>
          cases haccepted : result.accepted <;>
            simp [Lets, exchange, transitionControl, transition, IsAuthResult, haccepted]
      | _ => simp [Lets, exchange, transitionControl, transition, IsAuthResult, isAwaitingTunnelRegistration, isActive]
  | awaitingTunnelRegistration id =>
      cases direction <;> cases message <;>
        simp [Lets, exchange, transitionControl, transition, IsManaged, IsRegistration, isAwaitingTunnelRegistration, isActive,
          guarded_eq_ok]
  | active id =>
      cases direction <;> cases message <;>
        simp [Lets, exchange, transitionControl, transition, IsActivePhase, isAwaitingTunnelRegistration, isActive,
          guarded_eq_ok]
  | rejected =>
      cases message <;> simp [Lets, exchange, transitionControl, transition, isAwaitingTunnelRegistration, isActive]

theorem exchange_awaitingHello : exchange version .awaitingHello e = .ok t ↔ IsHello e ∧ .awaitingChallenge = t :=
  exchange_eq_ok

theorem exchange_awaitingChallenge : exchange version .awaitingChallenge e = .ok t ↔
    ∃ challenge, e.2 = .serverChallenge challenge ∧ .awaitingAuthenticate challenge.sessionId = t :=
  exchange_eq_ok

theorem exchange_awaitingAuthenticate : exchange version (.awaitingAuthenticate id) e = .ok t ↔
    IsAuthenticate e ∧ .awaitingAuthResult id = t :=
  exchange_eq_ok

theorem exchange_awaitingAuthResult : exchange version (.awaitingAuthResult id) e = .ok t ↔
    IsAuthResult false e ∧ .rejected = t ∨ IsAuthResult true e ∧ .awaitingTunnelRegistration id = t :=
  exchange_eq_ok

theorem exchange_awaitingTunnelRegistration : exchange version (.awaitingTunnelRegistration id) e = .ok t ↔
    IsManaged version e ∧ .awaitingTunnelRegistration id = t ∨ IsRegistration e ∧ .active id = t :=
  exchange_eq_ok

theorem exchange_active : exchange version (.active id) e = .ok t ↔ IsActivePhase version e ∧ .active id = t :=
  exchange_eq_ok

theorem exchange_rejected : ¬exchange version .rejected e = .ok t := exchange_eq_ok.mp

variable (version) in
/-- What is left of a conversation. -/
def remaining : ClientHandshakeState → Language Exchange
  | .awaitingHello => conversations version
  | .awaitingChallenge => challenged version
  | .awaitingAuthenticate _ => letters IsAuthenticate * answered version
  | .awaitingAuthResult _ => answered version
  | .awaitingTunnelRegistration _ => established version
  | .active _ => activePhase version
  | .rejected => 1

theorem cons_mem_remaining (s : ClientHandshakeState) (e : Exchange) (w : List Exchange) :
    e :: w ∈ remaining version s ↔ ∃ t, s.exchange version e = .ok t ∧ w ∈ remaining version t := by
  cases s with
  | awaitingHello => simp [remaining, conversations, cons_mem_letters_mul, exchange_awaitingHello]
  | awaitingChallenge =>
      simp only [remaining, challenged, cons_mem_letters_mul, exchange_awaitingChallenge, IsChallenge]
      constructor
      · rintro ⟨⟨challenge, he⟩, hw⟩
        exact ⟨_, ⟨challenge, he, rfl⟩, hw⟩
      · rintro ⟨_, ⟨challenge, he, rfl⟩, hw⟩
        exact ⟨⟨challenge, he⟩, hw⟩
  | awaitingAuthenticate id => simp [remaining, cons_mem_letters_mul, exchange_awaitingAuthenticate]
  | awaitingAuthResult id =>
      simp only [remaining, answered, Language.mem_add, cons_mem_letters, cons_mem_letters_mul, exchange_awaitingAuthResult]
      constructor
      · rintro (⟨he, rfl⟩ | ⟨he, hw⟩)
        · exact ⟨.rejected, .inl ⟨he, rfl⟩, Language.nil_mem_one⟩
        · exact ⟨_, .inr ⟨he, rfl⟩, hw⟩
      · rintro ⟨_, ⟨he, rfl⟩ | ⟨he, rfl⟩, hw⟩
        · exact .inl ⟨he, (Language.mem_one w).mp hw⟩
        · exact .inr ⟨he, hw⟩
  | awaitingTunnelRegistration id =>
      simp only [remaining, established, cons_mem_kstar_mul, cons_mem_letters_mul, exchange_awaitingTunnelRegistration]
      constructor
      · rintro (⟨he, hw⟩ | ⟨he, hw⟩)
        · exact ⟨_, .inl ⟨he, rfl⟩, hw⟩
        · exact ⟨_, .inr ⟨he, rfl⟩, hw⟩
      · rintro ⟨_, ⟨he, rfl⟩ | ⟨he, rfl⟩, hw⟩
        · exact .inl ⟨he, hw⟩
        · exact .inr ⟨he, hw⟩
  | active id => simp [remaining, activePhase, cons_mem_kstar, exchange_active]
  | rejected => simp [remaining, Language.mem_one, exchange_rejected]

section Inhabited

variable (version)

theorem activePhase_nonempty : ∃ w, w ∈ activePhase version := ⟨[], Language.nil_mem_kstar _⟩

theorem letters_mul_nonempty {P : Exchange → Prop} {L : Language Exchange} (e : Exchange) (he : P e)
    (h : ∃ w, w ∈ L) : ∃ w, w ∈ letters P * L := by
  obtain ⟨w, hw⟩ := h
  exact ⟨e :: w, cons_mem_letters_mul.mpr ⟨he, hw⟩⟩

theorem answered_nonempty : ∃ w, w ∈ answered version :=
  ⟨[(.serverToClient, .authResult ⟨false, none⟩)], .inl (singleton_mem_letters ⟨_, rfl, rfl⟩)⟩

theorem established_nonempty : ∃ w, w ∈ established version := by
  obtain ⟨w, hw⟩ := letters_mul_nonempty (P := IsRegistration) (.clientToServer, .registerTunnels ⟨⟨[], Nat.zero_le _⟩⟩)
    ⟨_, rfl⟩ (activePhase_nonempty version)
  exact ⟨[] ++ w, Language.append_mem_mul (Language.nil_mem_kstar _) hw⟩

theorem authenticate_nonempty : ∃ w, w ∈ letters IsAuthenticate * answered version :=
  letters_mul_nonempty (.clientToServer, .clientAuthenticate ⟨⟨[], Nat.zero_le _⟩, ⟨[], Nat.zero_le _⟩⟩) ⟨_, rfl⟩
    (answered_nonempty version)

theorem challenged_nonempty : ∃ w, w ∈ challenged version :=
  letters_mul_nonempty (.serverToClient, .serverChallenge ⟨⟨[], Nat.zero_le _⟩, ⟨[], Nat.zero_le _⟩⟩) ⟨_, rfl⟩
    (authenticate_nonempty version)

theorem conversations_nonempty : ∃ w, w ∈ conversations version :=
  letters_mul_nonempty (.clientToServer, .clientHello ⟨⟨"", Nat.zero_le _⟩, ⟨[], Nat.zero_le _⟩, 0⟩) ⟨_, rfl⟩
    (challenged_nonempty version)

end Inhabited

variable (version) in
theorem remaining_spec : Remaining (exchange version) (remaining version) where
  inhabited s := by
    cases s with
    | awaitingHello => exact conversations_nonempty version
    | awaitingChallenge => exact challenged_nonempty version
    | awaitingAuthenticate id => exact authenticate_nonempty version
    | awaitingAuthResult id => exact answered_nonempty version
    | awaitingTunnelRegistration id => exact established_nonempty version
    | active id => exact activePhase_nonempty version
    | rejected => exact ⟨[], Language.nil_mem_one⟩
  cons := cons_mem_remaining

def asChallenge (e : Exchange) : Option ServerChallenge :=
  match e.2 with
  | .serverChallenge challenge => some challenge
  | _ => none

def challenges (exchanges : List Exchange) : List ServerChallenge := exchanges.filterMap asChallenge

/-- The challenges that were sent before a state, and whose session it belongs to. -/
def Follows : ClientHandshakeState → List ServerChallenge → Prop
  | .awaitingHello, sent | .awaitingChallenge, sent => sent = []
  | .awaitingAuthenticate id, sent | .awaitingAuthResult id, sent | .awaitingTunnelRegistration id, sent
  | .active id, sent => ∃ challenge, sent = [challenge] ∧ challenge.sessionId = id
  | .rejected, sent => ∃ challenge, sent = [challenge]

theorem exchange_of_asChallenge {s : ClientHandshakeState} {challenge : ServerChallenge}
    (hc : asChallenge e = some challenge) (h : s.exchange version e = .ok t) :
    s = .awaitingChallenge ∧ t = .awaitingAuthenticate challenge.sessionId := by
  obtain ⟨direction, message⟩ := e
  cases message with
  | serverChallenge sent =>
      obtain rfl := Option.some.inj hc
      cases s with
      | awaitingChallenge => exact ⟨rfl, (Except.ok.inj h).symm⟩
      | _ => cases h
  | _ => cases hc

theorem Follows.step {s : ClientHandshakeState} {sent : List ServerChallenge} (h : Follows s sent)
    (hstep : s.exchange version e = .ok t) : Follows t (sent ++ challenges [e]) := by
  cases hc : asChallenge e with
  | some challenge =>
      obtain ⟨rfl, rfl⟩ := exchange_of_asChallenge hc hstep
      obtain rfl : sent = [] := h
      exact ⟨challenge, by rw [challenges, List.filterMap_cons_some hc, List.filterMap_nil, List.nil_append], rfl⟩
  | none =>
      rw [challenges, List.filterMap_cons_none hc, List.filterMap_nil, List.append_nil]
      cases s with
      | awaitingHello =>
          obtain ⟨-, rfl⟩ := exchange_awaitingHello.mp hstep
          exact h
      | awaitingChallenge =>
          obtain ⟨challenge, he, -⟩ := exchange_awaitingChallenge.mp hstep
          simp [asChallenge, he] at hc
      | awaitingAuthenticate id =>
          obtain ⟨-, rfl⟩ := exchange_awaitingAuthenticate.mp hstep
          exact h
      | awaitingAuthResult id =>
          obtain ⟨-, rfl⟩ | ⟨-, rfl⟩ := exchange_awaitingAuthResult.mp hstep
          · obtain ⟨challenge, hsent, -⟩ := h
            exact ⟨challenge, hsent⟩
          · exact h
      | awaitingTunnelRegistration id =>
          obtain ⟨-, rfl⟩ | ⟨-, rfl⟩ := exchange_awaitingTunnelRegistration.mp hstep
          · exact h
          · exact h
      | active id =>
          obtain ⟨-, rfl⟩ := exchange_active.mp hstep
          exact h
      | rejected => exact absurd hstep exchange_rejected

theorem follows_of_foldlM {exchanges : List Exchange}
    (h : exchanges.foldlM (exchange version) .awaitingHello = .ok t) : Follows t (challenges exchanges) := by
  induction exchanges using List.reverseRecOn generalizing t with
  | nil =>
      obtain rfl := Except.ok.inj h
      exact rfl
  | append_singleton exchanges e ih =>
      rw [List.foldlM_append] at h
      obtain ⟨s, hs, hlast⟩ := bind_eq_ok.mp h
      rw [List.foldlM_cons] at hlast
      obtain ⟨u, hu, hend⟩ := bind_eq_ok.mp hlast
      obtain rfl := Except.ok.inj hend
      rw [challenges, List.filterMap_append]
      exact (ih hs).step hu

theorem Follows.sessionId_eq {sent : List ServerChallenge} (h : Follows t sent) {id : BoundedBytes maxSessionIdBytes}
    (hid : t.sessionId = some id) : ∃ challenge, sent = [challenge] ∧ challenge.sessionId = id := by
  cases t with
  | awaitingHello | awaitingChallenge | rejected => cases hid
  | awaitingAuthenticate id' | awaitingAuthResult id' | awaitingTunnelRegistration id' | active id' =>
      obtain rfl := Option.some.inj hid
      exact h

theorem Follows.single {sent : List ServerChallenge} (h : Follows t sent) {challenge : ServerChallenge}
    (hmem : challenge ∈ sent) : sent = [challenge] ∧ (t = .rejected ∨ t.sessionId = some challenge.sessionId) := by
  cases t with
  | awaitingHello | awaitingChallenge =>
      obtain rfl : sent = [] := h
      cases hmem
  | awaitingAuthenticate id | awaitingAuthResult id | awaitingTunnelRegistration id | active id =>
      obtain ⟨first, rfl, rfl⟩ := h
      obtain rfl := List.mem_singleton.mp hmem
      exact ⟨rfl, .inr rfl⟩
  | rejected =>
      obtain ⟨first, rfl⟩ := h
      obtain rfl := List.mem_singleton.mp hmem
      exact ⟨rfl, .inl rfl⟩

/-- The handshake gets through exactly the beginnings of the conversations of
its version, and every state after the challenge is of the session that the only
challenge names. -/
theorem handshake_accepts_conversations (version : ProtocolVersion) (exchanges : List Exchange) :
    ((∃ s, exchanges.foldlM (exchange version) .awaitingHello = .ok s) ↔
      ∃ conversation ∈ conversations version, exchanges <+: conversation) ∧
    ∀ s, exchanges.foldlM (exchange version) .awaitingHello = .ok s →
      (∀ challenge ∈ challenges exchanges, challenges exchanges = [challenge] ∧
        (s = .rejected ∨ s.sessionId = some challenge.sessionId)) ∧
      ∀ id, s.sessionId = some id → ∃ challenge, challenges exchanges = [challenge] ∧ challenge.sessionId = id := by
  refine ⟨(remaining_spec version).foldlM_ok_iff .awaitingHello exchanges, fun s hs => ?_⟩
  have hfollows := follows_of_foldlM hs
  exact ⟨fun challenge hmem => hfollows.single hmem, fun id hid => hfollows.sessionId_eq hid⟩

end Acceptance

end Rustgo.Protocol
