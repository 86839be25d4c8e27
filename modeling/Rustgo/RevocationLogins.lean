import Rustgo.EnrollmentNames
import Rustgo.Revocation

namespace Rustgo.Revocation.System

open Checks Enrollment Protocol Registry Rendezvous Tables
open Auth (KeyFormats PendingAuthentication)

variable {keys : KeyFormats} {s t : System} {name : String} {a : Authority} {conn id : Nat} {login : Login}

/-- A handshake that is authenticated and not claimed yet. -/
def Waiting (s : System) (name : String) (a : Authority) : Prop :=
  ∃ conn login, s.handshakes.lookup conn = some (.authenticated login) ∧ login.identity.name = name ∧ login.authority = some a

/-- A session whose cancellation has not been triggered. -/
def Active (s : System) (name : String) (a : Authority) : Prop :=
  ∃ device runtime, s.guards.registry.byName.lookup device = some runtime ∧ device.str = name ∧
    runtime.observabilityIdentity.generation ∉ s.cancelled ∧ (runtime.observabilityIdentity.generation, a) ∈ s.authorities

def LoggedIn (s : System) (name : String) (a : Authority) : Prop := s.Waiting name a ∨ s.Active name a

/-- What was written down of sessions is about sessions that have been claimed. -/
structure Recorded (s : System) : Prop where
  sessions : ∀ device runtime, s.guards.registry.byName.lookup device = some runtime →
    runtime.observabilityIdentity.generation ≤ s.guards.registry.nextObservabilityGeneration
  authorities : ∀ p ∈ s.authorities, p.1 ≤ s.guards.registry.nextObservabilityGeneration

/-- The sessions of a registry are those of another one, apart from what can change of a session. -/
def Within (r' r : ClientRegistry) : Prop :=
  r'.nextObservabilityGeneration = r.nextObservabilityGeneration ∧
    ∀ device runtime', r'.byName.lookup device = some runtime' →
      ∃ runtime, r.byName.lookup device = some runtime ∧ runtime.observabilityIdentity = runtime'.observabilityIdentity

section Registry

variable {r r' r'' : ClientRegistry} {device : DeviceName}

theorem Within.refl (r : ClientRegistry) : Within r r := ⟨rfl, fun _ runtime h => ⟨runtime, h, rfl⟩⟩

theorem Within.trans (h : Within r'' r') (h' : Within r' r) : Within r'' r := by
  refine ⟨h.1.trans h'.1, fun device runtime hruntime => ?_⟩
  obtain ⟨runtime₁, hruntime₁, heq⟩ := h.2 device runtime hruntime
  obtain ⟨runtime₂, hruntime₂, heq'⟩ := h'.2 device runtime₁ hruntime₁
  exact ⟨runtime₂, hruntime₂, heq'.trans heq⟩

theorem within_mapRuntime {f : SessionRuntime → SessionRuntime}
    (hf : ∀ runtime, (f runtime).observabilityIdentity = runtime.observabilityIdentity) : Within (r.mapRuntime device f) r := by
  rw [ClientRegistry.mapRuntime]
  split
  · exact .refl r
  · next runtime hruntime =>
    refine ⟨rfl, fun other runtime' h => ?_⟩
    by_cases hother : other = device
    · subst hother
      obtain rfl := Option.some.inj ((Finmap.lookup_insert _).symm.trans h)
      exact ⟨runtime, hruntime, (hf runtime).symm⟩
    · exact ⟨runtime', (Finmap.lookup_insert_of_ne _ hother).symm.trans h, rfl⟩

theorem within_markUnavailable (guard : ControlSessionGuard) : Within (r.markUnavailable guard) r := by
  refine within_mapRuntime fun runtime => ?_
  split <;> rfl

theorem within_finalizeDisconnect (guard : ControlSessionGuard) (nowUnixMillis : UInt64) :
    Within (r.finalizeDisconnect guard nowUnixMillis) r := by
  rw [ClientRegistry.finalizeDisconnect, ClientRegistry.release]
  split
  · refine ⟨rfl, fun device runtime h => ⟨runtime, ?_, rfl⟩⟩
    by_cases hdevice : device = guard.identity.name
    · exact absurd ((hdevice ▸ Finmap.lookup_erase _ _ : _ = none).symm.trans h) (Option.some_ne_none _).symm
    · exact (Finmap.lookup_erase_ne hdevice).symm.trans h
  · exact ⟨rfl, fun _ runtime h => ⟨runtime, h, rfl⟩⟩

theorem within_drop (guards : GuardSystem) (i : Nat) (lease : Lease) (runtime : Bool) (nowUnixMillis : UInt64) :
    Within (guards.drop i lease runtime nowUnixMillis).registry guards.registry := by
  have hmarked : Within (if lease.unavailable then guards.registry else guards.registry.markUnavailable lease.guard) guards.registry := by
    split
    · exact .refl _
    · exact within_markUnavailable _
  unfold GuardSystem.drop
  split
  · exact .refl _
  · dsimp only
    split
    · exact (within_finalizeDisconnect _ _).trans hmarked
    · exact hmarked

theorem within_next {guards guards' : GuardSystem} {label : GuardLabel} (hlabel : label.lease ≠ none)
    (h : guards.next label = some guards') : Within guards'.registry guards.registry := by
  cases label with
  | claim _ _ _ _ => exact absurd rfl hlabel
  | bindListener i =>
      obtain ⟨lease, -, -, rfl⟩ := GuardSystem.filter_map_eq_some h
      exact .refl _
  | markUnavailable i =>
      obtain ⟨lease, -, -, rfl⟩ := GuardSystem.filter_map_eq_some h
      unfold GuardSystem.markUnavailable
      split
      · exact .refl _
      · exact within_markUnavailable _
  | finishShutdown i nowUnixMillis =>
      obtain ⟨lease, -, -, rfl⟩ := GuardSystem.filter_map_eq_some h
      unfold GuardSystem.finalizeDisconnect
      split
      · exact .refl _
      · exact within_finalizeDisconnect _ _
  | drop i runtime nowUnixMillis =>
      obtain ⟨lease, -, -, rfl⟩ := GuardSystem.filter_map_eq_some h
      exact within_drop _ _ _ _ _
  | runSpawned i nowUnixMillis =>
      obtain ⟨lease, -, -, rfl⟩ := GuardSystem.filter_map_eq_some h
      exact within_finalizeDisconnect _ _

end Registry

/-- A change that is made, with its termination to come. -/
def Changed (s : System) (id : Nat) (change : Change) : Prop := s.calls.lookup id = some (.changed change)

section Calls

variable {call : Call} {change other : Change} {calls : Table Nat Call} {id' : Nat}

theorem changed_erase (hcalls : t.calls = s.calls.erase id) : t.Changed id' other ↔ id' ≠ id ∧ s.Changed id' other := by
  unfold Changed
  rw [hcalls]
  by_cases heq : id' = id
  · subst heq
    rw [Finmap.lookup_erase]
    exact iff_of_false (Option.some_ne_none _).symm fun h => h.1 rfl
  · rw [Finmap.lookup_erase_ne heq]
    exact (and_iff_right heq).symm

theorem changed_insert (hcalls : t.calls = s.calls.insert id call) :
    t.Changed id' other ↔ id' = id ∧ call = .changed other ∨ id' ≠ id ∧ s.Changed id' other := by
  unfold Changed
  rw [hcalls]
  by_cases heq : id' = id
  · subst heq
    rw [Finmap.lookup_insert]
    simp
  · rw [Finmap.lookup_insert_of_ne _ heq]
    simp [heq]

end Calls

/-- A step that lets nobody in and leaves the clients and the changes as they are. -/
structure Quiet (s t : System) : Prop where
  store : t.store = s.store
  returned : t.returned = s.returned
  changes : t.changes = s.changes
  changed : ∀ id change, t.Changed id change ↔ s.Changed id change
  logins : ∀ name a, t.LoggedIn name a → s.LoggedIn name a
  recorded : Recorded s → Recorded t

theorem Quiet.refl (s : System) : Quiet s s := ⟨rfl, rfl, rfl, fun _ _ => .rfl, fun _ _ => id, id⟩

section Sessions

/-- Sessions stay as they are or go. -/
theorem active_of_within (hwithin : Within t.guards.registry s.guards.registry) (hcancelled : ∀ g ∈ s.cancelled, g ∈ t.cancelled)
    (hauthorities : t.authorities = s.authorities) (h : t.Active name a) : s.Active name a := by
  obtain ⟨device, runtime, hruntime, hname, hlive, hauthority⟩ := h
  obtain ⟨runtime₀, hruntime₀, hsame⟩ := hwithin.2 device runtime hruntime
  refine ⟨device, runtime₀, hruntime₀, hname, fun hmem => hlive ?_, ?_⟩
  · exact hsame ▸ hcancelled _ hmem
  · rw [hsame, ← hauthorities]
    exact hauthority

theorem recorded_of_within (hwithin : Within t.guards.registry s.guards.registry) (hauthorities : t.authorities = s.authorities)
    (h : Recorded s) : Recorded t := by
  refine ⟨fun device runtime hruntime => ?_, fun p hp => ?_⟩
  · obtain ⟨runtime₀, hruntime₀, hsame⟩ := hwithin.2 device runtime hruntime
    rw [hwithin.1, ← hsame]
    exact h.sessions device runtime₀ hruntime₀
  · rw [hwithin.1]
    exact h.authorities p (hauthorities ▸ hp)

/-- A step in which sessions only go. -/
theorem quiet_of_within (hstore : t.store = s.store) (hreturned : t.returned = s.returned) (hchanges : t.changes = s.changes)
    (hcalls : t.calls = s.calls) (hhandshakes : t.handshakes = s.handshakes) (hauthorities : t.authorities = s.authorities)
    (hwithin : Within t.guards.registry s.guards.registry) (hcancelled : ∀ g ∈ s.cancelled, g ∈ t.cancelled) : Quiet s t := by
  refine ⟨hstore, hreturned, hchanges, fun id change => ?_, fun name a h => ?_, recorded_of_within hwithin hauthorities⟩
  · rw [Changed, hcalls]
    exact .rfl
  · refine h.imp (fun hwaiting => ?_) (active_of_within hwithin hcancelled hauthorities)
    rw [Waiting, hhandshakes] at hwaiting
    exact hwaiting

theorem quiet_terminateByName (s : System) (name : String) : Quiet s (s.terminateByName name) := by
  unfold terminateByName
  split
  · exact .refl s
  · exact quiet_of_within rfl rfl rfl rfl rfl rfl (.refl _) fun _ hg => List.mem_cons_of_mem _ hg

theorem within_notice (s : System) (device : DeviceName) (notice : Option Message) :
    Within (notice.elim s.guards.registry (s.guards.registry.trySend device)) s.guards.registry := by
  cases notice with
  | none => exact .refl _
  | some message => exact within_mapRuntime fun _ => rfl

theorem quiet_finishChange (s : System) (change : Change) : Quiet s (s.finishChange change) := by
  unfold finishChange
  split
  · exact quiet_terminateByName s change.name
  · unfold notifyRenameAndTerminate
    split
    · exact .refl s
    · exact quiet_of_within rfl rfl rfl rfl rfl rfl (within_notice s _ _) fun _ hg => List.mem_cons_of_mem _ hg

theorem waiting_finishChange {change : Change} (h : (s.finishChange change).Waiting name a) : s.Waiting name a := by
  have hhandshakes : (s.finishChange change).handshakes = s.handshakes := by
    unfold finishChange terminateByName notifyRenameAndTerminate
    split
    · split <;> rfl
    · split <;> rfl
  rwa [Waiting, hhandshakes] at h

theorem session_eq_some {device : DeviceName} {runtime : SessionRuntime} (h : s.guards.registry.byName.lookup device = some runtime) :
    s.session device.str = some (device, runtime) := by
  have hdevice : BoundedString.tryFrom maxDeviceNameBytes device.str = .ok device := BoundedString.tryFrom_eq_ok.mpr rfl
  rw [session, hdevice]
  exact Option.bind_eq_some_iff.mpr ⟨device, rfl, Option.bind_eq_some_iff.mpr ⟨runtime, h, rfl⟩⟩

/-- The session of the name that a termination looks up is cancelled. -/
theorem not_active_finishChange (s : System) (change : Change) (a : Authority) : ¬(s.finishChange change).Active change.name a := by
  rintro ⟨device, runtime, hruntime, hname, hlive, -⟩
  refine hlive ?_
  unfold finishChange at hruntime ⊢
  split at hruntime
  · unfold terminateByName at hruntime ⊢
    split at hruntime
    · next hnone => exact absurd (hnone.symm.trans (hname ▸ session_eq_some hruntime)) (Option.some_ne_none _).symm
    · next device' runtime' hsession =>
      obtain ⟨rfl, rfl⟩ := Prod.mk.inj (Option.some.inj (hsession.symm.trans (hname ▸ session_eq_some hruntime)))
      exact List.mem_cons_self
  · next newName revision hrenamed =>
    unfold notifyRenameAndTerminate at hruntime ⊢
    split at hruntime
    · next hnone => exact absurd (hnone.symm.trans (hname ▸ session_eq_some hruntime)) (Option.some_ne_none _).symm
    · next device' runtime' hsession =>
      obtain ⟨runtime₀, hruntime₀, hsame⟩ := (within_notice s device' (renameNotice runtime' newName revision)).2 device runtime hruntime
      obtain ⟨rfl, rfl⟩ := Prod.mk.inj (Option.some.inj (hsession.symm.trans (hname ▸ session_eq_some hruntime₀)))
      rw [← hsame]
      exact List.mem_cons_self

theorem quiet_guardStep {label : GuardLabel} (h : s.guardStep label = some t) : Quiet s t := by
  have hlabel : label.lease ≠ none ∧ ∃ guards, s.guards.next label = some guards ∧
      { s with guards, cancelled := (((cancels label).bind fun i => s.guards.leases[i]?).map Lease.generation).toList ++ s.cancelled } = t := by
    cases label with
    | claim _ _ _ _ => cases h
    | bindListener i => exact ⟨Option.some_ne_none _, Option.map_eq_some_iff.mp h⟩
    | markUnavailable i => exact ⟨Option.some_ne_none _, Option.map_eq_some_iff.mp h⟩
    | finishShutdown i nowUnixMillis => exact ⟨Option.some_ne_none _, Option.map_eq_some_iff.mp h⟩
    | drop i runtime nowUnixMillis => exact ⟨Option.some_ne_none _, Option.map_eq_some_iff.mp h⟩
    | runSpawned i nowUnixMillis => exact ⟨Option.some_ne_none _, Option.map_eq_some_iff.mp h⟩
  obtain ⟨hlease, guards, hguards, rfl⟩ := hlabel
  exact quiet_of_within rfl rfl rfl rfl rfl rfl (within_next hlease hguards) fun _ hg => List.mem_append_right _ hg

end Sessions

section Handshakes

/-- A connection that is closed, or answered with a challenge. -/
theorem waiting_of_ne (hhandshakes : ∀ conn' login, t.handshakes.lookup conn' = some (.authenticated login) →
    s.handshakes.lookup conn' = some (.authenticated login)) (h : t.Waiting name a) : s.Waiting name a := by
  obtain ⟨conn', login, hlookup, hname, hauthority⟩ := h
  exact ⟨conn', login, hhandshakes conn' login hlookup, hname, hauthority⟩

theorem quiet_erase (s : System) (conn : Nat) : Quiet s { s with handshakes := s.handshakes.erase conn } :=
  ⟨rfl, rfl, rfl, fun _ _ => .rfl, fun _ _ h => h.imp_left (waiting_of_ne fun _ _ h => (lookup_erase_eq_some h).2), fun h => ⟨h.1, h.2⟩⟩

theorem quiet_hello (s : System) (conn : Nat) (hello : ClientHello) (version : ProtocolVersion)
    (challenge : Option (Vector UInt8 32)) (random : Option (Vector UInt8 24)) : Quiet s (s.hello conn hello version challenge random) := by
  unfold System.hello
  dsimp only
  split
  · exact ⟨rfl, rfl, rfl, fun _ _ => .rfl, fun _ _ h => h, fun h => ⟨h.1, h.2⟩⟩
  · next pending _ =>
    refine ⟨rfl, rfl, rfl, fun _ _ => .rfl, fun name a h => h.imp_left (waiting_of_ne fun conn' login hlookup => ?_), fun h => ⟨h.1, h.2⟩⟩
    by_cases heq : conn' = conn
    · subst heq
      have hchallenged := (Finmap.lookup_insert s.handshakes).symm.trans hlookup
      cases Option.some.inj hchallenged
    · exact (Finmap.lookup_insert_of_ne _ heq).symm.trans hlookup

theorem deviceIdentity_name {identity : Auth.AuthenticatedClient} {identity' : AuthenticatedClient}
    (h : deviceIdentity identity = some identity') : identity'.name.str = identity.name := by
  obtain ⟨device, hdevice, heq⟩ := Option.bind_eq_some_iff.mp h
  obtain rfl := Option.some.inj heq
  refine BoundedString.tryFrom_eq_ok.mp ?_
  cases htry : BoundedString.tryFrom maxDeviceNameBytes identity.name with
  | error _ =>
      rw [htry] at hdevice
      cases hdevice
  | ok device' =>
      rw [htry] at hdevice
      exact congrArg Except.ok (Option.some.inj hdevice)

/-- A session that is claimed is one that was waiting. -/
theorem quiet_claim (hs : Recorded s) (hlookup : s.handshakes.lookup conn = some (.authenticated login)) (outbound : Outbound)
    (nowUnixMillis : UInt64) : Quiet s (s.claim conn login outbound nowUnixMillis) := by
  unfold System.claim
  dsimp only
  split
  · exact quiet_erase s conn
  · next identity hidentity =>
    split
    · exact quiet_erase s conn
    · next guard registry hclaim =>
      obtain ⟨-, -, -, hgeneration, hnext, -, -, runtime, hbyName, -, hruntime⟩ := GuardSystem.claimWithOutbound_eq_ok hclaim
      have hregistry : (s.guards.claim identity outbound login.version nowUnixMillis).registry = registry := by
        rw [GuardSystem.claim, hclaim]
      have hlt : s.guards.registry.nextObservabilityGeneration < guard.observabilityIdentity.generation := by
        rw [UInt64.lt_iff_toNat_lt, hgeneration]
        exact Nat.lt_succ_self _
      have hcases : ∀ {device : DeviceName} {runtime' : SessionRuntime}, registry.byName.lookup device = some runtime' →
          (device = identity.name ∧ runtime'.observabilityIdentity = guard.observabilityIdentity) ∨
            s.guards.registry.byName.lookup device = some runtime' := by
        intro device runtime' h
        rw [hbyName] at h
        by_cases hdevice : device = identity.name
        · subst hdevice
          obtain rfl := Option.some.inj ((Finmap.lookup_insert _).symm.trans h)
          exact .inl ⟨rfl, hruntime⟩
        · exact .inr ((Finmap.lookup_insert_of_ne _ hdevice).symm.trans h)
      refine ⟨rfl, rfl, rfl, fun _ _ => .rfl, fun name a h => ?_, fun _ => ⟨fun device runtime' h => ?_, fun p hp => ?_⟩⟩
      · obtain hwaiting | ⟨device, runtime', hruntime', hname, hlive, hauthority⟩ := h
        · exact .inl (waiting_of_ne (fun _ _ h => (lookup_erase_eq_some h).2) hwaiting)
        · rw [hregistry] at hruntime'
          rcases List.mem_append.mp hauthority with hnew | hold
          · obtain ⟨a', ha', hpair⟩ := Option.map_eq_some_iff.mp (Option.mem_toList.mp hnew)
            obtain ⟨hsame, rfl⟩ := Prod.mk.inj hpair
            rcases hcases hruntime' with ⟨rfl, -⟩ | hbefore
            · exact .inl ⟨conn, login, hlookup, (deviceIdentity_name hidentity).symm.trans hname, ha'⟩
            · exact absurd (hsame ▸ hs.sessions device runtime' hbefore) (UInt64.not_le.mpr hlt)
          · rcases hcases hruntime' with ⟨-, hsame⟩ | hbefore
            · exact absurd (hsame ▸ hs.authorities _ hold) (UInt64.not_le.mpr hlt)
            · exact .inr ⟨device, runtime', hbefore, hname, hlive, hold⟩
      · rw [hregistry] at h ⊢
        rw [hnext]
        rcases hcases h with ⟨-, hsame⟩ | hbefore
        · rw [hsame]
          exact UInt64.le_refl _
        · exact UInt64.le_of_lt (UInt64.lt_of_le_of_lt (hs.sessions device runtime' hbefore) hlt)
      · rw [hregistry, hnext]
        rcases List.mem_append.mp hp with hnew | hold
        · obtain ⟨a', -, rfl⟩ := Option.map_eq_some_iff.mp (Option.mem_toList.mp hnew)
          exact UInt64.le_refl _
        · exact UInt64.le_of_lt (UInt64.lt_of_le_of_lt (hs.authorities p hold) hlt)

/-- A login that the store allows has the name and the revision of its client. -/
theorem row_of_authority {pending : PendingAuthentication} {authentication : ClientAuthenticate} {identity : Auth.AuthenticatedClient}
    (hfinish : s.authenticator.finish keys (some s.store) pending authentication = .ok identity)
    (ha : s.authority keys pending authentication = some a) :
    ∃ row ∈ s.store.clients, row.serial = a.client ∧ row.revision = a.revision ∧ row.displayId = identity.name := by
  obtain ⟨key, hkey, ha⟩ := Option.bind_eq_some_iff.mp ha
  split at ha
  · cases ha
  · next hstatic =>
    obtain ⟨row, hrow, heq⟩ := Option.bind_eq_some_iff.mp ha
    obtain rfl := Option.some.inj heq
    obtain ⟨key', hkey', -, hidentity⟩ := Auth.Authenticator.finish_eq_ok hfinish
    obtain rfl := Option.some.inj (hkey.symm.trans hkey')
    have hdynamic := hidentity.resolve_left fun h => Option.some_ne_none _ (h.symm.trans hstatic)
    obtain ⟨client, hclient, hname⟩ := Option.bind_eq_some_iff.mp hdynamic
    obtain ⟨row', hrow', rfl⟩ := Option.map_eq_some_iff.mp hclient
    obtain rfl := Option.some.inj (hrow.symm.trans hrow')
    obtain ⟨-, hname⟩ := Option.ite_none_right_eq_some.mp hname
    exact ⟨row, List.mem_of_find?_eq_some hrow, rfl, rfl, Option.some.inj hname⟩

/-- Nobody is let in but for the client whose key was checked. -/
theorem loggedIn_authenticate {pending : PendingAuthentication} {version : ProtocolVersion} {authentication : ClientAuthenticate}
    (h : (s.authenticate keys conn pending version authentication).LoggedIn name a) : s.LoggedIn name a ∨
      ∃ row ∈ s.store.clients, row.serial = a.client ∧ row.revision = a.revision ∧ row.displayId = name := by
  unfold System.authenticate at h
  split at h
  · split at h
    · exact .inl ((quiet_erase s conn).logins name a h)
    · next identity hfinish =>
      obtain ⟨conn', login, hlookup, rfl, hauthority⟩ | hactive := h
      · by_cases heq : conn' = conn
        · subst heq
          obtain rfl := Handshake.authenticated.inj (Option.some.inj ((Finmap.lookup_insert s.handshakes).symm.trans hlookup))
          exact .inr (row_of_authority hfinish hauthority)
        · exact .inl (.inl ⟨conn', login, (Finmap.lookup_insert_of_ne _ heq).symm.trans hlookup, rfl, hauthority⟩)
      · exact .inl (.inr hactive)
  · exact .inl ((quiet_erase s conn).logins name a h)

end Handshakes

end Rustgo.Revocation.System
