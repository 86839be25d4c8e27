import Rustgo.Registry
import Rustgo.Runs

namespace Rustgo.Registry

open Checks Protocol Rendezvous Tables Runs

/-- A guard with its own fields. A guard that was dropped while it had listeners
leaves a task behind, which releases it once they are shut down. -/
structure Lease where
  guard : ControlSessionGuard
  listeners : Nat
  unavailable : Bool
  released : Bool
  dropped : Bool
  spawned : Bool

namespace Lease

def name (lease : Lease) : DeviceName := lease.guard.identity.name

def fingerprint (lease : Lease) : String := lease.guard.identity.fingerprint

def entry (lease : Lease) : ActiveSession := ⟨lease.name, lease.guard.identity.sessionId⟩

def generation (lease : Lease) : UInt64 := lease.guard.observabilityIdentity.generation

/-- The registry has yet to be told that the session is over. -/
def unreleased (lease : Lease) : Bool := !lease.released || lease.spawned

end Lease

/-- The guards stand in the order of their claims. -/
structure GuardSystem where
  registry : ClientRegistry
  leases : List Lease

inductive GuardLabel
  | claim (identity : AuthenticatedClient) (outbound : Outbound) (protocolVersion : ProtocolVersion) (nowUnixMillis : UInt64)
  | bindListener (i : Nat)
  | markUnavailable (i : Nat)
  | finishShutdown (i : Nat) (nowUnixMillis : UInt64)
  | drop (i : Nat) (runtime : Bool) (nowUnixMillis : UInt64)
  | runSpawned (i : Nat) (nowUnixMillis : UInt64)

/-- The guard that a step acts on. -/
def GuardLabel.lease : GuardLabel → Option Nat
  | .claim _ _ _ _ => none
  | .bindListener i => some i
  | .markUnavailable i => some i
  | .finishShutdown i _ => some i
  | .drop i _ _ => some i
  | .runSpawned i _ => some i

namespace GuardSystem

def new (maxClients : Nat) : GuardSystem := ⟨.new maxClients, []⟩

def claim (s : GuardSystem) (identity : AuthenticatedClient) (outbound : Outbound) (protocolVersion : ProtocolVersion)
    (nowUnixMillis : UInt64) : GuardSystem :=
  match s.registry.claimWithOutbound identity outbound protocolVersion nowUnixMillis with
  | .ok (guard, registry) => ⟨registry, s.leases ++ [⟨guard, 0, false, false, false, false⟩]⟩
  | .error _ => s

def markUnavailable (s : GuardSystem) (i : Nat) (lease : Lease) : GuardSystem :=
  if lease.unavailable then s
  else ⟨s.registry.markUnavailable lease.guard, s.leases.set i { lease with unavailable := true }⟩

def finalizeDisconnect (s : GuardSystem) (i : Nat) (lease : Lease) (nowUnixMillis : UInt64) : GuardSystem :=
  if lease.released then s
  else ⟨s.registry.finalizeDisconnect lease.guard nowUnixMillis, s.leases.set i { lease with listeners := 0, released := true }⟩

/-- The guard is dropped: without listeners, or outside a runtime, the session is
released at once. -/
def drop (s : GuardSystem) (i : Nat) (lease : Lease) (runtime : Bool) (nowUnixMillis : UInt64) : GuardSystem :=
  if lease.released then ⟨s.registry, s.leases.set i { lease with dropped := true }⟩
  else
    let registry := if lease.unavailable then s.registry else s.registry.markUnavailable lease.guard
    let dropped := { lease with listeners := 0, unavailable := true, released := true, dropped := true }
    if lease.listeners = 0 ∨ runtime = false then
      ⟨registry.finalizeDisconnect lease.guard nowUnixMillis, s.leases.set i dropped⟩
    else ⟨registry, s.leases.set i { dropped with spawned := true }⟩

def runSpawned (s : GuardSystem) (i : Nat) (lease : Lease) (nowUnixMillis : UInt64) : GuardSystem :=
  ⟨s.registry.finalizeDisconnect lease.guard nowUnixMillis, s.leases.set i { lease with spawned := false }⟩

/-- What is done with a guard needs the guard. -/
def next (s : GuardSystem) : GuardLabel → Option GuardSystem
  | .claim identity outbound protocolVersion nowUnixMillis => some (s.claim identity outbound protocolVersion nowUnixMillis)
  | .bindListener i =>
      (s.leases[i]?.filter (!·.dropped)).map fun lease =>
        { s with leases := s.leases.set i { lease with listeners := lease.listeners + 1 } }
  | .markUnavailable i => (s.leases[i]?.filter (!·.dropped)).map (s.markUnavailable i)
  | .finishShutdown i nowUnixMillis =>
      (s.leases[i]?.filter fun lease => !lease.dropped && lease.unavailable).map fun lease => s.finalizeDisconnect i lease nowUnixMillis
  | .drop i runtime nowUnixMillis => (s.leases[i]?.filter (!·.dropped)).map fun lease => s.drop i lease runtime nowUnixMillis
  | .runSpawned i nowUnixMillis => (s.leases[i]?.filter (·.spawned)).map fun lease => s.runSpawned i lease nowUnixMillis

def Step (s : GuardSystem) (l : GuardLabel) (t : GuardSystem) : Prop := s.next l = some t

variable {s t : GuardSystem} {l : GuardLabel} {labels : List GuardLabel} {i j : Nat} {lease other : Lease}

/-- Each unreleased guard has its entry in both maps, and no entry is without one. -/
structure Matched (registry : ClientRegistry) (leases : List Lease) : Prop where
  consistent : registry.Consistent
  sizes : len registry.byName = len registry.active
  bounded : len registry.active ≤ registry.maxClients
  flags : ∀ lease ∈ leases, (lease.spawned = true → lease.released = true) ∧ (lease.released = true → lease.unavailable = true)
  entered : ∀ lease ∈ leases, lease.unreleased = true → registry.active.lookup lease.fingerprint = some lease.entry ∧
    ∃ runtime, registry.byName.lookup lease.name = some runtime ∧ runtime.identity = lease.guard.identity ∧
      runtime.observabilityIdentity = lease.guard.observabilityIdentity
  owned : ∀ fingerprint entry, registry.active.lookup fingerprint = some entry →
    ∃ lease ∈ leases, lease.unreleased = true ∧ lease.fingerprint = fingerprint
  distinct : ∀ {i j : Nat} {lease other : Lease}, leases[i]? = some lease → leases[j]? = some other → lease.unreleased = true →
    other.unreleased = true → i ≠ j → lease.fingerprint ≠ other.fingerprint ∧ lease.name ≠ other.name
  ascending : (leases.map Lease.generation).Pairwise (· < ·)
  reached : ∀ lease ∈ leases, lease.generation ≤ registry.nextObservabilityGeneration

theorem new_matched (maxClients : Nat) : Matched (.new maxClients) [] where
  consistent := ClientRegistry.consistent_new maxClients
  sizes := rfl
  bounded := Nat.zero_le _
  flags _ h := absurd h List.not_mem_nil
  entered _ h := absurd h List.not_mem_nil
  owned fingerprint _ h := absurd h (by simp [ClientRegistry.new])
  distinct h := absurd h (by simp)
  ascending := .nil
  reached _ h := absurd h List.not_mem_nil

/-- The entry of an unreleased guard names it. -/
theorem Matched.unique {registry : ClientRegistry} {leases : List Lease} (h : Matched registry leases)
    (hlease : leases[i]? = some lease) (hother : leases[j]? = some other) (hunreleased : lease.unreleased = true)
    (hunreleased' : other.unreleased = true) (heq : lease.fingerprint = other.fingerprint ∨ lease.name = other.name) : i = j := by
  by_contra hne
  obtain ⟨hfingerprint, hname⟩ := h.distinct hlease hother hunreleased hunreleased' hne
  exact heq.elim hfingerprint hname

theorem map_generation_set {leases : List Lease} {lease' : Lease} (hlease : leases[i]? = some lease)
    (hguard : lease'.guard = lease.guard) : (leases.set i lease').map Lease.generation = leases.map Lease.generation := by
  obtain ⟨hlt, hget⟩ := List.getElem?_eq_some_iff.mp hlease
  have hvalue : lease'.generation = (leases.map Lease.generation).get ⟨i, by rwa [List.length_map]⟩ := by
    rw [List.get_eq_getElem, List.getElem_map, hget, Lease.generation, Lease.generation, hguard]
  rw [List.map_set, hvalue, List.get_eq_getElem, List.set_getElem_self]

/-- A guard changes without being released, and the maps keep their entries. -/
theorem Matched.amend {registry registry' : ClientRegistry} {leases : List Lease} {lease' : Lease} (h : Matched registry leases)
    (hlease : leases[i]? = some lease) (hguard : lease'.guard = lease.guard) (hunreleased : lease'.unreleased = lease.unreleased)
    (hflags : (lease'.spawned = true → lease'.released = true) ∧ (lease'.released = true → lease'.unavailable = true))
    (hconsistent : registry'.Consistent) (hactive : registry'.active = registry.active) (hmax : registry'.maxClients = registry.maxClients)
    (hgeneration : registry'.nextObservabilityGeneration = registry.nextObservabilityGeneration)
    (hsizes : len registry'.byName = len registry.byName)
    (hbyName : ∀ name runtime, registry.byName.lookup name = some runtime → ∃ runtime', registry'.byName.lookup name = some runtime' ∧
      runtime'.identity = runtime.identity ∧ runtime'.observabilityIdentity = runtime.observabilityIdentity) :
    Matched registry' (leases.set i lease') := by
  have hsame {k : Nat} {current : Lease} (hk : (leases.set i lease')[k]? = some current) :
      ∃ old, leases[k]? = some old ∧ current.guard = old.guard ∧ current.unreleased = old.unreleased := by
    rw [List.getElem?_set] at hk
    split at hk
    · next hik =>
      subst hik
      split at hk
      · obtain rfl := Option.some.inj hk
        exact ⟨lease, hlease, hguard, hunreleased⟩
      · cases hk
    · exact ⟨current, hk, rfl, rfl⟩
  have hmem {current : Lease} (hcurrent : current ∈ leases.set i lease') :
      ∃ old ∈ leases, current.guard = old.guard ∧ current.unreleased = old.unreleased := by
    obtain ⟨k, hk⟩ := List.mem_iff_getElem?.mp hcurrent
    obtain ⟨old, hold, hrest⟩ := hsame hk
    exact ⟨old, List.mem_of_getElem? hold, hrest⟩
  constructor
  case consistent => exact hconsistent
  case sizes => rw [hsizes, hactive, h.sizes]
  case bounded => rw [hactive, hmax]; exact h.bounded
  case flags =>
    intro current hcurrent
    obtain hold | rfl := List.mem_or_eq_of_mem_set hcurrent
    · exact h.flags current hold
    · exact hflags
  case entered =>
    intro current hcurrent hcur
    obtain ⟨old, hold, hguard', hunreleased'⟩ := hmem hcurrent
    obtain ⟨hentry, runtime, hruntime, hidentity, hobserved⟩ := h.entered old hold (hunreleased' ▸ hcur)
    obtain ⟨runtime', hruntime', hidentity', hobserved'⟩ := hbyName _ runtime hruntime
    refine ⟨?_, runtime', ?_, ?_, ?_⟩
    · rw [hactive, Lease.fingerprint, Lease.entry, Lease.name, hguard']
      exact hentry
    · rw [Lease.name, hguard']
      exact hruntime'
    · rw [hidentity', hguard', hidentity]
    · rw [hobserved', hguard', hobserved]
  case owned =>
    intro fingerprint entry hentry
    rw [hactive] at hentry
    obtain ⟨old, hold, hunreleased', hfingerprint⟩ := h.owned fingerprint entry hentry
    obtain ⟨k, hk⟩ := List.mem_iff_getElem?.mp hold
    by_cases hik : i = k
    · subst hik
      obtain rfl := Option.some.inj (hlease.symm.trans hk)
      refine ⟨lease', List.mem_iff_getElem?.mpr ⟨i, ?_⟩, hunreleased.trans hunreleased', ?_⟩
      · exact List.getElem?_set_self (List.getElem?_eq_some_iff.mp hk).1
      · rw [Lease.fingerprint, hguard]
        exact hfingerprint
    · exact ⟨old, List.mem_iff_getElem?.mpr ⟨k, by rw [List.getElem?_set_ne hik]; exact hk⟩, hunreleased', hfingerprint⟩
  case distinct =>
    intro a b one two hone htwo hone' htwo' hne
    obtain ⟨old, hold, hguard', hunreleased'⟩ := hsame hone
    obtain ⟨old', hold', hguard'', hunreleased''⟩ := hsame htwo
    have hdistinct := h.distinct hold hold' (hunreleased' ▸ hone') (hunreleased'' ▸ htwo') hne
    rw [Lease.fingerprint, Lease.fingerprint, Lease.name, Lease.name, hguard', hguard'']
    exact hdistinct
  case ascending =>
    rw [map_generation_set hlease hguard]
    exact h.ascending
  case reached =>
    intro current hcurrent
    obtain ⟨old, hold, hguard', -⟩ := hmem hcurrent
    rw [hgeneration, Lease.generation, hguard']
    exact h.reached old hold

/-- The guard gives up its own entry. -/
theorem Matched.release {registry : ClientRegistry} {leases : List Lease} (h : Matched registry leases) (lease' : Lease)
    (nowUnixMillis : UInt64) (hlease : leases[i]? = some lease) (hunreleased : lease.unreleased = true)
    (hguard : lease'.guard = lease.guard) (hreleased : lease'.unreleased = false)
    (hflags : (lease'.spawned = true → lease'.released = true) ∧ (lease'.released = true → lease'.unavailable = true)) :
    Matched (registry.finalizeDisconnect lease.guard nowUnixMillis) (leases.set i lease') := by
  have hlt : i < leases.length := (List.getElem?_eq_some_iff.mp hlease).1
  obtain ⟨hentry, runtime, hruntime, -⟩ := h.entered lease (List.mem_of_getElem? hlease) hunreleased
  have hself : registry.active.lookup lease.guard.identity.fingerprint =
      some ⟨lease.guard.identity.name, lease.guard.identity.sessionId⟩ := hentry
  have hactive : (registry.finalizeDisconnect lease.guard nowUnixMillis).active = registry.active.erase lease.fingerprint := by
    rw [ClientRegistry.finalizeDisconnect, ClientRegistry.release, if_pos hself]
    rfl
  have hbyName : (registry.finalizeDisconnect lease.guard nowUnixMillis).byName = registry.byName.erase lease.name := by
    rw [ClientRegistry.finalizeDisconnect, ClientRegistry.release, if_pos hself]
    rfl
  have hrest : (registry.finalizeDisconnect lease.guard nowUnixMillis).maxClients = registry.maxClients ∧
      (registry.finalizeDisconnect lease.guard nowUnixMillis).nextObservabilityGeneration = registry.nextObservabilityGeneration := by
    rw [ClientRegistry.finalizeDisconnect, ClientRegistry.release, if_pos hself]
    exact ⟨rfl, rfl⟩
  -- Whoever is unreleased now was so before, under another number.
  have hother {k : Nat} {current : Lease} (hk : (leases.set i lease')[k]? = some current) (hcurrent : current.unreleased = true) :
      i ≠ k ∧ leases[k]? = some current := by
    have hne : i ≠ k := by
      rintro rfl
      obtain rfl := Option.some.inj ((List.getElem?_set_self hlt).symm.trans hk)
      cases hreleased.symm.trans hcurrent
    rw [List.getElem?_set_ne hne] at hk
    exact ⟨hne, hk⟩
  constructor
  case consistent => exact h.consistent.finalizeDisconnect lease.guard nowUnixMillis
  case sizes =>
    have hactiveLen := total_erase (f := fun _ _ => 1) hentry
    have hbyNameLen := total_erase (f := fun _ _ => 1) hruntime
    have hsizes := h.sizes
    rw [len_eq_total, len_eq_total, hactiveLen, hbyNameLen] at hsizes
    rw [hactive, hbyName, len_eq_total, len_eq_total]
    exact Nat.add_left_cancel hsizes
  case bounded =>
    have hlen := total_erase (f := fun _ _ => 1) hentry
    rw [← len_eq_total, ← len_eq_total] at hlen
    rw [hactive, hrest.1]
    exact (by omega : _ ≤ len registry.active).trans h.bounded
  case flags =>
    intro current hcurrent
    obtain hold | rfl := List.mem_or_eq_of_mem_set hcurrent
    · exact h.flags current hold
    · exact hflags
  case entered =>
    intro current hcurrent hcur
    obtain ⟨k, hk⟩ := List.mem_iff_getElem?.mp hcurrent
    obtain ⟨hne, hold⟩ := hother hk hcur
    obtain ⟨hfingerprint, hname⟩ := h.distinct hold hlease hcur hunreleased hne.symm
    rw [hactive, hbyName, Finmap.lookup_erase_ne hfingerprint, Finmap.lookup_erase_ne hname]
    exact h.entered current (List.mem_of_getElem? hold) hcur
  case owned =>
    intro fingerprint entry hlookup
    rw [hactive] at hlookup
    have hne : fingerprint ≠ lease.fingerprint := by
      rintro rfl
      rw [Finmap.lookup_erase] at hlookup
      cases hlookup
    rw [Finmap.lookup_erase_ne hne] at hlookup
    obtain ⟨old, hold, hunreleased', hfingerprint⟩ := h.owned fingerprint entry hlookup
    obtain ⟨k, hk⟩ := List.mem_iff_getElem?.mp hold
    have hik : i ≠ k := by
      rintro rfl
      obtain rfl := Option.some.inj (hlease.symm.trans hk)
      exact hne hfingerprint.symm
    exact ⟨old, List.mem_iff_getElem?.mpr ⟨k, by rw [List.getElem?_set_ne hik]; exact hk⟩, hunreleased', hfingerprint⟩
  case distinct =>
    intro a b one two hone htwo hone' htwo' hne
    exact h.distinct (hother hone hone').2 (hother htwo htwo').2 hone' htwo' hne
  case ascending =>
    rw [map_generation_set hlease hguard]
    exact h.ascending
  case reached =>
    intro current hcurrent
    rw [hrest.2]
    obtain hold | rfl := List.mem_or_eq_of_mem_set hcurrent
    · exact h.reached current hold
    · rw [Lease.generation, hguard]
      exact h.reached lease (List.mem_of_getElem? hlease)

theorem getElem?_concat {leases : List Lease} {last current : Lease} {k : Nat} (hk : (leases ++ [last])[k]? = some current) :
    leases[k]? = some current ∨ (k = leases.length ∧ current = last) := by
  rw [List.getElem?_append] at hk
  split at hk
  · exact .inl hk
  · next hge =>
    obtain ⟨hlt, hlast⟩ := List.getElem?_eq_some_iff.mp hk
    rw [List.length_singleton] at hlt
    have hzero : k - leases.length = 0 := by omega
    refine .inr ⟨by omega, ?_⟩
    rw [← hlast]
    simp only [hzero, List.getElem_singleton]

/-- What a claim has checked and written. -/
theorem claimWithOutbound_eq_ok {registry registry' : ClientRegistry} {identity : AuthenticatedClient} {outbound : Outbound}
    {version : ProtocolVersion} {nowUnixMillis : UInt64} {guard : ControlSessionGuard}
    (h : registry.claimWithOutbound identity outbound version nowUnixMillis = .ok (guard, registry')) :
    (identity.fingerprint ∉ registry.active ∧ identity.name ∉ registry.byName) ∧ len registry.active < registry.maxClients ∧
      guard.identity = identity ∧
      guard.observabilityIdentity.generation.toNat = registry.nextObservabilityGeneration.toNat + 1 ∧
      registry'.nextObservabilityGeneration = guard.observabilityIdentity.generation ∧ registry'.maxClients = registry.maxClients ∧
      registry'.active = registry.active.insert identity.fingerprint ⟨identity.name, identity.sessionId⟩ ∧
      ∃ runtime, registry'.byName = registry.byName.insert identity.name runtime ∧ runtime.identity = identity ∧
        runtime.observabilityIdentity = guard.observabilityIdentity := by
  simp only [ClientRegistry.claimWithOutbound, bind_eq_ok, require_eq_ok, okOr_eq_ok, pure_eq_ok, exists_const,
    Prod.mk.injEq] at h
  obtain ⟨-, hfree, hroom, generation, hgeneration, observed, hobserved, rfl, rfl⟩ := h
  have hvalue : observed.generation = generation := by
    rw [AuthenticatedClientIdentity.fromServerAuthentication] at hobserved
    split at hobserved
    · rw [← Option.some.inj hobserved]
    · cases hobserved
  refine ⟨hfree, hroom, rfl, ?_, hvalue.symm, rfl, rfl, _, rfl, rfl, rfl⟩
  change observed.generation.toNat = _
  rw [hvalue]
  exact checkedAdd_eq_some hgeneration

theorem Matched.claim {registry registry' : ClientRegistry} {leases : List Lease} {identity : AuthenticatedClient} {outbound : Outbound}
    {version : ProtocolVersion} {nowUnixMillis : UInt64} {guard : ControlSessionGuard} (h : Matched registry leases)
    (hclaim : registry.claimWithOutbound identity outbound version nowUnixMillis = .ok (guard, registry')) :
    Matched registry' (leases ++ [⟨guard, 0, false, false, false, false⟩]) := by
  obtain ⟨⟨hfingerprint, hname⟩, hroom, hidentity, hgeneration, hnext, hmax, hactive, runtime, hbyName, hruntime, hobserved⟩ :=
    claimWithOutbound_eq_ok hclaim
  subst hidentity
  have hfresh {current : Lease} (hcurrent : current ∈ leases) (hunreleased : current.unreleased = true) :
      current.fingerprint ≠ guard.identity.fingerprint ∧ current.name ≠ guard.identity.name := by
    obtain ⟨hentry, runtime, hruntime, -⟩ := h.entered current hcurrent hunreleased
    refine ⟨fun heq => ?_, fun heq => ?_⟩
    · exact hfingerprint (heq ▸ Finmap.mem_of_lookup_eq_some hentry)
    · exact hname (heq ▸ Finmap.mem_of_lookup_eq_some hruntime)
  constructor
  case consistent => exact h.consistent.claimWithOutbound hclaim
  case sizes =>
    have hsizes := h.sizes
    rw [len_eq_total, len_eq_total] at hsizes
    rw [hactive, hbyName, len_eq_total, len_eq_total, total_insert hfingerprint, total_insert hname, hsizes]
  case bounded =>
    rw [hactive, hmax, len_eq_total, total_insert hfingerprint, ← len_eq_total]
    omega
  case flags =>
    intro current hcurrent
    obtain hold | hlast := List.mem_append.mp hcurrent
    · exact h.flags current hold
    · obtain rfl := List.mem_singleton.mp hlast
      exact ⟨fun hspawned => hspawned, fun hreleased => hreleased⟩
  case entered =>
    intro current hcurrent hcur
    rw [hactive, hbyName]
    obtain hold | hlast := List.mem_append.mp hcurrent
    · obtain ⟨hne, hne'⟩ := hfresh hold hcur
      rw [Finmap.lookup_insert_of_ne _ hne, Finmap.lookup_insert_of_ne _ hne']
      exact h.entered current hold hcur
    · obtain rfl := List.mem_singleton.mp hlast
      exact ⟨Finmap.lookup_insert _, runtime, Finmap.lookup_insert _, hruntime, hobserved⟩
  case owned =>
    intro fingerprint entry hlookup
    rw [hactive] at hlookup
    by_cases heq : fingerprint = guard.identity.fingerprint
    · exact ⟨_, List.mem_append_right _ (List.mem_singleton.mpr rfl), rfl, heq.symm⟩
    · rw [Finmap.lookup_insert_of_ne _ heq] at hlookup
      obtain ⟨old, hold, hrest⟩ := h.owned fingerprint entry hlookup
      exact ⟨old, List.mem_append_left _ hold, hrest⟩
  case distinct =>
    intro a b one two hone htwo hone' htwo' hne
    obtain hold | ⟨rfl, rfl⟩ := getElem?_concat hone
    · obtain hold' | ⟨rfl, rfl⟩ := getElem?_concat htwo
      · exact h.distinct hold hold' hone' htwo' hne
      · exact hfresh (List.mem_of_getElem? hold) hone'
    · obtain hold' | ⟨rfl, -⟩ := getElem?_concat htwo
      · obtain ⟨hne, hne'⟩ := hfresh (List.mem_of_getElem? hold') htwo'
        exact ⟨hne.symm, hne'.symm⟩
      · exact absurd rfl hne
  case ascending =>
    rw [List.map_append, List.pairwise_append]
    refine ⟨h.ascending, List.pairwise_singleton _ _, fun old hold last hlast => ?_⟩
    obtain ⟨current, hcurrent, rfl⟩ := List.mem_map.mp hold
    obtain rfl := List.mem_singleton.mp hlast
    have hle := UInt64.le_iff_toNat_le.mp (h.reached current hcurrent)
    refine UInt64.lt_iff_toNat_lt.mpr ?_
    change current.generation.toNat < guard.observabilityIdentity.generation.toNat
    omega
  case reached =>
    intro current hcurrent
    rw [hnext]
    obtain hold | hlast := List.mem_append.mp hcurrent
    · have hle := UInt64.le_iff_toNat_le.mp (h.reached current hold)
      refine UInt64.le_iff_toNat_le.mpr ?_
      omega
    · obtain rfl := List.mem_singleton.mp hlast
      exact UInt64.le_refl _

theorem markUnavailable_fields (registry : ClientRegistry) (guard : ControlSessionGuard) :
    (registry.markUnavailable guard).active = registry.active ∧ (registry.markUnavailable guard).maxClients = registry.maxClients ∧
      (registry.markUnavailable guard).nextObservabilityGeneration = registry.nextObservabilityGeneration ∧
      len (registry.markUnavailable guard).byName = len registry.byName ∧
      ∀ name runtime, registry.byName.lookup name = some runtime →
        ∃ runtime', (registry.markUnavailable guard).byName.lookup name = some runtime' ∧ runtime'.identity = runtime.identity ∧
          runtime'.observabilityIdentity = runtime.observabilityIdentity := by
  rw [ClientRegistry.markUnavailable, ClientRegistry.mapRuntime]
  split
  · exact ⟨rfl, rfl, rfl, rfl, fun name runtime hruntime => ⟨runtime, hruntime, rfl, rfl⟩⟩
  · next marked hmarked =>
    refine ⟨rfl, rfl, rfl, ?_, fun name runtime hruntime => ?_⟩
    · rw [len_eq_total, len_eq_total]
      exact Nat.add_right_cancel (total_replace hmarked)
    by_cases hname : name = guard.identity.name
    · subst hname
      obtain rfl := Option.some.inj (hmarked.symm.trans hruntime)
      refine ⟨_, Finmap.lookup_insert _, ?_⟩
      split <;> exact ⟨rfl, rfl⟩
    · exact ⟨runtime, (Finmap.lookup_insert_of_ne _ hname).trans hruntime, rfl, rfl⟩

theorem lookup_markUnavailable_ne {registry : ClientRegistry} {guard : ControlSessionGuard} {name : DeviceName}
    (hne : name ≠ guard.identity.name) : (registry.markUnavailable guard).byName.lookup name = registry.byName.lookup name := by
  rw [ClientRegistry.markUnavailable, ClientRegistry.mapRuntime]
  split
  · rfl
  · exact Finmap.lookup_insert_of_ne _ hne

end GuardSystem

end Rustgo.Registry
