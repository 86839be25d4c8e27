import Rustgo.RegistryRuns

namespace Rustgo.Registry

open Checks Protocol Rendezvous Tables Runs

namespace GuardSystem

variable {s t : GuardSystem} {l : GuardLabel} {i k : Nat} {lease : Lease} {registry : ClientRegistry} {leases : List Lease}

def identities (s : GuardSystem) : List AuthenticatedClient := s.leases.map fun lease => lease.guard.identity

/-- An entry that is shown as available belongs to a guard that is not marked. -/
def Shown (registry : ClientRegistry) (leases : List Lease) : Prop :=
  ∀ lease ∈ leases, lease.unreleased = true → ∀ runtime, registry.byName.lookup lease.name = some runtime →
    runtime.available = true → lease.unavailable = false

/-- A step appends the guard of a claim, or replaces one by itself in another state. -/
theorem step_leases (hstep : Step s l t) :
    (∃ identity outbound protocolVersion nowUnixMillis, l = .claim identity outbound protocolVersion nowUnixMillis ∧
      (t = s ∨ ∃ guard registry, s.registry.claimWithOutbound identity outbound protocolVersion nowUnixMillis = .ok (guard, registry) ∧
        t = ⟨registry, s.leases ++ [⟨guard, 0, false, false, false, false⟩]⟩)) ∨
    ∃ i lease lease', l.lease = some i ∧ s.leases[i]? = some lease ∧ t.leases = s.leases.set i lease' ∧ lease'.guard = lease.guard := by
  have hsame {i : Nat} {lease : Lease} (hlease : s.leases[i]? = some lease) : s.leases = s.leases.set i lease := by
    obtain ⟨hlt, rfl⟩ := List.getElem?_eq_some_iff.mp hlease
    exact (List.set_getElem_self hlt).symm
  cases l with
  | claim identity outbound protocolVersion nowUnixMillis =>
      refine .inl ⟨identity, outbound, protocolVersion, nowUnixMillis, rfl, ?_⟩
      obtain rfl := Option.some.inj hstep
      rw [claim]
      split
      · next guard registry hclaim => exact .inr ⟨guard, registry, hclaim, rfl⟩
      · exact .inl rfl
  | bindListener i =>
      obtain ⟨lease, hlease, -, rfl⟩ := filter_map_eq_some hstep
      exact .inr ⟨i, lease, _, rfl, hlease, rfl, rfl⟩
  | markUnavailable i =>
      obtain ⟨lease, hlease, -, rfl⟩ := filter_map_eq_some hstep
      rw [markUnavailable]
      split
      · exact .inr ⟨i, lease, lease, rfl, hlease, hsame hlease, rfl⟩
      · exact .inr ⟨i, lease, _, rfl, hlease, rfl, rfl⟩
  | finishShutdown i nowUnixMillis =>
      obtain ⟨lease, hlease, -, rfl⟩ := filter_map_eq_some hstep
      rw [finalizeDisconnect]
      split
      · exact .inr ⟨i, lease, lease, rfl, hlease, hsame hlease, rfl⟩
      · exact .inr ⟨i, lease, _, rfl, hlease, rfl, rfl⟩
  | drop i runtime nowUnixMillis =>
      obtain ⟨lease, hlease, -, rfl⟩ := filter_map_eq_some hstep
      rw [drop]
      split
      · exact .inr ⟨i, lease, _, rfl, hlease, rfl, rfl⟩
      · dsimp only
        split
        · exact .inr ⟨i, lease, _, rfl, hlease, rfl, rfl⟩
        · exact .inr ⟨i, lease, _, rfl, hlease, rfl, rfl⟩
  | runSpawned i nowUnixMillis =>
      obtain ⟨lease, hlease, -, rfl⟩ := filter_map_eq_some hstep
      exact .inr ⟨i, lease, _, rfl, hlease, rfl, rfl⟩

theorem map_identity_set {lease' : Lease} (hlease : leases[i]? = some lease) (hguard : lease'.guard = lease.guard) :
    (leases.set i lease').map (fun lease => lease.guard.identity) = leases.map fun lease => lease.guard.identity := by
  obtain ⟨hlt, rfl⟩ := List.getElem?_eq_some_iff.mp hlease
  apply List.ext_getElem
  · rw [List.length_map, List.length_map, List.length_set]
  · intro k hk hk'
    rw [List.getElem_map, List.getElem_map, List.getElem_set]
    split
    · next hik =>
      subst hik
      rw [hguard]
    · rfl

/-- The sessions keep their places, and only a claim adds one. -/
theorem step_identities (hstep : Step s l t) : t.identities = s.identities ∨
    ∃ identity outbound protocolVersion nowUnixMillis, l = .claim identity outbound protocolVersion nowUnixMillis ∧
      t.identities = s.identities ++ [identity] := by
  obtain ⟨identity, outbound, protocolVersion, nowUnixMillis, rfl, rfl | ⟨guard, registry, hclaim, rfl⟩⟩ |
    ⟨i, lease, lease', -, hlease, hleases, hguard⟩ := step_leases hstep
  · exact .inl rfl
  · obtain ⟨-, -, rfl, -⟩ := claimWithOutbound_eq_ok hclaim
    exact .inr ⟨_, outbound, protocolVersion, nowUnixMillis, rfl, List.map_append⟩
  · left
    rw [identities, hleases]
    exact map_identity_set hlease hguard

theorem identities_prefix (hstep : Step s l t) {identity : AuthenticatedClient} (h : s.identities[k]? = some identity) :
    t.identities[k]? = some identity := by
  obtain heq | ⟨_, _, _, _, -, heq⟩ := step_identities hstep
  · rw [heq, h]
  · rw [heq, List.getElem?_append_left (List.getElem?_eq_some_iff.mp h).1, h]

theorem available_markUnavailable {runtime : SessionRuntime} {guard : ControlSessionGuard}
    (hold : registry.byName.lookup guard.identity.name = some runtime)
    (hobserved : runtime.observabilityIdentity = guard.observabilityIdentity) :
    (registry.markUnavailable guard).byName.lookup guard.identity.name = some { runtime with available := false } := by
  rw [ClientRegistry.markUnavailable, ClientRegistry.mapRuntime, hold]
  dsimp only
  rw [if_pos hobserved]
  exact Finmap.lookup_insert _

/-- What the entry of a guard shows after it was marked. -/
theorem Matched.hidden {runtime : SessionRuntime} (h : Matched registry leases) (hlease : leases[i]? = some lease)
    (hunreleased : lease.unreleased = true)
    (hruntime : (registry.markUnavailable lease.guard).byName.lookup lease.name = some runtime) : runtime.available = false := by
  obtain ⟨-, old, hold, -, hobserved⟩ := h.entered lease (List.mem_of_getElem? hlease) hunreleased
  obtain rfl := Option.some.inj ((available_markUnavailable hold hobserved).symm.trans hruntime)
  rfl

/-- The guard that a step acts on, as the step leaves it. -/
theorem step_shown_self {lease' : Lease} (h : Matched s.registry s.leases) (hshown : Shown s.registry s.leases) (hstep : Step s l t)
    (hl : l.lease = some i) (hlease' : t.leases[i]? = some lease') (hunreleased : lease'.unreleased = true) {runtime : SessionRuntime}
    (hruntime : t.registry.byName.lookup lease'.name = some runtime) (havailable : runtime.available = true) :
    lease'.unavailable = false := by
  have hset {lease new : Lease} (hlease : s.leases[i]? = some lease) (hnew : (s.leases.set i new)[i]? = some lease') : lease' = new :=
    (Option.some.inj ((List.getElem?_set_self (List.getElem?_eq_some_iff.mp hlease).1).symm.trans hnew)).symm
  cases l with
  | claim identity outbound protocolVersion nowUnixMillis => cases hl
  | bindListener j =>
      obtain rfl := Option.some.inj hl
      obtain ⟨lease, hlease, -, rfl⟩ := filter_map_eq_some hstep
      obtain rfl := hset hlease hlease'
      exact hshown lease (List.mem_of_getElem? hlease) hunreleased runtime hruntime havailable
  | markUnavailable j =>
      obtain rfl := Option.some.inj hl
      obtain ⟨lease, hlease, -, rfl⟩ := filter_map_eq_some hstep
      rw [markUnavailable] at hlease' hruntime
      split at hlease'
      · next hmarked =>
        rw [if_pos hmarked] at hruntime
        exact hshown lease' (List.mem_of_getElem? hlease') hunreleased runtime hruntime havailable
      · next hmarked =>
        rw [if_neg hmarked] at hruntime
        obtain rfl := hset hlease hlease'
        have hhidden := h.hidden hlease hunreleased hruntime
        rw [havailable] at hhidden
        cases hhidden
  | finishShutdown j nowUnixMillis =>
      obtain rfl := Option.some.inj hl
      obtain ⟨lease, hlease, -, rfl⟩ := filter_map_eq_some hstep
      rw [finalizeDisconnect] at hlease' hruntime
      split at hlease'
      · next hreleased =>
        rw [if_pos hreleased] at hruntime
        exact hshown lease' (List.mem_of_getElem? hlease') hunreleased runtime hruntime havailable
      · next hreleased =>
        obtain rfl := hset hlease hlease'
        cases hreleased ((h.flags lease (List.mem_of_getElem? hlease)).1 hunreleased)
  | drop j atRuntime nowUnixMillis =>
      obtain rfl := Option.some.inj hl
      obtain ⟨lease, hlease, -, rfl⟩ := filter_map_eq_some hstep
      rw [drop] at hlease' hruntime
      split at hlease'
      · next hreleased =>
        rw [if_pos hreleased] at hruntime
        obtain rfl := hset hlease hlease'
        exact hshown lease (List.mem_of_getElem? hlease) hunreleased runtime hruntime havailable
      · next hreleased =>
        rw [if_neg hreleased] at hruntime
        dsimp only at hlease' hruntime
        split at hlease'
        · obtain rfl := hset hlease hlease'
          cases hreleased ((h.flags lease (List.mem_of_getElem? hlease)).1 hunreleased)
        · next hlisteners =>
          rw [if_neg hlisteners] at hruntime
          obtain rfl := hset hlease hlease'
          have hcurrent : lease.unreleased = true := unreleased_of_not_released (Bool.eq_false_iff.mpr hreleased)
          dsimp only at hruntime
          split at hruntime
          · next hmarked =>
            cases hmarked.symm.trans (hshown lease (List.mem_of_getElem? hlease) hcurrent runtime hruntime havailable)
          · have hhidden := h.hidden hlease hcurrent hruntime
            rw [havailable] at hhidden
            cases hhidden
  | runSpawned j nowUnixMillis =>
      obtain rfl := Option.some.inj hl
      obtain ⟨lease, hlease, hspawned, rfl⟩ := filter_map_eq_some hstep
      obtain rfl := hset hlease hlease'
      rw [Lease.unreleased] at hunreleased
      simp [(h.flags lease (List.mem_of_getElem? hlease)).1 hspawned] at hunreleased

theorem step_shown (h : Matched s.registry s.leases) (hshown : Shown s.registry s.leases) (hstep : Step s l t) :
    Shown t.registry t.leases := by
  intro lease' hmem hunreleased runtime hruntime havailable
  obtain ⟨k, hlease'⟩ := List.mem_iff_getElem?.mp hmem
  obtain ⟨identity, outbound, protocolVersion, nowUnixMillis, rfl, rfl | ⟨guard, registry, hclaim, rfl⟩⟩ |
    ⟨i, lease, new, hl, hlease, hleases, -⟩ := step_leases hstep
  · exact hshown lease' hmem hunreleased runtime hruntime havailable
  · obtain ⟨⟨-, hname⟩, -, hidentity, -, -, -, -, claimed, hbyName, -⟩ := claimWithOutbound_eq_ok hclaim
    obtain hold | ⟨-, rfl⟩ := getElem?_concat hlease'
    · have hmem' := List.mem_of_getElem? hold
      obtain ⟨-, old, hlookup, -⟩ := h.entered lease' hmem' hunreleased
      have hne : lease'.name ≠ identity.name := fun heq => hname (heq ▸ Finmap.mem_of_lookup_eq_some hlookup)
      dsimp only at hruntime
      rw [hbyName, Finmap.lookup_insert_of_ne _ hne] at hruntime
      exact hshown lease' hmem' hunreleased runtime hruntime havailable
    · rfl
  · by_cases hik : i = k
    · subst hik
      exact step_shown_self h hshown hstep hl hlease' hunreleased hruntime havailable
    · rw [hleases, List.getElem?_set_ne hik] at hlease'
      obtain ⟨-, hsame⟩ := step_sameEntries h hstep hl hik hlease' hunreleased
      exact hshown lease' (List.mem_of_getElem? hlease') hunreleased runtime (hsame ▸ hruntime) havailable

/-- An identity that is active is that of a guard that is not marked. -/
theorem exists_lease_of_active {identity : AuthenticatedClient} (h : Matched registry leases) (hshown : Shown registry leases)
    (hactive : registry.isActiveSession identity = true) :
    ∃ lease ∈ leases, lease.guard.identity = identity ∧ lease.unavailable = false := by
  obtain ⟨hentry, runtime, hruntime, havailable⟩ := ClientRegistry.isActiveSession_iff.mp hactive
  obtain ⟨lease, hlease, hunreleased, hfingerprint⟩ := h.owned _ _ hentry
  have hown := (h.entered lease hlease hunreleased).1
  rw [hfingerprint, hentry] at hown
  have hentries := Option.some.inj hown
  have hname : lease.name = identity.name := (congrArg ActiveSession.name hentries).symm
  have hsession : lease.guard.identity.sessionId = identity.sessionId := (congrArg ActiveSession.sessionId hentries).symm
  refine ⟨lease, hlease, ?_, hshown lease hlease hunreleased runtime (by rw [hname]; exact hruntime) havailable⟩
  calc lease.guard.identity = ⟨lease.name, lease.fingerprint, lease.guard.identity.sessionId⟩ := rfl
    _ = identity := by rw [hname, hfingerprint, hsession]

end GuardSystem

end Rustgo.Registry
