import Rustgo.RegistryGuards

namespace Rustgo.Registry

open Checks Protocol Rendezvous Tables Runs

namespace GuardSystem

variable {s t : GuardSystem} {l : GuardLabel} {labels : List GuardLabel} {i j : Nat} {lease other : Lease}

/-- The guard is marked, and its entry stays. -/
theorem Matched.markUnavailable {registry : ClientRegistry} {leases : List Lease} {lease' : Lease} (h : Matched registry leases)
    (hlease : leases[i]? = some lease) (hguard : lease'.guard = lease.guard) (hunreleased : lease'.unreleased = lease.unreleased)
    (hflags : (lease'.spawned = true → lease'.released = true) ∧ (lease'.released = true → lease'.unavailable = true)) :
    Matched (registry.markUnavailable lease.guard) (leases.set i lease') := by
  obtain ⟨hactive, hmax, hgeneration, hsizes, hbyName⟩ := markUnavailable_fields registry lease.guard
  exact h.amend hlease hguard hunreleased hflags (h.consistent.markUnavailable lease.guard) hactive hmax hgeneration hsizes hbyName

/-- A guard changes, and the registry does not. -/
theorem Matched.update {registry : ClientRegistry} {leases : List Lease} (h : Matched registry leases) (lease' : Lease)
    (hlease : leases[i]? = some lease) (hguard : lease'.guard = lease.guard) (hunreleased : lease'.unreleased = lease.unreleased)
    (hflags : (lease'.spawned = true → lease'.released = true) ∧ (lease'.released = true → lease'.unavailable = true)) :
    Matched registry (leases.set i lease') :=
  h.amend hlease hguard hunreleased hflags h.consistent rfl rfl rfl rfl fun _ runtime hruntime => ⟨runtime, hruntime, rfl, rfl⟩

theorem unreleased_of_not_released (h : lease.released = false) : lease.unreleased = true := by
  rw [Lease.unreleased, h]
  rfl

/-- The registry at the time of a drop, after the mark. -/
theorem Matched.marked {registry : ClientRegistry} {leases : List Lease} (h : Matched registry leases)
    (hlease : leases[i]? = some lease) :
    Matched (if lease.unavailable then registry else registry.markUnavailable lease.guard)
      (leases.set i { lease with unavailable := true }) := by
  obtain ⟨hspawned, -⟩ := h.flags lease (List.mem_of_getElem? hlease)
  split
  · exact h.update _ hlease rfl rfl ⟨hspawned, fun _ => rfl⟩
  · exact h.markUnavailable hlease rfl rfl ⟨hspawned, fun _ => rfl⟩

theorem drop_matched {runtime : Bool} {nowUnixMillis : UInt64} (h : Matched s.registry s.leases) (hlease : s.leases[i]? = some lease) :
    Matched (s.drop i lease runtime nowUnixMillis).registry (s.drop i lease runtime nowUnixMillis).leases := by
  have hlt : i < s.leases.length := (List.getElem?_eq_some_iff.mp hlease).1
  obtain ⟨hspawned, hunavailable⟩ := h.flags lease (List.mem_of_getElem? hlease)
  cases hreleased : lease.released with
  | true =>
      rw [drop, if_pos hreleased]
      exact h.update _ hlease rfl rfl ⟨hspawned, hunavailable⟩
  | false =>
      have hmarked := h.marked hlease
      have hlease' : (s.leases.set i { lease with unavailable := true })[i]? = some { lease with unavailable := true } :=
        List.getElem?_set_self hlt
      have hunreleased : ({ lease with unavailable := true } : Lease).unreleased = true := unreleased_of_not_released hreleased
      rw [drop, if_neg (by simp [hreleased])]
      dsimp only
      split
      · have hnot : lease.spawned = false := by
          refine Bool.eq_false_iff.mpr fun hs => ?_
          cases hreleased.symm.trans (hspawned hs)
        have hfinal := hmarked.release { lease with
            listeners := 0, unavailable := true, released := true, dropped := true } nowUnixMillis
          hlease' hunreleased rfl (by rw [Lease.unreleased, hnot]; rfl) ⟨fun _ => rfl, fun _ => rfl⟩
        rw [List.set_set] at hfinal
        exact hfinal
      · have hfinal := hmarked.update { lease with
            listeners := 0, unavailable := true, released := true, dropped := true, spawned := true }
          hlease' rfl hunreleased.symm ⟨fun _ => rfl, fun _ => rfl⟩
        rw [List.set_set] at hfinal
        exact hfinal

theorem filter_map_eq_some {p : Lease → Bool} {f : Lease → GuardSystem} (h : (s.leases[i]?.filter p).map f = some t) :
    ∃ lease, s.leases[i]? = some lease ∧ p lease = true ∧ f lease = t := by
  obtain ⟨lease, hlease, rfl⟩ := Option.map_eq_some_iff.mp h
  obtain ⟨hlease, hp⟩ := Option.filter_eq_some_iff.mp hlease
  exact ⟨lease, hlease, hp, rfl⟩

theorem step_matched (h : Matched s.registry s.leases) (hstep : Step s l t) : Matched t.registry t.leases := by
  cases l with
  | claim identity outbound protocolVersion nowUnixMillis =>
      obtain rfl := Option.some.inj hstep
      rw [claim]
      split
      · next hclaim => exact h.claim hclaim
      · exact h
  | bindListener i =>
      obtain ⟨lease, hlease, -, rfl⟩ := filter_map_eq_some hstep
      exact h.update _ hlease rfl rfl (h.flags lease (List.mem_of_getElem? hlease))
  | markUnavailable i =>
      obtain ⟨lease, hlease, -, rfl⟩ := filter_map_eq_some hstep
      obtain ⟨hspawned, -⟩ := h.flags lease (List.mem_of_getElem? hlease)
      rw [markUnavailable]
      split
      · exact h
      · exact h.markUnavailable hlease rfl rfl ⟨hspawned, fun _ => rfl⟩
  | finishShutdown i nowUnixMillis =>
      obtain ⟨lease, hlease, hp, rfl⟩ := filter_map_eq_some hstep
      obtain ⟨-, hunavailable⟩ := Bool.and_eq_true_iff.mp hp
      obtain ⟨hspawned, -⟩ := h.flags lease (List.mem_of_getElem? hlease)
      rw [finalizeDisconnect]
      split
      · exact h
      · next hnot =>
        have hreleased : lease.released = false := Bool.eq_false_iff.mpr hnot
        have hidle : lease.spawned = false := Bool.eq_false_iff.mpr fun hs => hnot (hspawned hs)
        exact h.release _ _ hlease (unreleased_of_not_released hreleased) rfl (by rw [Lease.unreleased, hidle]; rfl)
          ⟨fun _ => rfl, fun _ => hunavailable⟩
  | drop i runtime nowUnixMillis =>
      obtain ⟨lease, hlease, -, rfl⟩ := filter_map_eq_some hstep
      exact drop_matched h hlease
  | runSpawned i nowUnixMillis =>
      obtain ⟨lease, hlease, hspawned, rfl⟩ := filter_map_eq_some hstep
      obtain ⟨hreleased, hunavailable⟩ := h.flags lease (List.mem_of_getElem? hlease)
      exact h.release _ _ hlease (by rw [Lease.unreleased, hspawned, Bool.or_true]) rfl
        (by rw [Lease.unreleased, hreleased hspawned]; rfl) ⟨fun _ => hreleased hspawned, hunavailable⟩

theorem step_maxClients (hstep : Step s l t) : t.registry.maxClients = s.registry.maxClients := by
  have hmark (registry : ClientRegistry) (guard : ControlSessionGuard) :
      (registry.markUnavailable guard).maxClients = registry.maxClients := (markUnavailable_fields registry guard).2.1
  have hfinal (registry : ClientRegistry) (guard : ControlSessionGuard) (nowUnixMillis : UInt64) :
      (registry.finalizeDisconnect guard nowUnixMillis).maxClients = registry.maxClients := by
    rw [ClientRegistry.finalizeDisconnect, ClientRegistry.release]
    split <;> rfl
  cases l with
  | claim identity outbound protocolVersion nowUnixMillis =>
      obtain rfl := Option.some.inj hstep
      rw [claim]
      split
      · next hclaim => exact (claimWithOutbound_eq_ok hclaim).2.2.2.2.2.1
      · rfl
  | bindListener i =>
      obtain ⟨lease, -, -, rfl⟩ := filter_map_eq_some hstep
      rfl
  | markUnavailable i =>
      obtain ⟨lease, -, -, rfl⟩ := filter_map_eq_some hstep
      rw [markUnavailable]
      split
      · rfl
      · exact hmark _ _
  | finishShutdown i nowUnixMillis =>
      obtain ⟨lease, -, -, rfl⟩ := filter_map_eq_some hstep
      rw [finalizeDisconnect]
      split
      · rfl
      · exact hfinal _ _ _
  | drop i runtime nowUnixMillis =>
      obtain ⟨lease, -, -, rfl⟩ := filter_map_eq_some hstep
      have hregistry : (if lease.unavailable then s.registry else s.registry.markUnavailable lease.guard).maxClients =
          s.registry.maxClients := by
        split
        · rfl
        · exact hmark _ _
      rw [drop]
      split
      · rfl
      · dsimp only
        split
        · exact (hfinal _ _ _).trans hregistry
        · exact hregistry
  | runSpawned i nowUnixMillis =>
      obtain ⟨lease, -, -, rfl⟩ := filter_map_eq_some hstep
      exact hfinal _ _ _

/-- The entries that the registry has for a name and a key. -/
def SameEntries (registry registry' : ClientRegistry) (lease : Lease) : Prop :=
  registry'.active.lookup lease.fingerprint = registry.active.lookup lease.fingerprint ∧
    registry'.byName.lookup lease.name = registry.byName.lookup lease.name

theorem SameEntries.trans {r r' r'' : ClientRegistry} (h : SameEntries r r' lease) (h' : SameEntries r' r'' lease) :
    SameEntries r r'' lease :=
  ⟨h'.1.trans h.1, h'.2.trans h.2⟩

theorem sameEntries_markUnavailable {registry : ClientRegistry} {guard : ControlSessionGuard}
    (hname : lease.name ≠ guard.identity.name) : SameEntries registry (registry.markUnavailable guard) lease := by
  refine ⟨?_, lookup_markUnavailable_ne hname⟩
  rw [(markUnavailable_fields registry guard).1]

theorem sameEntries_finalizeDisconnect {registry : ClientRegistry} {guard : ControlSessionGuard} {nowUnixMillis : UInt64}
    (hfingerprint : lease.fingerprint ≠ guard.identity.fingerprint) (hname : lease.name ≠ guard.identity.name) :
    SameEntries registry (registry.finalizeDisconnect guard nowUnixMillis) lease := by
  rw [ClientRegistry.finalizeDisconnect, ClientRegistry.release]
  split
  · exact ⟨Finmap.lookup_erase_ne hfingerprint, Finmap.lookup_erase_ne hname⟩
  · exact ⟨rfl, rfl⟩

/-- Whatever becomes of one guard, the entries of another that is unreleased stay. -/
theorem step_sameEntries (h : Matched s.registry s.leases) (hstep : Step s l t) (hl : l.lease = some i) (hne : i ≠ j)
    (hother : s.leases[j]? = some other) (hunreleased : other.unreleased = true) : SameEntries s.registry t.registry other := by
  have hrefl : SameEntries s.registry s.registry other := ⟨rfl, rfl⟩
  have hmark {lease : Lease} (hlease : s.leases[i]? = some lease) (hcurrent : lease.unavailable = false) :
      SameEntries s.registry (s.registry.markUnavailable lease.guard) other := by
    have hreleased : lease.released = false := by
      refine Bool.eq_false_iff.mpr fun hr => ?_
      cases hcurrent.symm.trans ((h.flags lease (List.mem_of_getElem? hlease)).2 hr)
    exact sameEntries_markUnavailable
      (h.distinct hother hlease hunreleased (unreleased_of_not_released hreleased) hne.symm).2
  have hfinal {lease : Lease} {registry : ClientRegistry} {nowUnixMillis : UInt64} (hlease : s.leases[i]? = some lease)
      (hcurrent : lease.unreleased = true) : SameEntries registry (registry.finalizeDisconnect lease.guard nowUnixMillis) other := by
    obtain ⟨hfingerprint, hname⟩ := h.distinct hother hlease hunreleased hcurrent hne.symm
    exact sameEntries_finalizeDisconnect hfingerprint hname
  cases l with
  | claim identity outbound protocolVersion nowUnixMillis => cases hl
  | bindListener k =>
      obtain ⟨lease, -, -, rfl⟩ := filter_map_eq_some hstep
      exact hrefl
  | markUnavailable k =>
      obtain rfl := Option.some.inj hl
      obtain ⟨lease, hlease, -, rfl⟩ := filter_map_eq_some hstep
      rw [markUnavailable]
      split
      · exact hrefl
      · next hcurrent => exact hmark hlease (Bool.eq_false_iff.mpr hcurrent)
  | finishShutdown k nowUnixMillis =>
      obtain rfl := Option.some.inj hl
      obtain ⟨lease, hlease, -, rfl⟩ := filter_map_eq_some hstep
      rw [finalizeDisconnect]
      split
      · exact hrefl
      · next hreleased => exact hfinal hlease (unreleased_of_not_released (Bool.eq_false_iff.mpr hreleased))
  | drop k runtime nowUnixMillis =>
      obtain rfl := Option.some.inj hl
      obtain ⟨lease, hlease, -, rfl⟩ := filter_map_eq_some hstep
      rw [drop]
      split
      · exact hrefl
      · next hreleased =>
        have hmarked : SameEntries s.registry (if lease.unavailable then s.registry else s.registry.markUnavailable lease.guard)
            other := by
          split
          · exact hrefl
          · next hcurrent => exact hmark hlease (Bool.eq_false_iff.mpr hcurrent)
        dsimp only
        split
        · exact hmarked.trans (hfinal hlease (unreleased_of_not_released (Bool.eq_false_iff.mpr hreleased)))
        · exact hmarked
  | runSpawned k nowUnixMillis =>
      obtain rfl := Option.some.inj hl
      obtain ⟨lease, hlease, hspawned, rfl⟩ := filter_map_eq_some hstep
      exact hfinal hlease (by rw [Lease.unreleased, hspawned, Bool.or_true])

theorem run_matched {maxClients : Nat} (hrun : Run Step (new maxClients) labels s) :
    Matched s.registry s.leases ∧ s.registry.maxClients = maxClients :=
  hrun.invariant (P := fun s => Matched s.registry s.leases ∧ s.registry.maxClients = maxClients)
    (fun _ _ _ h hstep => ⟨step_matched h.1 hstep, (step_maxClients hstep).trans h.2⟩) ⟨new_matched maxClients, rfl⟩

/-- Both maps hold the sessions of the unreleased guards and no others, and a
guard only ever takes its own entries out of them. -/
theorem registry_maps_agree {maxClients : Nat} (hrun : Run Step (new maxClients) labels s) :
    (∀ fingerprint entry, s.registry.active.lookup fingerprint = some entry ↔
      ∃ lease ∈ s.leases, lease.unreleased = true ∧ lease.fingerprint = fingerprint ∧ lease.entry = entry) ∧
    (∀ name, (s.registry.byName.lookup name).isSome ↔ ∃ lease ∈ s.leases, lease.unreleased = true ∧ lease.name = name) ∧
    (∀ lease ∈ s.leases, lease.unreleased = true → ∃ runtime, s.registry.byName.lookup lease.name = some runtime ∧
      runtime.identity = lease.guard.identity ∧ runtime.observabilityIdentity = lease.guard.observabilityIdentity) ∧
    (∀ (i j : Nat) (lease other : Lease), s.leases[i]? = some lease → s.leases[j]? = some other → lease.unreleased = true → other.unreleased = true →
      lease.fingerprint = other.fingerprint ∨ lease.name = other.name → i = j) ∧
    len s.registry.active ≤ maxClients ∧ len s.registry.byName ≤ maxClients ∧
    (∀ (l : GuardLabel) (t : GuardSystem) (i j : Nat) (other : Lease), Step s l t → l.lease = some i → i ≠ j → s.leases[j]? = some other → other.unreleased = true →
      t.registry.active.lookup other.fingerprint = s.registry.active.lookup other.fingerprint ∧
      t.registry.byName.lookup other.name = s.registry.byName.lookup other.name) ∧
    (s.leases.map Lease.generation).Pairwise (· < ·) := by
  obtain ⟨h, hmax⟩ := run_matched hrun
  have hbounded := h.bounded
  rw [hmax] at hbounded
  refine ⟨fun fingerprint entry => ⟨fun hlookup => ?_, ?_⟩, fun name => ⟨fun hsome => ?_, ?_⟩, ?_, ?_, hbounded,
    h.sizes.trans_le hbounded, ?_, h.ascending⟩
  · obtain ⟨lease, hlease, hunreleased, rfl⟩ := h.owned fingerprint entry hlookup
    exact ⟨lease, hlease, hunreleased, rfl, Option.some.inj ((h.entered lease hlease hunreleased).1.symm.trans hlookup)⟩
  · rintro ⟨lease, hlease, hunreleased, rfl, rfl⟩
    exact (h.entered lease hlease hunreleased).1
  · obtain ⟨runtime, hruntime⟩ := Option.isSome_iff_exists.mp hsome
    obtain ⟨rfl, hactive⟩ := h.consistent.named hruntime
    obtain ⟨lease, hlease, hunreleased, hfingerprint⟩ := h.owned _ _ hactive
    refine ⟨lease, hlease, hunreleased, ?_⟩
    have hentry := (h.entered lease hlease hunreleased).1
    rw [hfingerprint, hactive] at hentry
    exact congrArg ActiveSession.name (Option.some.inj hentry).symm
  · rintro ⟨lease, hlease, hunreleased, rfl⟩
    obtain ⟨-, runtime, hruntime, -⟩ := h.entered lease hlease hunreleased
    rw [hruntime]
    rfl
  · exact fun lease hlease hunreleased => (h.entered lease hlease hunreleased).2
  · exact fun i j lease other hlease hother hunreleased hunreleased' heq => h.unique hlease hother hunreleased hunreleased' heq
  · exact fun l t i j other hstep hl hne hother hunreleased => step_sameEntries h hstep hl hne hother hunreleased

theorem sampleDevice_bounded : "a".utf8ByteSize ≤ maxDeviceNameBytes := by decide

/-- One device that connects, is dropped with a listener, cannot connect again
before the listener is gone, and then does. -/
def sampleReconnect : List GuardLabel :=
  let claim (session : UInt8) (now : UInt64) : GuardLabel :=
    .claim ⟨⟨"a", sampleDevice_bounded⟩, "k", [session]⟩ (.channel 4) ⟨1, 0⟩ now
  [claim 1 1, .bindListener 0, .drop 0 true 2, claim 2 3, .runSpawned 0 4, claim 2 5]

theorem registry_maps_agree_reconnect : ∃ s, Run Step (new 2) sampleReconnect s ∧
    s.leases.map (fun lease => (lease.unreleased, lease.guard.identity.sessionId)) = [(false, [1]), (true, [2])] ∧
    len s.registry.active ≤ 2 ∧ (s.leases.map Lease.generation).Pairwise (· < ·) := by
  obtain ⟨s, hrun, hleases⟩ := run_of_exec_any
    (P := fun s : GuardSystem =>
      s.leases.map (fun lease => (lease.unreleased, lease.guard.identity.sessionId)) = [(false, [1]), (true, [2])])
    (fun _ _ _ h => h) (show (exec next (new 2) sampleReconnect).any _ = true by decide +kernel)
  obtain ⟨-, -, -, -, hactive, -, -, hgenerations⟩ := registry_maps_agree hrun
  exact ⟨s, hrun, hleases, hactive, hgenerations⟩

end GuardSystem

end Rustgo.Registry
