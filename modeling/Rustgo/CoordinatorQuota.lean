import Rustgo.CoordinatorRuns
import Rustgo.CoordinatorSessions

namespace Rustgo.Coordinator

open Checks Protocol Registry Rendezvous Tables RendezvousCoordinator CoordinatorState Runs

def SessionRecord.Names (record : SessionRecord) (device : DeviceName) : Prop :=
  record.devices.1 = device ∨ record.devices.2 = device

instance (record : SessionRecord) (device : DeviceName) : Decidable (record.Names device) :=
  inferInstanceAs (Decidable (_ ∨ _))

def naming (device : DeviceName) (_ : SessionId) (record : SessionRecord) : Nat :=
  if record.Names device then 1 else 0

def CoordinatorState.deviceCount (s : CoordinatorState) (device : DeviceName) : Nat :=
  (s.deviceCounts.lookup device).getD 0

/-- The records, the counts and the expiry heap tell the same, within the limits. -/
structure Quota (c : RendezvousCoordinator) (s : CoordinatorState) : Prop where
  counts : ∀ device, s.deviceCount device = total (naming device) s.sessions
  nodup : s.expiry.items.Nodup
  heap : ∀ entry, entry ∈ s.expiry.items ↔
    ∃ record, s.sessions.lookup entry.sessionId = some record ∧ record.expiresUnixSecs = entry.expiresUnixSecs
  sessions_le : len s.sessions ≤ c.limits.maxSessions
  device_le : ∀ device, s.deviceCount device ≤ c.limits.maxSessionsPerDevice
  distinct : ∀ {id record}, s.sessions.lookup id = some record → record.devices.1 ≠ record.devices.2

variable {c : RendezvousCoordinator} {timely : Prop} {s s' : Server} {state : CoordinatorState}
  {counts : Table DeviceName Nat} {device : DeviceName} {record record' : SessionRecord} {sessionId : SessionId}
  {now : Moment} {op : Operation}

section Counts

theorem lookup_incrementDeviceCount (x : DeviceName) :
    ((incrementDeviceCount counts device).lookup x).getD 0 =
      (counts.lookup x).getD 0 + if x = device then 1 else 0 := by
  by_cases hx : x = device
  · rw [hx, incrementDeviceCount, Finmap.lookup_insert, if_pos rfl, Option.getD_some]
  · rw [incrementDeviceCount, Finmap.lookup_insert_of_ne _ hx, if_neg hx, Nat.add_zero]

theorem decrementDeviceCount_eq (h : 0 < (counts.lookup device).getD 0) :
    ∃ counts', decrementDeviceCount counts device = some counts' ∧
      ∀ x, (counts'.lookup x).getD 0 = (counts.lookup x).getD 0 - if x = device then 1 else 0 := by
  cases hl : counts.lookup device with
  | none => simp [hl] at h
  | some count =>
      cases count with
      | zero => simp [hl] at h
      | succ count =>
          simp only [decrementDeviceCount, hl]
          refine ⟨_, rfl, ?_⟩
          intro x
          by_cases hx : x = device
          · subst hx
            split
            · next hz => simp [hl, hz]
            · simp [hl]
          · split
            · rw [Finmap.lookup_erase_ne hx, Nat.sub_zero]
            · rw [Finmap.lookup_insert_of_ne _ hx, Nat.sub_zero]

theorem naming_eq (hne : record.devices.1 ≠ record.devices.2) (x : DeviceName) :
    naming x sessionId record =
      (if x = record.devices.1 then 1 else 0) + if x = record.devices.2 then 1 else 0 := by
  unfold naming SessionRecord.Names
  by_cases h1 : x = record.devices.1
  · have h2 : x ≠ record.devices.2 := by
      intro h2
      exact hne (h1.symm.trans h2)
    simp [h1, hne]
  · by_cases h2 : x = record.devices.2
    · simp [h2, Ne.symm hne]
    · simp [h1, h2, Ne.symm h1, Ne.symm h2]

theorem decrementRecordCounts_eq (hne : record.devices.1 ≠ record.devices.2)
    (h : ∀ device, naming device sessionId record ≤ (counts.lookup device).getD 0) :
    ∃ counts', decrementRecordCounts counts record = some counts' ∧
      ∀ x, (counts'.lookup x).getD 0 = (counts.lookup x).getD 0 - naming x sessionId record := by
  have hfirst : 0 < (counts.lookup record.devices.1).getD 0 := by
    have h1 := h record.devices.1
    rw [naming_eq hne, if_pos rfl, if_neg hne] at h1
    omega
  obtain ⟨counts₁, hcounts₁, hlookup₁⟩ := decrementDeviceCount_eq hfirst
  have hsecond : 0 < (counts₁.lookup record.devices.2).getD 0 := by
    have h2 := h record.devices.2
    rw [naming_eq hne, if_pos rfl, if_neg hne.symm] at h2
    rw [hlookup₁, if_neg hne.symm]
    omega
  obtain ⟨counts₂, hcounts₂, hlookup₂⟩ := decrementDeviceCount_eq hsecond
  refine ⟨counts₂, by simp only [decrementRecordCounts, hcounts₁, Option.bind_eq_bind, Option.bind_some, hcounts₂], ?_⟩
  intro x
  rw [hlookup₂, hlookup₁, naming_eq hne]
  omega

end Counts

theorem quota_default : Quota c .default where
  counts _ := rfl
  nodup := List.nodup_nil
  heap entry := by simp [CoordinatorState.default]
  sessions_le := Nat.zero_le _
  device_le _ := Nat.zero_le _
  distinct h := absurd h (by simp [CoordinatorState.default])

/-- A record may be replaced by one of the same devices and expiry. -/
theorem Quota.replace (h : Quota c state) (hl : state.sessions.lookup sessionId = some record)
    (hd : record'.devices = record.devices) (he : record'.expiresUnixSecs = record.expiresUnixSecs) :
    Quota c { state with sessions := state.sessions.insert sessionId record' } := by
  have hnaming (device) : total (naming device) (state.sessions.insert sessionId record') =
      total (naming device) state.sessions := by
    have hreplace := total_replace (f := naming device) (w := record') hl
    have hnames : record'.Names device ↔ record.Names device := by
      simp only [SessionRecord.Names, hd]
    have hsame : naming device sessionId record' = naming device sessionId record := if_congr hnames rfl rfl
    omega
  have hlen : len (state.sessions.insert sessionId record') = len state.sessions := by
    have hreplace := total_replace (f := fun _ _ => 1) (w := record') hl
    rw [len_eq_total, len_eq_total]
    omega
  exact {
    counts := fun device => (h.counts device).trans (hnaming device).symm
    nodup := h.nodup
    heap := by
      intro entry
      rw [h.heap entry]
      by_cases hid : entry.sessionId = sessionId
      · rw [hid, hl, Finmap.lookup_insert]
        simp [he]
      · rw [Finmap.lookup_insert_of_ne _ hid]
    sessions_le := hlen.le.trans h.sessions_le
    device_le := h.device_le
    distinct := by
      intro id other hother
      by_cases hid : id = sessionId
      · subst hid
        obtain rfl := Option.some.inj ((Finmap.lookup_insert _).symm.trans hother)
        rw [hd]
        exact h.distinct hl
      · rw [Finmap.lookup_insert_of_ne _ hid] at hother
        exact h.distinct hother }

theorem Quota.put {session session' : StoredSession} (h : Quota c state)
    (hl : state.activeSession sessionId = some session) (hk : Keeps session session') :
    Quota c (state.putSession sessionId session') := by
  apply h.replace (activeSession_eq_some.mp hl)
  · simp only [SessionRecord.devices, hk.consumer, hk.provider]
  · exact hk.expires

theorem Quota.entomb {session : StoredSession} (h : Quota c state)
    (hl : state.activeSession sessionId = some session) : Quota c (state.tombstoneSession sessionId).1 := by
  have hlookup := activeSession_eq_some.mp hl
  simp only [tombstoneSession, hlookup]
  exact h.replace hlookup rfl rfl

theorem Quota.opened {session : StoredSession} (h : Quota c state)
    (habsent : session.metadata.sessionId ∉ state.sessions)
    (hne : session.consumer.name ≠ session.provider.name) (hlen : len state.sessions < c.limits.maxSessions)
    (hconsumer : state.deviceCount session.consumer.name < c.limits.maxSessionsPerDevice)
    (hprovider : state.deviceCount session.provider.name < c.limits.maxSessionsPerDevice) :
    Quota c (openSession state session) := by
  have hcount (device) : (openSession state session).deviceCount device =
      state.deviceCount device + naming device session.metadata.sessionId (.active session) := by
    have hactive : (SessionRecord.active session).devices.1 ≠ (SessionRecord.active session).devices.2 := hne
    rw [naming_eq hactive, deviceCount, openSession, lookup_incrementDeviceCount, lookup_incrementDeviceCount]
    exact Nat.add_assoc _ _ _
  exact {
    counts := by
      intro device
      rw [hcount, h.counts, openSession, total_insert habsent, Nat.add_comm]
    nodup := by
      apply MinHeap.nodup_push _ h.nodup
      intro hmem
      obtain ⟨record, hrecord, _⟩ := (h.heap _).mp hmem
      exact habsent (Finmap.mem_of_lookup_eq_some hrecord)
    heap := by
      intro entry
      rw [openSession, MinHeap.mem_push, h.heap entry]
      by_cases hid : entry.sessionId = session.metadata.sessionId
      · have hnone : state.sessions.lookup session.metadata.sessionId = none := Finmap.lookup_eq_none.mpr habsent
        rw [hid, Finmap.lookup_insert, hnone]
        cases entry
        simp only [ExpiryEntry.mk.injEq]
        constructor
        · rintro (⟨rfl, _⟩ | ⟨_, hnone, _⟩)
          · exact ⟨_, rfl, rfl⟩
          · exact nomatch hnone
        · rintro ⟨record, hrecord, hexp⟩
          obtain rfl := Option.some.inj hrecord
          exact .inl ⟨hexp.symm, hid⟩
      · rw [Finmap.lookup_insert_of_ne _ hid]
        constructor
        · rintro (rfl | h)
          · exact absurd rfl hid
          · exact h
        · exact .inr
    sessions_le := by
      rw [len_eq_total, openSession, total_insert habsent, ← len_eq_total]
      omega
    device_le := by
      intro device
      rw [hcount]
      rw [naming]
      split
      · next hnames =>
        rcases hnames with rfl | rfl
        · exact hconsumer
        · exact hprovider
      · exact h.device_le device
    distinct := by
      intro id record hrecord
      by_cases hid : id = session.metadata.sessionId
      · subst hid
        obtain rfl := Option.some.inj ((Finmap.lookup_insert _).symm.trans hrecord)
        exact hne
      · rw [openSession, Finmap.lookup_insert_of_ne _ hid] at hrecord
        exact h.distinct hrecord }

theorem Quota.naming_le (h : Quota c state) (hl : state.sessions.lookup sessionId = some record)
    (device : DeviceName) : naming device sessionId record ≤ (state.deviceCounts.lookup device).getD 0 := by
  have hcount := h.counts device
  rw [deviceCount] at hcount
  rw [hcount]
  exact le_total _ hl

/-- The first entry of the heap belongs to a record. -/
theorem Quota.due (h : Quota c state) {next : ExpiryEntry} (hp : state.expiry.peek = some next) :
    ∃ record, state.sessions.lookup next.sessionId = some record ∧
      record.expiresUnixSecs = next.expiresUnixSecs := by
  apply (h.heap next).mp
  rw [MinHeap.items_of_peek hp]
  exact List.mem_cons_self

theorem Quota.purged (h : Quota c state) {next : ExpiryEntry} (hp : state.expiry.peek = some next)
    (hl : state.sessions.lookup next.sessionId = some record)
    (he : record.expiresUnixSecs = next.expiresUnixSecs)
    (hd : decrementRecordCounts state.deviceCounts record = some counts) :
    Quota c ⟨state.sessions.erase next.sessionId, counts, state.expiry.pop⟩ := by
  obtain ⟨counts', hcounts', hlookup⟩ := decrementRecordCounts_eq (h.distinct hl) (h.naming_le hl)
  obtain rfl : counts = counts' := Option.some.inj (hd.symm.trans hcounts')
  have hitems := MinHeap.items_of_peek hp
  have hnodup := h.nodup
  rw [hitems, List.nodup_cons] at hnodup
  have hcount (device) : (counts.lookup device).getD 0 =
      total (naming device) (state.sessions.erase next.sessionId) := by
    have htotal := total_erase (f := naming device) hl
    have hold := h.counts device
    rw [deviceCount] at hold
    rw [hlookup, hold]
    omega
  exact {
    counts := hcount
    nodup := hnodup.2
    heap := by
      intro entry
      have hentry := h.heap entry
      rw [hitems, List.mem_cons] at hentry
      by_cases hid : entry.sessionId = next.sessionId
      · rw [hid, Finmap.lookup_erase]
        constructor
        · intro hmem
          obtain ⟨record', hrecord', hexp⟩ := hentry.mp (.inr hmem)
          rw [hid, hl] at hrecord'
          obtain rfl := Option.some.inj hrecord'
          have heq : entry = next := by
            cases entry
            cases next
            simp only at hid hexp he
            rw [hid, ← hexp, he]
          exact absurd (heq ▸ hmem) hnodup.1
        · rintro ⟨record', hrecord', _⟩
          exact nomatch hrecord'
      · rw [Finmap.lookup_erase_ne hid, ← hentry]
        constructor
        · exact .inr
        · rintro (rfl | hmem)
          · exact absurd rfl hid
          · exact hmem
    sessions_le := by
      have hlen := total_erase (f := fun _ _ => 1) hl
      have hmax := h.sessions_le
      change len (state.sessions.erase next.sessionId) ≤ _
      rw [len_eq_total] at hmax ⊢
      omega
    device_le := by
      intro device
      have hmax := h.device_le device
      rw [deviceCount] at hmax ⊢
      rw [hlookup]
      omega
    distinct := by
      intro id record' hrecord'
      by_cases hid : id = next.sessionId
      · rw [hid, Finmap.lookup_erase] at hrecord'
        exact nomatch hrecord'
      · rw [Finmap.lookup_erase_ne hid] at hrecord'
        exact h.distinct hrecord' }

/-- The registry is consistent and the sessions are booked. -/
structure Booked (c : RendezvousCoordinator) (s : Server) : Prop where
  registry : s.registry.Consistent
  quota : Quota c s.state

theorem Booked.change (h : Booked c s) (hs : Change c timely s s') : Booked c s' := by
  refine ⟨registry_consistent_change h.registry hs, ?_⟩
  cases hs with
  | registry r hr => exact h.quota
  | @opened now authenticated envelope plan hplan =>
      have hr := requestPlan_eq_ok hplan
      obtain ⟨active, hactive, hprovider⟩ := hr.active
      obtain ⟨runtime, hruntime, _, rfl⟩ := ClientRegistry.activeControlSession_eq_some hactive
      have hname : plan.provider.name = envelope.target := by
        rw [hprovider]
        exact (h.registry.named hruntime).1
      have hne : plan.consumer.name ≠ plan.provider.name := by
        rw [hr.consumer, hname]
        exact hr.other.symm
      exact h.quota.opened hr.absent hne hr.room.1 hr.room.2.1 hr.room.2.2
  | decided hplan => exact h.quota.put (decisionPlan_eq_ok hplan).session decidedSession_keeps
  | forwarded hplan => exact h.quota.put (forwardPlan_eq_ok hplan).session (forwardedSession_keeps _ _ _ _ _)
  | @closed now authenticated envelope plan permit hplan hp =>
      have hput : Quota c (s.state.putSession envelope.sessionId { plan.session with state := plan.next }) :=
        h.quota.put (closePlan_eq_ok hplan).session ⟨rfl, rfl, rfl, rfl⟩
      exact hput.entomb (activeSession_eq_some.mpr (Finmap.lookup_insert _))
  | entombed hactive => exact h.quota.entomb hactive
  | admitted now frame hactive => exact h.quota.put hactive ⟨rfl, rfl, rfl, rfl⟩
  | relayed hactive => exact h.quota.put hactive relayedSession_keeps
  | flushed now hactive => exact h.quota.put hactive flushSession_core.keeps
  | discarded hpeek hno =>
      obtain ⟨record, hrecord, hexp⟩ := h.quota.due hpeek
      exact absurd hexp (hno record hrecord)
  | purged hpeek hrecord hexp hcounts => exact h.quota.purged hpeek hrecord hexp hcounts

theorem booked_new (maxClients : Nat) : Booked c (.new maxClients) :=
  ⟨ClientRegistry.consistent_new maxClients, quota_default⟩

theorem booked_run {maxClients : Nat} {ops : List Operation} (h : Run (Step c) (.new maxClients) ops s) : Booked c s :=
  run_invariant (fun _ _ => Booked.change) h (booked_new maxClients)

section Returns

theorem Quota.expireLoop_returns (h : Quota c state) (bound : UInt64) (n : Nat) :
    ∃ p, expireLoop bound n state = some p := by
  induction n generalizing state with
  | zero => exact ⟨_, rfl⟩
  | succ n ih =>
      cases hpeek : state.expiry.peek with
      | none => exact ⟨([], state), by simp only [expireLoop, hpeek]⟩
      | some next =>
          by_cases hlater : bound < next.expiresUnixSecs
          · exact ⟨([], state), by simp only [expireLoop, hpeek, if_pos hlater]⟩
          · obtain ⟨record, hrecord, hexp⟩ := h.due hpeek
            obtain ⟨counts, hcounts, _⟩ := decrementRecordCounts_eq (h.distinct hrecord) (h.naming_le hrecord)
            obtain ⟨⟨removed, rest⟩, hrest⟩ := ih (h.purged hpeek hrecord hexp hcounts)
            refine ⟨(record.active?.toList ++ removed, rest), ?_⟩
            simp only [expireLoop, hpeek, if_neg hlater, hrecord, if_pos hexp, hcounts, hrest, Option.bind_eq_bind,
              Option.bind_some, Option.pure_def]

theorem Quota.expireSessionsBatch_returns (h : Quota c s.state) (now : Moment) :
    ∃ t, c.expireSessionsBatch now s = some (.ok (), t) := by
  obtain ⟨⟨removed, state⟩, hloop⟩ := h.expireLoop_returns now.unixSecs expiryMaintenanceBatch
  refine ⟨{ s with state, registry := removed.foldl (c.expireOne now) s.registry }, ?_⟩
  simp only [expireSessionsBatch, Call.bind_apply, Call.attempt, hloop, Option.bind_eq_bind, Option.bind_some,
    Option.pure_def, Option.map_some, Call.update_apply]

theorem sendGrant_returns (session : StoredSession) (grant : Option PunchGrant) :
    ∃ r, sendGrant session grant s = some r := by
  cases grant with
  | none => exact ⟨_, rfl⟩
  | some grant => exact Call.read_bind_returns fun p _ => Call.read_bind_returns fun q _ => ⟨_, rfl⟩

theorem relayFrame_returns {authenticated : ControlSessionGuard} {frame : PeerRelayFrame} (session : StoredSession) :
    ∃ r, relayFrame now authenticated frame session s = some r := by
  apply Call.read_bind_returns
  intro target _
  simp only [Call.update_bind]
  exact Call.read_bind_returns fun _ _ => Call.read_bind_returns fun _ _ => Call.read_bind_returns fun _ _ => ⟨_, rfl⟩

/-- No operation underflows a count. -/
theorem Quota.perform_returns (h : Quota c s.state) (op : Operation) : ∃ r, perform c op s = some r := by
  cases op with
  | request now authenticated envelope =>
      rw [perform, Call.bind_apply]
      obtain ⟨⟨result, t⟩, hr⟩ : ∃ r, c.request now authenticated envelope s = some r :=
        Call.read_bind_returns fun _ _ => ⟨_, rfl⟩
      rw [hr]
      cases result <;> exact ⟨_, rfl⟩
  | providerDecision now authenticated envelope =>
      refine Call.read_bind_returns fun plan _ => Call.read_bind_returns fun permit _ => ?_
      cases plan.decision.isAccepted <;> exact ⟨_, rfl⟩
  | forwardEnvelope now token authenticated envelope =>
      exact Call.read_bind_returns fun plan _ => Call.read_bind_returns fun permit _ => sendGrant_returns _ _
  | closeSession now authenticated envelope =>
      exact Call.read_bind_returns fun plan _ => Call.read_bind_returns fun permit _ => ⟨_, rfl⟩
  | forwardRelayFrame now authenticated frame =>
      refine Call.read_bind_returns fun _ _ => ?_
      obtain ⟨t, ht⟩ := h.expireSessionsBatch_returns now
      rw [Call.bind_of_ok ht]
      refine Call.read_bind_returns fun session _ => ?_
      cases session with
      | none => exact ⟨_, rfl⟩
      | some session => exact relayFrame_returns session
  | expireNow now order =>
      obtain ⟨t, ht⟩ := h.expireSessionsBatch_returns now
      rw [perform, expireNow, Call.bind_of_ok ht]
      exact ⟨_, rfl⟩
  | removeDevice | claim | markUnavailable | finalizeDisconnect | enqueue | receive | closeOutbound
  | installObservabilitySink => exact ⟨_, rfl⟩

end Returns

theorem eq_singleton_of_nodup {α : Type} {l : List α} {a : α} (hn : l.Nodup) (h : ∀ x, x ∈ l ↔ x = a) : l = [a] := by
  apply List.perm_singleton.mp
  rw [List.perm_ext_iff_of_nodup hn (List.nodup_singleton a)]
  simpa using h

theorem Quota.filter_expiry (h : Quota c state) (hl : state.sessions.lookup sessionId = some record) :
    state.expiry.items.filter (fun entry => entry.sessionId = sessionId) =
      [⟨record.expiresUnixSecs, sessionId⟩] := by
  apply eq_singleton_of_nodup (h.nodup.filter _)
  rintro ⟨expires, id⟩
  rw [List.mem_filter, h.heap]
  simp only [decide_eq_true_eq, ExpiryEntry.mk.injEq]
  constructor
  · rintro ⟨⟨record', hrecord', rfl⟩, rfl⟩
    obtain rfl := Option.some.inj (hl.symm.trans hrecord')
    exact ⟨rfl, rfl⟩
  · rintro ⟨rfl, rfl⟩
    exact ⟨⟨record, hl, rfl⟩, rfl⟩

/-- In every run, the counts and the heap account for exactly the records,
the records stay within the limits, and no operation underflows. -/
theorem coordinator_bookkeeping {maxClients : Nat} {ops : List Operation}
    (h : Run (Step c) (.new maxClients) ops s) :
    (∀ device, (s.state.deviceCounts.lookup device).getD 0 = total (naming device) s.state.sessions) ∧
    (∀ id record, s.state.sessions.lookup id = some record →
      s.state.expiry.items.filter (fun entry => entry.sessionId = id) = [⟨record.expiresUnixSecs, id⟩] ∧
        record.devices.1 ≠ record.devices.2) ∧
    (∀ entry ∈ s.state.expiry.items, entry.sessionId ∈ s.state.sessions) ∧
    len s.state.sessions ≤ c.limits.maxSessions ∧
    (∀ device, total (naming device) s.state.sessions ≤ c.limits.maxSessionsPerDevice) ∧
    ∀ op, ∃ result s', perform c op s = some (result, s') := by
  have hquota : Quota c s.state := (booked_run h).quota
  refine ⟨hquota.counts, ?_, ?_, hquota.sessions_le, ?_, ?_⟩
  · intro id record hrecord
    exact ⟨hquota.filter_expiry hrecord, hquota.distinct hrecord⟩
  · intro entry hentry
    obtain ⟨record, hrecord, _⟩ := (hquota.heap entry).mp hentry
    exact Finmap.mem_of_lookup_eq_some hrecord
  · intro device
    rw [← hquota.counts device]
    exact hquota.device_le device
  · intro op
    obtain ⟨⟨result, s'⟩, hr⟩ := hquota.perform_returns op
    exact ⟨result, s', hr⟩

/-- One session is accepted and closed, then another is accepted. -/
def sampleClosed : List Operation :=
  sampleConnect ++ sampleAccepted (sampleId 1) deviceA deviceB ++
    [.closeSession (sampleMoment 20) deviceA
      (sampleEnvelope (sampleId 1) deviceA deviceB 3 1 CandidateGeneration.one_ne_zero (.close ⟨none⟩))] ++
    sampleAccepted (sampleId 2) deviceC deviceA ++ [.expireNow (sampleMoment 30) [sampleId 1, sampleId 2]]

theorem coordinator_bookkeeping_after_close : ∃ s, Run (Step sampleCoordinator) (.new 8) sampleClosed s ∧
    len s.state.sessions = 2 ∧ total (naming deviceA.identity.name) s.state.sessions = 2 ∧
      total (naming deviceB.identity.name) s.state.sessions = 1 := by
  obtain ⟨s, hrun, hlen, hdeviceA, hdeviceB⟩ := run_of_exec_any (P := fun s => len s.state.sessions = 2 ∧
    s.state.deviceCounts.lookup deviceA.identity.name = some 2 ∧
    s.state.deviceCounts.lookup deviceB.identity.name = some 1) (fun _ _ _ => step_of_next)
    (show (exec (next sampleCoordinator) (.new 8) sampleClosed).any _ = true by decide +kernel)
  have hcounts := (coordinator_bookkeeping hrun).1
  refine ⟨s, hrun, hlen, ?_, ?_⟩
  · rw [← hcounts, hdeviceA]
    rfl
  · rw [← hcounts, hdeviceB]
    rfl

end Rustgo.Coordinator
