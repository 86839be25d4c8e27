import Rustgo.CoordinatorHistory

namespace Rustgo.Coordinator

open Checks Protocol Registry Rendezvous Tables RendezvousCoordinator CoordinatorState Runs

variable {c : RendezvousCoordinator} {s s' : Server} {id : SessionId} {record : SessionRecord}
  {state state' : CoordinatorState} {removed : List StoredSession} {bound : UInt64} {n : Nat} {now : Moment}

section Batch

theorem Quota.mem_expiry (h : Quota c state) (hl : state.sessions.lookup id = some record) :
    ⟨record.expiresUnixSecs, id⟩ ∈ state.expiry.items := (h.heap _).mpr ⟨record, hl, rfl⟩

/-- The first entry of the heap is not ahead of itself. -/
theorem Quota.peek_lt (h : Quota c state) (hl : state.sessions.lookup id = some record) {next : ExpiryEntry}
    (hpeek : state.expiry.peek = some next) (hne : id ≠ next.sessionId) : next < ⟨record.expiresUnixSecs, id⟩ := by
  apply lt_of_le_of_ne (MinHeap.peek_le hpeek (h.mem_expiry hl))
  rintro rfl
  exact hne rfl

/-- One round of the loop: it ends, or purges the first record of the heap. -/
theorem Quota.expireLoop_cases (h : Quota c state) (hloop : expireLoop bound (n + 1) state = some (removed, state')) :
    (removed = [] ∧ state' = state ∧ ∀ next, state.expiry.peek = some next → bound < next.expiresUnixSecs) ∨
      ∃ next record counts rest, state.expiry.peek = some next ∧
        state.sessions.lookup next.sessionId = some record ∧ removed = record.active?.toList ++ rest ∧
        Quota c ⟨state.sessions.erase next.sessionId, counts, state.expiry.pop⟩ ∧
        expireLoop bound n ⟨state.sessions.erase next.sessionId, counts, state.expiry.pop⟩ = some (rest, state') := by
  cases hpeek : state.expiry.peek with
  | none =>
      simp only [expireLoop, hpeek, Option.some.injEq, Prod.mk.injEq] at hloop
      exact .inl ⟨hloop.1.symm, hloop.2.symm, fun _ hnext => by cases hnext⟩
  | some next =>
      by_cases hlater : bound < next.expiresUnixSecs
      · simp only [expireLoop, hpeek, if_pos hlater, Option.some.injEq, Prod.mk.injEq] at hloop
        refine .inl ⟨hloop.1.symm, hloop.2.symm, ?_⟩
        intro next' hnext
        obtain rfl := Option.some.inj hnext
        exact hlater
      · obtain ⟨record, hrecord, hexp⟩ := h.due hpeek
        obtain ⟨counts, hcounts, _⟩ := decrementRecordCounts_eq (h.distinct hrecord) (h.naming_le hrecord)
        simp only [expireLoop, hpeek, if_neg hlater, hrecord, if_pos hexp, hcounts, Option.bind_eq_bind,
          Option.bind_some, Option.pure_def] at hloop
        obtain ⟨⟨rest, state''⟩, hrest, heq⟩ := Option.bind_eq_some_iff.mp hloop
        obtain ⟨rfl, rfl⟩ := Prod.mk.inj (Option.some.inj heq)
        exact .inr ⟨next, record, counts, rest, rfl, hrecord, rfl, h.purged hpeek hrecord hexp hcounts, hrest⟩

/-- An overdue record that is left was too far behind in the heap. -/
theorem Quota.expireLoop_left (h : Quota c state) (hloop : expireLoop bound n state = some (removed, state'))
    (hl : state'.sessions.lookup id = some record) : state.sessions.lookup id = some record ∧
      (record.expiresUnixSecs ≤ bound → n ≤ state.expiry.ahead ⟨record.expiresUnixSecs, id⟩) := by
  induction n generalizing state removed with
  | zero =>
      obtain ⟨_, rfl⟩ := Prod.mk.inj (Option.some.inj hloop)
      exact ⟨hl, fun _ => Nat.zero_le _⟩
  | succ n ih =>
      rcases h.expireLoop_cases hloop with ⟨_, rfl, hlater⟩ | ⟨next, _, counts, rest, hpeek, _, _, hquota, hrest⟩
      · refine ⟨hl, ?_⟩
        intro hexp
        have hmem := h.mem_expiry hl
        cases hpeek : state'.expiry.peek with
        | none =>
            rw [MinHeap.items_of_peek_none hpeek] at hmem
            exact nomatch hmem
        | some next =>
            have hle : next.expiresUnixSecs ≤ record.expiresUnixSecs :=
              ExpiryEntry.expires_le (MinHeap.peek_le hpeek hmem)
            exact absurd (hlater next hpeek) (UInt64.not_lt.mpr (UInt64.le_trans hle hexp))
      · obtain ⟨hold, hahead⟩ := ih hquota hrest
        have hne : id ≠ next.sessionId := by
          rintro rfl
          rw [Finmap.lookup_erase] at hold
          exact nomatch hold
        rw [Finmap.lookup_erase_ne hne] at hold
        refine ⟨hold, ?_⟩
        intro hexp
        rw [MinHeap.ahead_pop hpeek (h.peek_lt hold hpeek hne)]
        exact Nat.succ_le_succ (hahead hexp)

/-- A record that is too far behind in the heap is left. -/
theorem Quota.expireLoop_spares (h : Quota c state) (hloop : expireLoop bound n state = some (removed, state'))
    (hl : state.sessions.lookup id = some record)
    (hahead : n ≤ state.expiry.ahead ⟨record.expiresUnixSecs, id⟩) :
    state'.sessions.lookup id = some record ∧
      ∀ session ∈ removed, ∃ other, other ≠ id ∧ state.activeSession other = some session := by
  induction n generalizing state removed with
  | zero =>
      obtain ⟨rfl, rfl⟩ := Prod.mk.inj (Option.some.inj hloop)
      exact ⟨hl, fun _ hsession => nomatch hsession⟩
  | succ n ih =>
      rcases h.expireLoop_cases hloop with
        ⟨rfl, rfl, _⟩ | ⟨next, first, counts, rest, hpeek, hfirst, rfl, hquota, hrest⟩
      · exact ⟨hl, fun _ hsession => nomatch hsession⟩
      · have hne : id ≠ next.sessionId := by
          rintro rfl
          obtain ⟨due, hdue, hexp⟩ := h.due hpeek
          obtain rfl := Option.some.inj (hl.symm.trans hdue)
          rw [hexp, MinHeap.ahead_peek hpeek] at hahead
          exact absurd hahead (Nat.not_succ_le_zero n)
        rw [MinHeap.ahead_pop hpeek (h.peek_lt hl hpeek hne)] at hahead
        obtain ⟨hkept, hothers⟩ := ih hquota hrest (by rw [Finmap.lookup_erase_ne hne]; exact hl)
          (Nat.le_of_succ_le_succ hahead)
        refine ⟨hkept, ?_⟩
        intro session hsession
        rcases List.mem_append.mp hsession with hhead | htail
        · refine ⟨next.sessionId, hne.symm, activeSession_eq_some.mpr ?_⟩
          cases first with
          | active session' =>
              obtain rfl := List.mem_singleton.mp hhead
              exact hfirst
          | tombstone _ => exact nomatch hhead
        · obtain ⟨other, hother, hactive⟩ := hothers session htail
          exact ⟨other, hother, (active_erase hactive).2⟩

/-- Within the reach of the batch, what is still active after it has not expired. -/
theorem Quota.batch_timely (h : Quota c s.state) {t : Server} (hbatch : c.expireSessionsBatch now s = some (.ok (), t))
    {session : StoredSession} (hactive : t.state.activeSession id = some session)
    (hw : ∀ session, s.state.activeSession id = some session → now.unixSecs < session.metadata.expiresUnixSecs ∨
      s.state.expiry.ahead ⟨session.metadata.expiresUnixSecs, id⟩ < expiryMaintenanceBatch) :
    now.unixSecs < session.metadata.expiresUnixSecs := by
  obtain ⟨removed, state, hloop, _, rfl⟩ := expireSessionsBatch_cases hbatch
  obtain ⟨hold, hahead⟩ := h.expireLoop_left hloop (activeSession_eq_some.mp hactive)
  rcases hw session (activeSession_eq_some.mpr hold) with htimely | hreach
  · exact htimely
  · by_contra hlate
    exact absurd (hahead (UInt64.not_lt.mp hlate)) (Nat.not_le.mpr hreach)

end Batch

/-- A step that does not reach past the expiry batch. -/
def TimelyStep (c : RendezvousCoordinator) (s : Server) (op : Operation) (s' : Server) : Prop :=
  op.WithinBatch s ∧ Step c s op s'

theorem timely_run {maxClients : Nat} {ops : List Operation} (h : Run (TimelyStep c) (.new maxClients) ops s) :
    Recorded True s := by
  have hboth : Booked c s ∧ Recorded True s := by
    refine h.invariant (P := fun s => Booked c s ∧ Recorded True s) ?_ ⟨booked_new maxClients, recorded_new maxClients⟩
    rintro s op t ⟨hbooked, hrecorded⟩ ⟨hwithin, _, result, hresult⟩
    have hchanges : Changes c True s t := by
      apply perform_changes hresult
      rintro now authenticated frame u session rfl hbatch hactive _
      exact hbooked.quota.batch_timely hbatch hactive hwithin
    exact ⟨hchanges.invariant (fun _ _ => Booked.change) hbooked,
      hchanges.invariant (fun _ _ => Recorded.change) hrecorded⟩
  exact hboth.2

section Sample

instance (s : Server) : (op : Operation) → Decidable (op.WithinBatch s)
  | .forwardRelayFrame _ _ frame =>
      match h : s.state.activeSession frame.sessionId with
      | none => isTrue fun _ hs => nomatch h.symm.trans hs
      | some _ => decidable_of_iff (_ ∨ _) ⟨fun hw _ hs => Option.some.inj (h.symm.trans hs) ▸ hw, fun hw => hw _ h⟩
  | .request .. | .providerDecision .. | .forwardEnvelope .. | .closeSession .. | .expireNow .. | .removeDevice ..
  | .claim .. | .markUnavailable _ | .finalizeDisconnect .. | .enqueue .. | .receive _ | .closeOutbound _
  | .installObservabilitySink => isTrue trivial

def timelyNext (c : RendezvousCoordinator) (s : Server) (op : Operation) : Option Server :=
  if op.WithinBatch s then next c s op else none

theorem timelyStep_of_next {op : Operation} (h : timelyNext c s op = some s') : TimelyStep c s op s' := by
  rw [timelyNext] at h
  split at h
  · next hwithin => exact ⟨hwithin, step_of_next h⟩
  · exact nomatch h

def sampleRelayId : SessionId := sampleId 255

def sampleFrame : PeerRelayFrame :=
  ⟨sampleRelayId, 1, 0, .RELIABLE, 20, ⟨List.replicate 20 3, by decide⟩⟩

/-- Both participants of a session have asked for the relay. -/
def sampleRelaying : List Operation :=
  sampleConnect ++ sampleAccepted sampleRelayId deviceC deviceD ++ [
    .forwardEnvelope (sampleMoment 20) sampleToken deviceC
      (sampleEnvelope sampleRelayId deviceC deviceD 3 1 CandidateGeneration.one_ne_zero (.relayRequest ⟨false⟩)),
    .forwardEnvelope (sampleMoment 30) sampleToken deviceD
      (sampleEnvelope sampleRelayId deviceD deviceC 4 1 CandidateGeneration.one_ne_zero (.relayRequest ⟨false⟩))]

end Sample

section Flood

def floodId (i : Nat) : SessionId := ⟨⟨(be 32 i).toArray, by simp⟩⟩

def floodEnvelope (i : Nat) : RendezvousEnvelope :=
  sampleEnvelope (floodId i) deviceA deviceB 1 1 CandidateGeneration.one_ne_zero (.request ⟨⟨"ssh", sampleExport_bounded⟩⟩)

def floodRound (i : Nat) : List Operation :=
  [.request (sampleMoment 100) deviceA (floodEnvelope i), .receive deviceB.identity.name]

/-- Requests for `n` sessions, each taken from the queue of the provider at once. -/
def flood (n : Nat) : List Operation := (List.range n).flatMap floodRound

theorem ofBe_floodId {i : Nat} (h : i < 1024) : ofBe (floodId i).bytes.toList = i := by
  have hlist : (floodId i).bytes.toList = be 32 i := by simp [floodId]
  rw [hlist]
  exact ofBe_be (h.trans (by decide))

theorem floodId_ne {i j : Nat} (hi : i < 1024) (hj : j < 1024) (hne : i ≠ j) : floodId i ≠ floodId j := by
  intro heq
  have hbytes : ofBe (floodId i).bytes.toList = ofBe (floodId j).bytes.toList := by rw [heq]
  rw [ofBe_floodId hi, ofBe_floodId hj] at hbytes
  exact hne hbytes

theorem floodId_lt {i : Nat} (hi : i < 1024) : (⟨1100, floodId i⟩ : ExpiryEntry) < ⟨1100, sampleRelayId⟩ := by
  apply ExpiryEntry.lt_of_id
  rw [ofBe_floodId hi]
  have hlarge : 1024 ≤ ofBe sampleRelayId.bytes.toList := by decide +kernel
  exact hi.trans_le hlarge

theorem floodId_ne_relay {i : Nat} (hi : i < 1024) : floodId i ≠ sampleRelayId := by
  intro heq
  have hlt := floodId_lt hi
  rw [heq] at hlt
  exact lt_irrefl _ hlt

/-- The consumer of the flood is connected, and the queue of its provider is empty. -/
structure FloodReady (r : ClientRegistry) : Prop where
  consumer : r.isActiveSession deviceA.identity = true
  provider : ∃ runtime, r.byName.lookup deviceB.identity.name = some runtime ∧ runtime.available = true ∧
    runtime.identity = deviceB.identity ∧ runtime.outbound.queued = [] ∧ runtime.outbound.HasRoom ∧
    supportsV02 runtime.protocolVersion

/-- The state after `n` requests, with the session of the relay behind them in the heap. -/
structure Flooded (r : ClientRegistry) (session : StoredSession) (n : Nat) (s : Server) : Prop where
  registry : s.registry = r
  relay : s.state.activeSession sampleRelayId = some session
  fresh : ∀ i, n ≤ i → i < 1024 → floodId i ∉ s.state.sessions
  length : len s.state.sessions = n + 1
  consumer : (s.state.deviceCounts.lookup deviceA.identity.name).getD 0 = n
  provider : (s.state.deviceCounts.lookup deviceB.identity.name).getD 0 = n
  ahead : s.state.expiry.ahead ⟨1100, sampleRelayId⟩ = n
  others : ∀ {id other}, s.state.activeSession id = some other → id ≠ sampleRelayId →
    other.consumer.name = deviceA.identity.name ∧ other.provider.name = deviceB.identity.name

variable {r : ClientRegistry} {session : StoredSession}

theorem Flooded.plan (h : Flooded r session n s) (hr : FloodReady r) (hn : n < 1024) :
    ∃ plan, sampleCoordinator.requestPlan s (sampleMoment 100) deviceA (floodEnvelope n) = .ok plan ∧
      plan.consumer.name = deviceA.identity.name ∧ plan.provider.name = deviceB.identity.name ∧
      plan.permit.identity = deviceB.identity := by
  obtain ⟨runtime, hruntime, havailable, hidentity, _, hroom, hversion⟩ := hr.provider
  have horigin : validateOrigin s (sampleMoment 100) deviceA (floodEnvelope n) = .ok () := by
    have hsupported : supportsV02 v02 := by decide
    have hexpiry : (sampleMoment 100).unixSecs < 1100 := by decide
    refine validateOrigin_eq_ok.mpr ⟨⟨?_, rfl, rfl⟩, hsupported, hexpiry⟩
    rw [h.registry]
    exact hr.consumer
  have hactive := ClientRegistry.activeControlSession_of_lookup hruntime havailable
  have hpermit : reserveTo r (.fromActive ⟨runtime.identity, runtime.outbound, runtime.protocolVersion,
      runtime.observabilityIdentity⟩) = .ok ⟨deviceB.identity⟩ := by
    refine reserveTo_eq_ok.mpr ⟨⟨runtime, ?_, havailable, rfl, hroom⟩, hidentity.symm⟩
    show r.byName.lookup runtime.identity.name = some runtime
    rw [hidentity]
    exact hruntime
  have hother : deviceB.identity.name ≠ deviceA.identity.name := by decide
  have hentry : sampleCoordinator.directory.lookup deviceB.identity.name = some ⟨"unused-by-coordinator", true⟩ := by
    decide +kernel
  have hmax : checkedAdd (sampleMoment 100).unixSecs sampleCoordinator.limits.sessionTtlSecs = some 1300 := by decide
  have hexpires : (1100 : UInt64) ≤ 1300 := by decide
  have hstep : (0 : UInt64) < 1 := by decide
  have hquota : len s.state.sessions < 4096 ∧ (s.state.deviceCounts.lookup deviceA.identity.name).getD 0 < 1024 ∧
      (s.state.deviceCounts.lookup runtime.identity.name).getD 0 < 1024 := by
    rw [hidentity, h.length, h.consumer, h.provider]
    exact ⟨by omega, hn, hn⟩
  rw [← h.registry] at hactive hpermit
  obtain ⟨message, hplan⟩ := requestPlan_of_checks (c := sampleCoordinator) horigin rfl
    hother hentry rfl hactive hversion hmax hexpires hstep (h.fresh n (Nat.le_refl n) hn) hquota hpermit
  exact ⟨_, hplan, rfl, congrArg AuthenticatedClient.name hidentity, rfl⟩

/-- One request that is taken from the queue leaves the registry, and adds a
session that expires before the relayed one in the order of the heap. -/
theorem Flooded.round (h : Flooded r session n s) (hr : FloodReady r) (hn : n < 1024) :
    ∃ s', Run (Step sampleCoordinator) s (floodRound n) s' ∧ Flooded r session (n + 1) s' := by
  obtain ⟨plan, hplan, hconsumer, hprovider, hpermit⟩ := h.plan hr hn
  have hrequest := request_of_plan hplan
  have hname : plan.permit.identity.name = deviceB.identity.name := congrArg _ hpermit
  obtain ⟨runtime, hruntime, _, _, hempty, hroom, _⟩ := hr.provider
  let t : Server := {
    registry := s.registry.trySend plan.permit.identity.name plan.message
    state := openSession s.state (newSession s.registry (sampleMoment 100) (floodEnvelope n) plan)
    history := s.history ++ [s.opens (floodEnvelope n) deviceA plan.permit (sampleMoment 100)] }
  have hfirst : Step sampleCoordinator s (.request (sampleMoment 100) deviceA (floodEnvelope n)) t := by
    refine ⟨trivial, .ok (), ?_⟩
    rw [perform, Call.bind_of_ok hrequest]
    rfl
  have hsecond : Step sampleCoordinator t (.receive deviceB.identity.name) { t with registry := r } := by
    refine ⟨trivial, .ok (), ?_⟩
    have hrestored := ClientRegistry.trySend_receive hruntime hempty hroom plan.message
    rw [← hname, ← h.registry] at hrestored
    rw [perform, onRegistry, Call.update_apply, ← hname]
    exact congrArg some (Prod.ext rfl (congrArg (fun q => { t with registry := q }) (hrestored.trans h.registry)))
  refine ⟨{ t with registry := r }, ((Run.refl s).snoc hfirst).snoc hsecond, ?_⟩
  have hcounts (device) : (t.state.deviceCounts.lookup device).getD 0 =
      (s.state.deviceCounts.lookup device).getD 0 + (if device = deviceA.identity.name then 1 else 0) +
        if device = deviceB.identity.name then 1 else 0 := by
    show ((incrementDeviceCount (incrementDeviceCount s.state.deviceCounts plan.consumer.name)
      plan.provider.name).lookup device).getD 0 = _
    rw [lookup_incrementDeviceCount, lookup_incrementDeviceCount, hconsumer, hprovider]
  exact {
    registry := rfl
    relay := by
      rw [activeSession_eq_some]
      exact (Finmap.lookup_insert_of_ne _ (floodId_ne_relay hn).symm).trans (activeSession_eq_some.mp h.relay)
    fresh := by
      intro i hi hmax hmem
      rcases Finmap.mem_insert.mp hmem with heq | hold
      · exact floodId_ne hmax hn (by omega) heq
      · exact h.fresh i (by omega) hmax hold
    length := by
      show len (s.state.sessions.insert (floodId n) _) = n + 1 + 1
      rw [len_eq_total, total_insert (h.fresh n (Nat.le_refl n) hn), ← len_eq_total, h.length]
      omega
    consumer := by
      rw [hcounts, if_pos rfl, if_neg (by decide), h.consumer]
    provider := by
      rw [hcounts, if_pos rfl, if_neg (by decide), h.provider]
    ahead := by
      show (s.state.expiry.push ⟨1100, floodId n⟩).ahead _ = n + 1
      rw [MinHeap.ahead_push (floodId_lt hn), h.ahead]
    others := by
      intro id other hactive hne
      rcases active_open hactive with ⟨_, rfl⟩ | ⟨_, hold⟩
      · exact ⟨hconsumer, hprovider⟩
      · exact h.others hold hne }

theorem Flooded.run (h : Flooded r session 0 s) (hr : FloodReady r) (hn : n ≤ 1024) :
    ∃ s', Run (Step sampleCoordinator) s (flood n) s' ∧ Flooded r session n s' := by
  induction n with
  | zero => exact ⟨s, .refl s, h⟩
  | succ n ih =>
      obtain ⟨t, hrun, hflooded⟩ := ih (Nat.le_of_succ_le hn)
      obtain ⟨t', hround, hflooded'⟩ := hflooded.round hr hn
      refine ⟨t', ?_, hflooded'⟩
      rw [flood, List.range_succ, List.flatMap_append, List.flatMap_singleton]
      exact hrun.trans hround

/-- A notice changes no queue but that of its target. -/
theorem lookup_sendServerNotice {target : SessionOwner} {name : DeviceName} (hne : name ≠ target.name)
    (code : RendezvousErrorCode) :
    (sendServerNotice r session target code).byName.lookup name = r.byName.lookup name := by
  unfold sendServerNotice
  dsimp only
  split
  · next r' hroute =>
    simp only [routeTo, activeRoute, bind_eq_ok, require_eq_ok, okOr_eq_ok, pure_eq_ok, exists_const] at hroute
    obtain ⟨_, ⟨active, _, hmatches, rfl⟩, _, rfl⟩ := hroute
    have hother : name ≠ active.identity.name := hmatches.1 ▸ hne
    exact ClientRegistry.lookup_trySend_ne hother
  · rfl

theorem lookup_expireOne {name : DeviceName} (hc : name ≠ session.consumer.name) (hp : name ≠ session.provider.name) :
    (c.expireOne now r session).byName.lookup name = r.byName.lookup name := by
  unfold expireOne
  dsimp only
  rw [lookup_sendServerNotice hp, lookup_sendServerNotice hc]
  rw [byName_observeP2pClose]

theorem lookup_expireAll {name : DeviceName}
    (h : ∀ session ∈ removed, name ≠ session.consumer.name ∧ name ≠ session.provider.name) :
    (removed.foldl (c.expireOne now) r).byName.lookup name = r.byName.lookup name := by
  induction removed generalizing r with
  | nil => rfl
  | cons session removed ih =>
      obtain ⟨hc, hp⟩ := h session List.mem_cons_self
      rw [List.foldl_cons, ih fun other hother => h other (List.mem_cons_of_mem _ hother), lookup_expireOne hc hp]

/-- A session that has expired behind as many others as the batch removes still relays. -/
theorem Flooded.relays {ops : List Operation} (h : Flooded r session 1024 s)
    (hrun : Run (Step sampleCoordinator) (.new 8) ops s) (hsender : r.isActiveSession deviceC.identity = true)
    (hroute : Routable r session.provider) (hprovider : session.provider.name = deviceD.identity.name)
    (htarget : relayTarget session deviceC sampleFrame = .ok session.provider)
    (hexpires : session.metadata.expiresUnixSecs = 1100)
    (hroomy : (session.relay.admitFrame (sampleMoment 100000) 20).1 = true) :
    ∃ s' k q e, Step sampleCoordinator s (.forwardRelayFrame (sampleMoment 100000) deviceC sampleFrame) s' ∧
      opening (s'.sessionLog sampleRelayId k) = some q ∧ .relayed e ∈ s'.sessionLog sampleRelayId k ∧
      q.envelope.expiresUnixSecs ≤ e.moment.unixSecs := by
  have hquota := (booked_run hrun).quota
  obtain ⟨q, hq⟩ := (recorded_run hrun).tracks h.relay
  obtain ⟨t, hbatch⟩ := hquota.expireSessionsBatch_returns (sampleMoment 100000)
  obtain ⟨removed, state, hloop, _, rfl⟩ := expireSessionsBatch_cases hbatch
  have hahead : expiryMaintenanceBatch ≤ s.state.expiry.ahead
      ⟨(SessionRecord.active session).expiresUnixSecs, sampleRelayId⟩ := by
    rw [SessionRecord.expiresUnixSecs, hexpires, h.ahead]
    exact Nat.le_refl 1024
  obtain ⟨hkept, hothers⟩ := hquota.expireLoop_spares hloop (activeSession_eq_some.mp h.relay) hahead
  have hlookup : (removed.foldl (sampleCoordinator.expireOne (sampleMoment 100000)) s.registry).byName.lookup
      session.provider.name = s.registry.byName.lookup session.provider.name := by
    apply lookup_expireAll
    intro other hother
    obtain ⟨id, hne, hactive⟩ := hothers other hother
    obtain ⟨hconsumer, hprovider'⟩ := h.others hactive hne
    rw [hprovider, hconsumer, hprovider']
    exact ⟨by decide, by decide⟩
  have hpermit : reserveTo (removed.foldl (sampleCoordinator.expireOne (sampleMoment 100000)) s.registry)
      session.provider = .ok ⟨session.provider.identity⟩ := by
    refine reserveTo_eq_ok.mpr ⟨?_, rfl⟩
    rw [Routable]
    rw [hlookup, h.registry]
    exact hroute
  rw [← h.registry] at hsender
  obtain ⟨u, hu, hhistory⟩ := relayFrame_of_target (s := { s with
    state, registry := removed.foldl (sampleCoordinator.expireOne (sampleMoment 100000)) s.registry })
    htarget hroomy hpermit
  have hstep : Step sampleCoordinator s (.forwardRelayFrame (sampleMoment 100000) deviceC sampleFrame) u :=
    ⟨trivial, .ok (), (forwardRelayFrame_of_batch hsender hbatch hkept).trans hu⟩
  let e : Relayed := ⟨s.incarnation sampleRelayId, sampleFrame, deviceC.identity, session.provider.identity,
    sampleMoment 100000, (admittedSession (sampleMoment 100000) sampleFrame session).relay.windowStarted⟩
  have hlog : u.sessionLog sampleRelayId (s.incarnation sampleRelayId) =
      s.sessionLog sampleRelayId (s.incarnation sampleRelayId) ++ [.relayed e] := by
    rw [Server.sessionLog, hhistory]
    exact sessionLog_append_self (s := s) (.relayed e)
  refine ⟨u, s.incarnation sampleRelayId, q, e, hstep, ?_, ?_, ?_⟩
  · rw [hlog]
    exact opening_append _ hq.opening
  · rw [hlog]
    exact List.mem_append_right _ (List.mem_singleton_self _)
  · rw [hq.expires, hexpires]
    have hlate : 1100 ≤ (sampleMoment 100000).unixSecs := by decide
    exact hlate

/-- The state from which the flood starts. -/
theorem sampleRelaying_ready : ∃ s session, Run (Step sampleCoordinator) (.new 8) sampleRelaying s ∧
    Flooded s.registry session 0 s ∧ FloodReady s.registry ∧ s.registry.isActiveSession deviceC.identity = true ∧
    Routable s.registry session.provider ∧ session.provider.name = deviceD.identity.name ∧
    relayTarget session deviceC sampleFrame = .ok session.provider ∧ session.metadata.expiresUnixSecs = 1100 ∧
    (session.relay.admitFrame (sampleMoment 100000) 20).1 = true := by
  obtain ⟨s, hrun, ⟨hkeys, hlen⟩, ⟨hcount, hcount'⟩, hahead, hsender, hconsumer, hdeviceB, hdeviceD, hstored⟩ :=
    run_of_exec_any (P := fun s => (s.state.sessions.keys = {sampleRelayId} ∧ len s.state.sessions = 1) ∧
      ((s.state.deviceCounts.lookup deviceA.identity.name).getD 0 = 0 ∧
        (s.state.deviceCounts.lookup deviceB.identity.name).getD 0 = 0) ∧
      s.state.expiry.ahead ⟨1100, sampleRelayId⟩ = 0 ∧
      s.registry.isActiveSession deviceC.identity = true ∧ s.registry.isActiveSession deviceA.identity = true ∧
      ((s.registry.byName.lookup deviceB.identity.name).any fun runtime => runtime.available = true ∧
        runtime.identity = deviceB.identity ∧ runtime.outbound.queued = [] ∧ runtime.outbound.HasRoom ∧
        supportsV02 runtime.protocolVersion) = true ∧
      ((s.registry.byName.lookup deviceD.identity.name).any fun runtime => runtime.available = true ∧
        runtime.identity = deviceD.identity ∧ runtime.outbound.HasRoom) = true ∧
      ((s.state.activeSession sampleRelayId).any fun session =>
        session.provider = .fromControl deviceD ∧ session.consumer = .fromControl deviceC ∧
        session.state.phase = .accepted ∧ session.relay.requestedBy = 3 ∧ session.relay.datagram = some false ∧
        session.metadata.expiresUnixSecs = 1100 ∧
        (session.relay.admitFrame (sampleMoment 100000) 20).1 = true) = true)
      (fun _ _ _ => step_of_next)
      (show (exec (next sampleCoordinator) (.new 8) sampleRelaying).any _ = true by decide +kernel)
  obtain ⟨runtime, hruntime, hfields⟩ := Option.any_eq_true _ _ |>.mp hdeviceB
  obtain ⟨runtime', hruntime', hfields'⟩ := Option.any_eq_true _ _ |>.mp hdeviceD
  obtain ⟨session, hsession, hfields''⟩ := Option.any_eq_true _ _ |>.mp hstored
  obtain ⟨hav, hid, hroom⟩ := of_decide_eq_true hfields'
  obtain ⟨hprovider, hdeviceC, hphase, hauth, hdatagram, hexpires, hroomy⟩ := of_decide_eq_true hfields''
  have honly {id} : id ∈ s.state.sessions ↔ id = sampleRelayId := by
    rw [← Finmap.mem_keys, hkeys, Finset.mem_singleton]
  have hflooded : Flooded s.registry session 0 s := {
    registry := rfl
    relay := hsession
    fresh := fun i _ hi hmem => floodId_ne_relay hi (honly.mp hmem)
    length := hlen
    consumer := hcount
    provider := hcount'
    ahead := hahead
    others := fun hactive hne =>
      absurd (honly.mp (Finmap.mem_of_lookup_eq_some (activeSession_eq_some.mp hactive))) hne }
  have hbetween : Between session deviceC.identity session.provider := by
    refine .inl ⟨?_, rfl⟩
    rw [hdeviceC]
    exact ⟨rfl, rfl, rfl⟩
  refine ⟨s, session, hrun, hflooded, ⟨hconsumer, runtime, hruntime, of_decide_eq_true hfields⟩, hsender, ?_, ?_, ?_,
    hexpires, hroomy⟩
  · rw [hprovider]
    exact ⟨runtime', hruntime', hav, hid, hroom⟩
  · rw [hprovider]
    rfl
  · exact relayTarget_eq_ok.mpr ⟨hphase, hbetween, hauth, false, hdatagram, .inl rfl⟩

end Flood

end Rustgo.Coordinator
