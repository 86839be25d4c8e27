import Rustgo.ProjectionSessions

namespace Rustgo.Observability.Projection

open Registry Rendezvous Tables

variable {p q r : Projection} {client : AuthenticatedClientIdentity} {id sessionId : ShortSessionId} {name : String}
  {session : SessionSnapshot} {event : ObservationEvent} {c c' : ClientSnapshot} {a b : TrafficCounters}

theorem saturatingAdd_toNat (x y : UInt64) : (saturatingAdd x y).toNat = min (x.toNat + y.toNat) (2 ^ 64 - 1) := by
  rw [Rendezvous.saturatingAdd]
  cases h : checkedAdd x y with
  | some z =>
      have hz := checkedAdd_eq_some h
      have hlt := z.toNat_lt
      rw [Option.getD_some, hz]
      omega
  | none =>
      rw [checkedAdd] at h
      split at h
      · cases h
      · next hge =>
        rw [Option.getD_none, UInt64.toNat_ofNat']
        omega

theorem saturatingAdd_zero (x : UInt64) : saturatingAdd x 0 = x := by
  apply UInt64.toNat_inj.mp
  have hlt := x.toNat_lt
  rw [saturatingAdd_toNat, UInt64.toNat_zero]
  omega

theorem saturatingAdd_default (a : TrafficCounters) : TrafficCounters.saturatingAdd a .default = a := by
  rw [TrafficCounters.saturatingAdd, Registry.TrafficCounters.default, saturatingAdd_zero, saturatingAdd_zero]

/-- Evictions only take sessions and entries away. -/
structure Frame (p q : Projection) : Prop where
  clients : q.clients = p.clients
  serverTraffic : q.serverTraffic = p.serverTraffic
  generatedUnixMillis : q.generatedUnixMillis = p.generatedUnixMillis
  sessions : ∀ {id session}, q.sessions.lookup id = some session → p.sessions.lookup id = some session

theorem Frame.refl (p : Projection) : Frame p p := ⟨rfl, rfl, rfl, fun hsession => hsession⟩

theorem Frame.trans (h : Frame p q) (h' : Frame q r) : Frame p r :=
  ⟨h'.clients.trans h.clients, h'.serverTraffic.trans h.serverTraffic, h'.generatedUnixMillis.trans h.generatedUnixMillis,
    fun hsession => h.sessions (h'.sessions hsession)⟩

theorem evictEntry_frame (p : Projection) (entry : Nat ×ₗ ShortSessionId) : Frame p (p.evictEntry entry) := by
  refine ⟨rfl, rfl, rfl, fun {id session} hsession => ?_⟩
  rw [evictEntry] at hsession
  dsimp only at hsession
  split at hsession
  · by_cases hid : id = entry.2
    · rw [hid, Finmap.lookup_erase] at hsession
      cases hsession
    · rwa [Finmap.lookup_erase_ne hid] at hsession
  · exact hsession

theorem evict_frame (n : Nat) (p : Projection) : Frame p (evict n p) := by
  induction n generalizing p with
  | zero => exact .refl p
  | succ n ih =>
      rw [evict]
      split
      · split
        · exact .refl p
        · exact (evictEntry_frame p _).trans (ih _)
      · exact .refl p

theorem recordTerminal_frame (p : Projection) (sessionId : ShortSessionId) (closedUnixMillis : Nat) :
    Frame p (p.recordTerminal sessionId closedUnixMillis) := by
  have hinsert : Frame p { p with terminalSessions := insert (toLex (closedUnixMillis, sessionId)) p.terminalSessions } :=
    ⟨rfl, rfl, rfl, fun hsession => hsession⟩
  exact hinsert.trans (evict_frame _ _)

theorem recordAll_frame (ids : List ShortSessionId) (closedUnixMillis : Nat) (p : Projection) :
    Frame p (ids.foldl (fun p id => p.recordTerminal id closedUnixMillis) p) := by
  induction ids generalizing p with
  | nil => exact .refl p
  | cons id ids ih => exact (recordTerminal_frame p id closedUnixMillis).trans (ih _)

theorem terminalizeSessions_fields (p : Projection) (client : AuthenticatedClientIdentity) (closedUnixMillis : Nat) :
    (p.terminalizeSessions client closedUnixMillis).clients = p.clients ∧
      (p.terminalizeSessions client closedUnixMillis).serverTraffic = p.serverTraffic ∧
      (p.terminalizeSessions client closedUnixMillis).generatedUnixMillis = p.generatedUnixMillis := by
  obtain ⟨hclients, htraffic, hgenerated, -⟩ := recordAll_frame
    ((keep (fun _ session => openOf client session) p.sessions).keys.sort) closedUnixMillis { p with
      sessions := update (fun _ session => if openOf client session then
        terminate session closedUnixMillis (some replacementReason) else session) p.sessions }
  exact ⟨hclients, htraffic, hgenerated⟩

/-- No session of the client is left open. -/
theorem terminalizeSessions_closes {closedUnixMillis : Nat}
    (hsession : (p.terminalizeSessions client closedUnixMillis).sessions.lookup id = some session)
    (hclient : session.client.str = client.name.str) : session.closedUnixMillis ≠ none := by
  have hmarked := (recordAll_frame _ _ _).sessions hsession
  rw [lookup_update, Option.map_eq_some_iff] at hmarked
  obtain ⟨old, -, hold⟩ := hmarked
  split at hold
  · rw [← hold]
    exact Option.some_ne_none _
  · next hopen =>
    rw [hold, openOf, decide_eq_true_eq, not_and] at hopen
    exact hopen hclient

/-- What one event does to the clients and the totals. -/
inductive ClientsChange (p q : Projection) : Prop
  | same (hclients : q.clients = p.clients) (hserver : q.serverTraffic = p.serverTraffic)
  | update {name : String} {c c' : ClientSnapshot} (counters : TrafficCounters) (hlookup : p.clients.lookup name = some c)
      (hclients : q.clients = p.clients.insert name c') (hgeneration : c'.generation = c.generation)
      (htelemetry : ∀ s ∈ c.telemetrySequence, ∃ s' ∈ c'.telemetrySequence, s ≤ s')
      (htraffic : c'.traffic = TrafficCounters.saturatingAdd c.traffic counters)
      (hserver : q.serverTraffic = TrafficCounters.saturatingAdd p.serverTraffic counters)
  | authenticate {name : String} {c' : ClientSnapshot}
      (hgeneration : ∀ c, p.clients.lookup name = some c → c.generation < c'.generation)
      (hclients : q.clients = p.clients.insert name c')
      (htraffic : c'.traffic = ((p.clients.lookup name).map ClientSnapshot.traffic).getD .default)
      (hserver : q.serverTraffic = p.serverTraffic)
      (hsessions : ∀ id session, q.sessions.lookup id = some session → session.client.str = name →
        (p.clients.lookup name).isSome → session.closedUnixMillis ≠ none)

theorem currentClient_eq_some (h : p.currentClient client = some c) :
    p.clients.lookup client.name.str = some c ∧ c.generation = client.generation := by
  obtain ⟨hlookup, hgeneration⟩ := Option.filter_eq_some_iff.mp h
  exact ⟨hlookup, of_decide_eq_true hgeneration⟩

theorem onlineClient_eq_some (h : p.onlineClient client = some c) : p.currentClient client = some c :=
  (Option.filter_eq_some_iff.mp h).1

theorem clientAuthenticated_change (p : Projection) (client : AuthenticatedClientIdentity) (version : BoundedLabel)
    (authenticatedUnixMillis : Nat) : ClientsChange p (p.clientAuthenticated client version authenticatedUnixMillis) := by
  rw [clientAuthenticated]
  split
  · exact .same rfl rfl
  · next hnew =>
    have hgeneration : ∀ c, p.clients.lookup client.name.str = some c → c.generation < client.generation := by
      intro c hlookup
      rw [hlookup, Option.any_some, decide_eq_true_eq] at hnew
      exact UInt64.not_le.mp hnew
    split
    · obtain ⟨hclients, hserver, -⟩ := terminalizeSessions_fields p client authenticatedUnixMillis
      refine .authenticate hgeneration (congrArg (Finmap.insert client.name.str _) hclients) rfl hserver ?_
      intro id session hsession hclient _
      exact terminalizeSessions_closes hsession hclient
    · next hnone =>
      exact .authenticate hgeneration rfl rfl rfl fun id session _ _ hsome => absurd hsome hnone

theorem ClientsChange.of_fields (h : ClientsChange p q) (hclients : r.clients = q.clients) (hserver : r.serverTraffic = q.serverTraffic)
    (hsessions : r.sessions = q.sessions) : ClientsChange p r := by
  cases h with
  | same hclients' hserver' => exact .same (hclients.trans hclients') (hserver.trans hserver')
  | update counters hlookup hclients' hgeneration htelemetry htraffic hserver' =>
      exact .update counters hlookup (hclients.trans hclients') hgeneration htelemetry htraffic (hserver.trans hserver')
  | authenticate hgeneration hclients' htraffic hserver' hclosed =>
      exact .authenticate hgeneration (hclients.trans hclients') htraffic (hserver.trans hserver') (by rwa [hsessions])

theorem openSession_change (p : Projection) (client : AuthenticatedClientIdentity) (sessionId : ShortSessionId) (kind : SessionKind)
    (path : SessionPath) (peer tunnel exportName : Option BoundedLabel) (openedUnixMillis : Nat) :
    ClientsChange p (p.openSession client sessionId kind path peer tunnel exportName openedUnixMillis) := by
  have hforget : (p.forgetTerminal sessionId).clients = p.clients ∧ (p.forgetTerminal sessionId).serverTraffic = p.serverTraffic := by
    rw [forgetTerminal]
    split <;> exact ⟨rfl, rfl⟩
  rw [openSession]
  split
  · exact .same rfl rfl
  · exact .same hforget.1 hforget.2

theorem closeSession_change (p : Projection) (client : AuthenticatedClientIdentity) (sessionId : ShortSessionId)
    (expectedKind : SessionKind) (closedUnixMillis : Nat) (terminalReason : Option BoundedLabel) :
    ClientsChange p (p.closeSession client sessionId expectedKind closedUnixMillis terminalReason) := by
  rw [closeSession]
  split
  · split
    · next session _ =>
      obtain ⟨hclients, hserver, -, -⟩ :=
        recordTerminal_frame (p.withSession sessionId (terminate session closedUnixMillis terminalReason)) sessionId closedUnixMillis
      exact .same hclients hserver
    · exact .same rfl rfl
  · exact .same rfl rfl

theorem addCounters_change (p : Projection) (client : AuthenticatedClientIdentity) (sessionId : Option ShortSessionId)
    (counters : TrafficCounters) : ClientsChange p (p.addCounters client sessionId counters) := by
  rw [addCounters]
  split
  · exact .same rfl rfl
  · next projected honline =>
    obtain ⟨hlookup, -⟩ := currentClient_eq_some (onlineClient_eq_some honline)
    dsimp only
    split
    · rw [chargeSession]
      split
      · exact .update counters hlookup rfl rfl (fun s hs => ⟨s, hs, le_refl s⟩) rfl rfl
      · exact .update counters hlookup rfl rfl (fun s hs => ⟨s, hs, le_refl s⟩) rfl rfl
    · exact .update counters hlookup rfl rfl (fun s hs => ⟨s, hs, le_refl s⟩) rfl rfl

/-- A change of a snapshot that keeps what is counted. -/
theorem updateClient_change {accepted : Option ClientSnapshot} {f : ClientSnapshot → ClientSnapshot}
    (haccepted : ∀ c, accepted = some c → p.clients.lookup client.name.str = some c)
    (hf : ∀ c, accepted = some c → (f c).generation = c.generation ∧ (f c).traffic = c.traffic ∧
      ∀ s ∈ c.telemetrySequence, ∃ s' ∈ (f c).telemetrySequence, s ≤ s') :
    ClientsChange p (p.updateClient client accepted f) := by
  unfold updateClient
  split
  · next c =>
    obtain ⟨hgeneration, htraffic, htelemetry⟩ := hf c rfl
    exact .update .default (haccepted c rfl) rfl hgeneration htelemetry (by rw [htraffic, saturatingAdd_default])
      (by rw [saturatingAdd_default]; rfl)
  · exact .same rfl rfl

theorem advanceIf_fields (p : Projection) (applied : Bool) (timestampUnixMillis : Nat) :
    (p.advanceIf applied timestampUnixMillis).clients = p.clients ∧
      (p.advanceIf applied timestampUnixMillis).serverTraffic = p.serverTraffic ∧
      (p.advanceIf applied timestampUnixMillis).sessions = p.sessions := by
  rw [advanceIf]
  split <;> exact ⟨rfl, rfl, rfl⟩

theorem ClientsChange.advanceIf (h : ClientsChange p q) (applied : Bool) (timestampUnixMillis : Nat) :
    ClientsChange p (q.advanceIf applied timestampUnixMillis) := by
  obtain ⟨hclients, hserver, hsessions⟩ := advanceIf_fields q applied timestampUnixMillis
  exact h.of_fields hclients hserver hsessions

theorem apply_change (p : Projection) (event : ObservationEvent) : ClientsChange p (p.apply event) := by
  cases event with
  | clientAuthenticated client version authenticatedUnixMillis => exact clientAuthenticated_change _ _ _ _
  | clientDisconnected client disconnectedUnixMillis =>
      refine ClientsChange.advanceIf (updateClient_change ?_ ?_) _ _
      · exact fun c hc => (currentClient_eq_some hc).1
      · exact fun c _ => ⟨rfl, rfl, fun s hs => ⟨s, hs, le_refl s⟩⟩
  | heartbeat client receivedUnixMillis =>
      refine ClientsChange.advanceIf (updateClient_change ?_ ?_) _ _
      · exact fun c hc => (currentClient_eq_some (onlineClient_eq_some hc)).1
      · exact fun c _ => ⟨rfl, rfl, fun s hs => ⟨s, hs, le_refl s⟩⟩
  | clientTelemetryAccepted client sequence receivedUnixMillis metrics =>
      refine ClientsChange.advanceIf (updateClient_change ?_ ?_) _ _
      · exact fun c hc => (currentClient_eq_some (onlineClient_eq_some (Option.filter_eq_some_iff.mp hc).1)).1
      · intro c hc
        obtain ⟨-, hsequence⟩ := Option.filter_eq_some_iff.mp hc
        refine ⟨rfl, rfl, fun s hs => ⟨sequence, rfl, ?_⟩⟩
        rw [Option.mem_def.mp hs, Option.all_some, decide_eq_true_eq] at hsequence
        exact hsequence.le
  | tunnelInventory client names | exportInventory client names | forwardInventory client names =>
      refine updateClient_change ?_ ?_
      · exact fun c hc => (currentClient_eq_some (onlineClient_eq_some hc)).1
      · exact fun c _ => ⟨rfl, rfl, fun s hs => ⟨s, hs, le_refl s⟩⟩
  | tcpSessionOpened client sessionId tunnel openedUnixMillis => exact openSession_change _ _ _ _ _ _ _ _ _
  | udpSessionOpened client sessionId tunnel openedUnixMillis => exact openSession_change _ _ _ _ _ _ _ _ _
  | p2pSessionOpened client sessionId peer exportName path openedUnixMillis => exact openSession_change _ _ _ _ _ _ _ _ _
  | tcpSessionClosed client sessionId closedUnixMillis terminalReason => exact closeSession_change _ _ _ _ _ _
  | udpSessionClosed client sessionId closedUnixMillis terminalReason => exact closeSession_change _ _ _ _ _ _
  | p2pSessionClosed client sessionId closedUnixMillis terminalReason => exact closeSession_change _ _ _ _ _ _
  | byteCounterDelta client sessionId counters => exact addCounters_change _ _ _ _
  | serverSample metrics => exact .same rfl rfl

/-- The server has carried what its clients have, up to the largest counter. -/
def Totalled (f : TrafficCounters → UInt64) (p : Projection) : Prop :=
  (f p.serverTraffic).toNat = min (total (fun _ c => (f c.traffic).toNat) p.clients) (2 ^ 64 - 1)

theorem Totalled.change {f : TrafficCounters → UInt64} (hdefault : f .default = 0)
    (hf : ∀ a b, f (TrafficCounters.saturatingAdd a b) = saturatingAdd (f a) (f b)) (h : p.Totalled f) (hchange : ClientsChange p q) :
    q.Totalled f := by
  rw [Totalled] at h ⊢
  cases hchange with
  | same hclients hserver => rw [hclients, hserver, h]
  | @update name c c' counters hlookup hclients hgeneration htelemetry htraffic hserver =>
      have hreplace := total_replace (f := fun _ c => (f c.traffic).toNat) (w := c') hlookup
      have hle := le_total (fun _ c => (f c.traffic).toNat) hlookup
      have hmax := (f c.traffic).toNat_lt
      rw [htraffic, hf, saturatingAdd_toNat] at hreplace
      rw [hclients, hserver, hf, saturatingAdd_toNat, h]
      omega
  | @authenticate name c' hgeneration hclients htraffic hserver hsessions =>
      rw [hclients, hserver, h]
      cases hlookup : p.clients.lookup name with
      | none =>
          have hzero : f c'.traffic = 0 := by rw [htraffic, hlookup, Option.map_none, Option.getD_none, hdefault]
          rw [total_insert (Finmap.lookup_eq_none.mp hlookup), hzero, UInt64.toNat_zero, Nat.zero_add]
      | some c =>
          have hkept : c'.traffic = c.traffic := by rw [htraffic, hlookup, Option.map_some, Option.getD_some]
          have hreplace := total_replace (f := fun _ c => (f c.traffic).toNat) (w := c') hlookup
          rw [hkept] at hreplace
          rw [Nat.add_right_cancel hreplace]

/-- A later snapshot of a client: nothing that is counted has gone back. -/
structure ClientProgress (c c' : ClientSnapshot) : Prop where
  generation : c.generation ≤ c'.generation
  receivedBytes : c.traffic.receivedBytes ≤ c'.traffic.receivedBytes
  sentBytes : c.traffic.sentBytes ≤ c'.traffic.sentBytes
  telemetry : c'.generation = c.generation → ∀ s ∈ c.telemetrySequence, ∃ s' ∈ c'.telemetrySequence, s ≤ s'

theorem ClientProgress.refl (c : ClientSnapshot) : ClientProgress c c :=
  ⟨UInt64.le_refl _, UInt64.le_refl _, UInt64.le_refl _, fun _ s hs => ⟨s, hs, le_refl s⟩⟩

theorem ClientProgress.trans {d : ClientSnapshot} (h : ClientProgress c c') (h' : ClientProgress c' d) : ClientProgress c d := by
  refine ⟨UInt64.le_trans h.generation h'.generation, UInt64.le_trans h.receivedBytes h'.receivedBytes,
    UInt64.le_trans h.sentBytes h'.sentBytes, fun hgeneration s hs => ?_⟩
  have hmiddle : c'.generation = c.generation := UInt64.le_antisymm (hgeneration ▸ h'.generation) h.generation
  obtain ⟨s', hs', hle⟩ := h.telemetry hmiddle s hs
  obtain ⟨s'', hs'', hle'⟩ := h'.telemetry (hgeneration.trans hmiddle.symm) s' hs'
  exact ⟨s'', hs'', hle.trans hle'⟩

theorem le_saturatingAdd (x y : UInt64) : x ≤ saturatingAdd x y := by
  have hlt := x.toNat_lt
  rw [UInt64.le_iff_toNat_le, saturatingAdd_toNat]
  omega

structure Progress (p q : Projection) : Prop where
  generatedUnixMillis : p.generatedUnixMillis ≤ q.generatedUnixMillis
  clients : ∀ {name c}, p.clients.lookup name = some c → ∃ c', q.clients.lookup name = some c' ∧ ClientProgress c c'

theorem Progress.refl (p : Projection) : Progress p p := ⟨le_refl _, fun {_ c} h => ⟨c, h, .refl c⟩⟩

theorem Progress.trans (h : Progress p q) (h' : Progress q r) : Progress p r := by
  refine ⟨h.generatedUnixMillis.trans h'.generatedUnixMillis, fun {_ c} hlookup => ?_⟩
  obtain ⟨c', hlookup', hprogress⟩ := h.clients hlookup
  obtain ⟨c'', hlookup'', hprogress'⟩ := h'.clients hlookup'
  exact ⟨c'', hlookup'', hprogress.trans hprogress'⟩

theorem ClientsChange.clients (h : ClientsChange p q) (hlookup : p.clients.lookup name = some c) :
    ∃ c', q.clients.lookup name = some c' ∧ ClientProgress c c' := by
  have hinsert {other : String} {d : ClientSnapshot} (hclients : q.clients = p.clients.insert other d)
      (hprogress : name = other → ClientProgress c d) : ∃ c', q.clients.lookup name = some c' ∧ ClientProgress c c' := by
    rw [hclients]
    by_cases hname : name = other
    · exact ⟨d, by rw [hname, Finmap.lookup_insert], hprogress hname⟩
    · exact ⟨c, by rw [Finmap.lookup_insert_of_ne _ hname, hlookup], .refl c⟩
  cases h with
  | same hclients hserver => exact ⟨c, by rw [hclients, hlookup], .refl c⟩
  | @update other d d' counters hother hclients hgeneration htelemetry htraffic hserver =>
      refine hinsert hclients ?_
      rintro rfl
      obtain rfl := Option.some.inj (hlookup.symm.trans hother)
      refine ⟨by rw [hgeneration]; exact UInt64.le_refl _, ?_, ?_, fun _ => htelemetry⟩
      · rw [htraffic]
        exact le_saturatingAdd _ _
      · rw [htraffic]
        exact le_saturatingAdd _ _
  | @authenticate other d hgeneration hclients htraffic hserver hsessions =>
      refine hinsert hclients ?_
      rintro rfl
      have hlt := hgeneration c hlookup
      rw [hlookup, Option.map_some, Option.getD_some] at htraffic
      refine ⟨UInt64.le_of_lt hlt, ?_, ?_, fun heq => ?_⟩
      · rw [htraffic]
        exact UInt64.le_refl _
      · rw [htraffic]
        exact UInt64.le_refl _
      · rw [heq] at hlt
        exact absurd hlt (UInt64.lt_irrefl _)

theorem advance_generated (p : Projection) (timestampUnixMillis : Nat) :
    p.generatedUnixMillis ≤ (p.advance timestampUnixMillis).generatedUnixMillis := Nat.le_max_left _ _

theorem advanceIf_generated (p : Projection) (applied : Bool) (timestampUnixMillis : Nat) :
    p.generatedUnixMillis ≤ (p.advanceIf applied timestampUnixMillis).generatedUnixMillis := by
  rw [advanceIf]
  split
  · exact advance_generated _ _
  · exact le_refl _

theorem updateClient_generated (p : Projection) (client : AuthenticatedClientIdentity) (accepted : Option ClientSnapshot)
    (f : ClientSnapshot → ClientSnapshot) : (p.updateClient client accepted f).generatedUnixMillis = p.generatedUnixMillis := by
  unfold updateClient
  split <;> rfl

theorem clientAuthenticated_generated (p : Projection) (client : AuthenticatedClientIdentity) (version : BoundedLabel)
    (authenticatedUnixMillis : Nat) :
    p.generatedUnixMillis ≤ (p.clientAuthenticated client version authenticatedUnixMillis).generatedUnixMillis := by
  rw [clientAuthenticated]
  split
  · exact le_refl _
  · refine le_trans (le_of_eq ?_) (advance_generated _ _)
    change _ = (if _ then _ else p).generatedUnixMillis
    split
    · exact (terminalizeSessions_fields p client authenticatedUnixMillis).2.2.symm
    · rfl

theorem openSession_generated (p : Projection) (client : AuthenticatedClientIdentity) (sessionId : ShortSessionId) (kind : SessionKind)
    (path : SessionPath) (peer tunnel exportName : Option BoundedLabel) (openedUnixMillis : Nat) : p.generatedUnixMillis ≤
      (p.openSession client sessionId kind path peer tunnel exportName openedUnixMillis).generatedUnixMillis := by
  have hforget : (p.forgetTerminal sessionId).generatedUnixMillis = p.generatedUnixMillis := by
    rw [forgetTerminal]
    split <;> rfl
  rw [openSession]
  split
  · exact le_refl _
  · exact hforget.symm.le.trans (advance_generated _ _)

theorem closeSession_generated (p : Projection) (client : AuthenticatedClientIdentity) (sessionId : ShortSessionId)
    (expectedKind : SessionKind) (closedUnixMillis : Nat) (terminalReason : Option BoundedLabel) : p.generatedUnixMillis ≤
      (p.closeSession client sessionId expectedKind closedUnixMillis terminalReason).generatedUnixMillis := by
  rw [closeSession]
  split
  · split
    · next session _ =>
      have hframe := recordTerminal_frame (p.withSession sessionId (terminate session closedUnixMillis terminalReason)) sessionId
        closedUnixMillis
      exact hframe.generatedUnixMillis.symm.le.trans (advance_generated _ _)
    · exact le_refl _
  · exact le_refl _

theorem addCounters_generated (p : Projection) (client : AuthenticatedClientIdentity) (sessionId : Option ShortSessionId)
    (counters : TrafficCounters) : (p.addCounters client sessionId counters).generatedUnixMillis = p.generatedUnixMillis := by
  rw [addCounters]
  split
  · rfl
  · dsimp only
    split
    · rw [chargeSession]
      split <;> rfl
    · rfl

theorem apply_generated (p : Projection) (event : ObservationEvent) :
    p.generatedUnixMillis ≤ (p.apply event).generatedUnixMillis := by
  cases event with
  | clientAuthenticated client version authenticatedUnixMillis => exact clientAuthenticated_generated _ _ _ _
  | clientDisconnected client disconnectedUnixMillis =>
      exact (updateClient_generated _ _ _ _).symm.le.trans (advanceIf_generated _ _ _)
  | heartbeat client receivedUnixMillis => exact (updateClient_generated _ _ _ _).symm.le.trans (advanceIf_generated _ _ _)
  | clientTelemetryAccepted client sequence receivedUnixMillis metrics =>
      exact (updateClient_generated _ _ _ _).symm.le.trans (advanceIf_generated _ _ _)
  | tunnelInventory client names | exportInventory client names | forwardInventory client names =>
      exact (updateClient_generated _ _ _ _).symm.le
  | tcpSessionOpened client sessionId tunnel openedUnixMillis => exact openSession_generated _ _ _ _ _ _ _ _ _
  | udpSessionOpened client sessionId tunnel openedUnixMillis => exact openSession_generated _ _ _ _ _ _ _ _ _
  | p2pSessionOpened client sessionId peer exportName path openedUnixMillis => exact openSession_generated _ _ _ _ _ _ _ _ _
  | tcpSessionClosed client sessionId closedUnixMillis terminalReason => exact closeSession_generated _ _ _ _ _ _
  | udpSessionClosed client sessionId closedUnixMillis terminalReason => exact closeSession_generated _ _ _ _ _ _
  | p2pSessionClosed client sessionId closedUnixMillis terminalReason => exact closeSession_generated _ _ _ _ _ _
  | byteCounterDelta client sessionId counters => exact (addCounters_generated _ _ _ _).symm.le
  | serverSample metrics => exact advance_generated _ _

theorem apply_progress (p : Projection) (event : ObservationEvent) : Progress p (p.apply event) :=
  ⟨apply_generated p event, fun hlookup => (apply_change p event).clients hlookup⟩

/-- The telemetry that an event gets accepted: the client, its generation and the sequence number. -/
def acceptedBy (p : Projection) : ObservationEvent → Option (String × UInt64 × Nat)
  | .clientTelemetryAccepted client sequence _ _ =>
      (p.acceptedTelemetry client sequence).map fun projected => (client.name.str, projected.generation, sequence)
  | _ => none

/-- The telemetry accepted in the course of a replay. -/
def telemetryLog : Projection → List ObservationEvent → List (String × UInt64 × Nat)
  | _, [] => []
  | p, event :: events => (p.acceptedBy event).toList ++ telemetryLog (p.apply event) events

/-- The entry is of the past: the client has seen its sequence number. -/
def Seen (p : Projection) (entry : String × UInt64 × Nat) : Prop :=
  ∃ c, p.clients.lookup entry.1 = some c ∧ entry.2.1 ≤ c.generation ∧
    (c.generation = entry.2.1 → ∃ s ∈ c.telemetrySequence, entry.2.2 ≤ s)

theorem Seen.progress {entry : String × UInt64 × Nat} (h : p.Seen entry) (hprogress : Progress p q) : q.Seen entry := by
  obtain ⟨c, hlookup, hgeneration, htelemetry⟩ := h
  obtain ⟨c', hlookup', hclient⟩ := hprogress.clients hlookup
  refine ⟨c', hlookup', UInt64.le_trans hgeneration hclient.generation, fun heq => ?_⟩
  have hc : c.generation = entry.2.1 := UInt64.le_antisymm (heq ▸ hclient.generation) hgeneration
  obtain ⟨s, hs, hle⟩ := htelemetry hc
  obtain ⟨s', hs', hle'⟩ := hclient.telemetry (heq.trans hc.symm) s hs
  exact ⟨s', hs', hle.trans hle'⟩

theorem acceptedBy_eq_some {entry : String × UInt64 × Nat} (h : p.acceptedBy event = some entry) :
    (p.apply event).Seen entry ∧ ∃ c, p.clients.lookup entry.1 = some c ∧ c.generation = entry.2.1 ∧
      ∀ s ∈ c.telemetrySequence, s < entry.2.2 := by
  cases event with
  | clientTelemetryAccepted client sequence receivedUnixMillis metrics =>
      obtain ⟨c, haccepted, rfl⟩ := Option.map_eq_some_iff.mp h
      obtain ⟨honline, hsequence⟩ := Option.filter_eq_some_iff.mp haccepted
      obtain ⟨hlookup, -⟩ := currentClient_eq_some (onlineClient_eq_some honline)
      refine ⟨⟨{ c with telemetrySequence := some sequence
                        telemetryReceivedUnixMillis := some receivedUnixMillis
                        metrics := some metrics }, ?_, UInt64.le_refl _, fun _ => ⟨sequence, rfl, le_refl _⟩⟩,
        c, hlookup, rfl, fun s hs => ?_⟩
      · change ((Projection.updateClient p client (p.acceptedTelemetry client sequence) _).advanceIf _ _).clients.lookup
          client.name.str = _
        rw [(advanceIf_fields _ _ _).1, haccepted]
        exact Finmap.lookup_insert _
      · rw [Option.mem_def.mp hs, Option.all_some, decide_eq_true_eq] at hsequence
        exact hsequence
  | _ => cases h

/-- What was seen before comes before what is accepted later. -/
theorem telemetryLog_after {entry later : String × UInt64 × Nat} (events : List ObservationEvent) (h : p.Seen entry)
    (hlater : later ∈ telemetryLog p events) (hname : entry.1 = later.1) (hgeneration : entry.2.1 = later.2.1) :
    entry.2.2 < later.2.2 := by
  induction events generalizing p with
  | nil => cases hlater
  | cons event events ih =>
      obtain haccepted | hrest := List.mem_append.mp hlater
      · obtain ⟨c, hlookup, hc, hsequence⟩ := (acceptedBy_eq_some (Option.mem_toList.mp haccepted)).2
        obtain ⟨d, hlookup', -, hseen⟩ := h
        rw [hname, hlookup] at hlookup'
        obtain rfl := Option.some.inj hlookup'
        obtain ⟨s, hs, hle⟩ := hseen (hc.trans hgeneration.symm)
        exact hle.trans_lt (hsequence s hs)
      · exact ih (h.progress (apply_progress p event)) hrest

theorem telemetryLog_pairwise (events : List ObservationEvent) (p : Projection) :
    (telemetryLog p events).Pairwise fun a b => a.1 = b.1 → a.2.1 = b.2.1 → a.2.2 < b.2.2 := by
  induction events generalizing p with
  | nil => exact .nil
  | cons event events ih =>
      rw [telemetryLog]
      cases haccepted : p.acceptedBy event with
      | none => exact ih _
      | some entry =>
          refine List.pairwise_cons.mpr ⟨fun later hlater => ?_, ih _⟩
          exact telemetryLog_after events (acceptedBy_eq_some haccepted).1 hlater

theorem foldl_progress (events : List ObservationEvent) (p : Projection) : Progress p (events.foldl apply p) := by
  induction events generalizing p with
  | nil => exact .refl p
  | cons event events ih => exact (apply_progress p event).trans (ih _)

/-- The authentication of a generation newer than the client's, or of its first one. -/
def Supersedes (p : Projection) : ObservationEvent → Prop
  | .clientAuthenticated client _ _ => ∀ c, p.clients.lookup client.name.str = some c → c.generation < client.generation
  | _ => False

/-- An event of another generation is ignored. -/
theorem apply_of_foreign (hclient : event.client = some client)
    (hforeign : ∀ c, p.clients.lookup client.name.str = some c → c.generation ≠ client.generation)
    (hold : ¬p.Supersedes event) : p.apply event = p := by
  have hcurrent : p.currentClient client = none := by
    refine Option.filter_eq_none_iff.mpr fun c hlookup => ?_
    exact fun hgeneration => hforeign c hlookup (of_decide_eq_true hgeneration)
  have honline : p.onlineClient client = none := by rw [onlineClient, hcurrent, Option.filter_none]
  have hnot : p.isCurrentClient client = false := by
    refine Bool.eq_false_iff.mpr fun hany => ?_
    obtain ⟨c, hlookup, hgeneration⟩ := (Option.any_eq_true _ _).mp hany
    exact hforeign c hlookup (of_decide_eq_true hgeneration)
  have hupdate (f : ClientSnapshot → ClientSnapshot) : p.updateClient client none f = p := rfl
  have hadvance (timestampUnixMillis : Nat) : p.advanceIf false timestampUnixMillis = p := rfl
  cases event with
  | clientAuthenticated other version authenticatedUnixMillis =>
      obtain rfl := Option.some.inj hclient
      obtain ⟨c, hc⟩ := not_forall.mp hold
      obtain ⟨hlookup, hle⟩ := Classical.not_imp.mp hc
      rw [apply, clientAuthenticated, hlookup]
      exact if_pos (decide_eq_true (UInt64.not_lt.mp hle))
  | clientDisconnected other disconnectedUnixMillis =>
      obtain rfl := Option.some.inj hclient
      simp only [apply, clientDisconnected, hcurrent, hupdate, Option.isSome_none, hadvance]
  | heartbeat other receivedUnixMillis =>
      obtain rfl := Option.some.inj hclient
      simp only [apply, heartbeat, honline, hupdate, Option.isSome_none, hadvance]
  | clientTelemetryAccepted other sequence receivedUnixMillis metrics =>
      obtain rfl := Option.some.inj hclient
      simp only [apply, clientTelemetryAccepted, acceptedTelemetry, honline, Option.filter_none, hupdate, Option.isSome_none,
        hadvance]
  | tunnelInventory other names | exportInventory other names | forwardInventory other names =>
      obtain rfl := Option.some.inj hclient
      simp only [apply, honline, hupdate]
  | tcpSessionOpened other sessionId tunnel openedUnixMillis =>
      obtain rfl := Option.some.inj hclient
      exact if_pos (by rw [honline]; rfl)
  | udpSessionOpened other sessionId tunnel openedUnixMillis =>
      obtain rfl := Option.some.inj hclient
      exact if_pos (by rw [honline]; rfl)
  | p2pSessionOpened other sessionId peer exportName path openedUnixMillis =>
      obtain rfl := Option.some.inj hclient
      exact if_pos (by rw [honline]; rfl)
  | tcpSessionClosed other sessionId closedUnixMillis terminalReason =>
      obtain rfl := Option.some.inj hclient
      exact if_neg (by simp [hnot])
  | udpSessionClosed other sessionId closedUnixMillis terminalReason =>
      obtain rfl := Option.some.inj hclient
      exact if_neg (by simp [hnot])
  | p2pSessionClosed other sessionId closedUnixMillis terminalReason =>
      obtain rfl := Option.some.inj hclient
      exact if_neg (by simp [hnot])
  | byteCounterDelta other sessionId counters =>
      obtain rfl := Option.some.inj hclient
      simp only [apply, addCounters, honline]
  | serverSample metrics => cases hclient

theorem ClientsChange.closes (h : ClientsChange p q) (hlookup : p.clients.lookup name = some c)
    (hlookup' : q.clients.lookup name = some c') (hgeneration : c.generation ≠ c'.generation)
    (hsession : q.sessions.lookup id = some session) (hclient : session.client.str = name) : session.closedUnixMillis ≠ none := by
  cases h with
  | same hclients hserver =>
      rw [hclients, hlookup] at hlookup'
      exact absurd (congrArg ClientSnapshot.generation (Option.some.inj hlookup')) hgeneration
  | @update other d d' counters hother hclients hkept htelemetry htraffic hserver =>
      rw [hclients] at hlookup'
      by_cases hname : name = other
      · subst hname
        obtain rfl := Option.some.inj (hlookup.symm.trans hother)
        obtain rfl := Option.some.inj ((Finmap.lookup_insert _).symm.trans hlookup')
        exact absurd hkept.symm hgeneration
      · rw [Finmap.lookup_insert_of_ne _ hname, hlookup] at hlookup'
        exact absurd (congrArg ClientSnapshot.generation (Option.some.inj hlookup')) hgeneration
  | @authenticate other d hnewer hclients htraffic hserver hclosed =>
      rw [hclients] at hlookup'
      by_cases hname : name = other
      · subst hname
        exact hclosed id session hsession hclient (by rw [hlookup]; rfl)
      · rw [Finmap.lookup_insert_of_ne _ hname, hlookup] at hlookup'
        exact absurd (congrArg ClientSnapshot.generation (Option.some.inj hlookup')) hgeneration

theorem replay_totalled {f : TrafficCounters → UInt64} (hdefault : f .default = 0)
    (hf : ∀ a b, f (TrafficCounters.saturatingAdd a b) = saturatingAdd (f a) (f b)) (events : List ObservationEvent) :
    (replay events).Totalled f := by
  induction events using List.reverseRecOn with
  | nil =>
      change (f .default).toNat = min 0 _
      rw [hdefault]
      rfl
  | append_singleton events event ih =>
      rw [replay, List.foldl_append]
      exact ih.change hdefault hf (apply_change _ event)

/-- The totals are conserved, nothing counted goes back, other generations are
ignored but for the one that supersedes the client's, which leaves none of its
sessions open, and telemetry is accepted in the order of its numbers. -/
theorem replay_conserves (events : List ObservationEvent) :
    ((replay events).serverTraffic.receivedBytes.toNat =
        min (total (fun _ c => c.traffic.receivedBytes.toNat) (replay events).clients) (2 ^ 64 - 1) ∧
      (replay events).serverTraffic.sentBytes.toNat =
        min (total (fun _ c => c.traffic.sentBytes.toNat) (replay events).clients) (2 ^ 64 - 1)) ∧
    (∀ later, (replay events).generatedUnixMillis ≤ (replay (events ++ later)).generatedUnixMillis ∧
      ∀ name c, (replay events).clients.lookup name = some c → ∃ c', (replay (events ++ later)).clients.lookup name = some c' ∧
        c.generation ≤ c'.generation ∧ c.traffic.receivedBytes ≤ c'.traffic.receivedBytes ∧
        c.traffic.sentBytes ≤ c'.traffic.sentBytes) ∧
    (∀ event client, event.client = some client →
      (∀ c, (replay events).clients.lookup client.name.str = some c → c.generation ≠ client.generation) →
      ¬(replay events).Supersedes event → (replay events).apply event = replay events) ∧
    (∀ event name c c', (replay events).clients.lookup name = some c → ((replay events).apply event).clients.lookup name = some c' →
      c.generation ≠ c'.generation → ∀ id session, ((replay events).apply event).sessions.lookup id = some session →
      session.client.str = name → session.closedUnixMillis ≠ none) ∧
    (telemetryLog default events).Pairwise fun a b => a.1 = b.1 → a.2.1 = b.2.1 → a.2.2 < b.2.2 := by
  refine ⟨⟨?_, ?_⟩, fun later => ?_, ?_, ?_, telemetryLog_pairwise events default⟩
  · exact replay_totalled (f := TrafficCounters.receivedBytes) rfl (fun _ _ => rfl) events
  · exact replay_totalled (f := TrafficCounters.sentBytes) rfl (fun _ _ => rfl) events
  · have hprogress := foldl_progress later (replay events)
    rw [replay, ← List.foldl_append] at hprogress
    refine ⟨hprogress.generatedUnixMillis, fun name c hlookup => ?_⟩
    obtain ⟨c', hlookup', hclient⟩ := hprogress.clients hlookup
    exact ⟨c', hlookup', hclient.generation, hclient.receivedBytes, hclient.sentBytes⟩
  · exact fun event client hclient hforeign hold => apply_of_foreign hclient hforeign hold
  · intro event name c c' hlookup hlookup' hgeneration id session hsession hclient
    exact (apply_change _ event).closes hlookup hlookup' hgeneration hsession hclient

theorem sampleName_bounded : "a".utf8ByteSize ≤ 128 := by decide

theorem sampleName_nonempty : "a" ≠ "" := by decide

def sampleName : BoundedLabel := ⟨"a", sampleName_bounded⟩

def sampleIdentity (generation : UInt64) (hgeneration : generation ≠ 0) : AuthenticatedClientIdentity :=
  ⟨sampleName, generation, sampleName_nonempty, hgeneration⟩

/-- The first authentication of a client, and the next one. -/
def sampleAuthenticated (generation : UInt64) (hgeneration : generation ≠ 0) : ObservationEvent :=
  .clientAuthenticated (sampleIdentity generation hgeneration) sampleName generation.toNat

theorem newer_generation_applies : ∃ client c, (sampleAuthenticated 2 (by decide)).client = some client ∧
    (replay [sampleAuthenticated 1 (by decide)]).clients.lookup client.name.str = some c ∧ c.generation ≠ client.generation ∧
    (replay [sampleAuthenticated 1 (by decide)]).apply (sampleAuthenticated 2 (by decide)) ≠
      replay [sampleAuthenticated 1 (by decide)] := by
  have hone : ((replay [sampleAuthenticated 1 (by decide)]).clients.lookup "a").any (·.generation = 1) = true := by decide +kernel
  obtain ⟨c, hlookup, hgeneration⟩ := (Option.any_eq_true _ _).mp hone
  refine ⟨sampleIdentity 2 (by decide), c, rfl, hlookup, ?_, fun heq => ?_⟩
  · rw [of_decide_eq_true hgeneration]
    decide
  · exact absurd (congrArg Projection.generatedUnixMillis heq) (by decide +kernel)

end Rustgo.Observability.Projection
