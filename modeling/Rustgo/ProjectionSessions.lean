import Rustgo.Projection

namespace Rustgo.Observability.Projection

open Registry Tables

variable {p q : Projection} {pending : List ShortSessionId} {entry : Nat ×ₗ ShortSessionId} {client : AuthenticatedClientIdentity}
  {id sessionId : ShortSessionId} {closed closedUnixMillis : Nat} {session : SessionSnapshot}

def Closed (p : Projection) (closed : Nat) (id : ShortSessionId) : Prop :=
  ∃ session, p.sessions.lookup id = some session ∧ session.closedUnixMillis = some closed

/-- The index holds the closed sessions but those that are still to be recorded. -/
def Indexed (p : Projection) (pending : List ShortSessionId) : Prop :=
  ∀ closed id, toLex (closed, id) ∈ p.terminalSessions ↔ p.Closed closed id ∧ id ∉ pending

theorem Closed.unique {other : Nat} (h : p.Closed closed id) (h' : p.Closed other id) : closed = other := by
  obtain ⟨session, hsession, hclosed⟩ := h
  obtain ⟨_, hsession', hclosed'⟩ := h'
  obtain rfl := Option.some.inj (hsession.symm.trans hsession')
  exact Option.some.inj (hclosed.symm.trans hclosed')

theorem Closed.congr (h : q.sessions.lookup id = p.sessions.lookup id) : q.Closed closed id ↔ p.Closed closed id := by
  rw [Closed, Closed, h]

theorem Indexed.of_eq (h : p.Indexed pending) (hindex : q.terminalSessions = p.terminalSessions) (hsessions : q.sessions = p.sessions) :
    q.Indexed pending := by
  intro closed id
  rw [hindex, Closed, hsessions]
  exact h closed id

/-- The eviction takes the session of the entry with it. -/
theorem evictEntry_sessions (h : p.Indexed pending) (hentry : entry ∈ p.terminalSessions) :
    entry.2 ∉ pending ∧ (p.evictEntry entry).sessions = p.sessions.erase entry.2 := by
  obtain ⟨⟨session, hsession, hclosed⟩, hpending⟩ := (h entry.1 entry.2).mp hentry
  refine ⟨hpending, if_pos ?_⟩
  rw [hsession]
  simp [hclosed]

theorem evictEntry_indexed (h : p.Indexed pending) (hentry : entry ∈ p.terminalSessions) : (p.evictEntry entry).Indexed pending := by
  obtain ⟨hpending, hsessions⟩ := evictEntry_sessions h hentry
  have hself : p.Closed entry.1 entry.2 := ((h entry.1 entry.2).mp hentry).1
  intro closed id
  change toLex (closed, id) ∈ p.terminalSessions.erase entry ↔ _
  rw [Finset.mem_erase, h closed id]
  by_cases hid : id = entry.2
  · subst hid
    constructor
    · rintro ⟨hne, hclosed, -⟩
      exact absurd (congrArg (fun time => toLex (time, entry.2)) (hclosed.unique hself)) hne
    · rintro ⟨⟨session, hlookup, -⟩, -⟩
      rw [hsessions, Finmap.lookup_erase] at hlookup
      cases hlookup
  · have hne : toLex (closed, id) ≠ entry := fun heq => hid (congrArg Prod.snd heq)
    have hsame : (p.evictEntry entry).Closed closed id ↔ p.Closed closed id :=
      Closed.congr (by rw [hsessions, Finmap.lookup_erase_ne hid])
    rw [hsame]
    exact and_iff_right hne

/-- Whatever the index says, an open session is not evicted. -/
theorem evictEntry_open (hsession : p.sessions.lookup id = some session) (hopen : session.closedUnixMillis = none) :
    (p.evictEntry entry).sessions.lookup id = some session := by
  rw [← hsession, evictEntry]
  dsimp only
  split
  · next hany =>
    refine Finmap.lookup_erase_ne ?_
    rintro rfl
    rw [hsession] at hany
    simp [hopen] at hany
  · rfl

theorem evict_indexed (n : Nat) (h : p.Indexed pending) :
    (evict n p).Indexed pending ∧ ∀ id ∈ pending, (evict n p).sessions.lookup id = p.sessions.lookup id := by
  induction n generalizing p with
  | zero => exact ⟨h, fun _ _ => rfl⟩
  | succ n ih =>
      rw [evict]
      split
      · cases hfirst : first? p.terminalSessions with
        | none => exact ⟨h, fun _ _ => rfl⟩
        | some entry =>
            have hentry := first?_mem hfirst
            obtain ⟨hpending, hsessions⟩ := evictEntry_sessions h hentry
            obtain ⟨hindexed, hkept⟩ := ih (evictEntry_indexed h hentry)
            refine ⟨hindexed, fun id hid => ?_⟩
            rw [hkept id hid, hsessions]
            exact Finmap.lookup_erase_ne (ne_of_mem_of_not_mem hid hpending)
      · exact ⟨h, fun _ _ => rfl⟩

theorem evict_open (n : Nat) (hsession : p.sessions.lookup id = some session) (hopen : session.closedUnixMillis = none) :
    (evict n p).sessions.lookup id = some session := by
  induction n generalizing p with
  | zero => exact hsession
  | succ n ih =>
      rw [evict]
      split
      · split
        · exact hsession
        · exact ih (evictEntry_open hsession hopen)
      · exact hsession

theorem evict_bounded (n : Nat) (h : p.terminalSessions.card ≤ MAX_TERMINAL_SESSIONS + n) :
    (evict n p).terminalSessions.card ≤ MAX_TERMINAL_SESSIONS := by
  induction n generalizing p with
  | zero => exact h
  | succ n ih =>
      rw [evict]
      split
      · next hlt =>
        cases hfirst : first? p.terminalSessions with
        | none =>
            rw [first?_eq_none hfirst, Finset.card_empty] at hlt
            exact absurd hlt (Nat.not_lt_zero _)
        | some entry =>
            apply ih
            change (p.terminalSessions.erase entry).card ≤ _
            rw [Finset.card_erase_of_mem (first?_mem hfirst)]
            omega
      · next hle => exact not_lt.mp hle

theorem recordTerminal_bounded (p : Projection) (sessionId : ShortSessionId) (closedUnixMillis : Nat) :
    (p.recordTerminal sessionId closedUnixMillis).terminalSessions.card ≤ MAX_TERMINAL_SESSIONS :=
  evict_bounded _ (Nat.le_add_left _ _)

theorem recordTerminal_open (hsession : p.sessions.lookup id = some session) (hopen : session.closedUnixMillis = none) :
    (p.recordTerminal sessionId closedUnixMillis).sessions.lookup id = some session :=
  evict_open _ hsession hopen

theorem recordTerminal_indexed (h : p.Indexed (sessionId :: pending)) (hclosed : p.Closed closedUnixMillis sessionId)
    (hpending : sessionId ∉ pending) :
    (p.recordTerminal sessionId closedUnixMillis).Indexed pending ∧
      ∀ id ∈ pending, (p.recordTerminal sessionId closedUnixMillis).sessions.lookup id = p.sessions.lookup id := by
  refine evict_indexed _ fun closed id => ?_
  change toLex (closed, id) ∈ insert _ p.terminalSessions ↔ p.Closed closed id ∧ _
  rw [Finset.mem_insert, h closed id]
  constructor
  · rintro (heq | ⟨hother, hid⟩)
    · obtain ⟨rfl, rfl⟩ := Prod.mk.inj (toLex.injective heq)
      exact ⟨hclosed, hpending⟩
    · exact ⟨hother, List.not_mem_of_not_mem_cons hid⟩
  · rintro ⟨hother, hid⟩
    by_cases heq : id = sessionId
    · subst heq
      rw [hother.unique hclosed]
      exact .inl rfl
    · exact .inr ⟨hother, by simp [heq, hid]⟩

/-- Recording the closed sessions one after the other completes the index. -/
theorem recordAll_indexed (ids : List ShortSessionId) (hnodup : ids.Nodup) (h : p.Indexed ids)
    (hclosed : ∀ id ∈ ids, p.Closed closedUnixMillis id) :
    (ids.foldl (fun p id => p.recordTerminal id closedUnixMillis) p).Indexed [] := by
  induction ids generalizing p with
  | nil => exact h
  | cons id ids ih =>
      obtain ⟨hid, hnodup⟩ := List.nodup_cons.mp hnodup
      obtain ⟨hindexed, hkept⟩ := recordTerminal_indexed h (hclosed id List.mem_cons_self) hid
      refine ih hnodup hindexed fun other hother => ?_
      rw [Closed.congr (hkept other hother)]
      exact hclosed other (List.mem_cons_of_mem _ hother)

theorem recordAll_bounded (ids : List ShortSessionId) (h : p.terminalSessions.card ≤ MAX_TERMINAL_SESSIONS) :
    (ids.foldl (fun p id => p.recordTerminal id closedUnixMillis) p).terminalSessions.card ≤ MAX_TERMINAL_SESSIONS := by
  induction ids generalizing p with
  | nil => exact h
  | cons id ids ih => exact ih (recordTerminal_bounded p id closedUnixMillis)

theorem recordAll_open (ids : List ShortSessionId) (hsession : p.sessions.lookup id = some session)
    (hopen : session.closedUnixMillis = none) :
    (ids.foldl (fun p id => p.recordTerminal id closedUnixMillis) p).sessions.lookup id = some session := by
  induction ids generalizing p with
  | nil => exact hsession
  | cons id ids ih => exact ih (recordTerminal_open hsession hopen)

/-- The index is exactly the set of the closed sessions held, and bounded. -/
structure TerminalIndex (p : Projection) : Prop where
  exact : p.Indexed []
  bounded : p.terminalSessions.card ≤ MAX_TERMINAL_SESSIONS

theorem TerminalIndex.of_eq (h : p.TerminalIndex) (hindex : q.terminalSessions = p.terminalSessions) (hsessions : q.sessions = p.sessions) :
    q.TerminalIndex :=
  ⟨h.exact.of_eq hindex hsessions, by rw [hindex]; exact h.bounded⟩

theorem terminalizeSessions_index (h : p.TerminalIndex) (client : AuthenticatedClientIdentity) (closedUnixMillis : Nat) :
    (p.terminalizeSessions client closedUnixMillis).TerminalIndex := by
  have hmem {id : ShortSessionId} : id ∈ (keep (fun _ session => openOf client session) p.sessions).keys.sort ↔
      ∃ session, p.sessions.lookup id = some session ∧ openOf client session = true := by
    rw [Finset.mem_sort, Finmap.mem_keys, ← Finmap.lookup_isSome, Option.isSome_iff_exists]
    exact exists_congr fun session => lookup_keep_eq_some
  refine ⟨recordAll_indexed _ (Finset.sort_nodup _ _) ?_ ?_, recordAll_bounded _ h.bounded⟩
  · intro closed id
    have hexact : toLex (closed, id) ∈ p.terminalSessions ↔ p.Closed closed id := (h.exact closed id).trans (and_iff_left List.not_mem_nil)
    refine hexact.trans ?_
    rw [hmem, Closed, Closed, lookup_update]
    cases p.sessions.lookup id with
    | none => simp
    | some session =>
        cases hopen : openOf client session with
        | true => simp [hopen, (of_decide_eq_true hopen).2]
        | false => simp [hopen]
  · intro id hid
    obtain ⟨session, hsession, hopen⟩ := hmem.mp hid
    refine ⟨terminate session closedUnixMillis (some replacementReason), ?_, rfl⟩
    rw [lookup_update, hsession, Option.map_some, if_pos hopen]

theorem terminalizeSessions_open (hsession : p.sessions.lookup id = some session) (hopen : session.closedUnixMillis = none)
    (hclient : session.client.str ≠ client.name.str) :
    (p.terminalizeSessions client closedUnixMillis).sessions.lookup id = some session := by
  refine recordAll_open _ ?_ hopen
  rw [lookup_update, hsession, Option.map_some, if_neg (by simp [openOf, hclient])]

theorem clientAuthenticated_index (h : p.TerminalIndex) (client : AuthenticatedClientIdentity) (version : BoundedLabel)
    (authenticatedUnixMillis : Nat) : (p.clientAuthenticated client version authenticatedUnixMillis).TerminalIndex := by
  rw [clientAuthenticated]
  split
  · exact h
  · split
    · exact (terminalizeSessions_index h client authenticatedUnixMillis).of_eq rfl rfl
    · exact h.of_eq rfl rfl

theorem forgetTerminal_sessions (p : Projection) (sessionId : ShortSessionId) :
    (p.forgetTerminal sessionId).sessions = p.sessions := by
  rw [forgetTerminal]
  split <;> rfl

/-- The entry of a session that was closed goes before the id is used again. -/
theorem forgetTerminal_withSession (h : p.TerminalIndex) (hopen : session.closedUnixMillis = none) :
    ((p.forgetTerminal sessionId).withSession sessionId session).TerminalIndex := by
  have hself (q : Projection) (time : Nat) : ¬(q.withSession sessionId session).Closed time sessionId := by
    rintro ⟨_, hlookup, hclosed⟩
    obtain rfl := Option.some.inj ((Finmap.lookup_insert _).symm.trans hlookup)
    cases hopen.symm.trans hclosed
  have hother {time : Nat} {id : ShortSessionId} (hid : id ≠ sessionId) :
      ((p.forgetTerminal sessionId).withSession sessionId session).Closed time id ↔ p.Closed time id :=
    Closed.congr ((Finmap.lookup_insert_of_ne _ hid).trans (by rw [forgetTerminal_sessions]))
  cases hlookup : (p.sessions.lookup sessionId).bind SessionSnapshot.closedUnixMillis with
  | some closed =>
      obtain ⟨old, hold, hclosed⟩ := Option.bind_eq_some_iff.mp hlookup
      have hindex : (p.forgetTerminal sessionId).terminalSessions = p.terminalSessions.erase (toLex (closed, sessionId)) := by
        simp only [forgetTerminal, hlookup]
      refine ⟨fun time id => ?_, ?_⟩
      · change toLex (time, id) ∈ (p.forgetTerminal sessionId).terminalSessions ↔ _
        rw [hindex, Finset.mem_erase, h.exact time id]
        by_cases hid : id = sessionId
        · subst hid
          constructor
          · rintro ⟨hne, htime, -⟩
            exact absurd (congrArg (fun time => toLex (time, id)) (htime.unique ⟨old, hold, hclosed⟩)) hne
          · rintro ⟨hnew, -⟩
            exact absurd hnew (hself _ time)
        · have hne : toLex (time, id) ≠ toLex (closed, sessionId) := fun heq => hid (congrArg Prod.snd heq)
          exact (and_iff_right hne).trans (and_congr_left' (hother hid).symm)
      · change (p.forgetTerminal sessionId).terminalSessions.card ≤ _
        rw [hindex]
        exact (Finset.card_le_card (Finset.erase_subset _ _)).trans h.bounded
  | none =>
      have hsame : p.forgetTerminal sessionId = p := by simp only [forgetTerminal, hlookup]
      rw [hsame] at hother ⊢
      refine ⟨fun time id => (h.exact time id).trans (and_congr_left' ?_), h.bounded⟩
      by_cases hid : id = sessionId
      · subst hid
        refine iff_of_false ?_ (hself _ time)
        rintro ⟨old, hold, hclosed⟩
        exact absurd (Option.bind_eq_some_iff.mpr ⟨old, hold, hclosed⟩) (by simp [hlookup])
      · exact (hother hid).symm

theorem openSession_index (h : p.TerminalIndex) (sessionId : ShortSessionId) (kind : SessionKind) (path : SessionPath)
    (peer tunnel exportName : Option BoundedLabel) (openedUnixMillis : Nat) :
    (p.openSession client sessionId kind path peer tunnel exportName openedUnixMillis).TerminalIndex := by
  rw [openSession]
  split
  · exact h
  · exact (forgetTerminal_withSession h rfl).of_eq rfl rfl

theorem closeSession_index (h : p.TerminalIndex) (sessionId : ShortSessionId) (expectedKind : SessionKind)
    (closedUnixMillis : Nat) (terminalReason : Option BoundedLabel) :
    (p.closeSession client sessionId expectedKind closedUnixMillis terminalReason).TerminalIndex := by
  rw [closeSession]
  split
  · cases hsession : (p.sessions.lookup sessionId).filter fun session => openOf client session && session.kind = expectedKind with
    | none => exact h
    | some session =>
        obtain ⟨hlookup, hopen⟩ := Option.filter_eq_some_iff.mp hsession
        have hnone : session.closedUnixMillis = none := (of_decide_eq_true (Bool.and_eq_true_iff.mp hopen).1).2
        dsimp only
        generalize hterm : terminate session closedUnixMillis terminalReason = terminated
        have hclosed : (p.withSession sessionId terminated).Closed closedUnixMillis sessionId :=
          ⟨terminated, Finmap.lookup_insert _, by rw [← hterm]; rfl⟩
        have hindexed : (p.withSession sessionId terminated).Indexed [sessionId] := by
          refine fun time id => (h.exact time id).trans ?_
          rw [List.mem_singleton, and_iff_left List.not_mem_nil]
          by_cases hid : id = sessionId
          · subst hid
            refine iff_of_false ?_ fun hpair => hpair.2 rfl
            rintro ⟨old, hold, hclosed⟩
            obtain rfl := Option.some.inj (hlookup.symm.trans hold)
            cases hnone.symm.trans hclosed
          · exact (Closed.congr (Finmap.lookup_insert_of_ne _ hid)).symm.trans (and_iff_left hid).symm
        have hrecorded : ((p.withSession sessionId terminated).recordTerminal sessionId closedUnixMillis).TerminalIndex :=
          ⟨(recordTerminal_indexed hindexed hclosed List.not_mem_nil).1, recordTerminal_bounded _ _ _⟩
        exact hrecorded.of_eq rfl rfl
  · exact h

theorem chargeSession_index (h : p.TerminalIndex) (client : AuthenticatedClientIdentity) (counters : TrafficCounters)
    (sessionId : ShortSessionId) : (p.chargeSession client counters sessionId).TerminalIndex := by
  rw [chargeSession]
  split
  · next session hsession =>
    obtain ⟨hlookup, hopen⟩ := Option.filter_eq_some_iff.mp hsession
    have hnone : session.closedUnixMillis = none := (of_decide_eq_true hopen).2
    refine ⟨fun time id => (h.exact time id).trans (and_congr_left' ?_), h.bounded⟩
    by_cases hid : id = sessionId
    · subst hid
      refine iff_of_false ?_ ?_
      · rintro ⟨old, hold, hclosed⟩
        obtain rfl := Option.some.inj (hlookup.symm.trans hold)
        cases hnone.symm.trans hclosed
      · rintro ⟨charged, hcharged, hclosed⟩
        obtain rfl := Option.some.inj ((Finmap.lookup_insert _).symm.trans hcharged)
        cases hnone.symm.trans hclosed
    · exact (Closed.congr (Finmap.lookup_insert_of_ne _ hid)).symm
  · exact h

theorem addCounters_index (h : p.TerminalIndex) (client : AuthenticatedClientIdentity) (sessionId : Option ShortSessionId)
    (counters : TrafficCounters) : (p.addCounters client sessionId counters).TerminalIndex := by
  rw [addCounters]
  split
  · exact h
  · dsimp only
    split
    · refine chargeSession_index ?_ client counters _
      exact h.of_eq rfl rfl
    · exact h.of_eq rfl rfl

theorem updateClient_index (h : p.TerminalIndex) (client : AuthenticatedClientIdentity) (accepted : Option ClientSnapshot)
    (f : ClientSnapshot → ClientSnapshot) : (p.updateClient client accepted f).TerminalIndex := by
  unfold updateClient
  split
  · exact h.of_eq rfl rfl
  · exact h

theorem advanceIf_index (h : p.TerminalIndex) (applied : Bool) (timestampUnixMillis : Nat) :
    (p.advanceIf applied timestampUnixMillis).TerminalIndex := by
  rw [advanceIf]
  split
  · exact h.of_eq rfl rfl
  · exact h

theorem apply_index (h : p.TerminalIndex) (event : ObservationEvent) : (p.apply event).TerminalIndex := by
  cases event with
  | clientAuthenticated client version authenticatedUnixMillis => exact clientAuthenticated_index h _ _ _
  | clientDisconnected client disconnectedUnixMillis => exact advanceIf_index (updateClient_index h _ _ _) _ _
  | heartbeat client receivedUnixMillis => exact advanceIf_index (updateClient_index h _ _ _) _ _
  | clientTelemetryAccepted client sequence receivedUnixMillis metrics => exact advanceIf_index (updateClient_index h _ _ _) _ _
  | tunnelInventory client names | exportInventory client names | forwardInventory client names => exact updateClient_index h _ _ _
  | tcpSessionOpened client sessionId tunnel openedUnixMillis => exact openSession_index h _ _ _ _ _ _ _
  | udpSessionOpened client sessionId tunnel openedUnixMillis => exact openSession_index h _ _ _ _ _ _ _
  | p2pSessionOpened client sessionId peer exportName path openedUnixMillis => exact openSession_index h _ _ _ _ _ _ _
  | tcpSessionClosed client sessionId closedUnixMillis terminalReason => exact closeSession_index h _ _ _ _
  | udpSessionClosed client sessionId closedUnixMillis terminalReason => exact closeSession_index h _ _ _ _
  | p2pSessionClosed client sessionId closedUnixMillis terminalReason => exact closeSession_index h _ _ _ _
  | byteCounterDelta client sessionId counters => exact addCounters_index h _ _ _
  | serverSample metrics => exact h.of_eq rfl rfl

theorem replay_index (events : List ObservationEvent) : (replay events).TerminalIndex := by
  induction events using List.reverseRecOn with
  | nil =>
      refine ⟨fun closed id => iff_of_false (Finset.notMem_empty _) ?_, Nat.zero_le _⟩
      rintro ⟨⟨session, hsession, -⟩, -⟩
      cases (Finmap.lookup_empty id).symm.trans hsession
  | append_singleton events event ih =>
      rw [replay, List.foldl_append]
      exact apply_index ih event

/-- The event ends the session, which is still open. -/
def Ends (id : ShortSessionId) (session : SessionSnapshot) : ObservationEvent → Prop
  | .clientAuthenticated client _ _ => session.client.str = client.name.str
  | .tcpSessionClosed client sessionId _ _ => id = sessionId ∧ session.client.str = client.name.str ∧ session.kind = .tcp
  | .udpSessionClosed client sessionId _ _ => id = sessionId ∧ session.client.str = client.name.str ∧ session.kind = .udp
  | .p2pSessionClosed client sessionId _ _ => id = sessionId ∧ session.client.str = client.name.str ∧ session.kind = .p2p
  | _ => False

def Open (p : Projection) (id : ShortSessionId) : Prop :=
  ∃ session, p.sessions.lookup id = some session ∧ session.closedUnixMillis = none

theorem Open.congr (h : p.Open id) (hq : q.sessions.lookup id = p.sessions.lookup id) : q.Open id := by
  obtain ⟨session, hsession, hopen⟩ := h
  exact ⟨session, hq.trans hsession, hopen⟩

theorem Open.withSession (h : p.Open id) (hopen : session.closedUnixMillis = none) : (p.withSession sessionId session).Open id := by
  by_cases hid : id = sessionId
  · subst hid
    exact ⟨session, Finmap.lookup_insert _, hopen⟩
  · exact h.congr (Finmap.lookup_insert_of_ne _ hid)

theorem openSession_open (h : p.Open id) (sessionId : ShortSessionId) (kind : SessionKind) (path : SessionPath)
    (peer tunnel exportName : Option BoundedLabel) (openedUnixMillis : Nat) :
    (p.openSession client sessionId kind path peer tunnel exportName openedUnixMillis).Open id := by
  rw [openSession]
  split
  · exact h
  · have hforget : (p.forgetTerminal sessionId).Open id := h.congr (by rw [forgetTerminal_sessions])
    exact (hforget.withSession rfl).congr rfl

theorem closeSession_open (hsession : p.sessions.lookup id = some session) (hopen : session.closedUnixMillis = none)
    (sessionId : ShortSessionId) (expectedKind : SessionKind) (closedUnixMillis : Nat) (terminalReason : Option BoundedLabel) :
    (id = sessionId ∧ session.client.str = client.name.str ∧ session.kind = expectedKind) ∨
      (p.closeSession client sessionId expectedKind closedUnixMillis terminalReason).Open id := by
  have hself : p.Open id := ⟨session, hsession, hopen⟩
  rw [closeSession]
  split
  · cases hclosing : (p.sessions.lookup sessionId).filter fun session => openOf client session && session.kind = expectedKind with
    | none => exact .inr hself
    | some closing =>
        obtain ⟨hlookup, hexpected⟩ := Option.filter_eq_some_iff.mp hclosing
        by_cases hid : id = sessionId
        · subst hid
          obtain rfl := Option.some.inj (hsession.symm.trans hlookup)
          obtain ⟨hclient, hkind⟩ := Bool.and_eq_true_iff.mp hexpected
          exact .inl ⟨rfl, (of_decide_eq_true hclient).1, of_decide_eq_true hkind⟩
        · exact .inr ⟨session, recordTerminal_open ((Finmap.lookup_insert_of_ne _ hid).trans hsession) hopen, hopen⟩
  · exact .inr hself

theorem clientAuthenticated_open (hsession : p.sessions.lookup id = some session) (hopen : session.closedUnixMillis = none)
    (hclient : session.client.str ≠ client.name.str) (version : BoundedLabel) (authenticatedUnixMillis : Nat) :
    (p.clientAuthenticated client version authenticatedUnixMillis).Open id := by
  rw [clientAuthenticated]
  split
  · exact ⟨session, hsession, hopen⟩
  · split
    · exact ⟨session, terminalizeSessions_open hsession hopen hclient, hopen⟩
    · exact ⟨session, hsession, hopen⟩

theorem addCounters_open (h : p.Open id) (client : AuthenticatedClientIdentity) (sessionId : Option ShortSessionId)
    (counters : TrafficCounters) : (p.addCounters client sessionId counters).Open id := by
  rw [addCounters]
  split
  · exact h
  · dsimp only
    split
    · rw [chargeSession]
      split
      · next charged hcharged =>
        obtain ⟨-, hopen⟩ := Option.filter_eq_some_iff.mp hcharged
        exact (h.congr rfl).withSession (of_decide_eq_true hopen).2
      · exact h.congr rfl
    · exact h.congr rfl

theorem updateClient_open (h : p.Open id) (client : AuthenticatedClientIdentity) (accepted : Option ClientSnapshot)
    (f : ClientSnapshot → ClientSnapshot) : (p.updateClient client accepted f).Open id := by
  unfold updateClient
  split
  · exact h.congr rfl
  · exact h

theorem advanceIf_open (h : p.Open id) (applied : Bool) (timestampUnixMillis : Nat) :
    (p.advanceIf applied timestampUnixMillis).Open id := by
  rw [advanceIf]
  split
  · exact h.congr rfl
  · exact h

/-- A session that is open stays open until an event ends it. -/
theorem apply_open (hsession : p.sessions.lookup id = some session) (hopen : session.closedUnixMillis = none)
    (event : ObservationEvent) : Ends id session event ∨ (p.apply event).Open id := by
  have hself : p.Open id := ⟨session, hsession, hopen⟩
  cases event with
  | clientAuthenticated client version authenticatedUnixMillis =>
      by_cases hclient : session.client.str = client.name.str
      · exact .inl hclient
      · exact .inr (clientAuthenticated_open hsession hopen hclient _ _)
  | clientDisconnected client disconnectedUnixMillis => exact .inr (advanceIf_open (updateClient_open hself _ _ _) _ _)
  | heartbeat client receivedUnixMillis => exact .inr (advanceIf_open (updateClient_open hself _ _ _) _ _)
  | clientTelemetryAccepted client sequence receivedUnixMillis metrics =>
      exact .inr (advanceIf_open (updateClient_open hself _ _ _) _ _)
  | tunnelInventory client names | exportInventory client names | forwardInventory client names =>
      exact .inr (updateClient_open hself _ _ _)
  | tcpSessionOpened client sessionId tunnel openedUnixMillis => exact .inr (openSession_open hself _ _ _ _ _ _ _)
  | udpSessionOpened client sessionId tunnel openedUnixMillis => exact .inr (openSession_open hself _ _ _ _ _ _ _)
  | p2pSessionOpened client sessionId peer exportName path openedUnixMillis => exact .inr (openSession_open hself _ _ _ _ _ _ _)
  | tcpSessionClosed client sessionId closedUnixMillis terminalReason => exact closeSession_open hsession hopen _ _ _ _
  | udpSessionClosed client sessionId closedUnixMillis terminalReason => exact closeSession_open hsession hopen _ _ _ _
  | p2pSessionClosed client sessionId closedUnixMillis terminalReason => exact closeSession_open hsession hopen _ _ _ _
  | byteCounterDelta client sessionId counters => exact .inr (addCounters_open hself _ _ _)
  | serverSample metrics => exact .inr (hself.congr rfl)

/-- After every event the index is exact and bounded, and neither an eviction nor
an event that does not end it takes an open session away. -/
theorem terminal_sessions_exact (events : List ObservationEvent) :
    (∀ closed id, toLex (closed, id) ∈ (replay events).terminalSessions ↔
      ∃ session, (replay events).sessions.lookup id = some session ∧ session.closedUnixMillis = some closed) ∧
    (replay events).terminalSessions.card ≤ MAX_TERMINAL_SESSIONS ∧
    (∀ event id session, (replay events).sessions.lookup id = some session → session.closedUnixMillis = none →
      Ends id session event ∨ ((replay events).apply event).Open id) ∧
    ∀ (p : Projection) sessionId closedUnixMillis id session, p.sessions.lookup id = some session →
      session.closedUnixMillis = none → (p.recordTerminal sessionId closedUnixMillis).sessions.lookup id = some session := by
  obtain ⟨hexact, hbounded⟩ := replay_index events
  refine ⟨fun closed id => ?_, hbounded, fun event id session hsession hopen => apply_open hsession hopen event,
    fun p sessionId closedUnixMillis id session hsession hopen => recordTerminal_open hsession hopen⟩
  exact (hexact closed id).trans (and_iff_left List.not_mem_nil)

end Rustgo.Observability.Projection
