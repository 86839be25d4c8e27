import Rustgo.OrchestrationPaths

namespace Rustgo.Orchestration

open Call Checks Coordinator Path Protocol Rendezvous Tables Runs

variable {runtime : Runtime} {why : SessionId → Session → IoError → Prop} {follows : Session → Prop}
  {marks : SessionId → Mark → Prop} {s t u : Actor} {id : SessionId} {session session' : Session} {now : Moment}
  {labels : List Label}

/-- The attempt is prepared, and no race has it yet. -/
def Session.Prepared (session : Session) : Prop := session.directAttempt.isSome = true ∧ session.manager = false

instance (session : Session) : Decidable session.Prepared := inferInstanceAs (Decidable (_ ∧ _))

namespace Actor

def races (s : Actor) : List SessionId := s.effects.filterMap Effect.race

def relays (s : Actor) : List SessionId := s.effects.filterMap Effect.relay

end Actor

/-- The session whose relay is authenticated. -/
def Label.authenticated : Label → Option SessionId
  | .input _ (.relayAuthenticated id) => some id
  | _ => none

/-- Only a relay worker that was started reports that its relay is authenticated. -/
def Authentic (s : Actor) (l : Label) : Prop := ∀ id ∈ l.authenticated, id ∈ s.relays

instance (s : Actor) (l : Label) : Decidable (Authentic s l) :=
  inferInstanceAs (Decidable (∀ id ∈ l.authenticated, id ∈ s.relays))

theorem Input.Marks.manager {i : Input} (h : i.Marks id .manager) : i = .relayAuthenticated id := by
  cases i with
  | relayAuthenticated other => exact congrArg Input.relayAuthenticated h.1.symm
  | pathSelected => exact absurd h.2 (by simp)
  | promoted | sessionFinished => exact nomatch h.2
  | _ => exact h.elim

section Independent

/-- No manager was started for the session. -/
def Unmanaged (id other : SessionId) (session : Session) : Prop := other = id → session.manager = false

theorem Unmanaged.congr {other : SessionId} (h : Unmanaged id other session) (hm : session'.manager = session.manager) :
    Unmanaged id other session' := fun ho => hm.trans (h ho)

theorem Head.unmanaged {i : Input} (hu : Head runtime now i s u) (h : Everywhere (Unmanaged id) s) :
    u.effects = s.effects ∧ Everywhere (Unmanaged id) u := by
  cases hu with
  | opened | answered => exact ⟨rfl, Everywhere.put h fun _ => rfl⟩
  | recheck _ _ _ hl | bound _ _ _ hl | observed _ _ hl => exact ⟨rfl, Everywhere.put h ((h _ _ hl).congr rfl)⟩
  | skip | attached | detached | ungranted | granted | unobserved => exact ⟨rfl, h⟩

theorem count_races_append {new : List Effect} (h : t.effects = s.effects ++ new) (hnew : id ∉ new.filterMap Effect.race) :
    t.races.count id = s.races.count id := by
  rw [Actor.races, h, List.filterMap_append, List.count_append, List.count_eq_zero_of_not_mem hnew]
  rfl

theorem unmanaged_step {l : Label} (h : Everywhere (Unmanaged id) s) (hstep : Step runtime s l t)
    (hl : id ∉ l.authenticated) : Everywhere (Unmanaged id) t ∧ t.races.count id = s.races.count id := by
  cases step_outcome hstep with
  | @input now i u v _ hu hc =>
      have hmark : ¬ i.Marks id .manager := by
        intro hmark
        rw [hmark.manager] at hl
        exact hl rfl
      obtain ⟨heffects, hunmanaged⟩ := hu.unmanaged h
      obtain ⟨new, hnew, hraces⟩ := hc.effects
      refine ⟨Everywhere.mono (hunmanaged.changes ?_ hc) (fun _ _ hl => (lookup_keep_eq_some.mp hl).1) fun _ _ h => h, ?_⟩
      · rintro other epochs session session' hbefore he rfl
        rw [he.manager hmark]
        exact hbefore rfl
      · exact count_races_append (t := removeCancelled v) (heffects ▸ hnew) fun hin => hmark (hraces id hin)
  | cancelCaller hl' => exact ⟨h.put ((h _ _ hl').congr rfl), rfl⟩
  | sever | transmit => exact ⟨h, rfl⟩

theorem unmanaged_run (h : Everywhere (Unmanaged id) s) (hrun : Run (Step runtime) s labels t)
    (hlabels : ∀ l ∈ labels, id ∉ l.authenticated) : Everywhere (Unmanaged id) t ∧ t.races.count id = s.races.count id := by
  induction hrun with
  | refl => exact ⟨h, rfl⟩
  | snoc _ hstep ih =>
      obtain ⟨hbefore, hcount⟩ := ih fun l hl => hlabels l (List.mem_append_left _ hl)
      obtain ⟨hafter, hsame⟩ := unmanaged_step hbefore hstep (hlabels _ (List.mem_append_right _ (List.mem_singleton_self _)))
      exact ⟨hafter, hsame.trans hcount⟩

end Independent

section Entitled

/-- The session asks for the relay where this end may, and takes part in a race
where its peer has asked as well. -/
structure Justified (runtime : Runtime) (asked : Prop) (session : Session) : Prop where
  own : session.localRelayRequested = true → runtime.fallback = true
  peer : session.peerRelayRequested = true → asked
  manager : session.manager = true → runtime.fallback = true ∧ asked

structure Entitled (runtime : Runtime) (s : Actor) : Prop where
  sessions : Everywhere (fun id => Justified runtime (s.Asked id)) s
  relays : ∀ id ∈ s.relays, runtime.fallback = true ∧ s.Asked id
  races : ∀ id ∈ s.races, runtime.fallback = true ∧ s.Asked id
  sent : ∀ envelope ∈ s.trace.sent, isRelayRequest envelope.payload = true → runtime.fallback = true

theorem Change.asked (hc : Change runtime why follows marks s t) (h : s.Asked id) : t.Asked id := by
  obtain ⟨envelope, hin, hasked⟩ := h
  cases hc with
  | applied => exact ⟨envelope, List.mem_append_left _ hin, hasked⟩
  | _ => exact ⟨envelope, hin, hasked⟩

theorem Evolves.manager_cases {allowed : Mark → Prop} {epochs : Nat} (h : Evolves runtime follows allowed epochs session session')
    (hm : session'.manager = true) : session.manager = true ∨ allowed .manager := by
  by_cases hallowed : allowed .manager
  · exact .inr hallowed
  · exact .inl (h.manager hallowed ▸ hm)

theorem Change.relays (hc : Change runtime why follows marks s t) (hid : id ∈ t.relays) : id ∈ s.relays ∨ s.Agreed id := by
  cases hc with
  | emit effect _ ha =>
      rw [Actor.relays, List.filterMap_append, List.mem_append] at hid
      exact hid.imp_right fun hlast => ha id (by simpa [List.mem_filterMap] using hlast)
  | _ => exact .inl hid

theorem Change.races (hc : Change runtime why follows marks s t) (hid : id ∈ t.races) : id ∈ s.races ∨ marks id .manager := by
  obtain ⟨new, hnew, hmarks⟩ := hc.effects
  rw [Actor.races, hnew, List.filterMap_append, List.mem_append] at hid
  exact hid.imp_right (hmarks id)

/-- A relay request is sent only where the fallback is allowed. -/
theorem Change.sent {envelope : RendezvousEnvelope} (hc : Change runtime why follows marks s t) (hin : envelope ∈ t.trace.sent)
    (hrequest : isRelayRequest envelope.payload = true) : envelope ∈ s.trace.sent ∨ runtime.fallback = true := by
  cases hc with
  | post _ _ _ hf he =>
      refine (List.mem_append.mp hin).imp_right fun hlast => hf ?_
      rwa [← (signedEnvelope_spec he).payload, ← List.mem_singleton.mp hlast]
  | announce _ he | candidates _ _ _ _ _ he | resolve _ he | finishPost _ he =>
      refine (List.mem_append.mp hin).imp_right fun hlast => ?_
      rw [List.mem_singleton.mp hlast, (signedEnvelope_spec he).payload] at hrequest
      exact nomatch hrequest
  | _ => exact .inl hin

theorem Entitled.agreed (h : Entitled runtime s) (ha : s.Agreed id) : runtime.fallback = true ∧ s.Asked id := by
  obtain ⟨session, hl, hown, hpeer⟩ := ha
  exact ⟨(h.sessions id session hl).own hown, (h.sessions id session hl).peer hpeer⟩

theorem Entitled.change (h : Entitled runtime s) (hm : ∀ id, marks id .manager → runtime.fallback = true ∧ s.Asked id)
    (hc : Change runtime why follows marks s t) : Entitled runtime t := by
  have hlater {id : SessionId} (hboth : runtime.fallback = true ∧ s.Asked id) : runtime.fallback = true ∧ t.Asked id :=
    hboth.imp_right hc.asked
  refine ⟨?_, ?_, ?_, ?_⟩
  · intro id session hl
    obtain ⟨noted, hnoted, hn⟩ := hc.noting hl
    obtain ⟨before, hbefore, he⟩ := hc.evolves hl
    refine ⟨fun hown => ?_, fun hpeer => ?_, fun hmanager => ?_⟩
    · exact (hn.own hown).elim (h.sessions id noted hnoted).own fun hfallback => hfallback
    · exact hc.asked ((hn.peer hpeer).elim (h.sessions id noted hnoted).peer fun hasked => hasked)
    · exact hlater ((he.manager_cases hmanager).elim (h.sessions id before hbefore).manager (hm id))
  · exact fun id hid => hlater ((hc.relays hid).elim (h.relays id) h.agreed)
  · exact fun id hid => hlater ((hc.races hid).elim (h.races id) (hm id))
  · exact fun envelope hin hrequest => (hc.sent hin hrequest).elim (h.sent envelope · hrequest) fun hfallback => hfallback

theorem Entitled.changes (h : Entitled runtime s) (hm : ∀ id, marks id .manager → runtime.fallback = true ∧ s.Asked id)
    (hc : Changes runtime why follows marks s t) : Entitled runtime t := by
  induction hc with
  | refl => exact h
  | tail hbefore hlast ih =>
      refine ih.change (fun id hid => (hm id hid).imp_right fun hasked => ?_) hlast
      exact Changes.invariant (P := (·.Asked id)) (fun _ _ h hc => hc.asked h) hbefore hasked

theorem Entitled.head {i : Input} (h : Entitled runtime s) (hu : Head runtime now i s u) : Entitled runtime u := by
  obtain ⟨hsessions, hrelays, hraces, hsent⟩ := h
  cases hu with
  | opened | answered =>
      refine ⟨Everywhere.put hsessions ?_, hrelays, hraces, hsent⟩
      exact ⟨fun h => (nomatch h), fun h => (nomatch h), fun h => nomatch h⟩
  | recheck _ _ _ hl | bound _ _ _ hl | observed _ _ hl =>
      obtain ⟨hown, hpeer, hmanager⟩ := hsessions _ _ hl
      exact ⟨Everywhere.put hsessions ⟨hown, hpeer, hmanager⟩, hrelays, hraces, hsent⟩
  | skip | attached | detached | ungranted | granted | unobserved => exact ⟨hsessions, hrelays, hraces, hsent⟩

theorem Entitled.step {l : Label} (h : Entitled runtime s) (hstep : Step runtime s l t) (ha : Authentic s l) :
    Entitled runtime t := by
  cases step_outcome hstep with
  | @input now i u v _ hu hc =>
      have hmarks : ∀ id, i.Marks id .manager → runtime.fallback = true ∧ u.Asked id := by
        intro id hmark
        obtain rfl := hmark.manager
        cases hu with
        | skip => exact h.relays id (ha id rfl)
      obtain ⟨hsessions, hrelays, hraces, hsent⟩ := (h.head hu).changes hmarks hc
      exact ⟨Everywhere.mono hsessions (fun _ _ hl => (lookup_keep_eq_some.mp hl).1) fun _ _ h => h, hrelays, hraces, hsent⟩
  | cancelCaller hl =>
      obtain ⟨hsessions, hrelays, hraces, hsent⟩ := h
      obtain ⟨hown, hpeer, hmanager⟩ := hsessions _ _ hl
      exact ⟨Everywhere.put hsessions ⟨hown, hpeer, hmanager⟩, hrelays, hraces, hsent⟩
  | sever | transmit => exact ⟨h.sessions, h.relays, h.races, h.sent⟩

theorem entitled_run {generation : UInt64} {version : ProtocolVersion}
    (h : Run (Restricted (Step runtime) Authentic) (.new generation version) labels s) : Entitled runtime s := by
  refine h.invariant (fun _ _ _ h hstep => h.step hstep.1 hstep.2) ⟨?_, ?_, ?_, ?_⟩
  · exact fun _ _ hl => nomatch hl
  all_goals exact fun _ hin => nomatch hin

end Entitled

/-- Without the relay a prepared attempt stays where it is, whatever comes; and
sessions race only where the relay may be asked for at both ends. -/
theorem prepared_attempt_waits_for_relay {generation : UInt64} {version : ProtocolVersion}
    (h : Run (Restricted (Step runtime) Authentic) (.new generation version) labels s) :
    (∀ id session, s.sessions.lookup id = some session → session.Prepared → ∀ later t, Run (Step runtime) s later t →
      (∀ l ∈ later, id ∉ l.authenticated) →
        t.races.count id = s.races.count id ∧ ∀ session', t.sessions.lookup id = some session' → session'.manager = false) ∧
    (∀ id ∈ s.races, runtime.fallback = true ∧ s.Asked id) ∧
    ∀ envelope ∈ s.trace.sent, isRelayRequest envelope.payload = true → runtime.fallback = true := by
  obtain ⟨_, _, hraces, hsent⟩ := entitled_run h
  refine ⟨fun id session hl hprepared later t hrun hlater => ?_, hraces, hsent⟩
  have hunmanaged : Everywhere (Unmanaged id) s := by
    rintro other session' hl' rfl
    exact Option.some.inj (hl.symm.trans hl') ▸ hprepared.2
  obtain ⟨hafter, hcount⟩ := unmanaged_run hunmanaged hrun hlater
  exact ⟨hcount, fun session' hl' => hafter id session' hl' rfl⟩

section Sample

/-- A client that does not allow the relay. -/
def sampleClosed : Runtime :=
  { sampleRuntime "b" false with p2p := some { sampleConfig false with allowRelayFallback := false } }

theorem sampleClosed_prepared : ∃ s session, Run (Restricted (Step sampleClosed) Authentic) (.new 1 sampleVersion) samplePrepared s ∧
    s.sessions.lookup (sampleId 1) = some session ∧ session.Prepared := by
  have hexec : (exec (restrict (next sampleClosed) Authentic) (.new 1 sampleVersion) samplePrepared).any (fun s =>
      (s.sessions.lookup (sampleId 1)).any (fun session => session.Prepared) = true) = true := by decide +kernel
  obtain ⟨s, hrun, hprepared⟩ := run_of_exec_any (restricted_of_restrict fun _ _ _ h => h) hexec
  obtain ⟨session, hl, hprepared⟩ := Option.any_eq_true _ _ |>.mp hprepared
  exact ⟨s, session, hrun, hl, of_decide_eq_true hprepared⟩

theorem prepared_attempt_waits_in_vain : ∃ s session,
    Run (Restricted (Step sampleClosed) Authentic) (.new 1 sampleVersion) samplePrepared s ∧
      s.sessions.lookup (sampleId 1) = some session ∧ session.Prepared ∧ ∀ later t, Run (Step sampleClosed) s later t →
        (∀ l ∈ later, sampleId 1 ∉ l.authenticated) → t.races.count (sampleId 1) = s.races.count (sampleId 1) := by
  obtain ⟨s, session, hrun, hl, hprepared⟩ := sampleClosed_prepared
  exact ⟨s, session, hrun, hl, hprepared, fun later t hlater hrelay =>
    ((prepared_attempt_waits_for_relay hrun).1 _ session hl hprepared later t hlater hrelay).1⟩

/-- Nothing that can still happen starts a race for the prepared attempt. -/
theorem prepared_attempt_without_fallback_is_stuck : ¬ ∀ labels s,
    Run (Restricted (Step sampleClosed) Authentic) (.new 1 sampleVersion) labels s →
      ∀ id session, s.sessions.lookup id = some session → session.Prepared →
        ∃ later t, Run (Restricted (Step sampleClosed) Authentic) s later t ∧ id ∈ t.races := by
  intro h
  obtain ⟨s, session, hrun, hl, hprepared⟩ := sampleClosed_prepared
  obtain ⟨later, t, hlater, hraced⟩ := h _ s hrun _ session hl hprepared
  exact nomatch ((entitled_run (hrun.trans hlater)).races _ hraced).1

end Sample

end Rustgo.Orchestration
