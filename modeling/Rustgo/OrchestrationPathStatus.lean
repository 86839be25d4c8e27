import Rustgo.OrchestrationPaths

namespace Rustgo.Orchestration

open Call Checks Coordinator Path Protocol Rendezvous Tables Runs

variable {runtime : Runtime} {why : SessionId → Session → IoError → Prop} {follows : Session → Prop}
  {marks : SessionId → Mark → Prop} {allowed : Mark → Prop} {s t u : Actor} {id : SessionId} {session session' : Session} {name : String}

/-- The session has a selected path or an authenticated relay. -/
def Session.HasPath (session : Session) : Prop := session.selectedKind.isSome = true ∨ session.relayReady = true

instance (session : Session) : Decidable session.HasPath := inferInstanceAs (Decidable (_ ∨ _))

/-- A session for the export has a path. -/
def Actor.Carries (s : Actor) (exportName : String) : Prop :=
  ∃ id session, s.sessions.lookup id = some session ∧ session.exportName = exportName ∧ session.HasPath

/-- The store has entries for the exports whose sessions have paths, and for no others. -/
def Actor.Accurate (s : Actor) : Prop := ∀ exportName, exportName ∈ s.pathStatus.entries ↔ s.Carries exportName

/-- The export of the session that completes. -/
def Label.finishes (s : Actor) : Label → Option String
  | .input _ (.sessionFinished id) => (s.sessions.lookup id).map Session.exportName
  | _ => none

/-- The export of the session about whose paths a task reports. -/
def Label.reports (s : Actor) : Label → Option String
  | .input _ (.relayAuthenticated id) | .input _ (.pathSelected id _) | .input _ (.promoted id _) =>
      (s.sessions.lookup id).map Session.exportName
  | _ => none

/-- Of the sessions of an export that have paths the last one completes, and no
other completes or ends; what is reported comes for an export that then has one. -/
structure Tidy (s : Actor) (l : Label) (t : Actor) : Prop where
  finished : ∀ exportName ∈ l.finishes s, ¬ t.Carries exportName
  kept : Everywhere (fun _ session => session.HasPath →
    l.finishes s = some session.exportName ∨ t.Carries session.exportName) s
  reported : ∀ exportName ∈ l.reports s, t.Carries exportName

def TidyStep (runtime : Runtime) (s : Actor) (l : Label) (t : Actor) : Prop := Step runtime s l t ∧ Tidy s l t

section Quiet

/-- Nothing is recorded, and no session gains a path. -/
structure Quiet (s t : Actor) : Prop where
  pathStatus : t.pathStatus = s.pathStatus
  carries : ∀ exportName, t.Carries exportName → s.Carries exportName

theorem Quiet.refl (s : Actor) : Quiet s s := ⟨rfl, fun _ => id⟩

theorem Quiet.trans (h : Quiet s t) (h' : Quiet t u) : Quiet s u :=
  ⟨h'.pathStatus.trans h.pathStatus, fun name hc => h.carries name (h'.carries name hc)⟩

theorem Quiet.of_sessions (hstatus : t.pathStatus = s.pathStatus)
    (hsub : ∀ id session, t.sessions.lookup id = some session → s.sessions.lookup id = some session) : Quiet s t :=
  ⟨hstatus, fun _ ⟨id, session, hl, hc⟩ => ⟨id, session, hsub id session hl, hc⟩⟩

theorem quiet_removeCancelled (s : Actor) : Quiet s (removeCancelled s) :=
  Quiet.of_sessions rfl fun _ _ hl => (lookup_keep_eq_some.mp hl).1

theorem carries_put (ht : t.sessions = (s.put id session).sessions) (h : t.Carries name) :
    (session.exportName = name ∧ session.HasPath) ∨ s.Carries name := by
  obtain ⟨other, session', hl, hname, hpath⟩ := h
  rw [ht] at hl
  by_cases ho : other = id
  · subst other
    obtain rfl := Option.some.inj (lookup_put_self.symm.trans hl)
    exact .inl ⟨hname, hpath⟩
  · exact .inr ⟨other, session', (lookup_put_ne ho).symm.trans hl, hname, hpath⟩

theorem quiet_put (hl : s.sessions.lookup id = some session) (ht : t.sessions = (s.put id session').sessions)
    (hstatus : t.pathStatus = s.pathStatus) (hname : session'.exportName = session.exportName)
    (hpath : session'.HasPath → session.HasPath) : Quiet s t := by
  refine ⟨hstatus, fun name hc => ?_⟩
  rcases carries_put ht hc with ⟨rfl, hp⟩ | hc
  · exact ⟨id, session, hl, hname.symm, hpath hp⟩
  · exact hc

theorem Evolves.exportName {epochs : Nat} (h : Evolves runtime follows allowed epochs session session') :
    session'.exportName = session.exportName := by
  cases h with
  | edit h => cases h <;> rfl
  | same | candidates | follow => rfl

theorem Evolves.relayReady {epochs : Nat} (hr : ¬ allowed .ready)
    (h : Evolves runtime follows allowed epochs session session') : session'.relayReady = session.relayReady := by
  cases h with
  | edit h =>
      cases h with
      | relayReady hready => exact absurd hready hr
      | _ => rfl
  | same | candidates | follow => rfl

theorem Change.quiet (hc : Change runtime why follows Unmarked s t) : Quiet s t := by
  refine ⟨?_, ?_⟩
  · cases hc with
    | mark hstatus => exact hstatus.elim
    | _ => rfl
  · rintro name ⟨id, session', hl, rfl, hpath⟩
    obtain ⟨session, hs, he⟩ := hc.evolves hl
    refine ⟨id, session, hs, he.exportName.symm, ?_⟩
    rwa [Session.HasPath, ← he.selectedKind fun h => h, ← he.relayReady fun h => h]

theorem Changes.quiet (hc : Changes runtime why follows Unmarked s t) : Quiet s t := by
  induction hc with
  | refl => exact .refl s
  | tail _ hc ih => exact ih.trans hc.quiet

theorem Head.quiet {now : Moment} {i : Input} (hu : Head runtime now i s u) : Quiet s u := by
  cases hu with
  | opened | answered =>
      refine ⟨rfl, fun name hc => (carries_put rfl hc).resolve_left ?_⟩
      rintro ⟨_, hselected | hready⟩
      · exact nomatch hselected
      · exact nomatch hready
  | recheck _ _ _ hl | bound _ _ _ hl | observed _ _ hl => exact quiet_put hl rfl rfl rfl id
  | skip | attached | detached | ungranted | granted | unobserved => exact Quiet.of_sessions rfl fun _ _ => id

/-- Changes leave a session with its export. -/
theorem Changes.exportName_lookup (hc : Changes runtime why follows marks s t)
    (hl : t.sessions.lookup id = some session') : (s.sessions.lookup id).map Session.exportName = some session'.exportName := by
  induction hc generalizing session' with
  | refl => rw [hl, Option.map_some]
  | tail _ hc ih =>
      obtain ⟨session, hs, he⟩ := hc.evolves hl
      rw [ih hs, he.exportName]

end Quiet

section Steps

variable {l : Label} {now : Moment} {kind : PathKind} {status : PathStatus} {r : Except IoError Unit}

/-- What a step does to the entries, and that a path gained is recorded. -/
structure Noted (s : Actor) (l : Label) (t : Actor) : Prop where
  removed : ∀ name ∈ l.finishes s, name ∉ t.pathStatus.entries
  stays : ∀ name ∈ s.pathStatus.entries, l.finishes s = some name ∨ name ∈ t.pathStatus.entries
  entered : ∀ name ∈ t.pathStatus.entries, name ∈ s.pathStatus.entries ∨ l.reports s = some name
  gained : ∀ name, t.Carries name → s.Carries name ∨ name ∈ t.pathStatus.entries

theorem Noted.quiet (h : Noted s l t) (hq : Quiet t u) : Noted s l u := by
  obtain ⟨hstatus, hcarries⟩ := hq
  refine ⟨?_, ?_, ?_, ?_⟩
  · rw [hstatus]
    exact h.removed
  · rw [hstatus]
    exact h.stays
  · rw [hstatus]
    exact h.entered
  · rw [hstatus]
    exact fun name hc => h.gained name (hcarries name hc)

theorem noted_of_quiet (h : Quiet s t) (hf : l.finishes s = none) : Noted s l t := by
  refine ⟨fun name hn => (nomatch hf.symm.trans hn), fun name hn => .inr ?_, fun name hn => .inl ?_,
    fun name hc => .inl (h.carries name hc)⟩
  · rwa [h.pathStatus]
  · rwa [← h.pathStatus]

theorem noted_record (hf : l.finishes s = none) (hr : l.reports s = some name)
    (hstatus : t.pathStatus = s.pathStatus.record name status)
    (hgain : ∀ other, t.Carries other → other = name ∨ s.Carries other) : Noted s l t := by
  refine ⟨fun other hn => (nomatch hf.symm.trans hn), ?_, ?_, ?_⟩ <;> rw [hstatus] <;>
    simp only [PathStatusStore.mem_record]
  · exact fun other hn => .inr (.inr hn)
  · rintro other (rfl | hn)
    · exact .inr hr
    · exact .inl hn
  · intro other hc
    rcases hgain other hc with rfl | hc
    · exact .inr (.inl rfl)
    · exact .inl hc

theorem noted_put (session' : Session) (hf : l.finishes s = none) (hr : l.reports s = some session.exportName)
    (hname : session'.exportName = session.exportName) (ht : t.sessions = (s.put id session').sessions)
    (hstatus : t.pathStatus = s.pathStatus.record session.exportName status) : Noted s l t := by
  refine noted_record hf hr hstatus fun other hc => ?_
  rcases carries_put ht hc with ⟨hother, _⟩ | hc
  · exact .inl (hother.symm.trans hname)
  · exact .inr hc

theorem noted_relayAuthenticated (h : startPathManager runtime now id s = some (r, t)) :
    Noted s (.input now (.relayAuthenticated id)) t := by
  rcases startPathManager_cases h with rfl | ⟨session, p2p, hl, _, _, rfl | ⟨direct, rfl⟩⟩
  · exact noted_of_quiet (.refl t) rfl
  · exact noted_put (setRelayReady session) rfl (congrArg (Option.map Session.exportName) hl) rfl rfl rfl
  · refine noted_put (managed p2p session) rfl (congrArg (Option.map Session.exportName) hl) ?_ rfl rfl
    rw [managed]
    split <;> rfl

theorem noted_pathSelected {result : Except PathError (PathKind × PathHandle)}
    (h : handleDirectResult runtime now id result s = some (r, t)) : Noted s (.input now (.pathSelected id result)) t := by
  cases result with
  | error error =>
      rcases handleDirectResult_error_cases (fun _ _ _ => True) (fun _ => True) h with hc | ⟨session, hl, hc⟩
      · exact noted_of_quiet hc.quiet rfl
      · have hrecord : Noted s (.input now (.pathSelected id (.error error))) (s.record now session.exportName .relay) :=
          noted_record rfl (congrArg (Option.map Session.exportName) hl) rfl fun _ hc => .inr hc
        exact hrecord.quiet hc.quiet
  | ok selected =>
      obtain ⟨kind, handle⟩ := selected
      rcases pathSelected_cases (fun _ _ _ => True) (fun _ => True) h with hc | ⟨u, session, effects, hc, hl, rfl⟩
      · exact noted_of_quiet hc.quiet rfl
      · obtain ⟨hstatus, hcarries⟩ := hc.quiet
        have hrecorded : (u.record now session.exportName kind.status).pathStatus =
            s.pathStatus.record session.exportName ⟨kind.status, now.unixMillis⟩ := by
          rw [← hstatus]
          rfl
        refine noted_record rfl (hc.exportName_lookup hl) hrecorded fun other hother => ?_
        rcases carries_put (s := u) rfl hother with ⟨hname, _⟩ | hother
        · exact .inl hname.symm
        · exact .inr (hcarries other hother)

theorem noted_promoted (h : promote now id kind s = some (r, t)) : Noted s (.input now (.promoted id kind)) t := by
  rcases promote_cases h with rfl | ⟨session, hl, rfl⟩
  · exact noted_of_quiet (.refl t) rfl
  · exact noted_record rfl (congrArg (Option.map Session.exportName) hl) rfl fun _ hc => .inr hc

theorem noted_sessionFinished (h : finishSession runtime id s = some (r, t)) :
    Noted s (.input now (.sessionFinished id)) t := by
  rcases finishSession_cases h with ⟨hl, rfl⟩ | ⟨session, hl, hsessions, hstatus, _⟩
  · exact noted_of_quiet (.refl t) (congrArg (Option.map Session.exportName) hl)
  have hf : (Label.input now (.sessionFinished id)).finishes s = some session.exportName :=
    congrArg (Option.map Session.exportName) hl
  refine ⟨?_, ?_, ?_, ?_⟩
  · intro name hn
    obtain rfl := Option.some.inj (hf.symm.trans hn)
    rw [hstatus, PathStatusStore.mem_remove]
    exact fun hmem => hmem.1 rfl
  · intro name hn
    rw [hf, hstatus, PathStatusStore.mem_remove]
    by_cases hname : name = session.exportName
    · exact .inl (congrArg some hname.symm)
    · exact .inr ⟨hname, hn⟩
  · intro name hn
    rw [hstatus, PathStatusStore.mem_remove] at hn
    exact .inl hn.2
  · rintro name ⟨other, session', hl', hc⟩
    rw [hsessions] at hl'
    by_cases ho : other = id
    · subst other
      exact nomatch (Finmap.lookup_erase id _).symm.trans hl'
    · exact .inl ⟨other, session', (Finmap.lookup_erase_ne ho).symm.trans hl', hc⟩

theorem noted_handleInput {i : Input} (hp : i.Possible s) (h : handleInput runtime now i s = some (r, t)) :
    Noted s (.input now i) t := by
  cases i with
  | relayAuthenticated => exact noted_relayAuthenticated h
  | pathSelected => exact noted_pathSelected h
  | promoted => exact noted_promoted h
  | sessionFinished => exact noted_sessionFinished h
  | opening | event | controlAttached | controlDetached | buildRecheck | observationResult | sweep =>
      obtain ⟨u, hu, hc⟩ := handleInput_changes h hp (Input.follows_of_forall (fun _ => trivial) _)
      exact noted_of_quiet (hu.quiet.trans hc.quiet) rfl

theorem noted_step (h : Step runtime s l t) : Noted s l t := by
  cases l with
  | input now i =>
      rw [Step, next] at h
      split at h
      · next hp =>
        obtain ⟨⟨r, u⟩, hu, rfl⟩ := Option.map_eq_some_iff.mp h
        exact (noted_handleInput hp hu).quiet (quiet_removeCancelled u)
      · cases h
  | cancelCaller =>
      cases step_outcome h with
      | cancelCaller hl => exact noted_of_quiet (quiet_put hl rfl rfl rfl fun hpath => hpath) rfl
  | sever =>
      cases step_outcome h with
      | sever => exact noted_of_quiet (Quiet.of_sessions rfl fun _ _ hl => hl) rfl
  | transmit =>
      cases step_outcome h with
      | transmit => exact noted_of_quiet (Quiet.of_sessions rfl fun _ _ hl => hl) rfl

theorem Actor.Accurate.step (h : s.Accurate) (hstep : Step runtime s l t) (htidy : Tidy s l t) : t.Accurate := by
  have hnoted := noted_step hstep
  intro name
  constructor
  · intro hn
    rcases hnoted.entered name hn with hentry | hreported
    · obtain ⟨id, session, hl, rfl, hpath⟩ := (h name).mp hentry
      exact (htidy.kept id session hl hpath).resolve_left fun hf => hnoted.removed _ hf hn
    · exact htidy.reported name hreported
  · intro hc
    rcases hnoted.gained name hc with hbefore | hn
    · exact (hnoted.stays name ((h name).mpr hbefore)).resolve_left fun hf => htidy.finished name hf hc
    · exact hn

end Steps

section Sample

instance : Decidable (s.Carries name) :=
  decidable_of_iff (¬ Everywhere (fun _ session => ¬ (session.exportName = name ∧ session.HasPath)) s) (by
    simp only [Everywhere, Actor.Carries, not_forall, not_not, exists_prop])

instance (l : Label) : Decidable (Tidy s l t) :=
  decidable_of_iff ((∀ name ∈ l.finishes s, ¬ t.Carries name) ∧
      Everywhere (fun _ session => session.HasPath → l.finishes s = some session.exportName ∨ t.Carries session.exportName) s ∧
      ∀ name ∈ l.reports s, t.Carries name)
    ⟨fun ⟨hf, hk, hr⟩ => ⟨hf, hk, hr⟩, fun h => ⟨h.finished, h.kept, h.reported⟩⟩

def tidyNext (runtime : Runtime) (s : Actor) (l : Label) : Option Actor :=
  (next runtime s l).bind fun t => if Tidy s l t then some t else none

theorem tidyStep_of_next {l : Label} (h : tidyNext runtime s l = some t) : TidyStep runtime s l t := by
  obtain ⟨u, hu, h⟩ := Option.bind_eq_some_iff.mp h
  split at h
  · next htidy => exact Option.some.inj h ▸ ⟨hu, htidy⟩
  · exact nomatch h

end Sample

end Rustgo.Orchestration
