import Rustgo.OrchestrationDetachment

namespace Rustgo.Orchestration

open Call Checks Coordinator Path Protocol Rendezvous Tables Runs

variable {runtime : Runtime} {why : SessionId → Session → IoError → Prop} {follows : Session → Prop}
  {marks : SessionId → Mark → Prop} {s t u : Actor} {id : SessionId} {session session' : Session} {now : Moment}
  {r : Except IoError Unit}

/-- The actor with the path races that have not reported, by the sessions they were started for. -/
structure RacingActor where
  actor : Actor
  racing : List SessionId

/-- The session of the race that reports. -/
def Label.outcome : Label → Option SessionId
  | .input _ (.pathSelected id _) => some id
  | _ => none

namespace RacingActor

def new (generation : UInt64) (version : ProtocolVersion) : RacingActor := ⟨.new generation version, []⟩

/-- A race reports once. -/
def next (runtime : Runtime) (w : RacingActor) (l : Label) : Option RacingActor :=
  if ∀ id ∈ l.outcome, id ∈ w.racing then
    (Orchestration.next runtime w.actor l).map fun t =>
      ⟨t, l.outcome.elim w.racing w.racing.erase ++ (t.effects.drop w.actor.effects.length).filterMap Effect.race⟩
  else none

def Step (runtime : Runtime) (w : RacingActor) (l : Label) (w' : RacingActor) : Prop := next runtime w l = some w'

end RacingActor

/-- The session that the input opens. -/
def Input.opens (s : Actor) : Input → Option SessionId
  | .opening id _ _ _ _ => some id
  | .event generation (.rendezvous envelope) _ _ =>
      if s.controlAvailable ∧ s.generation = generation ∧ s.sessions.lookup envelope.sessionId = none ∧
          envelope.payload.asRequest.isSome then some envelope.sessionId
      else none
  | _ => none

/-- No session is opened under an id whose last race is still to report. -/
def Label.Unraced (w : RacingActor) : Label → Prop
  | .input _ i => ∀ id ∈ i.opens w.actor, id ∉ w.racing
  | _ => True

/-- A session is raced for at most once, and selects its path when the race reports. -/
structure RacedOnce (racing : List SessionId) (id : SessionId) (session : Session) : Prop where
  unmanaged : session.manager = false → id ∉ racing ∧ session.selectedKind = none
  unselected : id ∈ racing → session.selectedKind = none

structure RacingActor.Valid (w : RacingActor) : Prop where
  nodup : w.racing.Nodup
  once : Everywhere (RacedOnce w.racing) w.actor
  detached : w.actor.controlAvailable = false → Everywhere (fun _ => Direct) w.actor

section Changes

theorem RacedOnce.congr {racing : List SessionId} (h : RacedOnce racing id session) (hm : session'.manager = session.manager)
    (hs : session'.selectedKind = session.selectedKind) : RacedOnce racing id session' :=
  ⟨fun hmanager => hs ▸ h.unmanaged (hm ▸ hmanager), fun hin => hs ▸ h.unselected hin⟩

theorem Direct.congr (h : Direct session) (hs : session'.selectedKind = session.selectedKind) : Direct session' := by
  rwa [Direct, hs]

/-- Outside of the two handlers nothing selects a path or starts a manager. -/
theorem Changes.raced {racing : List SessionId} (hc : Changes runtime why follows marks s t)
    (hm : ∀ id, ¬ marks id .manager) (hs : ∀ id, ¬ marks id .selected) (h : Everywhere (RacedOnce racing) s) :
    Everywhere (RacedOnce racing) t :=
  h.changes (fun id _ _ _ h he => h.congr (he.manager (hm id)) (he.selectedKind (hs id))) hc

theorem Changes.direct (hc : Changes runtime why follows marks s t) (hs : ∀ id, ¬ marks id .selected)
    (h : Everywhere (fun _ => Direct) s) : Everywhere (fun _ => Direct) t :=
  h.changes (fun id _ _ _ h he => h.congr (he.selectedKind (hs id))) hc

theorem races_of_changes (hc : Changes runtime why follows marks s t) (hm : ∀ id, ¬ marks id .manager) :
    (t.effects.drop s.effects.length).filterMap Effect.race = [] := by
  obtain ⟨new, hnew, hmarks⟩ := hc.effects
  rw [hnew, List.drop_left]
  exact List.eq_nil_iff_forall_not_mem.mpr fun id hid => hm id (hmarks id hid)

theorem Head.raced {racing : List SessionId} {i : Input} (hu : Head runtime now i s u) (hi : ∀ id ∈ i.opens s, id ∉ racing)
    (h : Everywhere (RacedOnce racing) s) : Everywhere (RacedOnce racing) u := by
  cases hu with
  | opened => exact h.put ⟨fun _ => ⟨hi _ rfl, rfl⟩, fun _ => rfl⟩
  | answered bind full hav hl hp =>
      refine h.put ⟨fun _ => ⟨hi _ ?_, rfl⟩, fun _ => rfl⟩
      rw [Input.opens, if_pos ⟨hav, rfl, hl, by rw [hp]; rfl⟩]
      rfl
  | recheck _ _ _ hl | bound _ _ _ hl => exact h.put ((h _ _ hl).congr rfl rfl)
  | observed _ _ hl => exact Everywhere.put (s := { s with observations := _, observedIpCache := _ }) h ((h _ _ hl).congr rfl rfl)
  | skip | attached | detached | ungranted | granted | unobserved => exact h

theorem Head.effects {i : Input} (hu : Head runtime now i s u) : u.effects = s.effects := by
  cases hu <;> rfl

/-- Only the loss of the control leaves it away. -/
theorem Head.direct {i : Input} (hu : Head runtime now i s u)
    (hi : s.controlAvailable = true → ∀ order, i ≠ .controlDetached s.generation order)
    (h : s.controlAvailable = false → Everywhere (fun _ => Direct) s) (hav : u.controlAvailable = false) :
    Everywhere (fun _ => Direct) u := by
  cases hu with
  | opened _ _ _ _ _ hopen | answered _ _ hopen | ungranted _ _ hopen | granted _ _ hopen
  | bound _ _ hopen => exact nomatch hopen.symm.trans hav
  | attached => exact nomatch hav
  | detached order hopen => exact absurd rfl (hi hopen order)
  | recheck _ _ _ hl => exact (h hav).put ((h hav _ _ hl).congr rfl)
  | observed _ _ hl =>
      exact Everywhere.put (s := { s with observations := _, observedIpCache := _ }) (h hav) ((h hav _ _ hl).congr rfl)
  | skip | unobserved => exact h hav

end Changes

section Steps

variable {w w' : RacingActor} {racing : List SessionId} {i : Input} {l : Label}

theorem RacingActor.Valid.removeCancelled (h : RacingActor.Valid ⟨s, racing⟩) :
    RacingActor.Valid ⟨removeCancelled s, racing⟩ := by
  have hsub : ∀ id session, (Orchestration.removeCancelled s).sessions.lookup id = some session →
      s.sessions.lookup id = some session := fun _ _ hl => (lookup_keep_eq_some.mp hl).1
  exact ⟨h.nodup, h.once.mono hsub fun _ _ => id, fun hav => (h.detached hav).mono hsub fun _ _ => id⟩

theorem RacingActor.Valid.of_effects (ht : t.effects = s.effects) (h : RacingActor.Valid ⟨t, racing⟩) :
    RacingActor.Valid ⟨t, racing ++ (t.effects.drop s.effects.length).filterMap Effect.race⟩ := by
  rw [ht, List.drop_length, List.filterMap_nil, List.append_nil]
  exact h

/-- The inputs that neither start a race nor report one. -/
theorem RacingActor.Valid.input (h : RacingActor.Valid ⟨s, racing⟩) (hp : i.Possible s)
    (hu : handleInput runtime now i s = some (r, t)) (hm : ∀ id, ¬ i.Marks id .manager)
    (hs : ∀ id, ¬ i.Marks id .selected) (hl : ∀ id ∈ i.opens s, id ∉ racing) :
    RacingActor.Valid ⟨t, racing ++ (t.effects.drop s.effects.length).filterMap Effect.race⟩ := by
  obtain ⟨u, hhead, hc⟩ := handleInput_changes hu hp (Input.follows_of_forall (fun _ => trivial) _)
  rw [← hhead.effects, races_of_changes hc hm, List.append_nil]
  refine ⟨h.nodup, hc.raced hm hs (hhead.raced hl h.once), fun hav => ?_⟩
  by_cases hdetached : s.controlAvailable = true ∧ ∃ order, i = .controlDetached s.generation order
  · obtain ⟨havailable, order, rfl⟩ := hdetached
    exact (detachControl_spec hp havailable hu).2.2.2
  · refine hc.direct hs (hhead.direct (fun hav order heq => hdetached ⟨hav, order, heq⟩) h.detached ?_)
    rw [← hc.control.2.1]
    exact hav

/-- A race starts for a session that had no manager, and so no race. -/
theorem RacingActor.Valid.relayAuthenticated (h : RacingActor.Valid ⟨s, racing⟩)
    (hu : startPathManager runtime now id s = some (r, t)) :
    RacingActor.Valid ⟨t, racing ++ (t.effects.drop s.effects.length).filterMap Effect.race⟩ := by
  rcases startPathManager_cases hu with rfl | ⟨session, p2p, hl, hmanager, _, rfl | ⟨direct, rfl⟩⟩
  · exact h.of_effects rfl
  · refine RacingActor.Valid.of_effects rfl ⟨h.nodup, ?_, fun hav => ?_⟩
    · exact Everywhere.put h.once ((h.once id session hl).congr rfl rfl)
    · exact Everywhere.put (h.detached hav) ((h.detached hav id session hl).congr rfl)
  · have hstarted : ((s.effects ++ [Effect.connecting id direct]).drop s.effects.length).filterMap Effect.race = [id] := by
      rw [List.drop_left]
      rfl
    change RacingActor.Valid ⟨_, racing ++ ((s.effects ++ [Effect.connecting id direct]).drop s.effects.length).filterMap Effect.race⟩
    rw [hstarted]
    obtain ⟨hnot, hselected⟩ := (h.once id session hl).unmanaged hmanager
    have hkind : (managed p2p session).selectedKind = session.selectedKind := by
      rw [managed]
      split <;> rfl
    refine ⟨List.nodup_append_comm.mp (List.nodup_cons.mpr ⟨hnot, h.nodup⟩), ?_, fun hav => ?_⟩
    · intro other session' hl'
      by_cases ho : other = id
      · subst other
        obtain rfl := Option.some.inj (lookup_put_self.symm.trans hl')
        refine ⟨fun hnone => ?_, fun _ => hkind.trans hselected⟩
        rw [managed] at hnone
        split at hnone <;> cases hnone
      · have hsame := h.once other session' ((lookup_put_ne ho).symm.trans hl')
        have hin : other ∈ racing ++ [id] ↔ other ∈ racing := by simp [ho]
        exact ⟨fun hm => hin.not.mpr (hsame.unmanaged hm).1 |> fun hnot => ⟨hnot, (hsame.unmanaged hm).2⟩,
          fun hmem => hsame.unselected (hin.mp hmem)⟩
    · exact Everywhere.put (h.detached hav) ((h.detached hav id session hl).congr hkind)

/-- A race reports for a session that has selected no path, or for none. -/
theorem RacingActor.Valid.pathSelected {result : Except PathError (PathKind × PathHandle)}
    (h : RacingActor.Valid ⟨s, racing⟩) (hin : id ∈ racing)
    (hu : handleDirectResult runtime now id result s = some (r, t)) :
    RacingActor.Valid ⟨t, racing.erase id ++ (t.effects.drop s.effects.length).filterMap Effect.race⟩ := by
  have hmakes : Makes runtime (fun _ _ _ => True) (fun _ => True) (Input.Marks (.pathSelected id result))
      (handleDirectResult runtime now id result) := makes_handleDirectResult ⟨rfl, .inl rfl⟩ ⟨rfl, .inr rfl⟩ result
  have hc : Changes runtime _ _ (Input.Marks (.pathSelected id result)) s t := (hmakes s _ t trivial hu).1
  have hm : ∀ other, ¬ Input.Marks (.pathSelected id result) other .manager := by
    rintro other ⟨_, hmark | hmark⟩ <;> cases hmark
  rw [races_of_changes hc hm, List.append_nil]
  refine ⟨h.nodup.erase id, ?_, fun hav => ?_⟩
  · have hother : Everywhere (fun other session =>
        (other = id → session.manager = true) ∧ (other ≠ id → RacedOnce (racing.erase id) other session)) s := by
      intro other session hl
      refine ⟨?_, fun ho => ?_⟩
      · rintro rfl
        exact Bool.eq_true_of_not_eq_false fun hmanager => ((h.once _ session hl).unmanaged hmanager).1 hin
      · have hsame := h.once other session hl
        have herase : other ∈ racing.erase id ↔ other ∈ racing := List.mem_erase_of_ne ho
        exact ⟨fun hmanager => ⟨herase.not.mpr (hsame.unmanaged hmanager).1, (hsame.unmanaged hmanager).2⟩,
          fun hmem => hsame.unselected (herase.mp hmem)⟩
    have hafter := hother.changes (fun other _ _ _ hs he => ?_) hc
    · intro other session hl
      by_cases ho : other = id
      · subst other
        have hnot : id ∉ racing.erase id := h.nodup.not_mem_erase
        exact ⟨fun hmanager => (by cases hmanager.symm.trans ((hafter _ session hl).1 rfl)), fun hmem => absurd hmem hnot⟩
      · exact (hafter other session hl).2 ho
    · exact ⟨fun ho => (he.manager (hm other)).trans (hs.1 ho),
        fun ho => (hs.2 ho).congr (he.manager (hm other)) (he.selectedKind fun hmark => ho hmark.1)⟩
  · have hother : Everywhere (fun other session => other ≠ id ∧ Direct session) s := by
      intro other session hl
      have hdirect : Direct session := h.detached (hc.control.2.1.symm.trans hav) other session hl
      refine ⟨?_, hdirect⟩
      rintro rfl
      rw [Direct, (h.once _ session hl).unselected hin] at hdirect
      cases hdirect
    have hafter := hother.changes (fun other _ _ _ hs he => ?_) hc
    · exact fun other session hl => (hafter other session hl).2
    · exact ⟨hs.1, hs.2.congr (he.selectedKind fun hmark => hs.1 hmark.1)⟩

theorem RacingActor.Valid.step (h : w.Valid) (hstep : RacingActor.Step runtime w l w') (hl : l.Unraced w) : w'.Valid := by
  rw [RacingActor.Step, RacingActor.next] at hstep
  split at hstep
  · next houtcome =>
    obtain ⟨t, ht, rfl⟩ := Option.map_eq_some_iff.mp hstep
    cases l with
    | input now i =>
        obtain ⟨hp, r, u, hu, rfl⟩ := step_input ht
        cases i with
        | pathSelected id result => exact (h.pathSelected (houtcome id rfl) hu).removeCancelled
        | relayAuthenticated => exact (h.relayAuthenticated hu).removeCancelled
        | promoted | sessionFinished =>
            exact (h.input hp hu (fun _ hm => nomatch hm.2) (fun _ hs => nomatch hs.2) hl).removeCancelled
        | opening | event | controlAttached | controlDetached | buildRecheck | observationResult | sweep =>
            exact (h.input hp hu (fun _ => id) (fun _ => id) hl).removeCancelled
    | cancelCaller =>
        cases step_outcome ht with
        | cancelCaller hs =>
            refine RacingActor.Valid.of_effects rfl ⟨h.nodup, ?_, fun hav => ?_⟩
            · exact Everywhere.put h.once ((h.once _ _ hs).congr rfl rfl)
            · exact Everywhere.put (h.detached hav) ((h.detached hav _ _ hs).congr rfl)
    | sever =>
        cases step_outcome ht with
        | sever => exact RacingActor.Valid.of_effects rfl ⟨h.nodup, h.once, h.detached⟩
    | transmit =>
        cases step_outcome ht with
        | transmit => exact RacingActor.Valid.of_effects rfl ⟨h.nodup, h.once, h.detached⟩
  · exact nomatch hstep

/-- Without the control there are direct sessions only, as long as no session is
opened under an id whose race is still to report; what comes from another generation leaves all
sessions but the cancelled ones; and the sweep at the deadline leaves none, until the control is back. -/
theorem control_loss_leaves_direct_sessions {generation : UInt64} {version : ProtocolVersion} :
    (∀ labels w, Run (Restricted (RacingActor.Step runtime) fun w l => l.Unraced w) (.new generation version) labels w →
      w.actor.controlAvailable = false → ∀ id session, w.actor.sessions.lookup id = some session →
        session.selectedKind.any PathKind.isDirect = true) ∧
    (∀ s now i t, Input.Stale s i → Step runtime s (.input now i) t →
      t.sessions = keep (fun _ session => !session.cancelled) s.sessions) ∧
    ∀ s now order t, s.controlAvailable = true → Step runtime s (.input now (.controlDetached s.generation order)) t →
      ∀ labels u, Run (Step runtime) t labels u → u.generation = s.generation →
        ∀ later order', .input later (.sweep order') ∈ labels → now.instant + reconnectGrace runtime ≤ later.instant →
          u.sessions = ∅ := by
  refine ⟨?_, ?_, ?_⟩
  · intro labels w hrun hav
    have hvalid : w.Valid := by
      refine hrun.invariant (fun _ _ _ h hstep => h.step hstep.1 hstep.2) ⟨List.nodup_nil, ?_, fun h => nomatch h⟩
      exact fun _ _ hl => nomatch hl
    exact hvalid.detached hav
  · intro s now i t hstale hstep
    obtain ⟨_, r, u, hu, rfl⟩ := step_input hstep
    rw [removeCancelled, stale_spec hstale hu]
  · intro s now order t hav hstep labels u hrun hgeneration later order' hin hdue
    obtain ⟨hp, r, v, hv, rfl⟩ := step_input hstep
    obtain ⟨hg, havailable, hdeadline, _⟩ := detachControl_spec hp hav hv
    have hwaiting : Waiting s.generation (now.instant + reconnectGrace runtime) (removeCancelled v) :=
      .inr ⟨hg, havailable, .inl hdeadline⟩
    exact Waiting.empty (hgeneration ▸ (hwaiting.run hrun).2 later order' hin hdue)

end Steps

section Sample

/-- The race of a closed session reports for the one that was opened again under its id. -/
def sampleReopened : List Label := sampleRelayed ++ [
  sampleTaken,
  sampleArrival (sampleEnvelope 6 .INITIAL (.close ⟨none⟩))] ++ sampleRelayed ++ [
  sampleTaken,
  .input (sampleMoment 1) (.pathSelected (sampleId 1) (.ok (.quicV4, .quic))),
  .input (sampleMoment 2) (.controlDetached 1 [sampleId 1]),
  .input (sampleMoment 2) (.pathSelected (sampleId 1) (.ok (.relay, .other)))]

theorem late_race_selects_relay : ¬ ∀ labels w, Run (RacingActor.Step (sampleRuntime "b" false)) (.new 1 sampleVersion) labels w →
    w.actor.controlAvailable = false → ∀ id session, w.actor.sessions.lookup id = some session →
      session.selectedKind.any PathKind.isDirect = true := by
  intro h
  have hexec : (exec (RacingActor.next (sampleRuntime "b" false)) (.new 1 sampleVersion) sampleReopened).any (fun w =>
      w.actor.controlAvailable = false ∧
        (w.actor.sessions.lookup (sampleId 1)).any (fun session => session.selectedKind = some .relay)) = true := by
    decide +kernel
  obtain ⟨w, hrun, hav, hselected⟩ := run_of_exec_any (fun _ _ _ h => h) hexec
  obtain ⟨session, hl, hrelay⟩ := Option.any_eq_true _ _ |>.mp hselected
  have hdirect := h _ w hrun hav _ session hl
  rw [of_decide_eq_true hrelay] at hdirect
  exact nomatch hdirect

end Sample

end Rustgo.Orchestration
