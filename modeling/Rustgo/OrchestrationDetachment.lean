import Rustgo.OrchestrationPaths

namespace Rustgo.Orchestration

open Call Checks Coordinator Path Protocol Rendezvous Tables Runs

variable {runtime : Runtime} {why : SessionId → Session → IoError → Prop} {follows : Session → Prop}
  {marks : SessionId → Mark → Prop} {s t u : Actor} {id : SessionId} {session session' : Session} {now : Moment}
  {r : Except IoError Unit}

section Control

/-- The control connection, its generation and its grace are those of before. -/
structure SameControl (s t : Actor) : Prop where
  generation : t.generation = s.generation
  available : t.controlAvailable = s.controlAvailable
  deadline : t.detachedDeadline = s.detachedDeadline

theorem SameControl.trans (h : SameControl s t) (h' : SameControl t u) : SameControl s u :=
  ⟨h'.generation.trans h.generation, h'.available.trans h.available, h'.deadline.trans h.deadline⟩

theorem failSession_spec (id : SessionId) (error : IoError) (s : Actor) :
    ∃ t, failSession id error s = some (.ok (), t) ∧ SameControl s t ∧
      ∀ other session, t.sessions.lookup other = some session → other ≠ id ∧ s.sessions.lookup other = some session := by
  cases hl : s.sessions.lookup id with
  | none =>
      refine ⟨s, read_bind_eq (a := none) (congrArg Except.ok hl) rfl, ⟨rfl, rfl, rfl⟩, fun other session h => ⟨?_, h⟩⟩
      rintro rfl
      exact nomatch hl.symm.trans h
  | some session =>
      obtain ⟨effects, ha⟩ : ∃ effects, answer session.reply (.error error) (s.fail id error) =
          some (.ok (), { s.fail id error with effects }) := by
        cases session.reply with
        | none => exact ⟨_, rfl⟩
        | some reply => exact ⟨_, rfl⟩
      refine ⟨_, read_bind_eq (a := some session) (congrArg Except.ok hl) (update_bind_eq ha), ⟨rfl, rfl, rfl⟩, ?_⟩
      intro other session' h
      by_cases ho : other = id
      · subst other
        exact nomatch lookup_drop_self.symm.trans h
      · exact ⟨ho, (lookup_drop_ne ho).symm.trans h⟩

/-- Of the sessions gone through, those are left that do not satisfy the condition. -/
theorem failAll_spec (p : Session → Bool) (error : IoError) (order : List SessionId) (s : Actor) :
    ∃ t, failAll p error order s = some (.ok (), t) ∧ SameControl s t ∧
      ∀ id session, t.sessions.lookup id = some session →
        s.sessions.lookup id = some session ∧ (id ∈ order → p session = false) := by
  induction order generalizing s with
  | nil => exact ⟨s, rfl, ⟨rfl, rfl, rfl⟩, fun _ _ h => ⟨h, fun hin => nomatch hin⟩⟩
  | cons first rest ih =>
      by_cases hp : (s.sessions.lookup first).any p = true
      · obtain ⟨u, hu, hcontrol, hleft⟩ := failSession_spec first error s
        obtain ⟨t, ht, hcontrol', hrest⟩ := ih u
        refine ⟨t, read_bind_eq rfl ?_, hcontrol.trans hcontrol', ?_⟩
        · rw [if_pos hp]
          exact (bind_of_ok hu _).trans ht
        · intro id session h
          obtain ⟨hu, hfalse⟩ := hrest id session h
          obtain ⟨hne, hs⟩ := hleft id session hu
          exact ⟨hs, fun hin => hfalse ((List.mem_cons.mp hin).resolve_left hne)⟩
      · obtain ⟨t, ht, hcontrol, hrest⟩ := ih s
        refine ⟨t, read_bind_eq rfl ?_, hcontrol, ?_⟩
        · rw [if_neg hp]
          exact ht
        · intro id session h
          obtain ⟨hs, hfalse⟩ := hrest id session h
          refine ⟨hs, fun hin => (List.mem_cons.mp hin).elim ?_ hfalse⟩
          rintro rfl
          rw [hs] at hp
          exact Bool.eq_false_of_not_eq_true hp

def Direct (session : Session) : Prop := session.selectedKind.any PathKind.isDirect = true

/-- A sweep at the deadline or later leaves no session. -/
theorem sweep_spec {order : List SessionId} (hall : ∀ id, id ∈ s.sessions → id ∈ order)
    (h : handleInput runtime now (.sweep order) s = some (r, t)) :
    t.generation = s.generation ∧ t.controlAvailable = s.controlAvailable ∧
      (s.controlAvailable = false → ∀ deadline, s.detachedDeadline = some deadline →
        (now.instant < deadline ∧ t.detachedDeadline = some deadline) ∨ t.sessions = ∅) := by
  obtain ⟨u, hu, hcontrol, hleft⟩ := failAll_spec (fun session => session.expiry ≤ now.unixSecs) .sessionExpired order s
  have hgrace := (bind_of_ok hu _).symm.trans h
  rcases read_bind_cases hgrace with ⟨_, h, _⟩ | ⟨elapsed, helapsed, hr⟩
  · exact nomatch h
  obtain rfl := Except.ok.inj helapsed
  rw [hcontrol.available, hcontrol.deadline] at hr
  split at hr
  · next hrunning =>
    obtain ⟨_, rfl⟩ := Prod.mk.inj (Option.some.inj hr)
    refine ⟨hcontrol.generation, hcontrol.available, fun hav deadline hd => .inl ⟨?_, hcontrol.deadline.trans hd⟩⟩
    rw [hav, hd, Bool.not_false, Bool.true_and, Option.any_some, decide_eq_false_iff_not] at hrunning
    exact not_le.mp hrunning
  · rw [update_bind] at hr
    obtain ⟨v, hv, hcontrol', hleft'⟩ := failAll_spec (fun _ => true) .graceExpired order { u with detachedDeadline := none }
    obtain ⟨_, rfl⟩ := Prod.mk.inj (Option.some.inj (hv.symm.trans hr))
    refine ⟨hcontrol'.generation.trans hcontrol.generation, hcontrol'.available.trans hcontrol.available,
      fun _ _ _ => .inr ?_⟩
    apply Finmap.ext_lookup
    intro id
    rw [Finmap.lookup_empty]
    by_contra hne
    obtain ⟨session, hl⟩ := Option.ne_none_iff_exists'.mp hne
    obtain ⟨hl, hgone⟩ := hleft' id session hl
    exact nomatch hgone (hall id (Finmap.mem_of_lookup_eq_some (hleft id session hl).1))

/-- Detaching leaves the sessions on direct paths, and starts their grace. -/
theorem detachControl_spec {order : List SessionId} (hall : ∀ id, id ∈ s.sessions → id ∈ order)
    (hav : s.controlAvailable = true) (h : detachControl runtime now s.generation order s = some (r, t)) :
    t.generation = s.generation ∧ t.controlAvailable = false ∧
      t.detachedDeadline = some (now.instant + reconnectGrace runtime) ∧ Everywhere (fun _ => Direct) t := by
  rcases read_bind_cases h with ⟨_, h, _⟩ | ⟨current, hcurrent, hr⟩
  · exact nomatch h
  obtain rfl := Except.ok.inj hcurrent
  rw [hav, decide_eq_true rfl, if_neg (by decide), update_bind] at hr
  obtain ⟨u, hu, hcontrol, hleft⟩ := failAll_spec controlDependent .controlLost order
    { s with controlAvailable := false, detachedDeadline := some (now.instant + reconnectGrace runtime) }
  obtain ⟨_, rfl⟩ := Prod.mk.inj (Option.some.inj (hu.symm.trans hr))
  refine ⟨hcontrol.generation, hcontrol.available, hcontrol.deadline, fun id session hl => ?_⟩
  obtain ⟨hs, hindependent⟩ := hleft id session hl
  simpa only [Direct, controlDependent, Bool.not_eq_false'] using hindependent (hall id (Finmap.mem_of_lookup_eq_some hs))

/-- The input is of another generation than the current one. -/
def Input.Stale (s : Actor) : Input → Prop
  | .event generation _ _ _ | .controlAttached generation _ | .controlDetached generation _ => generation ≠ s.generation
  | _ => False

theorem stale_spec {i : Input} (hstale : i.Stale s) (h : handleInput runtime now i s = some (r, t)) :
    t.sessions = s.sessions := by
  cases i with
  | event generation event bind full =>
      rcases read_bind_cases h with ⟨_, h, _⟩ | ⟨current, hcurrent, hr⟩
      · exact nomatch h
      obtain rfl := Except.ok.inj hcurrent
      rw [decide_eq_false (Ne.symm hstale), Bool.and_false, if_neg (by decide)] at hr
      obtain ⟨_, rfl⟩ := Prod.mk.inj (Option.some.inj hr)
      rfl
  | controlAttached generation version =>
      rcases read_bind_cases h with ⟨_, _, hr⟩ | ⟨_, _, hr⟩
      · obtain ⟨_, rfl⟩ := Prod.mk.inj hr
        rfl
      · obtain ⟨_, rfl⟩ := Prod.mk.inj (Option.some.inj hr)
        rfl
  | controlDetached generation order =>
      rcases read_bind_cases h with ⟨_, h, _⟩ | ⟨current, hcurrent, hr⟩
      · exact nomatch h
      obtain rfl := Except.ok.inj hcurrent
      rw [decide_eq_false (Ne.symm hstale), Bool.and_false, if_pos rfl] at hr
      obtain ⟨_, rfl⟩ := Prod.mk.inj (Option.some.inj hr)
      rfl
  | opening | pathSelected | promoted | sessionFinished | relayAuthenticated | buildRecheck | observationResult | sweep =>
      exact hstale.elim

theorem step_input {i : Input} (h : Step runtime s (.input now i) t) :
    i.Possible s ∧ ∃ r u, handleInput runtime now i s = some (r, u) ∧ t = removeCancelled u := by
  rw [Step, next] at h
  split at h
  · next hp =>
    obtain ⟨⟨r, u⟩, hu, rfl⟩ := Option.map_eq_some_iff.mp h
    exact ⟨hp, r, u, hu, rfl⟩
  · cases h

end Control

section Grace

/-- Since the detachment of this generation the sessions wait for the deadline, or are gone. -/
def Waiting (generation : UInt64) (deadline : Nat) (s : Actor) : Prop :=
  generation < s.generation ∨ s.generation = generation ∧ s.controlAvailable = false ∧
    (s.detachedDeadline = some deadline ∨ s.sessions = ∅)

theorem Change.control (hc : Change runtime why follows marks s t) :
    t.generation = s.generation ∧ t.controlAvailable = s.controlAvailable ∧
      ((∀ id session, why id session .graceExpired) ∨ t.detachedDeadline = s.detachedDeadline) := by
  cases hc with
  | graceOver hw => exact ⟨rfl, rfl, .inl hw⟩
  | _ => exact ⟨rfl, rfl, .inr rfl⟩

theorem Changes.control (hc : Changes runtime why follows marks s t) :
    t.generation = s.generation ∧ t.controlAvailable = s.controlAvailable ∧
      ((∀ id session, why id session .graceExpired) ∨ t.detachedDeadline = s.detachedDeadline) := by
  induction hc with
  | refl => exact ⟨rfl, rfl, .inr rfl⟩
  | tail _ hc ih =>
      obtain ⟨hg, hav, hd⟩ := hc.control
      refine ⟨hg.trans ih.1, hav.trans ih.2.1, hd.elim .inl fun hd => ih.2.2.imp_right hd.trans⟩

theorem Changes.of_empty (hc : Changes runtime why follows marks s t) (h : s.sessions = ∅) : t.sessions = ∅ := by
  induction hc with
  | refl => exact h
  | @tail u t _ hc ih =>
      apply Finmap.ext_lookup
      intro id
      rw [Finmap.lookup_empty]
      by_contra hne
      obtain ⟨session, hl⟩ := Option.ne_none_iff_exists'.mp hne
      obtain ⟨_, hu, _⟩ := hc.evolves hl
      rw [ih, Finmap.lookup_empty] at hu
      exact nomatch hu

theorem removeCancelled_of_empty (h : s.sessions = ∅) : (removeCancelled s).sessions = ∅ := by
  apply Finmap.ext_lookup
  intro id
  rw [removeCancelled, lookup_keep, h, Finmap.lookup_empty, Option.filter_none]

theorem eq_empty_of_lookup (h : ∀ id, s.sessions.lookup id = none) : s.sessions = ∅ := by
  apply Finmap.ext_lookup
  intro id
  rw [h id, Finmap.lookup_empty]

/-- While the control is away an input attaches it again or opens no session. -/
theorem Head.away {i : Input} (hu : Head runtime now i s u) (hav : s.controlAvailable = false) :
    s.generation < u.generation ∨ SameControl s u ∧ (s.sessions = ∅ → u.sessions = ∅) := by
  cases hu with
  | opened _ _ _ _ _ hopen | answered _ _ hopen | detached _ hopen | ungranted _ _ hopen | granted _ _ hopen
  | bound _ _ hopen => exact nomatch hav.symm.trans hopen
  | attached _ hlt => exact .inl hlt
  | recheck _ _ _ hl | observed _ _ hl =>
      refine .inr ⟨⟨rfl, rfl, rfl⟩, fun hempty => ?_⟩
      rw [hempty] at hl
      exact nomatch hl
  | skip | unobserved => exact .inr ⟨⟨rfl, rfl, rfl⟩, id⟩

theorem not_reason_graceExpired {i : Input} (hi : ∀ order, i ≠ .sweep order) :
    ¬ Reason now s i id session .graceExpired := by
  intro h
  cases i with
  | sweep order => exact hi order rfl
  | event generation event bind full =>
      cases event with
      | serverNotice => exact nomatch h.2
      | _ => exact h
  | controlDetached => exact nomatch h.2
  | _ => exact h

/-- While the control is away only a sweep ends the grace, and no session is opened. -/
theorem handleInput_away {i : Input} (hp : i.Possible s) (hav : s.controlAvailable = false)
    (h : handleInput runtime now i s = some (r, t)) :
    s.generation < t.generation ∨ t.generation = s.generation ∧ t.controlAvailable = false ∧
      (s.sessions = ∅ → t.sessions = ∅) ∧
        ∀ deadline, s.detachedDeadline = some deadline →
          (∀ order, i = .sweep order → now.instant < deadline) ∧ t.detachedDeadline = some deadline ∨ t.sessions = ∅ := by
  obtain ⟨u, hu, hc⟩ := handleInput_changes h hp (Input.follows_of_forall (fun _ => trivial) _)
  obtain ⟨hg, havailable, hdeadline⟩ := hc.control
  rcases hu.away hav with hlt | ⟨hcontrol, hempty⟩
  · exact .inl (hg ▸ hlt)
  refine .inr ⟨hg.trans hcontrol.generation, havailable.trans (hcontrol.available.trans hav),
    fun hnone => hc.of_empty (hempty hnone), fun deadline hd => ?_⟩
  by_cases hi : ∃ order, i = .sweep order
  · obtain ⟨order, rfl⟩ := hi
    rcases (sweep_spec hp h).2.2 hav deadline hd with ⟨hbefore, hsame⟩ | hgone
    · exact .inl ⟨fun _ _ => hbefore, hsame⟩
    · exact .inr hgone
  · have hi : ∀ order, i ≠ .sweep order := fun order heq => hi ⟨order, heq⟩
    have hsame := hdeadline.resolve_left fun hw =>
      not_reason_graceExpired hi (hw ⟨Vector.replicate _ 0⟩ (freshSession runtime s 0 "" "" .initiator 0))
    exact .inl ⟨fun order heq => absurd heq (hi order), hsame.trans (hcontrol.deadline.trans hd)⟩

/-- Every input leaves the generation or raises it. -/
theorem generation_le_of_step {l : Label} (h : Step runtime s l t) : s.generation ≤ t.generation := by
  cases step_outcome h with
  | input _ hu hc =>
      refine UInt64.le_trans ?_ (UInt64.le_of_eq hc.control.1.symm)
      cases hu with
      | attached _ hlt => exact UInt64.le_of_lt hlt
      | _ => exact UInt64.le_refl _
  | _ => exact UInt64.le_refl _

theorem Waiting.step {generation : UInt64} {deadline : Nat} {l : Label} (h : Waiting generation deadline s)
    (hstep : Step runtime s l t) : Waiting generation deadline t := by
  rcases h with hlt | ⟨rfl, hav, hwait⟩
  · exact .inl (UInt64.lt_of_lt_of_le hlt (generation_le_of_step hstep))
  cases l with
  | input now i =>
      obtain ⟨hp, r, u, hu, rfl⟩ := step_input hstep
      rcases handleInput_away hp hav hu with hlt | ⟨hg, havailable, hempty, hdeadline⟩
      · exact .inl hlt
      refine .inr ⟨hg, havailable, ?_⟩
      rcases hwait with hd | hnone
      · exact (hdeadline deadline hd).imp And.right removeCancelled_of_empty
      · exact .inr (removeCancelled_of_empty (hempty hnone))
  | cancelCaller id =>
      cases step_outcome hstep with
      | cancelCaller hl =>
          refine .inr ⟨rfl, hav, hwait.imp_right fun hnone => ?_⟩
          rw [hnone] at hl
          exact nomatch hl
  | sever => cases step_outcome hstep with | sever => exact .inr ⟨rfl, hav, hwait⟩
  | transmit => cases step_outcome hstep with | transmit => exact .inr ⟨rfl, hav, hwait⟩

theorem Waiting.sweep {generation : UInt64} {deadline : Nat} {order : List SessionId} (h : Waiting generation deadline s)
    (hdue : deadline ≤ now.instant) (hstep : Step runtime s (.input now (.sweep order)) t) :
    ∀ other, Waiting generation other t := by
  intro other
  rcases h with hlt | ⟨rfl, hav, hwait⟩
  · exact .inl (UInt64.lt_of_lt_of_le hlt (generation_le_of_step hstep))
  obtain ⟨hp, r, u, hu, rfl⟩ := step_input hstep
  rcases handleInput_away hp hav hu with hlt | ⟨hg, havailable, hempty, hdeadline⟩
  · exact .inl hlt
  refine .inr ⟨hg, havailable, .inr (removeCancelled_of_empty ?_)⟩
  rcases hwait with hd | hnone
  · exact (hdeadline deadline hd).resolve_left fun hlate => absurd (hlate.1 order rfl) (Nat.not_lt.mpr hdue)
  · exact hempty hnone

/-- No session waits for two deadlines. -/
theorem Waiting.empty (h : ∀ deadline, Waiting s.generation deadline s) : s.sessions = ∅ := by
  have hempty : ∀ deadline, s.detachedDeadline = some deadline ∨ s.sessions = ∅ := fun deadline =>
    ((h deadline).resolve_left (UInt64.lt_irrefl _)).2.2
  rcases hempty 0, hempty 1 with ⟨hzero | hnone, hone | hnone⟩
  · exact nomatch hzero.symm.trans hone
  all_goals exact hnone

theorem Waiting.run {generation : UInt64} {deadline : Nat} {labels : List Label} (h : Waiting generation deadline s)
    (hrun : Run (Step runtime) s labels t) : Waiting generation deadline t ∧
      ∀ now order, .input now (.sweep order) ∈ labels → deadline ≤ now.instant → ∀ other, Waiting generation other t := by
  induction hrun with
  | refl => exact ⟨h, fun _ _ hin => nomatch hin⟩
  | snoc _ hstep ih =>
      refine ⟨ih.1.step hstep, fun now order hin hdue => ?_⟩
      rcases List.mem_append.mp hin with hin | hlast
      · exact fun other => (ih.2 now order hin hdue other).step hstep
      · obtain rfl := List.mem_singleton.mp hlast
        exact ih.1.sweep hdue hstep

end Grace

end Rustgo.Orchestration
