import Rustgo.OrchestrationPaths

namespace Rustgo.Orchestration

open Call Checks Coordinator Path Protocol Rendezvous Tables Runs

variable {runtime : Runtime} {why : SessionId → Session → IoError → Prop} {follows : Session → Prop}
  {marks : SessionId → Mark → Prop} {s t u : Actor} {id : SessionId} {session session' : Session} {now : Moment}
  {envelope : RendezvousEnvelope} {labels : List Label}

namespace Actor

/-- The envelopes that the client has sent or applied. -/
def seen (s : Actor) : List RendezvousEnvelope := s.trace.sent ++ s.trace.applied

def Met (s : Actor) (id : SessionId) : Prop := ∃ envelope ∈ s.seen, envelope.sessionId = id

instance (s : Actor) (id : SessionId) : Decidable (s.Met id) :=
  inferInstanceAs (Decidable (∃ envelope ∈ s.seen, envelope.sessionId = id))

/-- The next step of the session is beyond those of its envelopes. -/
def Ahead (s : Actor) (id : SessionId) (session : Session) : Prop :=
  ∀ envelope ∈ s.seen, envelope.sessionId = id → saturatingAdd envelope.step 1 ≤ session.nextStep

def Numbered (s : Actor) : Prop := Everywhere s.Ahead s

theorem Ahead.congr (h : s.Ahead id session) (hn : session'.nextStep = session.nextStep) : s.Ahead id session' :=
  fun envelope hin hid => hn ▸ h envelope hin hid

end Actor

/-- A session is opened, from either end, under an id that the client has not met. -/
def Unmet (s : Actor) : Label → Prop
  | .input _ (.opening id _ _ _ _) => ¬ s.Met id
  | .input _ (.event _ (.rendezvous envelope) _ _) =>
      envelope.payload.asRequest.isSome = true → s.sessions.lookup envelope.sessionId = none → ¬ s.Met envelope.sessionId
  | _ => True

instance (s : Actor) (l : Label) : Decidable (Unmet s l) := by
  unfold Unmet
  split <;> infer_instance

section Change

def NotBefore (_ : SessionId) (session session' : Session) : Prop := session.nextStep ≤ session'.nextStep

theorem NotBefore.refl (id : SessionId) (session : Session) : NotBefore id session session := UInt64.le_refl _

theorem le_raiseNextStep (step : UInt64) (session : Session) : session.nextStep ≤ (raiseNextStep step session).nextStep := by
  change _ ≤ if _ then _ else _
  split
  · next h => exact h
  · exact UInt64.le_refl _

theorem Edit.nextStep_le {allowed : Mark → Prop} (h : Edit allowed session session') : session.nextStep ≤ session'.nextStep := by
  cases h with
  | nextStep next hnext =>
      have hle : next.toNat = session.nextStep.toNat + 1 := checkedAdd_eq_some hnext
      exact UInt64.le_iff_toNat_le.mpr (hle ▸ Nat.le_succ _)
  | raiseNextStep step => exact le_raiseNextStep step session
  | _ => exact UInt64.le_refl _

theorem le_of_checkedAdd {step next : UInt64} (h : checkedAdd step 1 = some next) :
    step ≤ next ∧ saturatingAdd step 1 = next := by
  have hle : next.toNat = step.toNat + 1 := checkedAdd_eq_some h
  exact ⟨UInt64.le_iff_toNat_le.mpr (hle ▸ Nat.le_succ _), by rw [saturatingAdd, h, Option.getD_some]⟩

theorem Change.nextStep_le (hc : Change runtime why follows marks s t) (h : t.sessions.lookup id = some session') :
    ∃ session, s.sessions.lookup id = some session ∧ session.nextStep ≤ session'.nextStep := by
  cases hc with
  | edit hl he => exact before_put NotBefore.refl hl h he.nextStep_le
  | post hl hnext | candidates _ hl hnext => exact before_put NotBefore.refl hl h (le_of_checkedAdd hnext).1
  | follow hl => exact before_put NotBefore.refl hl h (UInt64.le_refl _)
  | resolve | fail | finish | finishPost => exact before_drop NotBefore.refl h
  | lookup | request | requestFailed | announce | applied | emit | observe | graceOver | mark =>
      exact ⟨session', h, UInt64.le_refl _⟩

theorem mem_seen_post {other : RendezvousEnvelope} (h : other ∈ (s.post envelope).seen) : other ∈ s.seen ∨ other = envelope := by
  simp only [Actor.seen, Actor.post, List.mem_append, List.mem_singleton] at h ⊢
  tauto

/-- An envelope that a change adds is below the next step of its session, if that is still there. -/
theorem Change.seen (hc : Change runtime why follows marks s t) (hin : envelope ∈ t.seen)
    (hl : t.sessions.lookup envelope.sessionId = some session) :
    envelope ∈ s.seen ∨ saturatingAdd envelope.step 1 ≤ session.nextStep := by
  cases hc with
  | announce h he =>
      refine (mem_seen_post hin).imp_right ?_
      rintro rfl
      obtain ⟨_, rfl, _, _, hstep, _⟩ := signedEnvelope_spec he
      obtain rfl := Option.some.inj (h.found.symm.trans hl)
      rw [hstep, h.nextStep]
      decide
  | post _ hnext _ _ he | candidates _ _ hnext _ _ he =>
      refine (mem_seen_post hin).imp_right ?_
      rintro rfl
      obtain ⟨_, rfl, _, _, hstep, _⟩ := signedEnvelope_spec he
      obtain rfl := Option.some.inj (lookup_put_self.symm.trans hl)
      rw [hstep, (le_of_checkedAdd hnext).2]
      exact UInt64.le_refl _
  | resolve _ he | finishPost _ he =>
      refine (mem_seen_post hin).imp_right ?_
      rintro rfl
      obtain ⟨_, rfl, _⟩ := signedEnvelope_spec he
      exact nomatch lookup_drop_self.symm.trans hl
  | applied _ h _ hn =>
      rw [Actor.seen, ← List.append_assoc] at hin
      refine (List.mem_append.mp hin).imp_right fun hlast => ?_
      obtain rfl := List.mem_singleton.mp hlast
      obtain rfl := Option.some.inj (h.symm.trans hl)
      exact hn
  | _ => exact .inl hin

theorem Actor.Numbered.change (h : s.Numbered) (hc : Change runtime why follows marks s t) : t.Numbered := by
  rintro id session hl envelope hin rfl
  obtain ⟨before, hs, hle⟩ := hc.nextStep_le hl
  rcases hc.seen hin hl with hold | hnew
  · exact UInt64.le_trans (h _ before hs envelope hold rfl) hle
  · exact hnew

end Change

section Steps

theorem Actor.Numbered.of_seen (h : s.Numbered) (hseen : t.seen = s.seen)
    (hsub : ∀ id session, t.sessions.lookup id = some session → s.sessions.lookup id = some session) : t.Numbered := by
  intro id session hl envelope hin
  rw [hseen] at hin
  exact h id session (hsub id session hl) envelope hin

theorem Actor.Numbered.put (h : s.Numbered) (hp : s.Ahead id session) : (s.put id session).Numbered := Everywhere.put h hp

theorem Actor.Numbered.head {i : Input} (h : s.Numbered) (hu : Head runtime now i s u) (hi : Unmet s (.input now i)) :
    u.Numbered := by
  cases hu with
  | opened => exact h.put fun envelope hin hid => absurd ⟨envelope, hin, hid⟩ hi
  | answered _ _ _ hl hp =>
      exact h.put fun envelope hin hid => absurd ⟨envelope, hin, hid⟩ (hi (by rw [hp]; rfl) hl)
  | recheck _ _ _ hl | bound _ _ _ hl | observed _ _ hl => exact h.put ((h _ _ hl).congr rfl)
  | skip => exact h
  | attached | detached | ungranted | granted | unobserved => exact h.of_seen rfl fun _ _ hl => hl

theorem Actor.Numbered.step {l : Label} (h : s.Numbered) (hstep : Step runtime s l t) (hunmet : Unmet s l) : t.Numbered := by
  cases step_outcome hstep with
  | input _ hu hc =>
      have hchanges := hc.invariant (fun _ _ h hc => h.change hc) (h.head hu hunmet)
      exact hchanges.of_seen rfl fun _ _ hl => (lookup_keep_eq_some.mp hl).1
  | cancelCaller hl => exact h.put ((h _ _ hl).congr rfl)
  | sever | transmit => exact h.of_seen rfl fun _ _ hl => hl

theorem numbered_run {generation : UInt64} {version : ProtocolVersion}
    (h : Run (Restricted (Step runtime) Unmet) (.new generation version) labels s) : s.Numbered := by
  refine h.invariant (fun _ _ _ h hstep => h.step hstep.1 hstep.2) ?_
  exact fun _ _ hl => nomatch hl

end Steps

end Rustgo.Orchestration
