import Rustgo.CoordinatorRuns
import Rustgo.CoordinatorUnobserved

namespace Rustgo.Coordinator

open Call Checks Protocol Registry Rendezvous Tables RendezvousCoordinator

abbrev Answer := Except RendezvousErrorCode (Option SessionId)

/-- What is returned to the caller; only a request returns a value. -/
def answer (c : RendezvousCoordinator) : Operation → Op (Option SessionId)
  | .request now authenticated envelope => do
      let id ← c.request now authenticated envelope
      pure (some id)
  | op => do
      perform c op
      pure none

def Operation.installs : Operation → Bool
  | .installObservabilitySink => true
  | _ => false

/-- Makes the calls one after the other. Installing the sink has no answer. -/
def transcript (c : RendezvousCoordinator) : Server → List Operation → Option (List Answer × Server)
  | s, [] => some ([], s)
  | s, op :: ops =>
      if op.Iterates s then
        (answer c op s).bind fun p => (transcript c p.2 ops).map fun q => (if op.installs then q.1 else p.1 :: q.1, q.2)
      else none

def withoutSink (ops : List Operation) : List Operation := ops.filter fun op => !op.installs

/-- An envelope that only a server with a sink refuses. -/
def Disputes (t : Server) : Operation → Prop
  | .forwardEnvelope now _ authenticated envelope => Disputed t now authenticated envelope
  | _ => False

variable {c : RendezvousCoordinator} {s s' t t' : Server} {op : Operation} {ops : List Operation} {answers : List Answer}

theorem Alike.iterates_iff (h : Alike s t) (op : Operation) : op.Iterates t ↔ op.Iterates s := by
  cases op with
  | expireNow | removeDevice => simp only [Operation.Iterates, h.state.mem_iff]
  | request | providerDecision | forwardEnvelope | closeSession | forwardRelayFrame | claim | markUnavailable | finalizeDisconnect
  | enqueue | receive | closeOutbound | installObservabilitySink => exact .rfl

theorem onRegistry_mirrors {f : ClientRegistry → ClientRegistry} (hf : ∀ r r', RegistryLike r r' → RegistryLike (f r) (f r')) :
    Mirror (onRegistry f) (onRegistry f) :=
  .update fun _ _ h => ⟨hf _ _ h.registry, h.state, h.history⟩

theorem claim_like {now : Moment} {identity : AuthenticatedClient} {outbound : Outbound} {version : ProtocolVersion}
    {r r' : ClientRegistry} (h : RegistryLike r r') :
    RegistryLike (claim now identity outbound version r) (claim now identity outbound version r') := by
  have hclaim : Matches (fun p q : ControlSessionGuard × ClientRegistry => RegistryLike p.2 q.2)
      (r.claimWithOutbound identity outbound version now.unixMillis) (r'.claimWithOutbound identity outbound version now.unixMillis) := by
    rw [h.eq, ClientRegistry.claimWithOutbound, ClientRegistry.claimWithOutbound]
    refine .andThen fun _ _ => .andThen fun _ _ => .andThen fun _ _ => .andThen fun generation _ => .andThen fun observed _ => .ok ?_
    have htables : RegistryLike { r with observability := none } { r with observability := r'.observability } := .of_eq rfl rfl
    refine ⟨?_, ?_⟩
    · simp only [ClientRegistry.tryObserve, h.plain, Option.map_none]
    · simp only [ClientRegistry.tryObserve, h.plain, Option.map_none]
  rw [claim, claim]
  generalize r.claimWithOutbound identity outbound version now.unixMillis = x at hclaim ⊢
  generalize r'.claimWithOutbound identity outbound version now.unixMillis = y at hclaim ⊢
  cases hclaim with
  | ok hlike => exact hlike
  | error e => exact h

theorem perform_mirrored (h : Alike s t) (hinstalls : op.installs = false) (hundisputed : ¬Disputes t op) :
    Mirrored Alike (fun _ _ => True) (perform c op s) (perform c op t) := by
  cases op with
  | request now authenticated envelope => exact request_mirrors.bind (fun _ _ _ => .pure trivial) s t h
  | providerDecision now authenticated envelope => exact providerDecision_mirrors s t h
  | forwardEnvelope now token authenticated envelope => exact forwardEnvelope_mirrored h hundisputed
  | closeSession now authenticated envelope => exact closeSession_mirrors s t h
  | forwardRelayFrame now authenticated frame => exact forwardRelayFrame_mirrors s t h
  | expireNow now order => exact expireNow_mirrors order s t h
  | removeDevice now identity order => exact removeDevice_mirrors identity order s t h
  | claim now identity outbound version => exact onRegistry_mirrors (fun _ _ hr => claim_like hr) s t h
  | markUnavailable guard => exact onRegistry_mirrors (fun _ _ hr => hr.markUnavailable guard) s t h
  | finalizeDisconnect now guard => exact onRegistry_mirrors (fun _ _ hr => hr.finalizeDisconnect guard _) s t h
  | enqueue name message => exact onRegistry_mirrors (fun _ _ hr => hr.trySend name message) s t h
  | receive name | closeOutbound name => exact onRegistry_mirrors (fun _ _ hr => hr.mapRuntime name _) s t h
  | installObservabilitySink => cases hinstalls

theorem answer_mirrored (h : Alike s t) (hinstalls : op.installs = false) (hundisputed : ¬Disputes t op) :
    Mirrored Alike Eq (answer c op s) (answer c op t) := by
  cases op with
  | request now authenticated envelope => exact (request_mirrors s t h).bind fun _ _ heq => .pure (congrArg some heq)
  | installObservabilitySink => cases hinstalls
  | providerDecision | forwardEnvelope | closeSession | forwardRelayFrame | expireNow | removeDevice | claim | markUnavailable
  | finalizeDisconnect | enqueue | receive | closeOutbound =>
      exact (perform_mirrored h hinstalls hundisputed).bind fun _ _ _ => .pure rfl

theorem reserveTo_ne_invalidState {r : ClientRegistry} {owner : SessionOwner} {e : RendezvousErrorCode}
    (h : reserveTo r owner = .error e) : e ≠ .invalidState := by
  rw [reserveTo, activeRoute] at h
  obtain hactive | ⟨active, -, h⟩ := bind_eq_error.mp h
  · obtain hnone | ⟨active, -, hactive⟩ := bind_eq_error.mp hactive
    · rw [← (okOr_eq_error.mp hnone).2]
      decide
    · obtain hother | ⟨_, -, hactive⟩ := bind_eq_error.mp hactive
      · rw [← (require_eq_error.mp hother).2]
        decide
      · cases hactive
  · obtain hfull | ⟨_, -, h⟩ := bind_eq_error.mp h
    · rw [← (require_eq_error.mp hfull).2]
      decide
    · cases h

/-- The answers of the two servers to a disputed envelope differ. -/
theorem answer_disputed (h : Alike s t) (hdisputes : Disputes t op) :
    (∃ t', answer c op t = some (.error .invalidState, t')) ∧ ∀ r s', answer c op s = some (r, s') → r ≠ .error .invalidState := by
  cases op with
  | forwardEnvelope now token authenticated envelope =>
      obtain ⟨hrefused, plan, hplan⟩ := forwardPlan_disputed h hdisputes
      refine ⟨⟨t, ?_⟩, ?_⟩
      · have hperform : perform c (.forwardEnvelope now token authenticated envelope) t = some (.error .invalidState, t) :=
          read_bind_error (g := fun t => forwardPlan t now authenticated envelope) hrefused _
        have hanswer := bind_apply (perform c (.forwardEnvelope now token authenticated envelope)) (fun _ => pure (none : Option SessionId)) t
        rw [hperform] at hanswer
        exact hanswer
      · rintro r s' hr rfl
        obtain ⟨e, u, hu, heq⟩ | ⟨_, u, -, hu⟩ := bind_cases hr
        · obtain ⟨he, rfl⟩ := Prod.mk.inj heq
          obtain rfl := Except.error.inj he
          have hdigest : c.candidateDigest envelope = none := by
            obtain ⟨result, -, -, -, hresult, -⟩ := hdisputes
            rw [candidateDigest, hresult]
          rw [perform, forwardEnvelope] at hu
          obtain ⟨e, herror, -⟩ | ⟨plan', hplan', hu⟩ := read_bind_cases hu
          · cases hplan.symm.trans herror
          · obtain ⟨e, herror, heq⟩ | ⟨permit, -, hu⟩ := read_bind_cases hu
            · exact reserveTo_ne_invalidState herror (Except.error.inj (Prod.mk.inj heq).1).symm
            · simp only [hdigest, punchGrant, Option.isSome_none, Bool.false_eq_true, false_and, if_false, sendGrant, update_bind,
                Permit.send, note] at hu
              cases hu
        · cases hu
  | request | providerDecision | closeSession | forwardRelayFrame | expireNow | removeDevice | claim | markUnavailable
  | finalizeDisconnect | enqueue | receive | closeOutbound | installObservabilitySink => exact absurd hdisputes id

theorem Alike.new (n : Nat) : Alike (.new n) (.new n) := ⟨.refl rfl, .refl _, rfl⟩

theorem Alike.install (h : Alike s t) :
    ∃ t', answer c .installObservabilitySink t = some (.ok none, t') ∧ Alike s t' :=
  ⟨{ t with registry := t.registry.installObservabilitySink }, rfl, ⟨h.registry.plain, by rw [h.registry.eq]; rfl⟩, h.state, h.history⟩

theorem transcript_cons : transcript c t (op :: ops) = some (answers, t') ↔ op.Iterates t ∧ ∃ r u a,
    answer c op t = some (r, u) ∧ transcript c u ops = some (a, t') ∧ answers = if op.installs then a else r :: a := by
  rw [transcript]
  by_cases hiterates : op.Iterates t
  · rw [if_pos hiterates, Option.bind_eq_some_iff]
    constructor
    · rintro ⟨⟨r, u⟩, hr, h⟩
      obtain ⟨⟨a, v⟩, ha, heq⟩ := Option.map_eq_some_iff.mp h
      obtain ⟨rfl, rfl⟩ := Prod.mk.inj heq
      exact ⟨hiterates, r, u, a, hr, ha, rfl⟩
    · rintro ⟨-, r, u, a, hr, ha, rfl⟩
      exact ⟨(r, u), hr, Option.map_eq_some_iff.mpr ⟨(a, t'), ha, rfl⟩⟩
  · rw [if_neg hiterates]
    constructor
    · rintro ⟨⟩
    · exact fun h => absurd h.1 hiterates

theorem transcript_append {before after : List Operation} (h : transcript c t (before ++ after) = some (answers, t')) :
    ∃ a u b, transcript c t before = some (a, u) ∧ transcript c u after = some (b, t') ∧ answers = a ++ b := by
  induction before generalizing t answers with
  | nil => exact ⟨[], t, answers, rfl, h, rfl⟩
  | cons op before ih =>
      obtain ⟨hiterates, r, v, a, hr, ha, rfl⟩ := transcript_cons.mp h
      obtain ⟨a, u, b, hbefore, hafter, rfl⟩ := ih ha
      refine ⟨_, u, b, transcript_cons.mpr ⟨hiterates, r, v, a, hr, hbefore, rfl⟩, hafter, ?_⟩
      split
      · rfl
      · rfl

theorem transcript_single (hinstalls : op.installs = false) (h : transcript c t [op] = some (answers, t')) :
    ∃ r, answer c op t = some (r, t') ∧ answers = [r] := by
  obtain ⟨-, r, u, a, hr, ha, rfl⟩ := transcript_cons.mp h
  obtain ⟨rfl, rfl⟩ := Prod.mk.inj (Option.some.inj ha)
  exact ⟨r, hr, by rw [hinstalls]; rfl⟩

theorem withoutSink_append (before after : List Operation) : withoutSink (before ++ after) = withoutSink before ++ withoutSink after :=
  List.filter_append ..

theorem withoutSink_cons (op : Operation) (ops : List Operation) :
    withoutSink (op :: ops) = if op.installs then withoutSink ops else op :: withoutSink ops := by
  rw [withoutSink, List.filter_cons]
  cases op.installs <;> rfl

theorem installs_iff : op.installs = true ↔ op = .installObservabilitySink := by
  cases op <;> simp [Operation.installs]

/-- As long as no envelope is disputed, the run without the sink keeps up. -/
theorem transcript_undisputed (h : Alike s t) (ht : transcript c t ops = some (answers, t'))
    (hundisputed : ∀ before op after, ops = before ++ op :: after → ∀ a u, transcript c t before = some (a, u) → ¬Disputes u op) :
    ∃ s', transcript c s (withoutSink ops) = some (answers, s') ∧ Alike s' t' := by
  induction ops generalizing s t answers with
  | nil =>
      obtain ⟨rfl, rfl⟩ := Prod.mk.inj (Option.some.inj ht)
      exact ⟨s, rfl, h⟩
  | cons op ops ih =>
      obtain ⟨hiterates, r, u, a, hr, ha, rfl⟩ := transcript_cons.mp ht
      have hrest : ∀ before op' after, ops = before ++ op' :: after → ∀ a v, transcript c u before = some (a, v) → ¬Disputes v op' :=
        fun before op' after heq a v hv =>
          hundisputed (op :: before) op' after (congrArg (op :: ·) heq) _ v (transcript_cons.mpr ⟨hiterates, r, u, a, hr, hv, rfl⟩)
      rw [withoutSink_cons]
      by_cases hinstalls : op.installs = true
      · rw [if_pos hinstalls, if_pos hinstalls]
        obtain rfl := installs_iff.mp hinstalls
        obtain ⟨u', hu, halike⟩ := h.install (c := c)
        obtain ⟨-, rfl⟩ := Prod.mk.inj (Option.some.inj (hr.symm.trans hu))
        exact ih halike ha hrest
      · rw [if_neg hinstalls, if_neg hinstalls]
        have hmirrored := answer_mirrored (c := c) h (eq_false_of_ne_true hinstalls) (hundisputed [] op ops rfl [] t rfl)
        rw [hr] at hmirrored
        generalize hs : answer c op s = x at hmirrored
        cases hmirrored with
        | @some p q hpq =>
            obtain ⟨r', v⟩ := p
            obtain ⟨hlike, hmatches⟩ := hpq
            obtain ⟨s', hs', halike⟩ := ih hlike ha hrest
            have heq : r' = r := by
              cases hmatches with
              | ok h => rw [h]
              | error e => rfl
            rw [heq] at hs
            exact ⟨s', transcript_cons.mpr ⟨(h.iterates_iff op).mp hiterates, r, v, a, hs, hs', by rw [if_neg hinstalls]⟩, halike⟩

theorem Disputes.installs (h : Disputes t op) : op.installs = false := by
  cases op with
  | installObservabilitySink => exact absurd h id
  | request | providerDecision | forwardEnvelope | closeSession | forwardRelayFrame | expireNow | removeDevice | claim | markUnavailable
  | finalizeDisconnect | enqueue | receive | closeOutbound => rfl

/-- Servers that answer alike have met no disputed envelope. -/
theorem undisputed_of_transcript (h : Alike s t)
    (hsame : ∀ before after, ops = before ++ after →
      ∃ a u v, transcript c t before = some (a, u) ∧ transcript c s (withoutSink before) = some (a, v)) :
    ∀ before op after, ops = before ++ op :: after → ∀ a u, transcript c t before = some (a, u) → ¬Disputes u op := by
  intro before
  induction hn : before.length using Nat.strong_induction_on generalizing before with
  | _ n ih =>
      rintro op after rfl a u hu hdisputes
      have hearlier : ∀ earlier op' later, before = earlier ++ op' :: later →
          ∀ a u, transcript c t earlier = some (a, u) → ¬Disputes u op' := by
        rintro earlier op' later rfl
        refine ih earlier.length ?_ earlier rfl op' (later ++ op :: after) ?_
        · rw [← hn, List.length_append, List.length_cons]
          omega
        · rw [List.append_assoc, List.cons_append]
      obtain ⟨s', hs', halike⟩ := transcript_undisputed h hu hearlier
      obtain ⟨answers, u', v', hboth, hplain⟩ := hsame (before ++ [op]) after (by rw [List.append_assoc]; rfl)
      have hwithout : withoutSink [op] = [op] := by rw [withoutSink_cons, hdisputes.installs]; rfl
      rw [withoutSink_append, hwithout] at hplain
      obtain ⟨a₁, u₁, b₁, hu₁, hb₁, rfl⟩ := transcript_append hboth
      obtain ⟨a₂, v₂, b₂, hv₂, hb₂, hanswers⟩ := transcript_append hplain
      obtain ⟨rfl, rfl⟩ := Prod.mk.inj (Option.some.inj (hu.symm.trans hu₁))
      obtain ⟨rfl, rfl⟩ := Prod.mk.inj (Option.some.inj (hs'.symm.trans hv₂))
      obtain ⟨r, hr, rfl⟩ := transcript_single hdisputes.installs hb₁
      obtain ⟨r', hr', rfl⟩ := transcript_single hdisputes.installs hb₂
      obtain rfl := List.singleton_inj.mp (List.append_cancel_left hanswers)
      obtain ⟨⟨t', hrefused⟩, hdiffers⟩ := answer_disputed (c := c) halike hdisputes
      exact hdiffers r v' hr' (Prod.mk.inj (Option.some.inj (hr.symm.trans hrefused))).1

/-- A server with a sink answers and sends what one without sends, at every point
of a run, exactly when no envelope of the run was disputed. -/
theorem coordination_unobserved {n : Nat} {ops : List Operation} {answers : List Answer} {t : Server}
    (h : transcript c (.new n) ops = some (answers, t)) :
    (∀ before after, ops = before ++ after → ∃ a u s, transcript c (.new n) before = some (a, u) ∧
      transcript c (.new n) (withoutSink before) = some (a, s) ∧
      s.registry = { u.registry with observability := none } ∧ s.history = u.history) ↔
    ∀ before op after, ops = before ++ op :: after → ∀ a u, transcript c (.new n) before = some (a, u) → ¬Disputes u op := by
  constructor
  · intro hsame
    apply undisputed_of_transcript (.new n)
    intro before after heq
    obtain ⟨a, u, s, hu, hs, -⟩ := hsame before after heq
    exact ⟨a, u, s, hu, hs⟩
  · rintro hundisputed before after rfl
    obtain ⟨a, u, b, hu, -, -⟩ := transcript_append h
    obtain ⟨s, hs, halike⟩ := transcript_undisputed (.new n) hu fun before' op later heq =>
      hundisputed before' op (later ++ after) (by rw [heq, List.append_assoc, List.cons_append])
    refine ⟨a, u, s, hu, hs, ?_, halike.history.symm⟩
    have hplain := halike.registry.plain
    rw [halike.registry.eq, ← hplain]

/-- The consumer asks for a session, and finds a relayed path before a direct one. -/
def samplePromoted : List Operation :=
  let report step transport := Operation.forwardEnvelope (sampleMoment 20) sampleToken deviceA
    (sampleEnvelope (sampleId 1) deviceA deviceB step 1 CandidateGeneration.one_ne_zero (.connectivityResult ⟨true, some transport, none⟩))
  sampleConnect ++ .installObservabilitySink :: (sampleAccepted (sampleId 1) deviceA deviceB ++ [report 3 .relay, report 4 .quicUdp])

theorem coordination_unobserved_promoted : ∃ answers t, transcript sampleCoordinator (.new 8) samplePromoted = some (answers, t) ∧
    ((∀ before after, samplePromoted = before ++ after → ∃ a u s, transcript sampleCoordinator (.new 8) before = some (a, u) ∧
      transcript sampleCoordinator (.new 8) (withoutSink before) = some (a, s) ∧
      s.registry = { u.registry with observability := none } ∧ s.history = u.history) ↔
    ∀ before op after, samplePromoted = before ++ op :: after → ∀ a u, transcript sampleCoordinator (.new 8) before = some (a, u) →
      ¬Disputes u op) := by
  obtain ⟨⟨answers, t⟩, h⟩ := Option.isSome_iff_exists.mp
    (show (transcript sampleCoordinator (.new 8) samplePromoted).isSome = true by decide +kernel)
  exact ⟨answers, t, h, coordination_unobserved h⟩

/-- Only the server with a sink refuses the second report. -/
theorem promotion_refused_when_observed : ¬∀ (c : RendezvousCoordinator) n ops answers t, transcript c (.new n) ops = some (answers, t) →
    (transcript c (.new n) (withoutSink ops)).map Prod.fst = some answers := by
  intro hsame
  have hwatched : (transcript sampleCoordinator (.new 8) samplePromoted).any
      (fun p => p.1.getLast? = some (.error .invalidState)) = true := by decide +kernel
  have hplain : (transcript sampleCoordinator (.new 8) (withoutSink samplePromoted)).any
      (fun p => p.1.getLast? = some (.ok none)) = true := by decide +kernel
  obtain ⟨⟨answers, t⟩, h, hrefused⟩ := (Option.any_eq_true _ _).mp hwatched
  obtain ⟨⟨answers', s⟩, h', hforwarded⟩ := (Option.any_eq_true _ _).mp hplain
  have heq := hsame _ _ _ _ _ h
  rw [h', Option.map_some] at heq
  obtain rfl := Option.some.inj heq
  cases (of_decide_eq_true hrefused).symm.trans (of_decide_eq_true hforwarded)

end Rustgo.Coordinator
