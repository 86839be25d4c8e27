import Rustgo.CoordinatorAtomic
import Rustgo.CoordinatorGrants

namespace Rustgo.Coordinator

open Checks Protocol Registry Rendezvous Tables RendezvousCoordinator CoordinatorState Runs

/-- The grant that a call constructs, whether or not it can be sent. -/
def constructedGrant (c : RendezvousCoordinator) (s : Server) : Operation → Option PunchGrant
  | .forwardEnvelope now token authenticated envelope =>
      match forwardPlan s now authenticated envelope with
      | .ok plan =>
          match reserveTo s.registry plan.target with
          | .ok _ => forwardedGrant c now token authenticated envelope plan
          | .error _ => none
      | .error _ => none
  | _ => none

/-- The grants that were constructed so far, each with the incarnation of its session. -/
abbrev Issued := List (Nat × PunchGrant)

def GrantStep (c : RendezvousCoordinator) (p : Server × Issued) (op : Operation) (q : Server × Issued) : Prop :=
  Step c p.1 op q.1 ∧
    q.2 = p.2 ++ ((constructedGrant c p.1 op).map fun grant => (p.1.incarnation ⟨grant.sessionId⟩, grant)).toList

def grantsOf (issued : Issued) (id : SessionId) (k : Nat) (g : CandidateGeneration) : List PunchGrant :=
  (issued.filter fun p => p.1 = k ∧ p.2.sessionId = id.bytes ∧ p.2.generation = g.value).map Prod.snd

/-- Either no grant, or one, for the one set of each participant. -/
def Granted (c : RendezvousCoordinator) (log : List HistoryEvent) (g : CandidateGeneration) (grants : List PunchGrant) : Prop :=
  grants = [] ∨ ∃ q initiators responders grant, opening log = some q ∧ grants = [grant] ∧
    announcements log q.sender g = [initiators] ∧ announcements log q.recipient g = [responders] ∧
    grant.initiatorCandidatesSha256 = candidatesDigest c initiators ∧ grant.responderCandidatesSha256 = candidatesDigest c responders

structure Granting (c : RendezvousCoordinator) (s : Server) (issued : Issued) : Prop where
  recorded : Recorded False s
  digested : ∀ {id session}, s.state.activeSession id = some session → Digested c (s.presentLog id) session
  granted : ∀ id k g, Granted c (s.sessionLog id k) g (grantsOf issued id k g)
  numbered : ∀ p ∈ issued, ∃ g : CandidateGeneration, p.2.generation = g.value

variable {c : RendezvousCoordinator} {timely : Prop} {s s' : Server} {id : SessionId} {log : List HistoryEvent}
  {now : Moment} {token : Vector UInt8 32} {authenticated : ControlSessionGuard} {envelope : RendezvousEnvelope}
  {g : CandidateGeneration} {event : HistoryEvent} {issued : Issued} {grants : List PunchGrant}

/-- An event that adds at most the first set of its sender to a generation. -/
def HistoryEvent.FreshIn (event : HistoryEvent) (log : List HistoryEvent) : Prop :=
  ∀ e, event = .forwarded e → ∀ party g set, e.announcement? party g = some set → announcements log party g = []

theorem HistoryEvent.Quiet.freshIn (h : event.Quiet) (log : List HistoryEvent) : event.FreshIn log :=
  fun e he _ _ _ hset => absurd (announcement_eq_some.mp hset).1 (h e he _)

theorem announcements_append_fresh {party : AuthenticatedClient} {set : CandidateSetV2} (h : event.FreshIn log)
    (hset : announcements log party g = [set]) : announcements (log ++ [event]) party g = [set] := by
  refine (announcements_append_quiet fun e he => ?_).trans hset
  apply Option.eq_none_iff_forall_ne_some.mpr
  intro set' hadds
  cases hset.symm.trans (h e he party g set' hadds)

theorem Granted.append (h : Granted c log g grants) (hfresh : event.FreshIn log) : Granted c (log ++ [event]) g grants := by
  rcases h with hnone | ⟨q, a, b, grant, hopening, hgrants, ha, hb, hdigests⟩
  · exact .inl hnone
  · exact .inr ⟨q, a, b, grant, opening_append event hopening, hgrants, announcements_append_fresh hfresh ha,
      announcements_append_fresh hfresh hb, hdigests⟩

theorem granted_append (h : ∀ id k g, Granted c (s.sessionLog id k) g (grantsOf issued id k g))
    (hfresh : event.FreshIn (s.sessionLog event.sessionId event.incarnation)) (id : SessionId) (k : Nat) (g : CandidateGeneration) :
    Granted c ((s.append event).sessionLog id k) g (grantsOf issued id k g) := by
  rw [sessionLog_append]
  split
  · next hof =>
    obtain ⟨rfl, rfl⟩ := hof
    exact (h _ _ g).append hfresh
  · rw [List.append_nil]
    exact h id k g

theorem Forwarding.freshIn {plan : ForwardPlan} {permit : Permit} (hf : Forwarding s now authenticated envelope plan)
    (hk : Kept s) (hd : Digested c (s.presentLog envelope.sessionId) plan.session) :
    (s.passes envelope authenticated permit now).FreshIn (s.presentLog envelope.sessionId) := by
  rintro _ ⟨⟩ party g set hset
  obtain ⟨hpayload, rfl, rfl⟩ := announcement_eq_some.mp hset
  exact hd.fresh (hk.coherent hf.session) hf.between hpayload (hf.participant ▸ hf.generation)

theorem Granting.change (h : Granting c s issued) (hs : Change c False s s') : Granting c s' issued where
  recorded := h.recorded.change hs
  numbered := h.numbered
  digested := fun hactive => Digested.follows h.digested h.recorded.kept (hs.follows h.recorded hactive)
  granted := by
    cases hs with
    | registry | admitted | flushed | discarded | purged => exact h.granted
    | @opened now authenticated envelope plan hplan =>
        have hquiet : (s.opens envelope authenticated plan.permit now).Quiet :=
          quiet_of_payload fun set hset => by cases (requestPlan_eq_ok hplan).payload.symm.trans hset
        exact granted_append h.granted (hquiet.freshIn _)
    | @decided now authenticated envelope plan permit hplan hp =>
        have hquiet : (s.passes envelope authenticated permit now).Quiet :=
          quiet_of_payload fun set hset => by cases (decisionPlan_eq_ok hplan).payload.symm.trans hset
        exact granted_append h.granted (hquiet.freshIn _)
    | @forwarded now authenticated envelope plan permit hplan hp =>
        have hf := forwardPlan_eq_ok hplan
        exact granted_append h.granted (hf.freshIn h.recorded.kept (h.digested hf.session))
    | @closed now authenticated envelope plan permit hplan hp =>
        have hquiet : (s.passes envelope authenticated permit now).Quiet := by
          refine quiet_of_payload fun set hset => ?_
          have hpayload := (closePlan_eq_ok hplan).payload
          rw [show envelope.payload = _ from hset] at hpayload
          exact hpayload
        exact granted_append (granted_append h.granted (hquiet.freshIn _)) (by rintro _ ⟨⟩)
    | entombed | relayed => exact granted_append h.granted (by rintro _ ⟨⟩)

theorem punchGrant_eq_some {session : StoredSession} {digest : Option (Vector UInt8 32)} {grant : PunchGrant}
    (h : punchGrant session now envelope digest token = some grant) : digest.isSome = true ∧
      session.candidateDigests = (some grant.initiatorCandidatesSha256, some grant.responderCandidatesSha256) ∧
      grant.sessionId = envelope.sessionId.bytes ∧ grant.generation = envelope.generation.value := by
  rw [punchGrant] at h
  split at h
  · next hdue =>
    split at h
    · next hdigests =>
      obtain rfl := Option.some.inj h
      exact ⟨hdue.1, hdigests, rfl, rfl⟩
    · cases h
  · cases h

theorem sendGrant_fields {session : StoredSession} {grant : Option PunchGrant} {result : Except RendezvousErrorCode Unit}
    (h : sendGrant session grant s = some (result, s')) : s'.state = s.state ∧ s'.history = s.history := by
  rcases sendGrant_cases h with ⟨_, _, rfl⟩ | ⟨_, _, rfl, _⟩ | ⟨_, _, _, _, _, _, _, rfl⟩
  · exact ⟨rfl, rfl⟩
  · exact ⟨rfl, rfl⟩
  · exact ⟨rfl, rfl⟩

/-- What is known when a grant is constructed. -/
structure Constructs (c : RendezvousCoordinator) (s s' : Server) (grant : PunchGrant) (now : Moment)
    (authenticated : ControlSessionGuard) (envelope : RendezvousEnvelope) (plan : ForwardPlan) : Prop where
  forwarding : Forwarding s now authenticated envelope plan
  announces : ∃ set, envelope.payload = .candidateSetV2 set
  session : s'.state.activeSession envelope.sessionId = some (forwardedSession c now authenticated envelope plan)
  digests : (forwardedSession c now authenticated envelope plan).candidateDigests =
    (some grant.initiatorCandidatesSha256, some grant.responderCandidatesSha256)
  sessionId : grant.sessionId = envelope.sessionId.bytes
  generation : grant.generation = envelope.generation.value
  incarnation : s'.incarnation envelope.sessionId = s.incarnation envelope.sessionId

theorem constructs_of_step {op : Operation} {grant : PunchGrant} (h : Step c s op s') (hgrant : constructedGrant c s op = some grant) :
    ∃ now authenticated envelope plan, Constructs c s s' grant now authenticated envelope plan := by
  cases op with
  | forwardEnvelope now token authenticated envelope =>
      obtain ⟨_, result, hresult⟩ := h
      rw [constructedGrant] at hgrant
      split at hgrant
      · next plan hplan =>
        split at hgrant
        · next permit hpermit =>
          rw [perform, forwardEnvelope_of_plan hplan hpermit] at hresult
          obtain ⟨hstate, hhistory⟩ := sendGrant_fields hresult
          obtain ⟨hdigest, hdigests, hid, hgeneration⟩ := punchGrant_eq_some hgrant
          obtain ⟨_, _, _, _, _, _, hstored⟩ := forwardedSession_fields c now authenticated envelope plan
          have hset : ∃ set, envelope.payload = .candidateSetV2 set := by
            by_contra hno
            rw [candidateDigest_eq_none fun set hset => hno ⟨set, hset⟩] at hdigest
            cases hdigest
          refine ⟨now, authenticated, envelope, plan, forwardPlan_eq_ok hplan, hset, ?_, hstored.trans hdigests, hid, hgeneration, ?_⟩
          · rw [hstate]
            exact activeSession_eq_some.mpr (Finmap.lookup_insert _)
          · have hnew : ¬(s.passes envelope authenticated permit now).Opens envelope.sessionId := by
              apply not_opens_of_payload
              rintro ⟨value, hvalue⟩
              obtain ⟨set, hset⟩ := hset
              cases hset.symm.trans hvalue
            have hsame := incarnation_append (s := s) (s.passes envelope authenticated permit now) envelope.sessionId
            rw [if_neg hnew] at hsame
            rw [Server.incarnation, hhistory]
            exact hsame
        · cases hgrant
      · cases hgrant
  | request | providerDecision | closeSession | forwardRelayFrame | expireNow | removeDevice | claim | markUnavailable
  | finalizeDisconnect | enqueue | receive | closeOutbound | installObservabilitySink => cases hgrant

theorem digest_singleton {sets : List CandidateSetV2} {digest : Vector UInt8 32} (h : sets.map (candidatesDigest c) = [digest]) :
    ∃ set, sets = [set] ∧ candidatesDigest c set = digest := List.map_eq_singleton_iff.mp h

theorem Constructs.granted {grant : PunchGrant} {plan : ForwardPlan} (h : Constructs c s s' grant now authenticated envelope plan)
    (hg : Granting c s' issued) :
    Granted c (s'.presentLog envelope.sessionId) envelope.generation [grant] := by
  obtain ⟨hinitiator, hresponder, _⟩ := hg.digested h.session
  obtain ⟨q, hq⟩ := hg.recorded.tracks h.session
  obtain ⟨_, hconsumer, hprovider, hstate, _⟩ := forwardedSession_fields c now authenticated envelope plan
  have hgeneration : (forwardedSession c now authenticated envelope plan).state.generation = envelope.generation := by
    rw [hstate, h.forwarding.next]
  rw [h.digests, hgeneration, ← hq.consumer] at hinitiator
  rw [h.digests, hgeneration, ← hq.provider] at hresponder
  obtain ⟨a, ha, hadigest⟩ := digest_singleton hinitiator
  obtain ⟨b, hb, hbdigest⟩ := digest_singleton hresponder
  exact .inr ⟨q, a, b, grant, hq.opening, rfl, ha, hb, hadigest.symm, hbdigest.symm⟩

/-- Before a grant is constructed there is none for its generation. -/
theorem Constructs.first {grant : PunchGrant} {plan : ForwardPlan} (h : Constructs c s s' grant now authenticated envelope plan)
    (hg : Granting c s issued) : grantsOf issued envelope.sessionId (s.incarnation envelope.sessionId) envelope.generation = [] := by
  rcases hg.granted envelope.sessionId (s.incarnation envelope.sessionId) envelope.generation with hnone | hgranted
  · exact hnone
  · obtain ⟨q, a, b, _, hopening, _, ha, hb, _⟩ := hgranted
    have hf := h.forwarding
    obtain ⟨set, hset⟩ := h.announces
    obtain ⟨q', hq⟩ := hg.recorded.tracks hf.session
    obtain rfl := Option.some.inj (hopening.symm.trans hq.opening)
    have hnone := (hg.digested hf.session).fresh (hg.recorded.kept.coherent hf.session) hf.between hset (hf.participant ▸ hf.generation)
    rcases hf.between with ⟨hm, _⟩ | ⟨_, hp, _⟩
    · rw [hq.consumer, SessionOwner.matches_iff.mp hm] at ha
      cases hnone.symm.trans ha
    · rw [hq.provider, SessionOwner.matches_iff.mp hp] at hb
      cases hnone.symm.trans hb

theorem generation_ext {g g' : CandidateGeneration} (h : g.value = g'.value) : g = g' := by
  cases g
  cases g'
  cases h
  rfl

theorem grantsOf_append (issued : Issued) (k' : Nat) (grant : PunchGrant) (k : Nat) :
    grantsOf (issued ++ [(k', grant)]) id k g = grantsOf issued id k g ++
      if k' = k ∧ grant.sessionId = id.bytes ∧ grant.generation = g.value then [grant] else [] := by
  rw [grantsOf, List.filter_append, List.map_append, grantsOf]
  congr 1
  rw [List.filter_singleton]
  by_cases h : k' = k ∧ grant.sessionId = id.bytes ∧ grant.generation = g.value
  · rw [if_pos h, decide_eq_true h]
    rfl
  · rw [if_neg h, decide_eq_false h]
    rfl

theorem Granting.step {op : Operation} {p : Server × Issued} {q : Server × Issued} (h : Granting c p.1 p.2) (hs : GrantStep c p op q) :
    Granting c q.1 q.2 := by
  obtain ⟨s, issued⟩ := p
  obtain ⟨s', issued'⟩ := q
  obtain ⟨hstep, rfl⟩ := hs
  obtain ⟨hiterates, result, hresult⟩ := hstep
  have hkept : Granting c s' issued := Changes.invariant (fun _ _ => Granting.change)
    (perform_changes hresult fun _ _ _ _ _ _ _ _ => False.elim) h
  dsimp only
  cases hgrant : constructedGrant c s op with
  | none =>
      rw [Option.map_none, Option.toList_none, List.append_nil]
      exact hkept
  | some grant =>
      obtain ⟨now, authenticated, envelope, plan, hc⟩ := constructs_of_step ⟨hiterates, result, hresult⟩ hgrant
      rw [Option.map_some, Option.toList_some]
      refine ⟨hkept.recorded, hkept.digested, fun id k g => ?_, ?_⟩
      · rw [grantsOf_append]
        split
        · next hof =>
          obtain ⟨hk, hid, hgeneration⟩ := hof
          obtain rfl : id = envelope.sessionId := congrArg SessionId.mk (hid.symm.trans hc.sessionId)
          obtain rfl : g = envelope.generation := generation_ext (hgeneration.symm.trans hc.generation)
          rw [hid] at hk
          rw [← hk, hc.first h, List.nil_append, ← hc.incarnation]
          exact hc.granted hkept
        · rw [List.append_nil]
          exact hkept.granted id k g
      · intro p hp
        rcases List.mem_append.mp hp with hold | hnew
        · exact h.numbered p hold
        · obtain rfl := List.mem_singleton.mp hnew
          exact ⟨envelope.generation, hc.generation⟩

theorem granting_new (maxClients : Nat) : Granting c (.new maxClients) [] where
  recorded := recorded_new maxClients
  digested := by
    intro id session hactive
    cases activeSession_eq_some.mp hactive
  granted := fun _ _ _ => .inl rfl
  numbered := fun _ hp => absurd hp List.not_mem_nil

theorem mem_grantsOf {k : Nat} {grant : PunchGrant} (h : (k, grant) ∈ issued) (hg : grant.generation = g.value) :
    grant ∈ grantsOf issued ⟨grant.sessionId⟩ k g :=
  List.mem_map.mpr ⟨(k, grant), List.mem_filter.mpr ⟨h, decide_eq_true ⟨rfl, rfl, hg⟩⟩, rfl⟩

/-- In every run, every grant that is constructed is the only one of its session
and generation. Each of the participants has had exactly one candidate set of that
generation passed on, and the digests of the grant are those of the two sets. -/
theorem punch_grants_exact {maxClients : Nat} {ops : List Operation} {issued : Issued}
    (h : Run (GrantStep c) (.new maxClients, []) ops (s, issued)) {k : Nat} {grant : PunchGrant} (hmem : (k, grant) ∈ issued) :
    ∃ q initiators responders, ∃ g : CandidateGeneration, grant.generation = g.value ∧
      grantsOf issued ⟨grant.sessionId⟩ k g = [grant] ∧ opening (s.sessionLog ⟨grant.sessionId⟩ k) = some q ∧
      announcements (s.sessionLog ⟨grant.sessionId⟩ k) q.sender g = [initiators] ∧
      announcements (s.sessionLog ⟨grant.sessionId⟩ k) q.recipient g = [responders] ∧
      grant.initiatorCandidatesSha256 = candidatesDigest c initiators ∧
      grant.responderCandidatesSha256 = candidatesDigest c responders := by
  have hgranting : Granting c s issued :=
    h.invariant (P := fun p => Granting c p.1 p.2) (fun _ _ _ hp hs => hp.step hs) (granting_new maxClients)
  obtain ⟨g, hg⟩ := hgranting.numbered _ hmem
  have hin := mem_grantsOf hmem hg
  rcases hgranting.granted ⟨grant.sessionId⟩ k g with hnone | ⟨q, a, b, grant', hopening, hgrants, ha, hb, hdigests⟩
  · rw [hnone] at hin
    cases hin
  · rw [hgrants] at hin
    obtain rfl := List.mem_singleton.mp hin
    exact ⟨q, a, b, g, hg, hgrants, hopening, ha, hb, hdigests⟩

def grantNext (c : RendezvousCoordinator) (p : Server × Issued) (op : Operation) : Option (Server × Issued) :=
  (next c p.1 op).map fun s =>
    (s, p.2 ++ ((constructedGrant c p.1 op).map fun grant => (p.1.incarnation ⟨grant.sessionId⟩, grant)).toList)

theorem grantStep_of_next {p q : Server × Issued} {op : Operation} (h : grantNext c p op = some q) : GrantStep c p op q := by
  obtain ⟨s, hs, rfl⟩ := Option.map_eq_some_iff.mp h
  exact ⟨step_of_next hs, rfl⟩

theorem punch_grants_exact_sample : ∃ s issued k grant, Run (GrantStep sampleCoordinator) (.new 8, []) (sampleAnnounced ++ [sampleCompletes]) (s, issued) ∧
    (k, grant) ∈ issued ∧ ∃ q initiators responders, ∃ g : CandidateGeneration, grant.generation = g.value ∧
      grantsOf issued ⟨grant.sessionId⟩ k g = [grant] ∧ opening (s.sessionLog ⟨grant.sessionId⟩ k) = some q ∧
      announcements (s.sessionLog ⟨grant.sessionId⟩ k) q.sender g = [initiators] ∧
      announcements (s.sessionLog ⟨grant.sessionId⟩ k) q.recipient g = [responders] ∧
      grant.initiatorCandidatesSha256 = candidatesDigest sampleCoordinator initiators ∧
      grant.responderCandidatesSha256 = candidatesDigest sampleCoordinator responders := by
  obtain ⟨⟨s, issued⟩, hrun, hissued⟩ := run_of_exec_any (P := fun p : Server × Issued => p.2.length = 1) (fun _ _ _ => grantStep_of_next)
    (show (exec (grantNext sampleCoordinator) (.new 8, []) (sampleAnnounced ++ [sampleCompletes])).any _ = true by decide +kernel)
  obtain ⟨⟨k, grant⟩, rfl⟩ := List.length_eq_one_iff.mp hissued
  have hmem : (k, grant) ∈ [(k, grant)] := List.mem_singleton_self _
  exact ⟨s, _, k, grant, hrun, hmem, punch_grants_exact hrun hmem⟩

end Rustgo.Coordinator
