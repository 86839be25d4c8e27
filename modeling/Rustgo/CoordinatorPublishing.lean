import Rustgo.CoordinatorAccounts

namespace Rustgo.Coordinator

open Checks Protocol Registry Rendezvous Tables RendezvousCoordinator CoordinatorState Runs

section Turns

variable {notes notes' : List Note} {note : Note} {key : SessionId × Nat}

theorem kindsOf_singleton : kindsOf key [note] = if note.key = key then [note.kind] else [] := by
  rw [kindsOf, List.filter_singleton]
  by_cases hkey : note.key = key
  · rw [if_pos hkey, decide_eq_true hkey]
    rfl
  · rw [if_neg hkey, decide_eq_false hkey]
    rfl

/-- A note that overtakes others of its kind makes no difference. -/
theorem kindsOf_overtake (h : ∀ other ∈ notes, other.key = note.key → other.kind = note.kind) :
    kindsOf key (note :: notes ++ notes') = kindsOf key (notes ++ note :: notes') := by
  have hsplit : kindsOf key (note :: notes) = kindsOf key (notes ++ [note]) := by
    rw [← List.singleton_append, kindsOf_append, kindsOf_append, kindsOf_singleton]
    split
    · next hkey =>
      -- All kinds are the same here.
      have hsame : kindsOf key notes = List.replicate (kindsOf key notes).length note.kind := by
        refine List.eq_replicate_iff.mpr ⟨rfl, fun kind hkind => ?_⟩
        obtain ⟨other, hother, rfl⟩ := List.mem_map.mp hkind
        obtain ⟨hmem, hkey'⟩ := List.mem_filter.mp hother
        exact h other hmem ((of_decide_eq_true hkey').trans hkey.symm)
      rw [hsame, List.singleton_append, ← List.replicate_succ, ← List.replicate_succ']
    · rw [List.nil_append, List.append_nil]
  rw [kindsOf_append, hsplit, ← kindsOf_append, List.append_assoc, List.singleton_append]

theorem replicate_before {first later : List NoteKind} {n : Nat} (h : first ++ later = List.replicate n .delta) :
    first = List.replicate first.length .delta := (List.append_eq_replicate_iff.mp h).2.1

/-- What was told first is in order as well. -/
theorem Orderly.before {first later : List NoteKind} (h : Orderly (first ++ later)) : Orderly first := by
  cases first with
  | nil => exact .inl rfl
  | cons kind first =>
      rcases h with h | ⟨n, h | h⟩
      · cases h
      · obtain ⟨rfl, htail⟩ := List.cons.inj h
        exact .inr ⟨first.length, .inl (congrArg _ (replicate_before htail))⟩
      · rw [List.cons_append, List.cons_append] at h
        obtain ⟨rfl, htail⟩ := List.cons.inj h
        rcases List.eq_nil_or_concat later with rfl | ⟨later, last, rfl⟩
        · rw [List.append_nil] at htail
          exact .inr ⟨n, .inr (congrArg _ htail)⟩
        · rw [List.concat_eq_append, ← List.append_assoc] at htail
          exact .inr ⟨first.length, .inl (congrArg _ (replicate_before (List.append_inj' htail rfl).1))⟩

end Turns

section Changes

variable {c : RendezvousCoordinator} {timely : Prop} {s s' : Server} {now : Moment} {authenticated : ControlSessionGuard}
  {frame : PeerRelayFrame} {result : Except RendezvousErrorCode Unit}

theorem relaySection_changes (h : relaySection now authenticated frame s = some (result, s')) : Changes c False s s' := by
  rcases Call.read_bind_cases h with ⟨_, _, hr⟩ | ⟨session, hsession, hr⟩
  · obtain ⟨_, rfl⟩ := Prod.mk.inj hr
    exact .refl
  cases session with
  | none =>
      obtain ⟨_, rfl⟩ := Prod.mk.inj (Option.some.inj hr)
      exact .refl
  | some session =>
      have hactive := relaySession_active hsession
      rcases relayFrame_cases hr with ⟨_, _, rfl⟩ | ⟨_, _, rfl⟩ | ⟨_, _, _, htarget, hadmitted, _, hpermit, _, rfl⟩
      · exact .refl
      · exact .single (.admitted s now frame hactive)
      · exact Changes.registry (.single (.relayed s hactive htarget hadmitted hpermit False.elim)) fun hc => hc.trySend _ _

theorem enter_changes {cs : CriticalSection} (h : cs.enter c s = some (result, s')) : Changes c False s s' := by
  cases cs with
  | request now authenticated envelope =>
      have hrequest : perform c (.request now authenticated envelope) s = some (result, s') := h
      exact perform_changes hrequest fun _ _ _ _ _ _ _ _ => False.elim
  | providerDecision now authenticated envelope => exact providerDecision_changes h
  | forwardEnvelope now token authenticated envelope => exact forwardEnvelope_changes h
  | closeSession now authenticated envelope => exact closeSession_changes h
  | expireSessionsBatch now => exact expireSessionsBatch_changes h
  | relayFrame now authenticated frame => exact relaySection_changes h
  | flushObservabilityDue now order =>
      obtain ⟨_, rfl⟩ := Prod.mk.inj (Option.some.inj h)
      dsimp only
      split
      · exact Changes.registry (flushLoop_changes order) fun hc => tryObserveAll_consistent _ hc
      · exact .refl
  | removeDevice now identity order => exact removeDevice_changes h

end Changes

namespace Publishing

variable {c : RendezvousCoordinator} {s t : Publishing} {l : PublishingLabel} {labels : List PublishingLabel}

def notes (s : Publishing) : List Note := s.published ++ s.unpublished.map Prod.snd

/-- What is told of a session, and what is about to be, agree with where it stands. -/
structure Sound (s : Publishing) : Prop where
  kept : Kept s.server
  visible : AllVisible s.server.state
  words : ∀ key, (s.server.phase key).Word (kindsOf key s.notes)

theorem sound_new (maxClients : Nat) : Sound (new maxClients) := by
  refine ⟨kept_new maxClients, fun id session hactive => ?_, fun key => ?_⟩
  · cases activeSession_eq_some.mp hactive
  · have hword : (Server.phase (.new maxClients) key).Word [] := by
      rw [Server.phase]
      split
      · exact .inl rfl
      · split
        · exact .inl rfl
        · rfl
    exact hword

namespace Sound

theorem enter {cs : CriticalSection} (h : Sound s) (ht : s.enter c cs = some t) : Sound t := by
  rw [Publishing.enter] at ht
  split at ht
  · next hi =>
    obtain ⟨⟨result, server⟩, henter, rfl⟩ := Option.map_eq_some_iff.mp ht
    have hchanges : Changes c False s.server server := enter_changes henter
    have hkept : Kept server := hchanges.invariant (fun _ _ hk => hk.change) h.kept
    have hvisible : AllVisible server.state := h.visible.changes hchanges
    refine ⟨⟨hkept.registry.of_eq rfl rfl, hkept.coherent⟩, hvisible, fun key => ?_⟩
    have hnotes : (s.left c cs server).notes = s.notes ++ cs.notes c s.server := by
      rw [notes, notes, left, List.map_append, List.map_map, ← List.append_assoc]
      exact congrArg (_ ++ ·) (List.map_id _)
    rw [hnotes, kindsOf_append]
    exact Accounts.enter h.kept h.visible hi henter key _ (h.words key)
  · cases ht

theorem publish {i : Nat} (h : Sound s) (hturn : s.InTurn (.publish i)) (ht : s.publish i = some t) : Sound t := by
  obtain ⟨entry, hentry, ht⟩ := Option.bind_eq_some_iff.mp ht
  split at ht
  · obtain rfl := Option.some.inj ht
    obtain ⟨hlt, rfl⟩ := List.getElem?_eq_some_iff.mp hentry
    refine ⟨⟨h.kept.registry.tryObserve _, h.kept.coherent⟩, h.visible, fun key => ?_⟩
    have hsplit : s.unpublished.map Prod.snd =
        (s.unpublished.take i).map Prod.snd ++ s.unpublished[i].2 :: (s.unpublished.drop (i + 1)).map Prod.snd := by
      rw [← List.map_cons, ← List.map_append, ← List.drop_eq_getElem_cons hlt, List.take_append_drop]
    have hturn : ∀ other ∈ (s.unpublished.take i).map Prod.snd, other.key = s.unpublished[i].2.key → other.kind = s.unpublished[i].2.kind := by
      intro other hother
      obtain ⟨entry, hmem, rfl⟩ := List.mem_map.mp hother
      exact hturn _ hentry entry hmem
    have hwords := h.words key
    rw [notes, hsplit, kindsOf_append, ← kindsOf_overtake hturn, ← kindsOf_append] at hwords
    rw [notes, List.eraseIdx_eq_take_drop_succ, List.map_append, List.append_assoc]
    exact hwords
  · cases ht

theorem step (h : Sound s) (hturn : s.InTurn l) (ht : Step c s l t) : Sound t := by
  cases l with
  | enter cs => exact h.enter ht
  | publish i => exact h.publish hturn ht
  | registry r =>
      obtain ⟨hr, rfl⟩ := ht
      exact ⟨⟨hr, h.kept.coherent⟩, h.visible, h.words⟩

end Sound

theorem sound_run {n : Nat} (h : Run (Restricted (Step c) InTurn) (.new n) labels s) : Sound s :=
  h.invariant (fun _ _ _ hs ht => hs.step ht.2 ht.1) (sound_new n)

/-- Where every event is published in turn, the sink is told of each session in order. -/
theorem sessions_announced {n : Nat} (h : Run (Restricted (Step c) InTurn) (.new n) labels s) : s.Announced := by
  intro key
  have hword := (sound_run h).words key
  rw [notes, kindsOf_append] at hword
  refine ⟨hword.orderly.before, fun hnothing hleft hopened => ?_⟩
  have hnone : kindsOf key (s.unpublished.map Prod.snd) = [] := by
    refine kindsOf_other fun note hnote => ?_
    obtain ⟨entry, hentry, rfl⟩ := List.mem_map.mp hnote
    exact hnothing entry hentry
  have hended : s.server.phase key = .ended := by
    rw [Server.phase]
    rcases hleft with hlt | ⟨heq, hactive⟩
    · rw [if_pos hlt]
    · rw [heq, if_neg (Nat.lt_irrefl _), if_pos rfl, hactive]
      rfl
  rw [hnone, List.append_nil, hended] at hword
  have hheard : s.heard key = kindsOf key s.published := rfl
  rw [hheard] at hopened ⊢
  rcases hword with hempty | ⟨k, hwhole⟩
  · rw [hempty] at hopened
    cases hopened
  · rw [hwhole, List.count_append, List.count_cons_of_ne, List.count_replicate, List.count_singleton_self, if_neg]
    · exact fun h => by cases beq_iff_eq.mp h
    · exact fun h => by cases h

section Sample

def sampleRegistry : ClientRegistry :=
  [deviceA, deviceB].foldl (fun r guard => claim (sampleMoment 0) guard.identity (.channel 1024) guard.protocolVersion r)
    (ClientRegistry.new 4).installObservabilitySink

theorem sampleRegistry_consistent : sampleRegistry.Consistent := by
  have hnew : (ClientRegistry.new 4).installObservabilitySink.Consistent := (ClientRegistry.consistent_new 4).of_eq rfl rfl
  rw [sampleRegistry, List.foldl_cons, List.foldl_cons, List.foldl_nil]
  exact claim_consistent (claim_consistent hnew)

/-- A session that is shown to the sink, and then closed by the other device. -/
def sampleShown : List PublishingLabel := [
  .enter (.request (sampleMoment 0) deviceA (sampleEnvelope (sampleId 1) deviceA deviceB 1 1 CandidateGeneration.one_ne_zero (.request ⟨⟨"ssh", sampleExport_bounded⟩⟩))),
  .enter (.providerDecision (sampleMoment 10) deviceB
    (sampleEnvelope (sampleId 1) deviceB deviceA 2 1 CandidateGeneration.one_ne_zero (.providerDecision (.accepted .TCP)))),
  .enter (.forwardEnvelope (sampleMoment 20) sampleToken deviceA
    (sampleEnvelope (sampleId 1) deviceA deviceB 3 1 CandidateGeneration.one_ne_zero (.connectivityResult ⟨true, some .relay, none⟩))),
  .enter (.closeSession (sampleMoment 30) deviceB (sampleEnvelope (sampleId 1) deviceB deviceA 4 1 CandidateGeneration.one_ne_zero (.close ⟨none⟩)))]

theorem sample_run (allowed : Publishing → PublishingLabel → Prop) [∀ s l, Decidable (allowed s l)] {labels : List PublishingLabel}
    {P : Publishing → Prop} [DecidablePred P] (hfirst : allowed (new 4) (.registry sampleRegistry))
    (h : (exec (restrict (next sampleCoordinator) allowed)
      { new 4 with server := { (Server.new 4) with registry := sampleRegistry } } labels).any (P ·) = true) :
    ∃ t, Run (Restricted (Step sampleCoordinator) allowed) (new 4) (.registry sampleRegistry :: labels) t ∧ P t := by
  obtain ⟨t, hrun, hp⟩ := run_of_exec_any (restricted_of_restrict fun _ _ _ => step_of_next sampleCoordinator) h
  have hregistry : Run (Restricted (Step sampleCoordinator) allowed) (new 4) [.registry sampleRegistry]
      { new 4 with server := { (Server.new 4) with registry := sampleRegistry } } :=
    (Run.refl _).snoc ⟨⟨sampleRegistry_consistent, rfl⟩, hfirst⟩
  exact ⟨t, hregistry.trans hrun, hp⟩

theorem sessions_announced_sample : ∃ t, Run (Restricted (Step sampleCoordinator) InTurn) (new 4)
    (.registry sampleRegistry :: (sampleShown ++ [.publish 0, .publish 0])) t ∧ t.heard (sampleId 1, 1) = [.opened, .closed] ∧ t.Announced := by
  obtain ⟨t, hrun, hheard⟩ := sample_run InTurn (P := fun t => t.heard (sampleId 1, 1) = [.opened, .closed]) trivial
    (show (exec _ _ (sampleShown ++ [.publish 0, .publish 0])).any _ = true by decide +kernel)
  exact ⟨t, hrun, hheard, sessions_announced hrun⟩

/-- Between the lock and the sink, the open of a session can be overtaken by its close. -/
theorem close_overtakes_open : ¬∀ (c : RendezvousCoordinator) (n : Nat) (labels : List PublishingLabel) (s : Publishing),
    Run (Step c) (.new n) labels s → s.Announced := by
  intro hclaim
  obtain ⟨t, hrun, hheard⟩ := sample_run (fun _ _ => True) (P := fun t => t.heard (sampleId 1, 1) = [.closed, .opened]) trivial
    (show (exec _ _ (sampleShown ++ [.publish 1, .publish 0])).any _ = true by decide +kernel)
  have horderly := (hclaim sampleCoordinator 4 _ t (hrun.imp fun _ _ _ h => h.1) (sampleId 1, 1)).1
  rw [hheard] at horderly
  rcases horderly with h | ⟨n, h | h⟩
  all_goals cases h

end Sample

end Publishing

end Rustgo.Coordinator
