import Rustgo.OrchestrationSteps

namespace Rustgo.Orchestration

open Call Coordinator Path Protocol Rendezvous Tables Runs

variable {runtime : Runtime} {why : SessionId → Session → IoError → Prop} {s t : Actor} {id : SessionId}
  {session session' : Session}

/-- Whatever belongs to one generation was made, or sent by the peer, for the
generation that the session is in. -/
structure Session.Current (session : Session) : Prop where
  localEphemerals : ∀ transport key, session.localEphemerals.lookup transport = some key → key.epoch = session.epoch
  localEphemeralPublic : ∀ transport key, session.localEphemeralPublic.lookup transport = some key →
    key.epoch = session.epoch
  peerEphemeralPublic : ∀ transport key, session.peerEphemeralPublic.lookup transport = some key →
    key.generation = session.generation
  peerCandidates : ∀ candidate ∈ session.peerCandidates, candidate.generation = session.generation
  localCandidatesDigest : ∀ digest ∈ session.localCandidatesDigest, digest.epoch = session.epoch
  peerCandidatesDigest : ∀ digest ∈ session.peerCandidatesDigest, digest.generation = session.generation
  punchGrant : ∀ grant ∈ session.punchGrant, grant.generation = session.generation.value
  observedUdp : ∀ address ∈ session.observedUdp, address.epoch = session.epoch
  cachedTcpObservedIp : ∀ address ∈ session.cachedTcpObservedIp, address.epoch = session.epoch
  directAttempt : ∀ attempt ∈ session.directAttempt, attempt.epoch = session.epoch

def AllCurrent (s : Actor) : Prop := ∀ id session, s.sessions.lookup id = some session → session.Current

/-- No attempt is prepared. -/
abbrev Unprepared (session : Session) : Prop := session.directAttempt = none

/-- A recheck finds no cached address, an observation ends in the generation in
which it began, and a session that follows its peer has no attempt prepared. -/
def Label.Fresh (runtime : Runtime) (s : Actor) : Label → Prop
  | .input now (.buildRecheck id requested cancelled _) =>
      ∀ session ∈ s.sessions.lookup id, recheckDue now requested cancelled session = true →
        session.role = .initiator → session.cachedTcpObservedIp = none
  | .input _ (.observationResult index (some addresses)) =>
      addresses ≠ [] → ∀ observation ∈ s.observations[index]?, ∀ session ∈ s.sessions.lookup observation.sessionId,
        observation.epoch = session.epoch
  | .input now i => i.Follows runtime Unprepared now s
  | _ => True

instance (now : Moment) (i : Input) : Decidable (i.Follows runtime Unprepared now s) :=
  match i with
  | .event generation (.rendezvous envelope) _ _ =>
      inferInstanceAs (Decidable (s.controlAvailable = true → s.generation = generation →
        now.unixSecs < envelope.expiresUnixSecs → ∀ session ∈ s.sessions.lookup envelope.sessionId,
          verified runtime session envelope = true → Advances envelope session → Unprepared session))
  | .event generation (.peerIdentityBinding binding) _ _ =>
      inferInstanceAs (Decidable (s.controlAvailable = true → s.generation = generation → ∀ session ∈ s.sessions.lookup ⟨binding.sessionId⟩,
        ∀ key ∈ (bindingKey runtime session binding).toOption, session.peerKey = none →
          PendingFollows runtime Unprepared ⟨binding.sessionId⟩ session.pending
            (s.put ⟨binding.sessionId⟩ (clearPending (setPeerKey key session)))))
  | .event _ (.observationGrant _) _ _ | .event _ (.peerRelayFrame _) _ _ | .event _ (.serverNotice _) _ _
  | .event _ (.punchGrant _) _ _ | .opening .. | .controlAttached .. | .controlDetached .. | .pathSelected .. | .promoted ..
  | .sessionFinished _ | .relayAuthenticated _ | .buildRecheck .. | .observationResult .. | .sweep _ => isTrue trivial

instance (l : Label) : Decidable (l.Fresh runtime s) :=
  match l with
  | .input now (.buildRecheck id requested cancelled _) =>
      inferInstanceAs (Decidable (∀ session ∈ s.sessions.lookup id, recheckDue now requested cancelled session = true →
        session.role = .initiator → session.cachedTcpObservedIp = none))
  | .input _ (.observationResult index (some addresses)) =>
      inferInstanceAs (Decidable (addresses ≠ [] → ∀ observation ∈ s.observations[index]?,
        ∀ session ∈ s.sessions.lookup observation.sessionId, observation.epoch = session.epoch))
  | .input now (.event generation event bind full) =>
      inferInstanceAs (Decidable (Input.Follows runtime Unprepared now s (.event generation event bind full)))
  | .input _ (.observationResult _ none) | .input _ (.opening ..) | .input _ (.controlAttached ..)
  | .input _ (.controlDetached ..) | .input _ (.pathSelected ..) | .input _ (.promoted ..) | .input _ (.sessionFinished _)
  | .input _ (.relayAuthenticated _) | .input _ (.sweep _) | .cancelCaller _ | .sever _ | .transmit => isTrue trivial

theorem Label.Fresh.follows {l : Label} (h : l.Fresh runtime s) : l.Follows runtime Unprepared s := by
  cases l with
  | input now i =>
      cases i with
      | observationResult index found => trivial
      | buildRecheck => trivial
      | opening | event | controlAttached | controlDetached | pathSelected | promoted | sessionFinished | relayAuthenticated
      | sweep =>
          exact h
  | cancelCaller | sever | transmit => trivial

section Fresh

variable {α : Type} {epoch : Nat} {transport : CandidateTransport}

theorem epoch_of_foldl {f : CandidateTransport → Stamped α} (hf : ∀ transport, (f transport).epoch = epoch)
    (order : List CandidateTransport) (table : Table CandidateTransport (Stamped α))
    (ht : ∀ transport key, table.lookup transport = some key → key.epoch = epoch) :
    ∀ transport key, (order.foldl (fun keys transport => keys.insert transport (f transport)) table).lookup transport =
      some key → key.epoch = epoch := by
  induction order generalizing table with
  | nil => exact ht
  | cons first rest ih =>
      apply ih
      intro transport key hk
      by_cases htf : transport = first
      · subst transport
        rw [Finmap.lookup_insert] at hk
        exact Option.some.inj hk ▸ hf first
      · rw [Finmap.lookup_insert_of_ne _ htf] at hk
        exact ht transport key hk

theorem epoch_of_freshTransportKeys {key : Stamped EphemeralPeerKey}
    (h : (runtime.freshTransportKeys epoch).lookup transport = some key) : key.epoch = epoch :=
  epoch_of_foldl (f := fun transport => ⟨runtime.ephemeral epoch transport, epoch⟩) (fun _ => rfl) transports ∅ (fun _ _ h => nomatch h) transport key h

theorem epoch_of_freshTransportPublics {key : Stamped (Vector UInt8 32)}
    (h : (runtime.freshTransportPublics epoch).lookup transport = some key) : key.epoch = epoch :=
  epoch_of_foldl (f := fun transport => ⟨(runtime.ephemeral epoch transport).publicKey, epoch⟩) (fun _ => rfl) transports ∅ (fun _ _ h => nomatch h) transport key h

end Fresh

theorem Edit.epoch (h : Edit allowed session session') : session'.epoch = session.epoch := by
  cases h <;> rfl

theorem Edit.generation (h : Edit allowed session session') : session'.generation = session.generation := by
  cases h <;> rfl

theorem Session.Current.edit (h : session.Current) (he : Edit allowed session session') : session'.Current := by
  cases he with
  | removeLocalEphemeral transport =>
      refine { h with localEphemerals := ?_ }
      intro other key hk
      by_cases ho : other = transport
      · subst other
        exact nomatch (Finmap.lookup_erase _ _).symm.trans hk
      · exact h.localEphemerals other key ((Finmap.lookup_erase_ne ho).symm.trans hk)
  | directAttempt attempt =>
      exact { h with directAttempt := fun _ ha => Option.some.inj ha ▸ rfl }
  | takeDirectAttempt => exact { h with directAttempt := fun _ ha => nomatch ha }
  | peerEphemeral transport key =>
      refine { h with peerEphemeralPublic := ?_ }
      intro other key' hk
      by_cases ho : other = transport
      · subst other
        exact Option.some.inj ((Finmap.lookup_insert _).symm.trans hk) ▸ rfl
      · exact h.peerEphemeralPublic other key' ((Finmap.lookup_insert_of_ne _ ho).symm.trans hk)
  | peerCandidates candidates =>
      refine { h with peerCandidates := ?_ }
      intro candidate hc
      obtain ⟨_, _, rfl⟩ := List.mem_map.mp hc
      rfl
  | peerDigest digest => exact { h with peerCandidatesDigest := fun _ hd => Option.some.inj hd ▸ rfl }
  | cachedObservedIp cached =>
      refine { h with cachedTcpObservedIp := ?_ }
      intro address ha
      obtain ⟨_, _, rfl⟩ := Option.map_eq_some_iff.mp ha
      rfl
  | punchGrant grant hg => exact { h with punchGrant := fun _ hs => Option.some.inj hs ▸ hg }
  | takeQuicSocket | directStarted | takeRecheckReply | recheckReply | worker | localRelayRequested
  | peerRelayRequested | providerAccepted | protocol | takeReply | nextStep | raiseNextStep | pushPending | clearPending
  | bindingRequested | relayReady | manager | selectedKind | cancelled => exact { h with }

/-- Both resets leave a session with its own data, given what they do not clear. -/
theorem current_newGeneration {generation : CandidateGeneration} {epoch : Nat}
    {after : Session} (ha : after = newGeneration runtime generation epoch session)
    (hattempt : session.directAttempt = none) (hcached : session.cachedTcpObservedIp = none) : after.Current := by
  subst ha
  exact {
    localEphemerals := fun _ _ hk => epoch_of_freshTransportKeys hk
    localEphemeralPublic := fun _ _ hk => epoch_of_freshTransportPublics hk
    peerEphemeralPublic := fun _ _ hk => nomatch hk
    peerCandidates := fun _ hc => nomatch hc
    localCandidatesDigest := fun _ hd => nomatch hd
    peerCandidatesDigest := fun _ hd => nomatch hd
    punchGrant := fun _ hg => nomatch hg
    observedUdp := fun _ ho => nomatch ho
    cachedTcpObservedIp := fun _ hc => nomatch hcached.symm.trans hc
    directAttempt := fun _ ha => nomatch hattempt.symm.trans ha }

theorem current_advanceInitiator {generation : CandidateGeneration} {reply epoch : Nat}
    (hcached : session.cachedTcpObservedIp = none) :
    (advanceInitiator runtime generation reply epoch session).Current := by
  have h : (newGeneration runtime generation epoch { session with directAttempt := none }).Current :=
    current_newGeneration rfl rfl hcached
  exact { h with }

theorem current_advanceResponder {generation : CandidateGeneration} {epoch : Nat}
    (hattempt : session.directAttempt = none) : (advanceResponder runtime generation epoch session).Current := by
  have h : (newGeneration runtime generation epoch { session with cachedTcpObservedIp := none }).Current :=
    current_newGeneration rfl hattempt rfl
  exact { h with }

theorem current_freshSession {epoch : Nat} {peer exportName : String} {role : PeerRole} {expiry : UInt64} :
    (freshSession runtime s epoch peer exportName role expiry).Current where
  localEphemerals _ _ hk := epoch_of_freshTransportKeys hk
  localEphemeralPublic _ _ hk := epoch_of_freshTransportPublics hk
  peerEphemeralPublic _ _ hk := nomatch hk
  peerCandidates _ hc := nomatch hc
  localCandidatesDigest _ hd := nomatch hd
  peerCandidatesDigest _ hd := nomatch hd
  punchGrant _ hg := nomatch hg
  observedUdp _ ho := nomatch ho
  cachedTcpObservedIp _ hc := nomatch hc
  directAttempt _ ha := nomatch ha

theorem current_initiatorSession {epoch reply : Nat} {peer exportName : String} {expiry : UInt64} {resolveOnly : Bool} :
    (initiatorSession runtime s epoch peer exportName expiry resolveOnly reply).Current := by
  have h : (freshSession runtime s epoch peer exportName .initiator expiry).Current := current_freshSession
  exact { h with }

theorem current_responderSession {epoch : Nat} {envelope : RendezvousEnvelope} {request : RendezvousRequest} :
    (responderSession runtime s epoch envelope request).Current := by
  have h : (freshSession runtime s epoch envelope.sender.str request.exportName.str .responder
      envelope.expiresUnixSecs).Current := current_freshSession
  exact { h with }

theorem Evolves.current {epochs : Nat} (h : Evolves runtime Unprepared allowed epochs session session')
    (hs : session.Current) : session'.Current := by
  cases h with
  | same => exact hs
  | edit he => exact hs.edit he
  | candidates digest next =>
      exact { hs with localCandidatesDigest := fun _ hd => Option.some.inj hd ▸ rfl }
  | follow hf => exact current_advanceResponder hf

theorem AllCurrent.change (h : AllCurrent s) (hc : Change runtime why Unprepared marks s t) : AllCurrent t := by
  intro id session' hl
  obtain ⟨session, hs, he⟩ := hc.evolves hl
  exact he.current (h id session hs)

theorem AllCurrent.put (h : AllCurrent s) (hs : session.Current) : AllCurrent (s.put id session) := by
  intro other session' hl
  by_cases ho : other = id
  · subst other
    exact Option.some.inj (lookup_put_self.symm.trans hl) ▸ hs
  · exact h other session' ((lookup_put_ne ho).symm.trans hl)

theorem AllCurrent.head {now : Moment} {i : Input} (h : AllCurrent s) (hu : Head runtime now i s t)
    (hl : (Label.input now i).Fresh runtime s) : AllCurrent t := by
  cases hu with
  | opened => exact h.put current_initiatorSession
  | answered => exact h.put current_responderSession
  | recheck requested cancelled reply hs hdue hrole =>
      exact h.put (current_advanceInitiator (hl _ hs hdue hrole))
  | bound bind full hav hs => exact h.put { h _ _ hs with }
  | @observed _ index addresses observation session cache ho hs =>
      refine AllCurrent.put (s := { s with observations := _, observedIpCache := _ }) h ?_
      refine { h _ session hs with observedUdp := ?_ }
      intro address ha
      obtain ⟨_, hmem, rfl⟩ := List.mem_map.mp ha
      exact hl (List.ne_nil_of_mem hmem) observation ho session hs
  | skip | attached | detached | ungranted | granted | unobserved => exact h

theorem AllCurrent.step {l : Label} (h : AllCurrent s) (hstep : Step runtime s l t) (hl : l.Fresh runtime s) :
    AllCurrent t := by
  cases step_outcome_of_follows hstep hl.follows with
  | input _ hu ht =>
      intro id session hs
      exact ht.invariant (fun _ _ h hc => h.change hc) (h.head hu hl) id session (lookup_keep_eq_some.mp hs).1
  | cancelCaller hs => exact h.put ((h _ _ hs).edit (.cancelled : Edit (fun _ => False) _ _))
  | sever | transmit => exact h

/-- As long as no recheck meets a cached address, no session follows its peer
with a prepared attempt and no observation ends in another generation, every
session holds only data of its own generation. -/
theorem sessions_stay_current {generation : UInt64} {version : ProtocolVersion} {labels : List Label}
    (h : Run (Restricted (Step runtime) fun s l => l.Fresh runtime s) (.new generation version) labels s) :
    AllCurrent s :=
  h.invariant (fun _ _ _ h hstep => h.step hstep.1 hstep.2) fun _ _ hl => nomatch hl

section Sample

/-- The set of the second generation, which has no candidate for another attempt. -/
def sampleSecond : Label := sampleArrival (sampleEnvelope 6 ⟨2, CandidateGeneration.two_ne_zero⟩ (sampleCandidates .nativeTcp ⟨2, CandidateGeneration.two_ne_zero⟩))

/-- The prepared attempt is taken before the second generation begins. -/
theorem sessions_stay_current_taken : ∃ s, Run (Restricted (Step (sampleRuntime "b" false)) fun s l =>
      l.Fresh (sampleRuntime "b" false) s) (.new 1 sampleVersion) (samplePrepared ++ [sampleTaken, sampleSecond]) s ∧
    sampleId 1 ∈ s.sessions ∧ AllCurrent s := by
  obtain ⟨s, hrun, hin⟩ := run_of_exec_any (P := fun s => sampleId 1 ∈ s.sessions)
    (restricted_of_restrict fun _ _ _ h => h) (show (exec (restrict (next (sampleRuntime "b" false)) fun s l =>
      l.Fresh (sampleRuntime "b" false) s) (.new 1 sampleVersion) (samplePrepared ++ [sampleTaken, sampleSecond])).any _ =
        true by decide +kernel)
  exact ⟨s, hrun, hin, sessions_stay_current hrun⟩

/-- A session that follows its peer keeps the attempt of the generation before. -/
theorem followed_session_keeps_attempt : ∃ s, Run (Step (sampleRuntime "b" false)) (.new 1 sampleVersion)
    (samplePrepared ++ [sampleSecond]) s ∧ ¬ AllCurrent s := by
  obtain ⟨s, hrun, hstale⟩ := run_of_exec_any
    (P := fun s : Actor => ((s.sessions.lookup (sampleId 1)).any fun session =>
      session.directAttempt.any (·.epoch ≠ session.epoch)) = true)
    (fun _ _ _ h => h) (show (exec (next (sampleRuntime "b" false)) (.new 1 sampleVersion)
      (samplePrepared ++ [sampleSecond])).any _ = true by decide +kernel)
  refine ⟨s, hrun, fun hall => ?_⟩
  obtain ⟨session, hl, hsession⟩ := Option.any_eq_true _ _ |>.mp hstale
  obtain ⟨attempt, ha, hne⟩ := Option.any_eq_true _ _ |>.mp hsession
  exact absurd ((hall _ session hl).directAttempt attempt ha) (of_decide_eq_true hne)

end Sample

end Rustgo.Orchestration
