import Rustgo.CoordinatorDeparturesInvariant

namespace Rustgo.Coordinator

open Checks Protocol Registry Rendezvous Tables RendezvousCoordinator CoordinatorState Runs

section Parts

variable {c : RendezvousCoordinator} {s : Server} {now : Moment} {authenticated : ControlSessionGuard} {envelope : RendezvousEnvelope}
  {request : RendezvousRequest} {candidate : RequestCandidate} {plan : RequestPlan}

theorem requestOrigin_eq_ok (h : c.requestOrigin s now authenticated envelope = .ok request) :
    (∃ request, envelope.payload = .request request) ∧ envelope.target ≠ authenticated.identity.name := by
  simp only [requestOrigin, bind_eq_ok, require_eq_ok, okOr_eq_ok, pure_eq_ok, exists_const, asRequest_eq_some] at h
  obtain ⟨_, _, _, hpayload, hother, _⟩ := h
  exact ⟨⟨_, hpayload⟩, hother⟩

theorem requestProvider_eq_ok (hc : s.registry.Consistent) (h : c.requestProvider s now authenticated envelope request = .ok candidate) :
    candidate.consumer = .fromControl authenticated ∧ candidate.provider.name = envelope.target := by
  simp only [requestProvider, bind_eq_ok, require_eq_ok, okOr_eq_ok, orFail_eq_ok, pure_eq_ok, exists_const] at h
  obtain ⟨active, hactive, _, _, _, _, _, _, _, _, _, rfl⟩ := h
  obtain ⟨runtime, hruntime, _, rfl⟩ := ClientRegistry.activeControlSession_eq_some hactive
  exact ⟨rfl, (hc.named hruntime).1⟩

theorem requestAdmission_eq_ok (h : c.requestAdmission s envelope candidate = .ok plan) :
    plan.consumer = candidate.consumer ∧ plan.provider = candidate.provider ∧ Routable s.registry candidate.provider := by
  simp only [requestAdmission, bind_eq_ok, require_eq_ok, pure_eq_ok, exists_const] at h
  obtain ⟨_, _, permit, hpermit, rfl⟩ := h
  exact ⟨rfl, rfl, (reserveTo_eq_ok.mp hpermit).1⟩

end Parts

namespace Departures

variable {c : RendezvousCoordinator} {s t : Departures} {l : DepartureLabel} {labels : List DepartureLabel}
  {identity : AuthenticatedClient} {task : ControlTask} {stage : Stage}

structure Sound (s : Departures) : Prop where
  shielded : Shielded s.server.registry s.tasks
  vacated : Vacated s
  notified : Notified s

theorem sound_new (maxClients : Nat) : Sound (new maxClients) := by
  constructor
  case shielded =>
    refine ⟨ClientRegistry.consistent_new maxClients, fun htask => ?_, fun htask => ?_, fun htask => ?_⟩
    all_goals cases htask
  case vacated =>
    refine ⟨fun htask => ?_, fun hactive => ?_⟩
    · cases htask
    · cases activeSession_eq_some.mp hactive
  case notified =>
    refine ⟨.nil, fun _ h => ?_, fun _ h => ?_, fun _ h => ?_⟩
    all_goals exact absurd h List.not_mem_nil

namespace Sound

/-- Sessions and notices are left alone. -/
theorem notified_same (h : Sound s) (hpending : t.pending = s.pending) (hnotices : t.notices = s.notices)
    (hstate : t.server.state = s.server.state) (hhistory : t.server.history = s.server.history) : Notified t := by
  have hsame (id) : t.server.incarnation id = s.server.incarnation id := by rw [Server.incarnation, hhistory, Server.incarnation]
  refine h.notified.later hpending hnotices (fun id => (hsame id).ge) fun hactive _ => ?_
  rw [hstate] at hactive
  exact ⟨_, hactive⟩

theorem claim {now : Moment} {outbound : Outbound} {version : ProtocolVersion} (h : Sound s)
    (ht : s.claim now identity outbound version = some t) : Sound t := by
  rw [Departures.claim] at ht
  split at ht
  · cases ht
  · next hfree =>
    split at ht
    · obtain rfl := Option.some.inj ht
      exact h
    · next guard registry hclaim =>
      obtain rfl := Option.some.inj ht
      obtain ⟨_, _, rfl, _⟩ := GuardSystem.claimWithOutbound_eq_ok hclaim
      exact ⟨h.shielded.claim hfree hclaim, h.vacated.joins h.shielded.named rfl (Renews.of_state rfl) rfl, h.notified_same rfl rfl rfl rfl⟩

theorem notify {i : Nat} {now : Moment} (h : Sound s) (ht : s.notify c i now = some t) : Sound t := by
  obtain ⟨removed, hremoved, rfl⟩ := Option.map_eq_some_iff.mp ht
  exact ⟨h.shielded.sameRuntimes (.disconnectOne removed.disconnected now removed.session),
    h.vacated.stays h.shielded.named rfl (Renews.of_state rfl) rfl, h.notified.notify hremoved rfl rfl rfl fun _ => rfl⟩

theorem background {op : Operation} (h : Sound s) (ht : s.background c op = some t) : Sound t := by
  rw [Departures.background] at ht
  split at ht
  · next hallowed =>
    obtain ⟨⟨result, server⟩, hperform, rfl⟩ := Option.map_eq_some_iff.mp ht
    have hbystands := background_bystands hallowed.1 hperform
    have hchanges : Changes c False s.server server := perform_changes hperform fun _ _ _ _ _ _ _ _ => False.elim
    have howners {id : SessionId} {session' : StoredSession} (hactive : server.state.activeSession id = some session') :=
      (hchanges.owners hactive (hbystands.incarnation id))
    refine ⟨h.shielded.sameRuntimes hbystands.runtimes, h.vacated.stays h.shielded.named rfl (fun _ _ hactive => .inl (howners hactive)) rfl,
      h.notified.later rfl rfl (fun id => (hbystands.incarnation id).ge) fun hactive _ => ?_⟩
    obtain ⟨session, hsession, _⟩ := howners hactive
    exact ⟨session, hsession⟩
  · cases ht

/-- A task moves without touching sessions. -/
theorem moves (h : Sound s) (stage : Stage) (hself : s.tasks task.guard.identity = some task)
    (htasks : t.tasks = Function.update s.tasks task.guard.identity (some { task with stage }))
    (hshielded : Shielded t.server.registry t.tasks) (hpending : t.pending = s.pending) (hnotices : t.notices = s.notices)
    (hstate : t.server.state = s.server.state) (hhistory : t.server.history = s.server.history)
    (hholder : ∀ other, other ≠ task.guard.identity → s.holder = some other → t.holder = s.holder)
    (hstage : stage.Gone → task.stage.Gone) (hfit : Fit t { task with stage }) : Sound t :=
  ⟨hshielded, h.vacated.moves stage h.shielded.named hself htasks (Renews.of_state hstate) hholder (fun hgone => .inl (hstage hgone)) hfit,
    h.notified_same hpending hnotices hstate hhistory⟩

theorem setStage (h : Sound s) (hself : s.tasks task.guard.identity = some task) (hleaving : stage.Leaving → task.stage.Leaving)
    (hstage : stage.Gone → task.stage.Gone) (hfit : Fit (s.setStage task stage) { task with stage }) : Sound (s.setStage task stage) :=
  h.moves stage hself rfl (h.shielded.setStage hself hleaving) rfl rfl rfl rfl (fun _ _ _ => rfl) hstage hfit

theorem check {now : Moment} {envelope : RendezvousEnvelope} (h : Sound s) (hself : s.tasks task.guard.identity = some task)
    (ht : s.advance c task (.check identity now envelope) = some t) : Sound t := by
  simp only [Departures.advance] at ht
  split at ht
  · next hidle =>
    split at ht
    · next request horigin =>
      obtain rfl := Option.some.inj ht
      exact h.setStage hself (fun hleaving => absurd hleaving id) (fun hgone => absurd hgone id) (requestOrigin_eq_ok horigin)
    · obtain rfl := Option.some.inj ht
      exact h
  · cases ht

theorem find {now : Moment} (h : Sound s) (hself : s.tasks task.guard.identity = some task)
    (ht : s.advance c task (.find identity now) = some t) : Sound t := by
  simp only [Departures.advance] at ht
  split at ht
  · next envelope request hchecked =>
    have hfit := h.vacated.fit hself
    rw [Fit, hchecked] at hfit
    obtain ⟨hpayload, htarget⟩ := hfit
    split at ht
    · next candidate hfound =>
      obtain rfl := Option.some.inj ht
      obtain ⟨hconsumer, hprovider⟩ := requestProvider_eq_ok h.shielded.consistent hfound
      refine h.setStage hself (fun hleaving => absurd hleaving id) (fun hgone => absurd hgone id) ⟨hpayload, hconsumer, ?_⟩
      rw [hprovider]
      exact htarget
    · obtain rfl := Option.some.inj ht
      exact h.setStage hself (fun hleaving => absurd hleaving id) (fun hgone => absurd hgone id) trivial
  · cases ht

/-- A provider whose queue takes a message has not departed. -/
theorem provider_present (h : Sound s) {owner : SessionOwner} (hroutable : Routable s.server.registry owner) : ¬s.Departed owner.identity := by
  rintro ⟨gone, hgone, hstage⟩
  exact h.shielded.not_leaving hgone hroutable rfl hstage.leaving

theorem reserve (h : Sound s) (hself : s.tasks task.guard.identity = some task)
    (ht : s.advance c task (.reserve identity) = some t) : Sound t := by
  simp only [Departures.advance] at ht
  split at ht
  · next envelope candidate hfound hfree =>
    have hfit := h.vacated.fit hself
    rw [Fit, hfound] at hfit
    obtain ⟨hpayload, hconsumer, hprovider⟩ := hfit
    split at ht
    · next plan hadmitted =>
      obtain rfl := Option.some.inj ht
      obtain ⟨hconsumer', hprovider', hroutable⟩ := requestAdmission_eq_ok hadmitted
      refine h.moves (.admitted envelope plan) hself rfl (h.shielded.setStage hself fun hleaving => absurd hleaving id) rfl rfl rfl rfl
        (fun _ _ hheld => ?_) (fun hgone => absurd hgone id) ⟨hpayload, rfl, hconsumer'.trans hconsumer, ?_, ?_⟩
      · cases hfree.symm.trans hheld
      · rw [hprovider']
        exact hprovider
      · rintro ⟨gone, hgone, hstage⟩
        rw [hprovider'] at hgone
        rcases update_cases hgone with ⟨_, rfl⟩ | ⟨_, hgone⟩
        · exact absurd hstage id
        · exact h.provider_present hroutable ⟨gone, hgone, hstage⟩
    · obtain rfl := Option.some.inj ht
      exact h.setStage hself (fun hleaving => absurd hleaving id) (fun hgone => absurd hgone id) trivial
  · cases ht

theorem send (h : Sound s) (hself : s.tasks task.guard.identity = some task)
    (ht : s.advance c task (.send identity) = some t) : Sound t := by
  simp only [Departures.advance] at ht
  split at ht
  · next plan hopened =>
    obtain rfl := Option.some.inj ht
    refine h.moves .idle hself rfl ?_ rfl rfl rfl rfl (fun _ _ _ => rfl) (fun hgone => absurd hgone id) trivial
    refine (h.shielded.setStage hself fun hleaving => absurd hleaving id).sameRuntimes ?_
    dsimp only [Departures.setStage, deliver]
    split
    · exact .trySend _ _
    · exact .refl _
  · cases ht

theorem markUnavailable (h : Sound s) (hself : s.tasks task.guard.identity = some task)
    (ht : s.advance c task (.markUnavailable identity) = some t) : Sound t := by
  simp only [Departures.advance] at ht
  split at ht
  · obtain rfl := Option.some.inj ht
    exact h.moves .unavailable hself rfl (h.shielded.markUnavailable hself) rfl rfl rfl rfl (fun _ _ _ => rfl)
      (fun hgone => absurd hgone id) trivial
  · cases ht

theorem finishRemoval (h : Sound s) (hself : s.tasks task.guard.identity = some task)
    (ht : s.advance c task (.finishRemoval identity) = some t) : Sound t := by
  simp only [Departures.advance] at ht
  split at ht
  · next hremoving =>
    split at ht
    · obtain rfl := Option.some.inj ht
      have hgone : task.stage.Gone := by
        rw [hremoving]
        trivial
      exact h.setStage hself (fun _ => hgone.leaving) (fun _ => hgone) fun _ _ => h.vacated.gone hself hgone
    · cases ht
  · cases ht

theorem release {now : Moment} (h : Sound s) (hself : s.tasks task.guard.identity = some task)
    (ht : s.advance c task (.release identity now) = some t) : Sound t := by
  simp only [Departures.advance] at ht
  split at ht
  · next hremoved =>
    obtain rfl := Option.some.inj ht
    have hgone : task.stage.Gone := by
      rw [hremoved]
      trivial
    exact h.moves .released hself rfl ((h.shielded.setStage hself fun _ => hgone.leaving).release _) rfl rfl rfl rfl
      (fun _ _ _ => rfl) (fun _ => hgone) fun _ _ => h.vacated.gone hself hgone
  · cases ht

/-- The session that a request opens is between devices that have not departed. -/
theorem insert {now : Moment} (h : Sound s) (hself : s.tasks task.guard.identity = some task)
    (ht : s.advance c task (.insert identity now) = some t) : Sound t := by
  simp only [Departures.advance] at ht
  split at ht
  · next envelope plan hadmitted =>
    obtain rfl := Option.some.inj ht
    have hfit := h.vacated.fit hself
    rw [Fit, hadmitted] at hfit
    obtain ⟨hpayload, hheld, hconsumer, hprovider, hpresent⟩ := hfit
    have hidentity : plan.consumer.identity = task.guard.identity := by rw [hconsumer]; rfl
    have hstaying : ¬s.Departed task.guard.identity := by
      rintro ⟨gone, hgone, hstage⟩
      obtain rfl := Option.some.inj (hself.symm.trans hgone)
      rw [hadmitted] at hstage
      exact hstage
    have hincarnation (id : SessionId) := incarnation_append (s := s.server) (s.server.opens envelope task.guard plan.permit now) id
    have hrenews {t : Departures} (ht : t.server.state = openSession s.server.state (newSession s.server.registry now envelope plan)) :
        Renews s t := by
      intro id session hactive
      rw [ht] at hactive
      rcases active_open hactive with ⟨_, rfl⟩ | ⟨_, hold⟩
      · refine .inr ⟨?_, fun other hdeparted => ?_⟩
        · show plan.consumer.name ≠ plan.provider.name
          rw [hconsumer]
          exact hprovider.symm
        · rintro (hmatches | hmatches)
          · rw [← SessionOwner.matches_iff.mp hmatches] at hdeparted
            exact hstaying (hidentity ▸ hdeparted)
          · rw [← SessionOwner.matches_iff.mp hmatches] at hdeparted
            exact hpresent hdeparted
      · exact .inl ⟨session, hold, rfl, rfl⟩
    refine ⟨h.shielded.setStage hself fun hleaving => absurd hleaving id,
      h.vacated.moves (.opened plan) h.shielded.named hself rfl (hrenews rfl) (fun other hne hother => ?_)
        (fun hgone => absurd hgone id) trivial,
      h.notified.later rfl rfl (fun id => ?_) fun {id session} hactive hsame => ?_⟩
    · exact absurd (Option.some.inj (hother.symm.trans hheld)) hne
    · exact (Nat.le_add_right _ _).trans_eq (hincarnation id).symm
    · rcases active_open hactive with ⟨hid, _⟩ | ⟨_, hold⟩
      · obtain rfl : id = envelope.sessionId := hid
        have hnew := hincarnation envelope.sessionId
        rw [if_pos ⟨hpayload, rfl⟩] at hnew
        exact absurd (hnew.symm.trans hsame) (Nat.succ_ne_self _)
      · exact ⟨session, hold⟩
  · cases ht

/-- The device leaves no session behind. -/
theorem removeDevice {order : List SessionId} (h : Sound s) (hself : s.tasks task.guard.identity = some task)
    (ht : s.advance c task (.removeDevice identity order) = some t) : Sound t := by
  simp only [Departures.advance] at ht
  split at ht
  · next hstage hfree =>
    split at ht
    · next hiterates =>
      obtain ⟨hnodup, hkeys⟩ := hiterates
      obtain rfl := Option.some.inj ht
      have horder (id : SessionId) : id ∈ order ↔ id ∈ s.server.state.sessions := by
        rw [← List.mem_toFinset, hkeys, Finmap.mem_keys]
      have hrenews {t : Departures} (ht : t.server.state = (removeLoop task.guard.identity order s.server.state).2) : Renews s t := by
        intro id session hactive
        rw [ht] at hactive
        exact .inl ⟨session, (active_removeLoop horder hactive).1, rfl, rfl⟩
      refine ⟨h.shielded.setStage hself fun _ => ?_,
        h.vacated.moves .removing h.shielded.named hself rfl (hrenews rfl) (fun other _ hother => ?_) (fun _ => .inr hfree)
          fun id session hactive => (active_removeLoop horder hactive).2,
        h.notified.remove task.guard.identity hnodup h.vacated.apart rfl rfl rfl horder fun id => ?_⟩
      · rw [hstage]
        trivial
      · cases hfree.symm.trans hother
      · exact incarnation_tombstones _ id
    · cases ht
  · cases ht

theorem advance (h : Sound s) (hself : s.tasks task.guard.identity = some task) (ht : s.advance c task l = some t) : Sound t := by
  cases l with
  | check => exact h.check hself ht
  | find => exact h.find hself ht
  | reserve => exact h.reserve hself ht
  | insert => exact h.insert hself ht
  | send => exact h.send hself ht
  | markUnavailable => exact h.markUnavailable hself ht
  | removeDevice => exact h.removeDevice hself ht
  | finishRemoval => exact h.finishRemoval hself ht
  | release => exact h.release hself ht
  | claim | notify | background => cases ht

theorem step (h : Sound s) (ht : Step c s l t) : Sound t := by
  rcases step_cases ht with ⟨_, _, _, _, hclaim⟩ | ⟨_, _, hnotify⟩ | ⟨_, hbackground⟩ | ⟨identity, task, htask, hadvance⟩
  · exact h.claim hclaim
  · exact h.notify hnotify
  · exact h.background hbackground
  · exact h.advance (h.shielded.self htask) hadvance

end Sound

theorem sound_run {n : Nat} (h : Run (Step c) (.new n) labels s) : Sound s :=
  h.invariant (fun _ _ _ hs ht => hs.step ht) (sound_new n)

/-- A notice counts where the queue of the survivor has taken the message. -/
theorem notify_sends {i : Nat} {now : Moment} (h : s.notify c i now = some t) :
    t.notices = s.notices ∨ ∃ removed peer, s.pending[i]? = some removed ∧
      routeTo (observeP2pClose c s.server.registry removed.session "peer-disconnected" now) (survivor removed.session removed.disconnected)
        (serverNotice removed.session.metadata.sessionId .peerDisconnected (some peer)) = .ok t.server.registry ∧
      t.notices = s.notices ++ [⟨removed, survivor removed.session removed.disconnected⟩] := by
  obtain ⟨removed, hremoved, rfl⟩ := Option.map_eq_some_iff.mp h
  have hdisconnect : c.disconnectOne removed.disconnected now s.server.registry removed.session = sendServerNotice
    (observeP2pClose c s.server.registry removed.session "peer-disconnected" now) removed.session
    (survivor removed.session removed.disconnected) .peerDisconnected := rfl
  dsimp only [noticeFor]
  rw [hdisconnect, sendServerNotice]
  split
  · next hsent =>
    refine .inr ⟨removed, _, hremoved, hsent.trans ?_, rfl⟩
    simp only [hsent]
  · exact .inl (List.append_nil _)

/-- A task stays where it is or goes on, and does not return from its removal. -/
theorem advance_tasks (h : s.advance c task l = some t) : t.tasks = s.tasks ∨ ∃ stage : Stage,
    t.tasks = Function.update s.tasks task.guard.identity (some { task with stage }) ∧ (task.stage.Gone → stage.Gone) := by
  cases l with
  | check identity now envelope =>
      simp only [advance] at h
      split at h
      · next hstage =>
        rw [hstage]
        split at h
        · obtain rfl := Option.some.inj h
          exact .inr ⟨_, rfl, fun hgone => absurd hgone id⟩
        · obtain rfl := Option.some.inj h
          exact .inl rfl
      · cases h
  | find identity now =>
      simp only [advance] at h
      split at h
      · next hstage =>
        rw [hstage]
        split at h
        all_goals
          obtain rfl := Option.some.inj h
          exact .inr ⟨_, rfl, fun hgone => absurd hgone id⟩
      · cases h
  | reserve identity =>
      simp only [advance] at h
      split at h
      · next hstage _ =>
        rw [hstage]
        split at h
        all_goals
          obtain rfl := Option.some.inj h
          exact .inr ⟨_, rfl, fun hgone => absurd hgone id⟩
      · cases h
  | insert | send | markUnavailable =>
      simp only [advance] at h
      split at h
      · next hstage =>
        rw [hstage]
        obtain rfl := Option.some.inj h
        exact .inr ⟨_, rfl, fun hgone => absurd hgone id⟩
      · cases h
  | removeDevice identity order =>
      simp only [advance] at h
      split at h
      · split at h
        · obtain rfl := Option.some.inj h
          exact .inr ⟨.removing, rfl, fun _ => trivial⟩
        · cases h
      · cases h
  | finishRemoval identity =>
      simp only [advance] at h
      split at h
      · split at h
        · obtain rfl := Option.some.inj h
          exact .inr ⟨.removed, rfl, fun _ => trivial⟩
        · cases h
      · cases h
  | release identity now =>
      simp only [advance] at h
      split at h
      · obtain rfl := Option.some.inj h
        exact .inr ⟨.released, rfl, fun _ => trivial⟩
      · cases h
  | claim | notify | background => cases h

/-- A device that has departed does not come back. -/
theorem Departed.step (hs : Sound s) (h : s.Departed identity) (ht : Step c s l t) : t.Departed identity := by
  obtain ⟨gone, hgone, hstage⟩ := h
  rcases step_cases ht with ⟨_, other, _, _, hclaim⟩ | ⟨_, _, hnotify⟩ | ⟨_, hbackground⟩ | ⟨_, task, htask, hadvance⟩
  · rw [claim] at hclaim
    split at hclaim
    · cases hclaim
    · next hfree =>
      split at hclaim
      · obtain rfl := Option.some.inj hclaim
        exact ⟨gone, hgone, hstage⟩
      · obtain rfl := Option.some.inj hclaim
        refine ⟨gone, (Function.update_of_ne ?_ _ _).trans hgone, hstage⟩
        rintro rfl
        cases hfree.symm.trans hgone
  · obtain ⟨_, _, rfl⟩ := Option.map_eq_some_iff.mp hnotify
    exact ⟨gone, hgone, hstage⟩
  · rw [background] at hbackground
    split at hbackground
    · obtain ⟨_, _, rfl⟩ := Option.map_eq_some_iff.mp hbackground
      exact ⟨gone, hgone, hstage⟩
    · cases hbackground
  · rcases advance_tasks hadvance with hsame | ⟨stage, htasks, hkeeps⟩
    · exact ⟨gone, by rw [hsame, hgone], hstage⟩
    · by_cases heq : identity = task.guard.identity
      · obtain rfl := Option.some.inj ((heq ▸ hgone).symm.trans (hs.shielded.self htask))
        exact ⟨{ gone with stage }, by rw [htasks, heq, Function.update_self], hkeeps hstage⟩
      · exact ⟨gone, by rw [htasks, Function.update_of_ne heq, hgone], hstage⟩

theorem Departed.run (hs : Sound s) (h : s.Departed identity) (ht : Run (Step c) s labels t) : Sound t ∧ t.Departed identity :=
  ht.invariant (P := fun s => Sound s ∧ s.Departed identity) (fun _ _ _ hs ht => ⟨hs.1.step ht, hs.2.step hs.1 ht⟩) ⟨hs, h⟩

theorem survivor_other {session : StoredSession} (hapart : session.consumer.name ≠ session.provider.name) :
    (survivor session identity = session.consumer ∨ survivor session identity = session.provider) ∧
      ¬(survivor session identity).Matches identity := by
  rw [survivor]
  by_cases hconsumer : session.consumer.Matches identity
  · rw [if_pos hconsumer]
    exact ⟨.inr rfl, fun hprovider => hapart (hconsumer.1.trans hprovider.1.symm)⟩
  · rw [if_neg hconsumer]
    exact ⟨.inl rfl, hconsumer⟩

theorem disconnects_state (hl : l.Disconnects) (ht : Step c s l t) : t.server.state = s.server.state := by
  cases l with
  | notify i now =>
      obtain ⟨_, _, rfl⟩ := Option.map_eq_some_iff.mp ht
      rfl
  | markUnavailable identity | release identity now =>
      obtain ⟨task, _, h⟩ := Option.bind_eq_some_iff.mp ht
      simp only [advance] at h
      split at h
      · obtain rfl := Option.some.inj h
        rfl
      · cases h
  | finishRemoval identity =>
      obtain ⟨task, _, h⟩ := Option.bind_eq_some_iff.mp ht
      simp only [advance] at h
      split at h
      · split at h
        · obtain rfl := Option.some.inj h
          rfl
        · cases h
      · cases h
  | claim | check | find | reserve | insert | send | removeDevice | background => exact absurd hl id

/-- The removal entombs the sessions of the device, all of them and no others. -/
theorem removeDevice_step (hs : Sound s) {order : List SessionId} (ht : Step c s (.removeDevice identity order) t) :
    t.Departed identity ∧ ∀ id, t.server.state.sessions.lookup id = removedRecord identity (s.server.state.sessions.lookup id) := by
  obtain ⟨task, htask, h⟩ := Option.bind_eq_some_iff.mp ht
  obtain rfl := hs.shielded.named htask
  simp only [advance] at h
  split at h
  · split at h
    · next hiterates =>
      obtain rfl := Option.some.inj h
      refine ⟨⟨_, Function.update_self _ _ _, trivial⟩, fun id => (lookup_removeLoop order).trans ?_⟩
      split
      · rfl
      · next hout =>
        rw [← List.mem_toFinset, hiterates.2, Finmap.mem_keys] at hout
        rw [Finmap.lookup_eq_none.mpr hout]
        rfl
    · cases h
  · cases h

/-- Whatever the other tasks do meanwhile, no active session names a device again
once it is removed. The removal entombs what named it and nothing else, and the other
participant of each of these sessions is told at most once. -/
theorem removed_device_gone {n : Nat} (h : Run (Step c) (.new n) labels s) :
    (∀ identity order t later u, Step c s (.removeDevice identity order) t → Run (Step c) t later u →
      ∀ id session, u.server.state.activeSession id = some session → ¬Owns identity session) ∧
    (∀ identity order t, Step c s (.removeDevice identity order) t → ∀ id,
      t.server.state.sessions.lookup id = removedRecord identity (s.server.state.sessions.lookup id)) ∧
    (∀ l t, l.Disconnects → Step c s l t → t.server.state = s.server.state) ∧
    (s.notices.map fun notice => notice.about.key).Nodup ∧
    ∀ notice ∈ s.notices, Owns notice.about.disconnected notice.about.session ∧
      (notice.recipient = notice.about.session.consumer ∨ notice.recipient = notice.about.session.provider) ∧
      ¬notice.recipient.Matches notice.about.disconnected := by
  have hsound := sound_run h
  refine ⟨fun identity order t later u ht hlater id session hactive => ?_, fun identity order t ht => (removeDevice_step hsound ht).2,
    fun l t hl ht => disconnects_state hl ht, ?_, fun notice hnotice => ?_⟩
  · obtain ⟨hu, gone, hgone, hstage⟩ := (removeDevice_step hsound ht).1.run (hsound.step ht) hlater
    obtain rfl := hu.shielded.named hgone
    exact hu.vacated.gone hgone hstage hactive
  · exact (List.nodup_append.mp hsound.notified.once).2.1
  · obtain ⟨howns, hapart, hrecipient⟩ := hsound.notified.notices notice hnotice
    rw [hrecipient]
    exact ⟨howns, survivor_other hapart⟩

section Sample

def sampleAsks (sessionId : SessionId) (consumer provider : ControlSessionGuard) : List DepartureLabel :=
  [.check consumer.identity (sampleMoment 0) (sampleEnvelope sessionId consumer provider 1 1 CandidateGeneration.one_ne_zero (.request ⟨⟨"ssh", sampleExport_bounded⟩⟩)),
    .find consumer.identity (sampleMoment 0), .reserve consumer.identity, .insert consumer.identity (sampleMoment 0), .send consumer.identity]

def sampleClaims (guard : ControlSessionGuard) : DepartureLabel :=
  .claim (sampleMoment 0) guard.identity (.channel 1024) guard.protocolVersion

theorem deviceAgain_bounded : "a".utf8ByteSize ≤ maxDeviceNameBytes := by decide

theorem deviceAgain_named : (⟨"a", deviceAgain_bounded⟩ : DeviceName).str ≠ "" := by decide

/-- The first device, when it has come back. -/
def deviceAgain : ControlSessionGuard := sampleControl ⟨"a", deviceAgain_bounded⟩ deviceAgain_named 5 (by decide)

def sampleLeaving : List DepartureLabel :=
  [sampleClaims deviceA, sampleClaims deviceB] ++ sampleAsks (sampleId 1) deviceB deviceA ++ [.markUnavailable deviceA.identity]

def sampleReturning : List DepartureLabel :=
  [.notify 0 (sampleMoment 10), .finishRemoval deviceA.identity, .release deviceA.identity (sampleMoment 10), sampleClaims deviceAgain] ++
    sampleAsks (sampleId 2) deviceB deviceAgain

theorem removed_device_gone_sample : ∃ s t u, Run (Step sampleCoordinator) (.new 4) sampleLeaving s ∧
    Step sampleCoordinator s (.removeDevice deviceA.identity [sampleId 1]) t ∧ Run (Step sampleCoordinator) t sampleReturning u ∧
    u.notices.length = 1 ∧ (u.server.state.activeSession (sampleId 2)).any (Owns deviceAgain.identity ·) = true ∧
    ∀ id session, u.server.state.activeSession id = some session → ¬Owns deviceA.identity session := by
  have hsample : (((exec (next sampleCoordinator) (new 4) sampleLeaving).bind fun s =>
      s.next sampleCoordinator (.removeDevice deviceA.identity [sampleId 1])).bind fun t =>
        exec (next sampleCoordinator) t sampleReturning).any (fun u => u.notices.length = 1 ∧
          (u.server.state.activeSession (sampleId 2)).any (Owns deviceAgain.identity ·) = true) = true := by decide +kernel
  obtain ⟨u, hu, htest⟩ := (Option.any_eq_true _ _).mp hsample
  obtain ⟨t, ht, hu⟩ := Option.bind_eq_some_iff.mp hu
  obtain ⟨s, hs, ht⟩ := Option.bind_eq_some_iff.mp ht
  obtain ⟨hnotices, hsession⟩ := of_decide_eq_true htest
  have hleaving : Run (Step sampleCoordinator) (new 4) sampleLeaving s := run_of_exec (fun _ _ _ h => h) hs
  have hreturning : Run (Step sampleCoordinator) t sampleReturning u := run_of_exec (fun _ _ _ h => h) hu
  exact ⟨s, t, u, hleaving, ht, hreturning, hnotices, hsession,
    (removed_device_gone hleaving).1 deviceA.identity [sampleId 1] t sampleReturning u ht hreturning⟩

end Sample

end Departures

end Rustgo.Coordinator
