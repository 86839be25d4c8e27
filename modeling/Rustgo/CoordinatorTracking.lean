import Rustgo.CoordinatorCoherent
import Rustgo.SessionLog

namespace Rustgo.Coordinator

open Checks Protocol Registry Rendezvous Tables RendezvousCoordinator CoordinatorState Runs

variable {c : RendezvousCoordinator} {timely : Prop} {s s' : Server} {id : SessionId} {log : List HistoryEvent}
  {q : Forwarded} {session session' : StoredSession} {now : Moment} {authenticated : ControlSessionGuard}
  {envelope : RendezvousEnvelope} {frame : PeerRelayFrame} {permit : Permit}

/-- The participant that has the given bit in the masks. -/
def Forwarded.party (q : Forwarded) (bit : UInt8) : AuthenticatedClient := if bit = 1 then q.sender else q.recipient

/-- The relay admission counts at least the frames that were relayed in its window. -/
structure Counted (log : List HistoryEvent) (relay : RelayAdmission) : Prop where
  authorized : frames log ≠ [] → relay.Authorized
  windows : ∀ r ∈ frames log, r.windowStarted ≤ relay.windowStarted
  count : (windowFrames log relay.windowStarted).length ≤ relay.framesInWindow
  bytes : windowBytes log relay.windowStarted ≤ relay.bytesInWindow

/-- The stored session agrees with what happened since `q` opened it. -/
structure Tracks (log : List HistoryEvent) (q : Forwarded) (session : StoredSession) : Prop where
  opening : opening log = some q
  request : q.IsRequest
  running : ∀ event ∈ log, ¬event.Ends
  expires : q.envelope.expiresUnixSecs = session.metadata.expiresUnixSecs
  consumer : q.sender = session.consumer.identity
  provider : q.recipient = session.provider.identity
  steps : ∀ e ∈ envelopes log, e.envelope.step ≤ session.state.lastStep
  reached : ∃ e ∈ envelopes log, e.envelope.step = session.state.lastStep
  latest : ∃ last, (envelopes log).getLast? = some last ∧ last.envelope.generation = session.state.generation
  started : ∃ first, firstOf log session.state.generation = some first ∧
    first.moment.instant = session.generationStarted
  accepted : ∀ protocol, session.metadata.protocol = some protocol → ∃ d ∈ envelopes log, Accepts q protocol d
  announced : ∀ bit, IsBit bit → session.candidateGenerationAnnouncedBy &&& bit ≠ 0 →
    ∃ a ∈ envelopes log, Announces (q.party bit) session.state.generation a
  asked : ∀ bit, IsBit bit → session.relay.requestedBy &&& bit ≠ 0 → ∃ a ∈ envelopes log, AsksRelay (q.party bit) a
  relay : Counted log session.relay

section Windows

variable {relay : RelayAdmission}

theorem counted_nil (h : frames log = []) (relay : RelayAdmission) : Counted log relay where
  authorized hne := absurd h hne
  windows r hr := by rw [h] at hr; exact nomatch hr
  count := by simp [windowFrames, h]
  bytes := by simp [windowBytes, windowFrames, h]

theorem Counted.append (h : Counted log relay) {event : HistoryEvent} (he : event.frame? = none) :
    Counted (log ++ [event]) relay := by
  have hframes : frames (log ++ [event]) = frames log := by
    rw [frames_append, he, Option.toList_none, List.append_nil]
  constructor
  · rw [hframes]; exact h.authorized
  · rw [hframes]; exact h.windows
  · rw [windowFrames, hframes]; exact h.count
  · rw [windowBytes, windowFrames, hframes]; exact h.bytes

theorem Counted.roll (h : Counted log relay) (now : Moment) : Counted log (relay.roll now) := by
  rw [RelayAdmission.roll]
  split
  · next hover =>
    have hpast : ∀ r ∈ frames log, r.windowStarted < now.instant := by
      intro r hr
      have hle := h.windows r hr
      have hpos : 0 < second := by decide
      omega
    have hnone : windowFrames log now.instant = [] := by
      apply List.filter_eq_nil_iff.mpr
      intro r hr heq
      exact absurd (of_decide_eq_true heq) (hpast r hr).ne
    exact {
      authorized := h.authorized
      windows := fun r hr => (hpast r hr).le
      count := by simp [hnone]
      bytes := by simp [windowBytes, hnone] }
  · exact h

theorem roll_window (relay : RelayAdmission) (now : Moment) :
    now.instant < (relay.roll now).windowStarted + second := by
  have hpos : 0 < second := by decide
  rw [RelayAdmission.roll]
  split
  · exact Nat.lt_add_of_pos_right hpos
  · next hover => omega

/-- What `admitFrame` does once the window is rolled. -/
theorem admitFrame_cases (relay : RelayAdmission) (now : Moment) (bytes : Nat) :
    (relay.admitFrame now bytes = (false, relay.roll now)) ∨
      ((relay.roll now).framesInWindow < RelayAdmission.maxFramesPerSecond ∧
        (relay.roll now).bytesInWindow + bytes ≤ RelayAdmission.maxBytesPerSecond ∧
        relay.admitFrame now bytes = (true, { relay.roll now with
          framesInWindow := (relay.roll now).framesInWindow + 1
          bytesInWindow := (relay.roll now).bytesInWindow + bytes })) := by
  rw [RelayAdmission.admitFrame]
  dsimp only
  split
  · exact .inl rfl
  · split
    · exact .inl rfl
    · next hroom => exact .inr ⟨by omega, by omega, rfl⟩

theorem Counted.admitted (h : Counted log relay) (now : Moment) (bytes : Nat) :
    Counted log (relay.admitFrame now bytes).2 := by
  have hr := h.roll now
  rcases admitFrame_cases relay now bytes with heq | ⟨_, _, heq⟩
  · rw [heq]
    exact hr
  · rw [heq]
    exact ⟨hr.authorized, hr.windows, hr.count.trans (Nat.le_succ _), hr.bytes.trans (Nat.le_add_right _ _)⟩

/-- A frame that is admitted finds room in its window, and is counted. -/
theorem Counted.relayed (h : Counted log relay) (hauth : relay.Authorized) {r : Relayed}
    (ha : (relay.admitFrame now r.frame.ciphertext.bytes.length).1 = true)
    (hw : r.windowStarted = (relay.admitFrame now r.frame.ciphertext.bytes.length).2.windowStarted) :
    (windowFrames log r.windowStarted).length < RelayAdmission.maxFramesPerSecond ∧
      windowBytes log r.windowStarted + r.frame.ciphertext.bytes.length ≤ RelayAdmission.maxBytesPerSecond ∧
      now.instant < r.windowStarted + second ∧
      Counted (log ++ [.relayed r]) (relay.admitFrame now r.frame.ciphertext.bytes.length).2 := by
  have hr := h.roll now
  have hkept := (admitFrame_fields relay now r.frame.ciphertext.bytes.length).1
  rcases admitFrame_cases relay now r.frame.ciphertext.bytes.length with heq | ⟨hcount, hbytes, heq⟩
  · rw [heq] at ha
    exact nomatch ha
  rw [heq] at hw hkept
  have hstarted : r.windowStarted = (relay.roll now).windowStarted := hw
  have hc := hr.count
  have hb := hr.bytes
  have hi := roll_window relay now
  rw [← hstarted] at hc hb hi
  refine ⟨by omega, by omega, hi, ?_⟩
  rw [heq]
  exact {
    authorized := fun _ => hkept.trans hauth
    windows := by
      intro r' hr'
      rw [frames_append] at hr'
      rcases List.mem_append.mp hr' with hold | hnew
      · exact hr.windows r' hold
      · obtain rfl := List.mem_singleton.mp hnew
        exact hstarted.le
    count := by
      rw [← hw, windowFrames_append_relayed, List.length_append]
      exact Nat.succ_le_succ hc
    bytes := by
      rw [← hw, windowBytes_append_relayed]
      exact Nat.add_le_add_right hb _ }

end Windows

section Sessions

theorem Tracks.core (h : Tracks log q session) (hc : SameCore session session') : Tracks log q session' := by
  cases session
  cases session'
  obtain ⟨rfl, rfl, rfl, rfl, rfl, rfl, rfl, rfl⟩ := hc
  exact { h with }

theorem Tracks.admitted (h : Tracks log q session) : Tracks log q (admittedSession now frame session) := by
  have hkept := (admitFrame_fields session.relay now frame.ciphertext.bytes.length).1
  exact { h with
    asked := by
      rw [admittedSession, hkept]
      exact h.asked
    relay := h.relay.admitted now _ }

theorem Tracks.mem_append {P : Forwarded → Prop} (event : HistoryEvent) (h : ∃ a ∈ envelopes log, P a) :
    ∃ a ∈ envelopes (log ++ [event]), P a := by
  obtain ⟨a, ha, hp⟩ := h
  exact ⟨a, by rw [envelopes_append]; exact List.mem_append_left _ ha, hp⟩

theorem mem_envelopes_last (log : List HistoryEvent) (e : Forwarded) : e ∈ envelopes (log ++ [.forwarded e]) := by
  rw [envelopes_append]
  exact List.mem_append_right _ (List.mem_singleton_self e)

/-- How a session is tracked further when it passes on an envelope. -/
theorem Tracks.passed (h : Tracks log q session) {e : Forwarded} (hopen : ¬IsClosing e.envelope.payload)
    (hkeeps : Keeps session session') (hstep : session.state.lastStep < e.envelope.step)
    (hnext : session'.state.lastStep = e.envelope.step) (hgen : session'.state.generation = e.envelope.generation)
    (hstarted : ∃ first, firstOf (log ++ [.forwarded e]) session'.state.generation = some first ∧
      first.moment.instant = session'.generationStarted)
    (haccepted : ∀ protocol, session'.metadata.protocol = some protocol →
      ∃ d ∈ envelopes (log ++ [.forwarded e]), Accepts q protocol d)
    (hannounced : ∀ bit, IsBit bit → session'.candidateGenerationAnnouncedBy &&& bit ≠ 0 →
      ∃ a ∈ envelopes (log ++ [.forwarded e]), Announces (q.party bit) session'.state.generation a)
    (hasked : ∀ bit, IsBit bit → session'.relay.requestedBy &&& bit ≠ 0 →
      ∃ a ∈ envelopes (log ++ [.forwarded e]), AsksRelay (q.party bit) a)
    (hrelay : Counted log session'.relay) : Tracks (log ++ [.forwarded e]) q session' where
  opening := opening_append _ h.opening
  request := h.request
  running := running_append h.running hopen
  expires := h.expires.trans hkeeps.expires.symm
  consumer := by rw [hkeeps.consumer]; exact h.consumer
  provider := by rw [hkeeps.provider]; exact h.provider
  steps := by
    intro e' he'
    rw [hnext]
    rw [envelopes_append] at he'
    rcases List.mem_append.mp he' with hold | hnew
    · exact UInt64.le_of_lt (UInt64.lt_of_le_of_lt (h.steps e' hold) hstep)
    · obtain rfl := List.mem_singleton.mp hnew
      exact UInt64.le_refl _
  reached := ⟨e, mem_envelopes_last log e, hnext.symm⟩
  latest := by
    refine ⟨e, ?_, hgen.symm⟩
    rw [envelopes_append]
    exact List.getLast?_concat
  started := hstarted
  accepted := haccepted
  announced := hannounced
  asked := hasked
  relay := hrelay.append rfl

theorem tracks_new {plan : RequestPlan} (hr : Requested c s now authenticated envelope plan) (k : Nat) :
    let q : Forwarded := ⟨k, envelope, authenticated.identity, plan.permit.identity, now⟩
    Tracks [.forwarded q] q (newSession s.registry now envelope plan) := by
  intro q
  have hstate : (newSession s.registry now envelope plan).state =
    ⟨envelope.sessionId, .requested, envelope.step, envelope.generation⟩ := hr.state
  exact {
    opening := rfl
    request := ⟨_, hr.payload⟩
    running := by
      intro event he
      obtain rfl := List.mem_singleton.mp he
      show ¬IsClosing envelope.payload
      rw [hr.payload]
      exact id
    expires := rfl
    consumer := by
      show authenticated.identity = plan.consumer.identity
      rw [hr.consumer]
      rfl
    provider := hr.permit
    steps := by
      intro e he
      obtain rfl := List.mem_singleton.mp he
      rw [hstate]
      exact UInt64.le_refl _
    reached := ⟨q, List.mem_singleton_self q, by rw [hstate]⟩
    latest := ⟨q, rfl, by rw [hstate]⟩
    started := by
      refine ⟨q, ?_, rfl⟩
      rw [hstate]
      exact List.find?_cons_of_pos (decide_eq_true rfl)
    accepted := fun _ hprotocol => nomatch hprotocol
    announced := fun bit _ hbit => absurd (UInt8.zero_and) hbit
    asked := fun bit _ hbit => absurd (UInt8.zero_and) hbit
    relay := counted_nil rfl _ }

theorem Tracks.decided (h : Tracks log q session) {plan : DecisionPlan} (hs : plan.session = session)
    (hd : Decided s now authenticated envelope plan) (e : Forwarded) (he : e.envelope = envelope)
    (hsender : e.sender = authenticated.identity) : Tracks (log ++ [.forwarded e]) q (decidedSession plan) := by
  subst hs he
  have hsame := decidedSession_eq plan
  have hstate : (decidedSession plan).state = plan.next := by rw [hsame]
  have hgen : (decidedSession plan).state.generation = e.envelope.generation := by
    rw [hstate, hd.next, hd.generation]
  have hold : (decidedSession plan).state.generation = plan.session.state.generation := hgen.trans hd.generation
  apply h.passed _ decidedSession_keeps hd.step _ hgen
  · rw [hold, hsame]
    obtain ⟨first, hfirst, hinstant⟩ := h.started
    exact ⟨first, firstOf_append _ hfirst, hinstant⟩
  · intro protocol hprotocol
    rw [hsame] at hprotocol
    dsimp only at hprotocol
    split at hprotocol
    · refine ⟨e, mem_envelopes_last log e, ?_, ?_⟩
      · cases hdecision : plan.decision with
        | accepted p =>
            rw [hdecision] at hprotocol
            obtain rfl := Option.some.inj hprotocol
            rw [hd.payload, hdecision]
        | rejected detail =>
            rw [hdecision] at hprotocol
            exact nomatch hprotocol
      · rw [h.provider, hsender]
        exact (SessionOwner.matches_iff.mp hd.sender).symm
    · exact Tracks.mem_append _ (h.accepted protocol hprotocol)
  · intro bit hbit hset
    rw [hold]
    rw [hsame] at hset
    exact Tracks.mem_append _ (h.announced bit hbit hset)
  · intro bit hbit hset
    rw [hsame] at hset
    exact Tracks.mem_append _ (h.asked bit hbit hset)
  · rw [hsame]
    exact h.relay
  · rw [hd.payload]
    exact id
  · rw [hstate, hd.next]

/-- The sender of an envelope is the participant whose bit it sets. -/
theorem Tracks.sender (h : Tracks log q session) {identity : AuthenticatedClient} {target : SessionOwner}
    (hb : Between session identity target) : q.party (participantBit session identity) = identity := by
  rw [Forwarded.party, participantBit]
  rcases hb with ⟨hm, _⟩ | ⟨hm, hp, _⟩
  · rw [if_pos hm, if_pos rfl, h.consumer]
    exact SessionOwner.matches_iff.mp hm
  · rw [if_neg hm, if_neg (by decide), h.provider]
    exact SessionOwner.matches_iff.mp hp

theorem Tracks.crosses (h : Tracks log q session) {identity : AuthenticatedClient} {target : SessionOwner}
    (hb : Between session identity target) : Crosses q identity target.identity := by
  rcases hb with ⟨hm, rfl⟩ | ⟨_, hp, rfl⟩
  · exact .inl ⟨(h.consumer.trans (SessionOwner.matches_iff.mp hm)).symm, h.provider.symm⟩
  · exact .inr ⟨(h.provider.trans (SessionOwner.matches_iff.mp hp)).symm, h.consumer.symm⟩

section Forwarded

variable {plan : ForwardPlan} {e : Forwarded}

theorem Tracks.forwarded_announced (h : Tracks log q plan.session) (hk : Coherent id plan.session)
    (hf : Forwarding s now authenticated e.envelope plan) (hsender : e.sender = authenticated.identity) :
    ∀ bit, IsBit bit →
      (forwardedSession c now authenticated e.envelope plan).candidateGenerationAnnouncedBy &&& bit ≠ 0 →
      ∃ a ∈ envelopes (log ++ [.forwarded e]), Announces (q.party bit) e.envelope.generation a := by
  obtain ⟨_, _, _, _, hannounced, _⟩ := forwardedSession_fields c now authenticated e.envelope plan
  have hbit : IsBit plan.participant := hf.participant ▸ isBit_participantBit _ _
  have hparty : q.party plan.participant = e.sender := by
    rw [hf.participant, h.sender hf.between, hsender]
  have hself (hset : ∃ set, e.envelope.payload = .candidateSetV2 set) :
      ∃ a ∈ envelopes (log ++ [.forwarded e]), Announces (q.party plan.participant) e.envelope.generation a :=
    ⟨e, mem_envelopes_last log e, hset, hparty.symm, rfl⟩
  rw [hannounced]
  have hcase := hf.generation
  generalize plan.generationUpdate = update at hcase
  intro bit hb hset
  cases hcase with
  | kept _ hg =>
      rw [hg]
      exact Tracks.mem_append _ (h.announced bit hb hset)
  | announced set hpayload _ hg _ =>
      rcases (and_or_ne_zero hk.announced hbit bit hb).mp hset with hold | rfl
      · rw [hg]
        exact Tracks.mem_append _ (h.announced bit hb hold)
      · exact hself ⟨set, hpayload⟩
  | advanced set hpayload _ _ _ _ _ =>
      have hmask : (0 ||| plan.participant) &&& bit ≠ 0 := by rw [UInt8.zero_or]; exact hset
      rcases (and_or_ne_zero (.inl rfl) hbit bit hb).mp hmask with hzero | rfl
      · exact absurd UInt8.zero_and hzero
      · exact hself ⟨set, hpayload⟩

theorem Tracks.forwarded_started (h : Tracks log q plan.session) (hg : Guarded (Allowed timely) log)
    (hf : Forwarding s now authenticated e.envelope plan) (hm : e.moment = now) :
    ∃ first, firstOf (log ++ [.forwarded e]) e.envelope.generation = some first ∧
      first.moment.instant = (forwardedSession c now authenticated e.envelope plan).generationStarted := by
  obtain ⟨_, _, _, _, _, hstarted, _⟩ := forwardedSession_fields c now authenticated e.envelope plan
  rw [hstarted]
  have hcase := hf.generation
  generalize plan.generationUpdate = update at hcase
  obtain ⟨first, hfirst, hinstant⟩ := h.started
  cases hcase with
  | kept _ hgen | announced _ _ _ hgen _ =>
      rw [hgen]
      exact ⟨first, firstOf_append _ hfirst, hinstant⟩
  | advanced _ _ _ hgen _ _ _ =>
      refine ⟨e, ?_, congrArg _ hm⟩
      have hnone : firstOf log e.envelope.generation = none := by
        apply List.find?_eq_none.mpr
        intro e' he' heq
        obtain ⟨last, hlast, hlastgen⟩ := h.latest
        have hle := UInt64.le_iff_toNat_le.mp (generation_le_last hg hlast he')
        rw [of_decide_eq_true heq, hlastgen, hgen] at hle
        omega
      rw [firstOf] at hnone
      rw [firstOf, envelopes_append, List.find?_append, hnone]
      simp [HistoryEvent.envelope?]

theorem Tracks.forwarded_relay (h : Tracks log q plan.session) (hk : Coherent id plan.session)
    (hf : Forwarding s now authenticated e.envelope plan) (hsender : e.sender = authenticated.identity) :
    let relay := (forwardedSession c now authenticated e.envelope plan).relay
    Counted log relay ∧ ∀ bit, IsBit bit → relay.requestedBy &&& bit ≠ 0 →
      ∃ a ∈ envelopes (log ++ [.forwarded e]), AsksRelay (q.party bit) a := by
  have hbit : IsBit plan.participant := hf.participant ▸ isBit_participantBit _ _
  have hparty : q.party plan.participant = e.sender := by
    rw [hf.participant, h.sender hf.between, hsender]
  have hannounced : Counted log (announcedRelay now plan) ∧ ∀ bit, IsBit bit →
      (announcedRelay now plan).requestedBy &&& bit ≠ 0 → ∃ a ∈ envelopes log, AsksRelay (q.party bit) a := by
    rw [announcedRelay]
    split
    · next hreset =>
      have hnone : frames log = [] := by
        by_contra hne
        exact hreset.2 (h.relay.authorized hne)
      exact ⟨counted_nil hnone _, fun bit _ hset => absurd UInt8.zero_and hset⟩
    · exact ⟨h.relay, h.asked⟩
  dsimp only
  rw [forwardedSession_relay]
  rcases relayPlan_eq_ok hf.relay with ⟨_, hnone⟩ | ⟨request, hpayload, _, hsome⟩
  · rw [hnone]
    exact ⟨hannounced.1, fun bit hb hset => Tracks.mem_append _ (hannounced.2 bit hb hset)⟩
  · rw [hsome]
    refine ⟨?_, ?_⟩
    · have hc := hannounced.1
      refine ⟨?_, hc.windows, hc.count, hc.bytes⟩
      intro hne
      have hthree : (announcedRelay now plan).requestedBy = 3 := hc.authorized hne
      show (announcedRelay now plan).requestedBy ||| plan.participant = 3
      rw [hthree]
      rcases hbit with hb | hb <;> rw [hb] <;> rfl
    · intro bit hb hset
      rcases (and_or_ne_zero (hk.announcedRelay now).1 hbit bit hb).mp hset with hold | rfl
      · exact Tracks.mem_append _ (hannounced.2 bit hb hold)
      · exact ⟨e, mem_envelopes_last log e, ⟨request, hpayload⟩, hparty.symm⟩

theorem Tracks.forwarded (h : Tracks log q plan.session) (hk : Coherent id plan.session)
    (hg : Guarded (Allowed timely) log) (hf : Forwarding s now authenticated e.envelope plan) (hm : e.moment = now)
    (hsender : e.sender = authenticated.identity) :
    Tracks (log ++ [.forwarded e]) q (forwardedSession c now authenticated e.envelope plan) := by
  obtain ⟨hmetadata, _, _, hstate, _⟩ := forwardedSession_fields c now authenticated e.envelope plan
  obtain ⟨hcounted, hasked⟩ := h.forwarded_relay (c := c) hk hf hsender
  have hgen : (forwardedSession c now authenticated e.envelope plan).state.generation = e.envelope.generation := by
    rw [hstate, hf.next]
  apply h.passed _ (forwardedSession_keeps c now authenticated e.envelope plan) hf.step _ hgen _ _ _ hasked hcounted
  · exact not_isClosing hf.payload
  · rw [hstate, hf.next]
  · rw [hgen]
    exact h.forwarded_started hg hf hm
  · intro protocol hprotocol
    rw [hmetadata] at hprotocol
    exact Tracks.mem_append _ (h.accepted protocol hprotocol)
  · rw [hgen]
    exact h.forwarded_announced hk hf hsender

end Forwarded

/-- An envelope that fits the stored session may be passed on. -/
theorem Tracks.passes (h : Tracks log q session) {e : Forwarded} {target : SessionOwner}
    (hstep : session.state.lastStep < e.envelope.step) (ht : e.moment.unixSecs < session.metadata.expiresUnixSecs)
    (hb : Between session e.sender target) (hr : e.recipient = target.identity)
    (hacc : IsForwardable e.envelope.payload → session.metadata.protocol ≠ none)
    (hgen : ∀ last, last.envelope.generation = session.state.generation →
      e.envelope.generation = session.state.generation ∨ Advances log q last e) : ∃ last, Passes log q last e := by
  obtain ⟨last, hlast, hlastgen⟩ := h.latest
  exact ⟨last, {
    opening := h.opening
    request := h.request
    running := h.running
    latest := hlast
    step := fun e' he' => UInt64.lt_of_le_of_lt (h.steps e' he') hstep
    generation := hlastgen ▸ hgen last hlastgen
    accepted := by
      intro hpayload
      obtain ⟨protocol, hprotocol⟩ := Option.ne_none_iff_exists'.mp (hacc hpayload)
      exact ⟨protocol, h.accepted protocol hprotocol⟩
    timely := by rw [h.expires]; exact ht
    crosses := by rw [hr]; exact h.crosses hb }⟩

theorem Tracks.advances (h : Tracks log q session) {e last : Forwarded} {update : Option GenerationUpdate}
    (hcase : GenerationCase session e.moment (participantBit session e.sender) e.envelope update)
    (hlast : last.envelope.generation = session.state.generation) :
    e.envelope.generation = session.state.generation ∨ Advances log q last e := by
  cases hcase with
  | kept _ hg | announced _ _ _ hg _ => exact .inl hg
  | advanced set hpayload howner hg hall hmost hwait =>
      have hannounced (bit) (hbit : IsBit bit) :
          ∃ a ∈ envelopes log, Announces (q.party bit) last.envelope.generation a := by
        rw [hlast]
        apply h.announced bit hbit
        rw [hall]
        rcases hbit with rfl | rfl <;> decide
      obtain ⟨first, hfirst, hinstant⟩ := h.started
      refine .inr {
        next := by rw [hlast]; exact hg
        most := hmost
        candidates := ⟨set, hpayload, ?_⟩
        consumer := hannounced 1 (.inl rfl)
        provider := hannounced 2 (.inr rfl)
        waited := ⟨first, by rw [hlast]; exact hfirst, ?_⟩ }
      · rw [howner, h.consumer]
        exact decide_eq_decide.mpr (participantBit_eq_one_iff.trans (SessionOwner.matches_iff.trans eq_comm))
      · have hpos : 0 < 250 * millisecond := by decide
        omega

end Sessions

theorem Tracks.relayed (h : Tracks log q session) (registry : ClientRegistry) {r : Relayed} {target : SessionOwner}
    (hr : r.frame = frame ∧ r.moment = now ∧ r.sender = authenticated.identity ∧
      r.windowStarted = (admittedSession now frame session).relay.windowStarted)
    (ht : relayTarget session authenticated frame = .ok target) (hp : r.recipient = target.identity)
    (ha : (session.relay.admitFrame now frame.ciphertext.bytes.length).1 = true)
    (hk : Coherent id session) (hl : timely → now.unixSecs < session.metadata.expiresUnixSecs) :
    Relays timely log q r ∧
      Tracks (log ++ [.relayed r]) q (relayedSession registry now authenticated frame session) := by
  obtain ⟨rfl, rfl, hsender, hw⟩ := hr
  obtain ⟨hphase, hbetween, hauth, datagram, hdatagram, hflags⟩ := relayTarget_eq_ok.mp ht
  obtain ⟨protocol, hprotocol⟩ := Option.ne_none_iff_exists'.mp (hk.accepted.mp hphase)
  obtain ⟨hcount, hbytes, hwindow, hcounted⟩ := h.relay.relayed hauth ha hw
  have hasked (bit) (hbit : IsBit bit) : ∃ a ∈ envelopes log, AsksRelay (q.party bit) a := by
    apply h.asked bit hbit
    rw [hauth]
    rcases hbit with rfl | rfl <;> decide
  have henvelopes : envelopes (log ++ [.relayed r]) = envelopes log := by
    rw [envelopes_append]
    exact List.append_nil _
  constructor
  · refine {
      opening := h.opening
      request := h.request
      running := h.running
      accepted := ⟨protocol, h.accepted protocol hprotocol, ?_⟩
      consumer := hasked 1 (.inl rfl)
      provider := hasked 2 (.inr rfl)
      expiry := fun htimely => by rw [h.expires]; exact hl htimely
      crosses := ?_
      window := hwindow
      count := hcount
      bytes := hbytes }
    · rw [(hk.datagram hdatagram).2, hprotocol] at hflags
      simpa only [Option.some.injEq] using hflags
    · rw [hp, hsender]
      exact h.crosses hbetween
  · have hadmitted : Tracks log q (admittedSession r.moment r.frame session) := h.admitted
    refine Tracks.core ?_ relayedSession_core
    exact {
      opening := opening_append _ h.opening
      request := h.request
      running := running_append h.running not_false
      expires := h.expires
      consumer := h.consumer
      provider := h.provider
      steps := by rw [henvelopes]; exact hadmitted.steps
      reached := by rw [henvelopes]; exact hadmitted.reached
      latest := by rw [henvelopes]; exact hadmitted.latest
      started := by rw [firstOf, henvelopes]; exact hadmitted.started
      accepted := by rw [henvelopes]; exact hadmitted.accepted
      announced := by rw [henvelopes]; exact hadmitted.announced
      asked := by rw [henvelopes]; exact hadmitted.asked
      relay := hcounted }

end Rustgo.Coordinator
