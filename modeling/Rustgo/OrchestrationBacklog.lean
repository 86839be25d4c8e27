import Rustgo.OrchestrationBuffering
import Rustgo.OrchestrationBindings

namespace Rustgo.Orchestration

open Call Checks Coordinator Path Protocol Rendezvous Runs Tables

variable {runtime : Runtime} {s t u a b : Actor} {id : SessionId} {session session' : Session} {envelope : RendezvousEnvelope}
  {generation : UInt64} {arrival : Arrival} {xs ys zs : List Arrival}

/-- All envelopes belong to the session. -/
def Addressed (id : SessionId) (xs : List Arrival) : Prop := ∀ arrival ∈ xs, arrival.envelope.sessionId = id

instance (id : SessionId) (xs : List Arrival) : Decidable (Addressed id xs) :=
  inferInstanceAs (Decidable (∀ arrival ∈ xs, _))

/-- None of the envelopes would be applied to the session as it is. -/
def Barren (runtime : Runtime) (session : Session) (xs : List Arrival) : Prop :=
  ∀ arrival ∈ xs, arrived runtime arrival session = []

instance (session : Session) (xs : List Arrival) : Decidable (Barren runtime session xs) :=
  inferInstanceAs (Decidable (∀ arrival ∈ xs, _))

/-- What the actor has applied once the inputs are handled. -/
def appliedBy (runtime : Runtime) (s : Actor) (labels : List Label) : Option (List RendezvousEnvelope) :=
  (exec (next runtime) s labels).map (·.trace.applied)

/-- What the actor has applied once the envelopes and, among them, the binding have arrived. -/
def appliedAround (runtime : Runtime) (s : Actor) (now : Moment) (binding : PeerIdentityBinding) (ys zs : List Arrival) :
    Option (List RendezvousEnvelope) :=
  appliedBy runtime s (ys.map (Arrival.label s.generation) ++
    bindingArrives s.generation now binding :: zs.map (Arrival.label s.generation))

section Arrivals

theorem Addressed.tail (h : Addressed id (arrival :: xs)) : Addressed id xs :=
  fun arrival harrival => h arrival (List.mem_cons_of_mem _ harrival)

theorem Barren.cons_iff : Barren runtime session (arrival :: xs) ↔
    arrived runtime arrival session = [] ∧ Barren runtime session xs := List.forall_mem_cons

theorem arrived_of_bare (h : bare session' = bare session) (arrival : Arrival) :
    arrived runtime arrival session' = arrived runtime arrival session := by
  simp only [arrived, takes_of_bare h]

theorem barren_of_bare (h : bare session' = bare session) : Barren runtime session' xs ↔ Barren runtime session xs := by
  simp only [Barren, arrived_of_bare h]

theorem expires_of_arrived (h : envelope ∈ arrived runtime arrival session) : envelope.expiresUnixSecs = session.expiry := by
  rw [arrived] at h
  split at h
  · next htaken =>
    obtain rfl := List.mem_singleton.mp h
    have hverified := htaken.2.1
    simp only [verified, Bool.and_eq_true, decide_eq_true_eq] at hverified
    exact hverified.2
  · cases h

theorem appliedBy_cons {l : Label} (h : next runtime s l = some t) (labels : List Label) :
    appliedBy runtime s (l :: labels) = appliedBy runtime t labels := by
  rw [appliedBy, exec, h]
  rfl

theorem silent_run (h : Silent id generation s) (hxs : Addressed id xs) :
    appliedBy runtime s (xs.map (Arrival.label generation)) = some s.trace.applied := by
  induction xs generalizing s with
  | nil => rfl
  | cons arrival xs ih =>
      obtain ⟨t, ht, hsilent, happlied⟩ := silent_arrival runtime h (hxs arrival List.mem_cons_self)
      rw [List.map_cons, appliedBy_cons ht, ih hsilent hxs.tail, happlied]

end Arrivals

section Runs

theorem Live.not_silent (h : Live id generation session b) : ¬ Silent id generation b := fun hsilent =>
  h.bound (hsilent.unbound session h.found)

/-- Where one of two alike actors has lost the session, the other has too. -/
theorem Alike.gone (h : Alike id b a) (hs : Standing generation b) (hgone : b.sessions.lookup id = none) :
    Silent id generation a ∧ a.sessions.lookup id = none := by
  rcases h.lookup with ⟨_, ha⟩ | ⟨_, _, hfound, _⟩
  · exact ⟨⟨h.standing hs, fun _ hl => nomatch ha.symm.trans hl⟩, ha⟩
  · exact nomatch hgone.symm.trans hfound

/-- Alike actors take the same from an envelope, and stay alike as long as the session is there. -/
theorem live_arrival (runtime : Runtime) (hb : Live id generation session b) (h : Alike id b a)
    (hid : arrival.envelope.sessionId = id) :
    ∃ b' a', next runtime b (arrival.label generation) = some b' ∧ next runtime a (arrival.label generation) = some a' ∧
      b'.trace.applied = b.trace.applied ++ arrived runtime arrival session ∧ a'.trace.applied = b'.trace.applied ∧
      (arrived runtime arrival session = [] → Alike id b b') ∧
      ((∃ session', Live id generation session' b' ∧ session'.expiry = session.expiry ∧ Alike id b' a') ∨
        Silent id generation b' ∧ Silent id generation a') := by
  obtain ⟨r, b', r', a', hb', ha', hkeeps, halike, hnone⟩ := handleEnvelope_alike runtime hb h hid
  refine ⟨_, _, next_event hb.standing hb', next_event (h.standing hb.standing) ha', hkeeps.applied, halike.applied, ?_, ?_⟩
  · exact fun harrived => (hnone harrived).removeRight hb.cancelled
  · rcases hb.keeps hkeeps halike.room with ⟨session', hlive, hexpiry⟩ | ⟨hsilent, hgone⟩
    · exact .inl ⟨session', hlive.removeCancelled, hexpiry,
        (halike.removeLeft hlive.cancelled).removeRight hlive.removeCancelled.cancelled⟩
    · exact .inr ⟨hsilent.removeCancelled, (halike.gone hsilent.standing hgone).1.removeCancelled⟩

/-- Alike actors apply the same envelopes of a sequence. -/
theorem live_run (runtime : Runtime) (hb : Live id generation session b) (h : Alike id b a) (hxs : Addressed id xs) :
    ∃ new, appliedBy runtime b (xs.map (Arrival.label generation)) = some (b.trace.applied ++ new) ∧
      appliedBy runtime a (xs.map (Arrival.label generation)) = some (b.trace.applied ++ new) ∧
      (∀ envelope ∈ new, envelope.expiresUnixSecs = session.expiry) ∧ (new = [] ↔ Barren runtime session xs) := by
  induction xs generalizing b a session with
  | nil =>
      refine ⟨[], ?_, ?_, fun _ hin => (nomatch hin), iff_of_true rfl fun _ hin => (nomatch hin)⟩
      · exact congrArg some (List.append_nil _).symm
      · exact congrArg some (h.applied.trans (List.append_nil _).symm)
  | cons arrival xs ih =>
      obtain ⟨b', a', hb', ha', happlied, hsame, hnone, hrest⟩ := live_arrival runtime hb h (hxs arrival List.mem_cons_self)
      rw [List.map_cons, appliedBy_cons hb', appliedBy_cons ha', Barren.cons_iff]
      rcases hrest with ⟨session', hlive, hexpiry, halike⟩ | ⟨hsilent, hsilent'⟩
      · obtain ⟨new, hnew, hnew', hexpires, hbarren⟩ := ih hlive halike hxs.tail
        refine ⟨arrived runtime arrival session ++ new, ?_, ?_, ?_, ?_⟩
        · rw [hnew, happlied, List.append_assoc]
        · rw [hnew', happlied, List.append_assoc]
        · intro envelope hin
          rcases List.mem_append.mp hin with hin | hin
          · exact expires_of_arrived hin
          · exact (hexpires envelope hin).trans hexpiry
        · rw [List.append_eq_nil_iff, hbarren]
          refine and_congr_right fun harrived => ?_
          obtain ⟨found, hfound, hbare⟩ := hb.alike (hnone harrived)
          obtain rfl : found = session' := Option.some.inj (hfound.found.symm.trans hlive.found)
          exact barren_of_bare hbare
      · refine ⟨arrived runtime arrival session, ?_, ?_, fun _ => expires_of_arrived, ?_⟩
        · rw [silent_run hsilent hxs.tail, happlied]
        · rw [silent_run hsilent' hxs.tail, hsame, happlied]
        · have htaken : arrived runtime arrival session ≠ [] := by
            intro harrived
            obtain ⟨session', hlive, _⟩ := hb.alike (hnone harrived)
            exact hlive.not_silent hsilent
          exact iff_of_false htaken fun hbarren => htaken hbarren.1

theorem appliedBy_alike (runtime : Runtime) (hb : Live id generation session b) (h : Alike id b a) (hxs : Addressed id xs) :
    appliedBy runtime a (xs.map (Arrival.label generation)) = appliedBy runtime b (xs.map (Arrival.label generation)) := by
  obtain ⟨new, hb', ha', _⟩ := live_run runtime hb h hxs
  rw [ha', hb']

/-- An actor that drops some of the envelopes misses nothing if and only if none of them would be applied. -/
theorem dropped_iff_barren (runtime : Runtime) (hb : Live id generation session b) (h : Alike id b a) (hxs : Addressed id xs) :
    (∀ ys zs, ys ++ zs = xs → appliedBy runtime a (zs.map (Arrival.label generation)) =
      appliedBy runtime b (xs.map (Arrival.label generation))) ↔ Barren runtime session xs := by
  obtain ⟨new, hnew, _, _, hbarren⟩ := live_run runtime hb (.refl h.room) hxs
  rw [← hbarren, hnew]
  constructor
  · intro hall
    have hnothing : some a.trace.applied = some (b.trace.applied ++ new) := hall xs [] (List.append_nil xs)
    rw [h.applied, Option.some.injEq, List.self_eq_append_right] at hnothing
    exact hnothing
  · rintro hnone ys zs rfl
    have hzs : Barren runtime session zs := fun arrival hin => hbarren.mp hnone arrival (List.mem_append_right _ hin)
    obtain ⟨new', _, hnew', _, hbarren'⟩ := live_run runtime hb h fun arrival hin => hxs arrival (List.mem_append_right ys hin)
    rw [hnew', hbarren'.mpr hzs, hnone]

end Runs

section Pending

variable {rest envelopes : List RendezvousEnvelope} {e : IoError}

theorem released_eq_true : released runtime session envelope = true ↔
    session.peerKey.any (fun key => runtime.verify key envelope) = true ∧
      envelope.sender.str = session.peer ∧ envelope.target.str = runtime.name := by
  rw [released, Bool.and_eq_true, decide_eq_true_eq]

theorem verified_iff : verified runtime session envelope = true ↔
    released runtime session envelope = true ∧ envelope.expiresUnixSecs = session.expiry := by
  simp only [verified, released, Bool.and_eq_true, decide_eq_true_eq, and_assoc]

theorem released_of_bare (h : bare session' = bare session) (envelope : RendezvousEnvelope) :
    released runtime session' envelope = released runtime session envelope :=
  of_bare (released runtime · envelope) (fun _ => rfl) h

theorem applyPending_of_not (hl : a.sessions.lookup id = some session) (hg : ¬ released runtime session envelope = true) :
    applyPending runtime id (envelope :: rest) a = some (.error .invalid, a) := by
  refine read_bind_eq (okOr_eq_ok.mpr hl) ?_
  cases hkey : session.peerKey with
  | none => exact read_bind_error (g := fun _ => okOr none IoError.invalid) rfl _
  | some key =>
      refine read_bind_eq (a := key) rfl ?_
      by_cases hv : runtime.verify key envelope = true
      · let named (_ : Actor) : Except IoError Unit :=
          require (envelope.sender.str = session.peer ∧ envelope.target.str = runtime.name) .invalid
        refine read_bind_eq (a := ()) (if_pos hv) (read_bind_error (g := named) (if_neg fun hnamed => hg (released_eq_true.mpr ⟨?_, hnamed⟩)) _)
        rw [hkey]
        exact hv
      · exact read_bind_error (g := fun _ => require (runtime.verify key envelope = true) IoError.invalid) (if_neg hv) _

theorem applyPending_of_released (hl : a.sessions.lookup id = some session) (hg : released runtime session envelope = true) :
    applyPending runtime id (envelope :: rest) a = (applyVerified runtime envelope >>= fun _ => do
      let present ← .read fun s => .ok (s.sessions.lookup id).isSome
      if present then applyPending runtime id rest else pure ()) a := by
  obtain ⟨hany, hnamed⟩ := released_eq_true.mp hg
  obtain ⟨key, hkey, hv⟩ := Option.any_eq_true _ _ |>.mp hany
  refine read_bind_eq (okOr_eq_ok.mpr hl) (read_bind_eq (a := key) ?_ (read_bind_eq (a := ()) (if_pos hv)
    (read_bind_eq (a := ()) (if_pos hnamed) rfl)))
  rw [hkey]
  rfl

theorem applyPending_of_error (hl : a.sessions.lookup id = some session) (hg : released runtime session envelope = true)
    (h : applyVerified runtime envelope a = some (.error e, t)) :
    applyPending runtime id (envelope :: rest) a = some (.error e, t) := by
  rw [applyPending_of_released hl hg, bind_apply, h]
  rfl

theorem applyPending_of_ok (hl : a.sessions.lookup id = some session) (hg : released runtime session envelope = true)
    (h : applyVerified runtime envelope a = some (.ok (), t)) : applyPending runtime id (envelope :: rest) a =
      if (t.sessions.lookup id).isSome then applyPending runtime id rest t else some (.ok (), t) := by
  rw [applyPending_of_released hl hg, bind_of_ok h]
  refine read_bind_eq rfl ?_
  split <;> rfl

/-- The session goes on with its key, or it is gone. -/
def Lasts (id : SessionId) (generation : UInt64) (session : Session) (t : Actor) : Prop :=
  (∃ session', Live id generation session' t ∧ session'.expiry = session.expiry) ∨
    Silent id generation t ∧ t.sessions.lookup id = none

variable (runtime) in
theorem Lasts.run (hb : Lasts id generation session b) (h : Alike id b a) (hxs : Addressed id xs) :
    ∃ new, appliedBy runtime (removeCancelled a) (xs.map (Arrival.label generation)) = some (b.trace.applied ++ new) := by
  rcases hb with ⟨session', hlive, _⟩ | ⟨hsilent, hgone⟩
  · obtain ⟨new, _, hnew, _⟩ := live_run runtime hlive (h.removeRight hlive.cancelled) hxs
    exact ⟨new, hnew⟩
  · refine ⟨[], ?_⟩
    rw [silent_run (h.gone hsilent.standing hgone).1.removeCancelled hxs, List.append_nil]
    exact congrArg some h.applied

theorem applyPending_singleton {r : Except IoError Unit} (hl : a.sessions.lookup id = some session)
    (hg : released runtime session envelope = true) (h : applyVerified runtime envelope a = some (r, t)) :
    applyPending runtime id [envelope] a = some (r, t) := by
  cases r with
  | ok =>
      rw [applyPending_of_ok hl hg h]
      split <;> rfl
  | error e => exact applyPending_of_error hl hg h

variable (runtime) in
/-- Alike actors apply the same of the envelopes that waited. -/
theorem applyPending_alike (hb : Live id generation session b) (h : Alike id b a)
    (hin : ∀ envelope ∈ envelopes, envelope.sessionId = id) :
    ∃ r b' a', applyPending runtime id envelopes b = some (r, b') ∧ applyPending runtime id envelopes a = some (r, a') ∧
      Alike id b' a' ∧ Lasts id generation session b' := by
  induction envelopes generalizing b a session with
  | nil => exact ⟨.ok (), b, a, rfl, rfl, h, .inl ⟨session, hb, rfl⟩⟩
  | cons envelope rest ih =>
      obtain ⟨found, ha, hbare⟩ := hb.alike h
      by_cases hg : released runtime session envelope = true
      · have hg' : released runtime found envelope = true := (released_of_bare hbare envelope).trans hg
        obtain rfl : envelope.sessionId = id := hin envelope List.mem_cons_self
        obtain ⟨r, b', a', hb', ha', halike, hkeeps, _⟩ := applyVerified_alike runtime h hb.found
        have hlasts : Lasts envelope.sessionId generation session b' := hb.keeps hkeeps halike.room
        cases r with
        | error e =>
            exact ⟨_, b', a', applyPending_of_error hb.found hg hb', applyPending_of_error ha.found hg' ha', halike, hlasts⟩
        | ok =>
            rw [applyPending_of_ok hb.found hg hb', applyPending_of_ok ha.found hg' ha']
            rcases hlasts with ⟨session', hlive, hexpiry⟩ | ⟨hsilent, hgone⟩
            · obtain ⟨_, ha', _⟩ := hlive.alike halike
              rw [hlive.found, ha'.found]
              obtain ⟨r, b'', a'', hb'', ha'', halike', hlasts⟩ := ih hlive halike fun other hother =>
                hin other (List.mem_cons_of_mem _ hother)
              refine ⟨r, b'', a'', hb'', ha'', halike', hlasts.imp_left ?_⟩
              rintro ⟨session'', hlive', hexpiry'⟩
              exact ⟨session'', hlive', hexpiry'.trans hexpiry⟩
            · rw [hgone, (halike.gone hsilent.standing hgone).2]
              exact ⟨_, b', a', rfl, rfl, halike, .inr ⟨hsilent, hgone⟩⟩
      · have hg' : ¬ released runtime found envelope = true := released_of_bare hbare envelope ▸ hg
        exact ⟨_, b, a, applyPending_of_not hb.found hg, applyPending_of_not ha.found hg', h, .inl ⟨session, hb, rfl⟩⟩

/-- The second part of the backlog comes after the first, unless that failed or the session is gone. -/
def proceed (runtime : Runtime) (id : SessionId) (envelopes : List RendezvousEnvelope) :
    Except IoError Unit × Actor → Option (Except IoError Unit × Actor)
  | (.ok _, t) => if (t.sessions.lookup id).isSome then applyPending runtime id envelopes t else some (.ok (), t)
  | (.error e, t) => some (.error e, t)

variable (runtime) in
theorem applyPending_append (hb : Live id generation session b) (hin : ∀ envelope ∈ envelopes, envelope.sessionId = id) :
    applyPending runtime id (envelopes ++ rest) b = (applyPending runtime id envelopes b).bind (proceed runtime id rest) := by
  induction envelopes generalizing b session with
  | nil =>
      change _ = if (b.sessions.lookup id).isSome then _ else _
      rw [hb.found]
      rfl
  | cons envelope envelopes ih =>
      rw [List.cons_append]
      by_cases hg : released runtime session envelope = true
      · obtain rfl : envelope.sessionId = id := hin envelope List.mem_cons_self
        obtain ⟨r, b', _, hb', _, halike, hkeeps, _⟩ := applyVerified_alike runtime (.refl hb.standing.room) hb.found
        cases r with
        | error e =>
            rw [applyPending_of_error hb.found hg hb', applyPending_of_error hb.found hg hb']
            rfl
        | ok =>
            rw [applyPending_of_ok hb.found hg hb', applyPending_of_ok hb.found hg hb']
            rcases hb.keeps hkeeps halike.room with ⟨session', hlive, _⟩ | ⟨_, hgone⟩
            · rw [hlive.found]
              exact ih hlive fun other hother => hin other (List.mem_cons_of_mem _ hother)
            · rw [hgone]
              change some _ = if (b'.sessions.lookup envelope.sessionId).isSome then _ else some _
              rw [hgone]
              rfl
      · rw [applyPending_of_not hb.found hg, applyPending_of_not hb.found hg]
        rfl

end Pending

section Undisturbed

/-- From an actor that applied what had waited, with the result `r`, nothing
that arrives would be lost or gained by waiting: every unexpired envelope that
the session would apply is applied without an error, and any other does not
pass the checks on envelopes that waited; after an error, or an envelope that
does not pass, the session would apply nothing. -/
def Undisturbed (runtime : Runtime) (id : SessionId) : List Arrival → Except IoError Unit → Actor → Prop
  | [], _, _ => True
  | arrival :: rest, r, b =>
      match b.sessions.lookup id, r with
      | none, _ => True
      | some session, .error _ => Barren runtime session (arrival :: rest)
      | some session, .ok _ =>
          if ¬ arrival.now.unixSecs < arrival.envelope.expiresUnixSecs then Undisturbed runtime id rest r b
          else if Takes runtime session arrival.envelope then
            match applyVerified runtime arrival.envelope b with
            | some (r, b) => Undisturbed runtime id rest r b
            | none => True
          else ¬ (released runtime session arrival.envelope = true ∧ Accepts arrival.envelope session) ∧ Barren runtime session rest

theorem undisturbed_cons {r : Except IoError Unit} : Undisturbed runtime id (arrival :: xs) r b ↔
    match b.sessions.lookup id, r with
    | none, _ => True
    | some session, .error _ => Barren runtime session (arrival :: xs)
    | some session, .ok _ =>
        if ¬ arrival.now.unixSecs < arrival.envelope.expiresUnixSecs then Undisturbed runtime id xs r b
        else if Takes runtime session arrival.envelope then
          match applyVerified runtime arrival.envelope b with
          | some (r, b) => Undisturbed runtime id xs r b
          | none => True
        else ¬ (released runtime session arrival.envelope = true ∧ Accepts arrival.envelope session) ∧ Barren runtime session xs :=
  Iff.rfl

theorem undisturbed_of_gone (h : b.sessions.lookup id = none) (r : Except IoError Unit) : Undisturbed runtime id xs r b := by
  cases xs with
  | nil => trivial
  | cons arrival rest =>
      simp only [undisturbed_cons, h]

theorem undisturbed_of_error (h : b.sessions.lookup id = some session) (e : IoError) :
    Undisturbed runtime id xs (.error e) b ↔ Barren runtime session xs := by
  cases xs with
  | nil => exact iff_of_true trivial fun _ hin => nomatch hin
  | cons arrival rest => simp only [undisturbed_cons, h]

variable (h : b.sessions.lookup id = some session)
include h

theorem undisturbed_of_expired (hnow : ¬ arrival.now.unixSecs < arrival.envelope.expiresUnixSecs) :
    Undisturbed runtime id (arrival :: xs) (.ok ()) b ↔ Undisturbed runtime id xs (.ok ()) b := by
  simp only [undisturbed_cons, h, if_pos hnow]

theorem undisturbed_of_takes {r : Except IoError Unit} (hnow : arrival.now.unixSecs < arrival.envelope.expiresUnixSecs)
    (htakes : Takes runtime session arrival.envelope) (happly : applyVerified runtime arrival.envelope b = some (r, t)) :
    Undisturbed runtime id (arrival :: xs) (.ok ()) b ↔ Undisturbed runtime id xs r t := by
  simp only [undisturbed_cons, h, if_neg (not_not_intro hnow), if_pos htakes, happly]

theorem undisturbed_of_not_takes (hnow : arrival.now.unixSecs < arrival.envelope.expiresUnixSecs)
    (htakes : ¬ Takes runtime session arrival.envelope) : Undisturbed runtime id (arrival :: xs) (.ok ()) b ↔
      ¬ (released runtime session arrival.envelope = true ∧ Accepts arrival.envelope session) ∧ Barren runtime session xs := by
  simp only [undisturbed_cons, h, if_neg (not_not_intro hnow), if_neg htakes]

end Undisturbed

section Replay

/-- What is applied when the first envelopes waited and the others arrive after them. -/
def replayed (runtime : Runtime) (id : SessionId) (generation : UInt64) (a : Actor) (envelopes : List RendezvousEnvelope)
    (zs : List Arrival) : Option (List RendezvousEnvelope) :=
  (applyPending runtime id envelopes a).bind fun p => appliedBy runtime (removeCancelled p.2) (zs.map (Arrival.label generation))

theorem forall_split_cons {α : Type} {P : List α → List α → Prop} {x : α} {xs : List α} :
    (∀ ys zs, ys ++ zs = x :: xs → P ys zs) ↔ P [] (x :: xs) ∧ ∀ ys zs, ys ++ zs = xs → P (x :: ys) zs := by
  constructor
  · exact fun h => ⟨h [] _ rfl, fun ys zs hsplit => h (x :: ys) zs (congrArg (x :: ·) hsplit)⟩
  · rintro ⟨hnil, hcons⟩ ys zs hsplit
    cases ys with
    | nil =>
        obtain rfl : zs = x :: xs := hsplit
        exact hnil
    | cons y ys =>
        obtain ⟨rfl, rfl⟩ := List.cons.inj hsplit
        exact hcons ys zs rfl

theorem unexpired_of_later (hnow : ¬ arrival.now.unixSecs < arrival.envelope.expiresUnixSecs) :
    unexpired (arrival :: ys) = unexpired ys := if_neg hnow

theorem unexpired_of_timely (hnow : arrival.now.unixSecs < arrival.envelope.expiresUnixSecs) :
    unexpired (arrival :: ys) = arrival.envelope :: unexpired ys := if_pos hnow

theorem replayed_of {envelopes : List RendezvousEnvelope} {r : Except IoError Unit}
    (h : applyPending runtime id envelopes a = some (r, t)) (zs : List Arrival) :
    replayed runtime id generation a envelopes zs = appliedBy runtime (removeCancelled t) (zs.map (Arrival.label generation)) := by
  rw [replayed, h]
  rfl

variable (runtime) in
/-- An envelope that the session would not apply changes nothing for those after it. -/
theorem appliedBy_untaken (hb : Live id generation session b) (hxs : Addressed id (arrival :: xs))
    (hnone : arrived runtime arrival session = []) : appliedBy runtime b ((arrival :: xs).map (Arrival.label generation)) =
      appliedBy runtime b (xs.map (Arrival.label generation)) := by
  obtain ⟨b', _, hb', _, _, _, hsame, _⟩ := live_arrival runtime hb (.refl hb.standing.room) (hxs arrival List.mem_cons_self)
  rw [List.map_cons, appliedBy_cons hb', appliedBy_alike runtime hb (hsame hnone) hxs.tail]

section Cons

variable (hb : Live id generation session b) (h : Alike id b a) (hid : arrival.envelope.sessionId = id) (hxs : Addressed id xs)
  (hnow : arrival.now.unixSecs < arrival.envelope.expiresUnixSecs)
include hb h hid hxs hnow

variable (runtime) in
/-- A session that applies an envelope goes on as after an envelope that waited. -/
theorem replay_taken (htakes : Takes runtime session arrival.envelope)
    (ih : ∀ {session' b' a'}, Live id generation session' b' → Alike id b' a' →
      ((∀ ys zs, ys ++ zs = xs → replayed runtime id generation a' (unexpired ys) zs =
        appliedBy runtime b' (xs.map (Arrival.label generation))) ↔ Undisturbed runtime id xs (.ok ()) b')) :
    (∀ ys zs, ys ++ zs = xs → replayed runtime id generation a (unexpired (arrival :: ys)) zs =
      appliedBy runtime b ((arrival :: xs).map (Arrival.label generation))) ↔
        Undisturbed runtime id (arrival :: xs) (.ok ()) b := by
  subst hid
  obtain ⟨hv, haccepts⟩ := htakes
  have hg := (verified_iff.mp hv).1
  obtain ⟨found, ha, hbare⟩ := hb.alike h
  have hg' : released runtime found arrival.envelope = true := (released_of_bare hbare arrival.envelope).trans hg
  obtain ⟨r, b', a', hb', ha', halike, hkeeps, _⟩ := applyVerified_alike runtime h hb.found
  have hnext : next runtime b (arrival.label generation) = some (removeCancelled b') := by
    apply next_event hb.standing
    change handleEnvelope runtime arrival.now arrival.envelope b = some (r, b')
    rw [handleEnvelope_of_lookup runtime hnow hb.found, if_pos hv, hb']
  rw [List.map_cons, appliedBy_cons hnext, undisturbed_of_takes hb.found hnow ⟨hv, haccepts⟩ hb']
  simp only [unexpired_of_timely hnow]
  rcases hb.keeps hkeeps halike.room with ⟨session', hlive, _⟩ | ⟨hsilent, hgone⟩
  · have hsame : appliedBy runtime (removeCancelled b') (xs.map (Arrival.label generation)) =
        appliedBy runtime b' (xs.map (Arrival.label generation)) :=
      appliedBy_alike runtime hlive ((Alike.refl halike.room).removeRight hlive.cancelled) hxs
    rw [hsame]
    cases r with
    | ok =>
        rw [← ih hlive halike]
        have hrest (ys zs : List Arrival) : replayed runtime arrival.envelope.sessionId generation a
            (arrival.envelope :: unexpired ys) zs =
              replayed runtime arrival.envelope.sessionId generation a' (unexpired ys) zs := by
          obtain ⟨_, hlive', _⟩ := hlive.alike halike
          rw [replayed, applyPending_of_ok ha.found hg' ha', hlive'.found]
          rfl
        simp only [hrest]
    | error e =>
        rw [undisturbed_of_error hlive.found, ← dropped_iff_barren runtime hlive (halike.removeRight hlive.cancelled) hxs]
        simp only [replayed_of (applyPending_of_error ha.found hg' ha')]
  · refine iff_of_true (fun ys zs hsplit => ?_) (undisturbed_of_gone hgone r)
    obtain ⟨hsilent', hgone'⟩ := halike.gone hsilent.standing hgone
    have hpending : ∃ r', applyPending runtime arrival.envelope.sessionId (arrival.envelope :: unexpired ys) a = some (r', a') := by
      cases r with
      | ok => exact ⟨_, by rw [applyPending_of_ok ha.found hg' ha', hgone']; rfl⟩
      | error e => exact ⟨_, applyPending_of_error ha.found hg' ha'⟩
    obtain ⟨_, hpending⟩ := hpending
    rw [replayed_of hpending, silent_run hsilent.removeCancelled hxs,
      silent_run hsilent'.removeCancelled fun other hin => hxs other (hsplit ▸ List.mem_append_right _ hin)]
    exact congrArg some halike.applied

variable (runtime) in
/-- A session that does not apply an envelope must not apply it, nor miss the others, where it waited. -/
theorem replay_not_taken (htakes : ¬ Takes runtime session arrival.envelope) :
    (∀ ys zs, ys ++ zs = xs → replayed runtime id generation a (unexpired (arrival :: ys)) zs =
      appliedBy runtime b (xs.map (Arrival.label generation))) ↔
        ¬ (released runtime session arrival.envelope = true ∧ Accepts arrival.envelope session) ∧ Barren runtime session xs := by
  subst hid
  obtain ⟨found, ha, hbare⟩ := hb.alike h
  simp only [unexpired_of_timely hnow]
  by_cases hg : released runtime session arrival.envelope = true
  · have hg' : released runtime found arrival.envelope = true := (released_of_bare hbare arrival.envelope).trans hg
    obtain ⟨r, b', a', _, ha', halike, hkeeps, hrefused⟩ := applyVerified_alike runtime h hb.found
    by_cases haccepts : Accepts arrival.envelope session
    · -- the session applies what has another expiry only where it waited
      refine iff_of_false (fun hall => ?_) fun hnot => hnot.1 ⟨hg, haccepts⟩
      have hwaited := hall [] xs rfl
      obtain ⟨new', hnew'⟩ := Lasts.run runtime (hb.keeps hkeeps halike.room) halike hxs
      obtain ⟨new, hnew, _, hexpires, _⟩ := live_run runtime hb (.refl hb.standing.room) hxs
      have hrecorded : recorded arrival.envelope session = [arrival.envelope] := if_pos haccepts
      rw [show unexpired [] = [] from rfl, replayed_of (applyPending_singleton ha.found hg' ha'), hnew', hnew,
        hkeeps.applied, hrecorded, List.append_assoc, Option.some.injEq, List.append_cancel_left_eq] at hwaited
      exact htakes ⟨verified_iff.mpr ⟨hg, hexpires _ (hwaited ▸ List.mem_cons_self)⟩, haccepts⟩
    · obtain ⟨rfl, rfl⟩ := hrefused haccepts
      rw [and_iff_right fun hboth => haccepts hboth.2, ← dropped_iff_barren runtime hb (halike.removeRight hb.cancelled) hxs]
      simp only [replayed_of (applyPending_of_error ha.found hg' ha')]
  · have hg' : ¬ released runtime found arrival.envelope = true := released_of_bare hbare arrival.envelope ▸ hg
    rw [and_iff_right fun hboth => hg hboth.1, ← dropped_iff_barren runtime hb (h.removeRight hb.cancelled) hxs]
    simp only [replayed_of (applyPending_of_not ha.found hg')]

end Cons

variable (runtime) in
/-- It makes no difference which of the envelopes waited if and only if nothing disturbs them. -/
theorem replay_iff (hb : Live id generation session b) (h : Alike id b a) (hxs : Addressed id xs) :
    (∀ ys zs, ys ++ zs = xs → replayed runtime id generation a (unexpired ys) zs =
      appliedBy runtime b (xs.map (Arrival.label generation))) ↔ Undisturbed runtime id xs (.ok ()) b := by
  induction xs generalizing b a session with
  | nil =>
      refine iff_of_true (fun ys zs hsplit => ?_) trivial
      obtain ⟨rfl, rfl⟩ := List.append_eq_nil_iff.mp hsplit
      exact congrArg some h.applied
  | cons arrival xs ih =>
      have hid := hxs arrival List.mem_cons_self
      have hnil : replayed runtime id generation a (unexpired []) (arrival :: xs) =
          appliedBy runtime b ((arrival :: xs).map (Arrival.label generation)) :=
        appliedBy_alike runtime hb (h.removeRight hb.cancelled) hxs
      rw [forall_split_cons, and_iff_right hnil]
      by_cases hnow : arrival.now.unixSecs < arrival.envelope.expiresUnixSecs
      · by_cases htakes : Takes runtime session arrival.envelope
        · exact replay_taken runtime hb h hid hxs.tail hnow htakes fun hlive halike => ih hlive halike hxs.tail
        · rw [undisturbed_of_not_takes hb.found hnow htakes, ← replay_not_taken runtime hb h hid hxs.tail hnow htakes,
            appliedBy_untaken runtime hb hxs (if_neg fun htaken => htakes htaken.2)]
      · rw [undisturbed_of_expired hb.found hnow, ← ih hb h hxs.tail,
          appliedBy_untaken runtime hb hxs (if_neg fun htaken => hnow htaken.1)]
        simp only [unexpired_of_later hnow]

end Replay

section Own

variable {why : SessionId → Session → IoError → Prop} {follows : Session → Prop} {marks : SessionId → Mark → Prop}
  {now : Moment} {i : Input} {l : Label} {labels : List Label}

/-- Only envelopes of the session wait in it. -/
def Own (id : SessionId) (session : Session) : Prop := ∀ envelope ∈ session.pending, envelope.sessionId = id

theorem Own.congr (h : Own id session) (hp : session'.pending = session.pending) : Own id session' :=
  fun envelope hin => h envelope (hp ▸ hin)

theorem own_change (h : Everywhere Own s) (hc : Change runtime why follows marks s t) : Everywhere Own t := by
  intro id session' hl envelope hin
  obtain ⟨session, hs, hn⟩ := hc.noting hl
  exact (hn.waiting envelope hin).elim (h id session hs envelope) fun hid => hid

theorem own_head (h : Everywhere Own s) (hu : Head runtime now i s u) : Everywhere Own u := by
  cases hu with
  | opened => exact h.put fun _ hin => nomatch hin
  | answered => exact h.put fun _ hin => List.mem_singleton.mp hin ▸ rfl
  | recheck _ _ _ hl | bound _ _ _ hl | observed _ _ hl => exact h.put ((h _ _ hl).congr rfl)
  | skip | attached | detached | ungranted | granted | unobserved => exact h

theorem own_step (h : Everywhere Own s) (hstep : Step runtime s l t) : Everywhere Own t := by
  cases step_outcome hstep with
  | input _ hu hc =>
      exact (hc.invariant (fun _ _ h hc => own_change h hc) (own_head h hu)).mono
        (fun _ _ hl => (lookup_keep_eq_some.mp hl).1) fun _ _ hown => hown
  | cancelCaller hl => exact h.put ((h _ _ hl).congr rfl)
  | sever | transmit => exact h

theorem own_run {generation : UInt64} {version : ProtocolVersion} (h : Run (Step runtime) (.new generation version) labels s) :
    Everywhere Own s :=
  h.invariant (fun _ _ _ h hstep => own_step h hstep) fun _ _ hl => nomatch hl

end Own

section Waiting

variable {now : Moment} {binding : PeerIdentityBinding} {key : DevicePublicKey}

variable (runtime) in
/-- Without a key every unexpired envelope waits in the session. -/
theorem waiting_run (hs : Standing generation s) (hl : s.sessions.lookup id = some session) (hkey : session.peerKey = none)
    (hkept : session.cancelled = false) (hys : Addressed id ys) :
    ∃ t session', exec (next runtime) s (ys.map (Arrival.label generation)) = some t ∧ Alike id s t ∧
      t.sessions.lookup id = some session' ∧ session'.pending = session.pending ++ unexpired ys := by
  induction ys generalizing s session with
  | nil => exact ⟨s, session, rfl, .refl hs.room, hl, (List.append_nil _).symm⟩
  | cons arrival ys ih =>
      obtain rfl : arrival.envelope.sessionId = id := hys arrival List.mem_cons_self
      have hcancelled (found) (hfound : s.sessions.lookup arrival.envelope.sessionId = some found) : found.cancelled = false :=
        Option.some.inj (hl.symm.trans hfound) ▸ hkept
      by_cases hnow : arrival.now.unixSecs < arrival.envelope.expiresUnixSecs
      · obtain ⟨r, outbox, hbuffer⟩ := bufferEnvelope_of_room hl hs.room
        have hhandle := handleEnvelope_of_lookup runtime hnow hl
        rw [verified_of_unbound hkey, if_neg Bool.false_ne_true, hbuffer] at hhandle
        have hnext : next runtime s (arrival.label generation) = _ := next_event hs hhandle
        have halike := alike_hold hl hs.room [arrival.envelope] outbox
        have hheld : ({ s.put arrival.envelope.sessionId (hold [arrival.envelope] session) with outbox := outbox } : Actor).sessions.lookup
            arrival.envelope.sessionId = some (hold [arrival.envelope] session) := lookup_put_self
        have hremoved := lookup_removeCancelled (halike.cancelled hcancelled)
        obtain ⟨t, session', ht, halike', hl', hpending⟩ := ih (halike.standing hs).removeCancelled (hremoved.trans hheld)
          hkey hkept hys.tail
        refine ⟨t, session', ?_, (halike.removeRight hcancelled).trans halike', hl', ?_⟩
        · rw [List.map_cons, exec]
          exact (congrArg (Option.bind · _) hnext).trans ht
        · rw [hpending, unexpired_of_timely hnow]
          exact List.append_assoc _ _ _
      · have hnext : next runtime s (arrival.label generation) = _ := next_event hs (handleEnvelope_of_expired runtime hnow)
        obtain ⟨t, session', ht, halike, hl', hpending⟩ := ih hs.removeCancelled ((lookup_removeCancelled hcancelled).trans hl)
          hkey hkept hys.tail
        refine ⟨t, session', ?_, ((Alike.refl hs.room).removeRight hcancelled).trans halike, hl', ?_⟩
        · rw [List.map_cons, exec]
          exact (congrArg (Option.bind · _) hnext).trans ht
        · rw [hpending, unexpired_of_later hnow]

variable (runtime) in
/-- A binding releases what waits in the session. -/
theorem handleBinding_of_unbound (hl : s.sessions.lookup ⟨binding.sessionId⟩ = some session) (hkey : session.peerKey = none)
    (hb : bindingKey runtime session binding = .ok key) : handleBinding runtime binding s =
      applyPending runtime ⟨binding.sessionId⟩ session.pending (s.put ⟨binding.sessionId⟩ (clearPending (setPeerKey key session))) := by
  have hset : editSession ⟨binding.sessionId⟩ (setPeerKey key) s = some (.ok (), s.put ⟨binding.sessionId⟩ (setPeerKey key session)) :=
    editSession_of_lookup hl
  have hcleared : editSession ⟨binding.sessionId⟩ clearPending (s.put ⟨binding.sessionId⟩ (setPeerKey key session)) =
      some (.ok (), s.put ⟨binding.sessionId⟩ (clearPending (setPeerKey key session))) := by
    rw [editSession_of_lookup lookup_put_self, put_put]
  exact read_bind_eq (okOr_eq_ok.mpr hl) (read_bind_eq hb ((bind_of_ok hset _).trans
    (read_bind_eq (a := ()) (if_pos hkey) (bind_of_ok hcleared _))))

end Waiting

section Order

variable {envelopes : List RendezvousEnvelope} {r : Except IoError Unit}

variable (runtime) in
theorem removed_alike (hb : Lasts id generation session b) (h : Alike id b a) (hzs : Addressed id zs) :
    appliedBy runtime (removeCancelled a) (zs.map (Arrival.label generation)) =
      appliedBy runtime (removeCancelled b) (zs.map (Arrival.label generation)) := by
  rcases hb with ⟨session', hlive, _⟩ | ⟨hsilent, hgone⟩
  · exact appliedBy_alike runtime hlive.removeCancelled
      ((h.removeLeft hlive.cancelled).removeRight hlive.removeCancelled.cancelled) hzs
  · rw [silent_run hsilent.removeCancelled hzs, silent_run (h.gone hsilent.standing hgone).1.removeCancelled hzs]
    exact congrArg some h.applied

/-- What is applied when envelopes are released after others, with the result `r` of those. -/
def proceeded (runtime : Runtime) (id : SessionId) (generation : UInt64) (r : Except IoError Unit) (a : Actor)
    (envelopes : List RendezvousEnvelope) (zs : List Arrival) : Option (List RendezvousEnvelope) :=
  (proceed runtime id envelopes (r, a)).bind fun p => appliedBy runtime (removeCancelled p.2) (zs.map (Arrival.label generation))

theorem proceeded_of_error (e : IoError) : proceeded runtime id generation (.error e) a envelopes zs =
    appliedBy runtime (removeCancelled a) (zs.map (Arrival.label generation)) := rfl

theorem proceeded_of_gone (h : a.sessions.lookup id = none) (r : Except IoError Unit) :
    proceeded runtime id generation r a envelopes zs =
      appliedBy runtime (removeCancelled a) (zs.map (Arrival.label generation)) := by
  cases r with
  | ok =>
      rw [proceeded, proceed, h]
      rfl
  | error => rfl

theorem proceeded_of_ok (h : a.sessions.lookup id = some session) : proceeded runtime id generation (.ok ()) a envelopes zs =
    replayed runtime id generation a envelopes zs := by
  rw [proceeded, proceed, h]
  rfl

theorem proceeded_nil (r : Except IoError Unit) : proceeded runtime id generation r a [] zs =
    appliedBy runtime (removeCancelled a) (zs.map (Arrival.label generation)) := by
  cases r with
  | ok =>
      rw [proceeded, proceed]
      split <;> rfl
  | error => rfl

variable (runtime) in
theorem proceeded_alike (hb : Lasts id generation session b) (h : Alike id b a)
    (hin : ∀ envelope ∈ envelopes, envelope.sessionId = id) (hzs : Addressed id zs) (r : Except IoError Unit) :
    proceeded runtime id generation r a envelopes zs = proceeded runtime id generation r b envelopes zs := by
  have hremoved := removed_alike runtime hb h hzs
  rcases hb with ⟨session', hlive, _⟩ | ⟨hsilent, hgone⟩
  · cases r with
    | ok =>
        obtain ⟨_, hlive', _⟩ := hlive.alike h
        obtain ⟨r, b', a', hb', ha', halike, hlasts⟩ := applyPending_alike runtime hlive h hin
        rw [proceeded_of_ok hlive'.found, proceeded_of_ok hlive.found, replayed_of ha', replayed_of hb']
        exact removed_alike runtime hlasts halike hzs
    | error e => exact hremoved
  · rw [proceeded_of_gone hgone, proceeded_of_gone (h.gone hsilent.standing hgone).2, hremoved]

variable (runtime) in
theorem proceeded_iff (hb : Lasts id generation session b) (hxs : Addressed id xs) :
    (∀ ys zs, ys ++ zs = xs → proceeded runtime id generation r b (unexpired ys) zs =
      appliedBy runtime (removeCancelled b) (xs.map (Arrival.label generation))) ↔ Undisturbed runtime id xs r b := by
  rcases hb with ⟨session', hlive, _⟩ | ⟨hsilent, hgone⟩
  · have hremoved : Alike id b (removeCancelled b) := (Alike.refl hlive.standing.room).removeRight hlive.cancelled
    rw [appliedBy_alike runtime hlive hremoved hxs]
    cases r with
    | ok =>
        rw [← replay_iff runtime hlive (.refl hlive.standing.room) hxs]
        simp only [proceeded_of_ok hlive.found]
    | error e =>
        rw [undisturbed_of_error hlive.found, ← dropped_iff_barren runtime hlive hremoved hxs]
        rfl
  · refine iff_of_true (fun ys zs hsplit => ?_) (undisturbed_of_gone hgone r)
    rw [proceeded_of_gone hgone, silent_run hsilent.removeCancelled hxs,
      silent_run hsilent.removeCancelled fun other hin => hxs other (hsplit ▸ List.mem_append_right _ hin)]

theorem sessionId_of_unexpired (hys : Addressed id ys) : ∀ envelope ∈ unexpired ys, envelope.sessionId = id := by
  induction ys with
  | nil => exact fun _ hin => nomatch hin
  | cons arrival ys ih =>
      intro envelope hin
      rw [unexpired] at hin
      split at hin
      · rcases List.mem_cons.mp hin with rfl | hin
        · exact hys arrival List.mem_cons_self
        · exact ih hys.tail envelope hin
      · exact ih hys.tail envelope hin

section Bound

variable {now : Moment} {binding : PeerIdentityBinding} {key : DevicePublicKey}

variable (id key) in
theorem live_bound (hs : Standing generation s) (hkept : session.cancelled = false) :
    Live id generation (clearPending (setPeerKey key session)) (s.put id (clearPending (setPeerKey key session))) where
  standing := ⟨hs.available, hs.generation, hs.room⟩
  found := lookup_put_self
  bound h := nomatch h
  kept := hkept

variable (runtime now) in
/-- Where a binding arrives, the envelopes before it are released after those that waited already. -/
theorem appliedAround_eq (hs : Standing s.generation s) (hl : s.sessions.lookup ⟨binding.sessionId⟩ = some session)
    (hkey : session.peerKey = none) (hkept : session.cancelled = false) (hb : bindingKey runtime session binding = .ok key)
    (hown : Own ⟨binding.sessionId⟩ session) (hh : handleBinding runtime binding s = some (r, b))
    (hys : Addressed ⟨binding.sessionId⟩ ys) (hzs : Addressed ⟨binding.sessionId⟩ zs) :
    appliedAround runtime s now binding ys zs =
      proceeded runtime ⟨binding.sessionId⟩ s.generation r b (unexpired ys) zs := by
  obtain ⟨t, session', ht, halike, hl', hpending⟩ := waiting_run runtime hs hl hkey hkept hys
  have hbare : bare session' = bare session := by
    have hsame := halike.session
    rw [hl, hl'] at hsame
    exact Option.some.inj hsame
  have hkey' : session'.peerKey = none := (of_bare Session.peerKey (fun _ => rfl) hbare).trans hkey
  have hb' : bindingKey runtime session' binding = .ok key :=
    (of_bare (bindingKey runtime · binding) (fun _ => rfl) hbare).trans hb
  have hbound : bare (clearPending (setPeerKey key session')) = bare (clearPending (setPeerKey key session)) :=
    of_bare (fun session => bare (clearPending (setPeerKey key session))) (fun _ => rfl) hbare
  have hlive := live_bound ⟨binding.sessionId⟩ key hs hkept
  have halike' := halike.put hbound
  obtain ⟨_, hlive', _⟩ := hlive.alike halike'
  obtain ⟨r', b', a, hreleased, hreleased', hafter, hlasts⟩ := applyPending_alike runtime hlive halike' hown
  rw [handleBinding_of_unbound runtime hl hkey hb] at hh
  obtain ⟨rfl, rfl⟩ : r' = r ∧ b' = b := Prod.mk.inj (Option.some.inj (hreleased.symm.trans hh))
  have hhandled : handleBinding runtime binding t = proceed runtime ⟨binding.sessionId⟩ (unexpired ys) (r', a) := by
    rw [handleBinding_of_unbound runtime hl' hkey' hb', hpending, applyPending_append runtime hlive' hown, hreleased']
    rfl
  rw [← proceeded_alike runtime hlasts hafter (sessionId_of_unexpired hys) hzs r', proceeded, ← hhandled,
    appliedAround, appliedBy, exec_append, ht, Option.bind_some, exec, bindingArrives, next_event_eq _ (halike.standing hs), Option.bind_map,
    Option.map_bind]
  rfl

end Bound

end Order

section Sample

instance decidableUndisturbed (runtime : Runtime) (id : SessionId) :
    (xs : List Arrival) → (r : Except IoError Unit) → (b : Actor) → Decidable (Undisturbed runtime id xs r b)
  | [], _, _ => isTrue trivial
  | arrival :: rest, r, b => by
      have ih := decidableUndisturbed runtime id rest
      unfold Undisturbed
      split
      · exact isTrue trivial
      · infer_instance
      · have happly : Decidable (match applyVerified runtime arrival.envelope b with
            | some (r, b) => Undisturbed runtime id rest r b
            | none => True) := by
          split
          · exact ih _ _
          · exact isTrue trivial
        infer_instance

def sampleDecision : Arrival := ⟨sampleMoment 0, sampleAnswer 2 (.providerDecision (.accepted .TCP))⟩

theorem sampleKeyed_bounded : "key-b".utf8ByteSize ≤ maxPublicKeyBytes := by decide

def sampleKeyed : PeerIdentityBinding := sampleBinding ⟨"key-b", sampleKeyed_bounded⟩

def sampleUnbound : List Label := sampleBound.take 1

/-- The session is there, and the binding brings the key of its peer. -/
def Keyless (s : Actor) : Prop :=
  ∃ session, s.sessions.lookup ⟨sampleKeyed.sessionId⟩ = some session ∧ session.peerKey = none ∧ session.cancelled = false ∧
    bindingKey (sampleRuntime "a" false) session sampleKeyed = .ok (sampleKey "b")

instance (s : Actor) : Decidable (Keyless s) :=
  decidable_of_iff ((s.sessions.lookup ⟨sampleKeyed.sessionId⟩).any (fun session => session.peerKey = none ∧
      session.cancelled = false ∧ bindingKey (sampleRuntime "a" false) session sampleKeyed = .ok (sampleKey "b")) = true)
    (by simp only [Option.any_eq_true, decide_eq_true_eq, Keyless])

def sampleForged : Arrival :=
  ⟨sampleMoment 0, { sampleDecision.envelope with signature := ⟨[], Nat.zero_le _⟩ }⟩

end Sample

end Rustgo.Orchestration
