import Rustgo.OrchestrationSteps

namespace Rustgo.Orchestration

open Call Checks Coordinator Path Protocol Rendezvous Tables Runs

variable {runtime : Runtime} {why : SessionId → Session → IoError → Prop} {follows : Session → Prop}
  {marks : SessionId → Mark → Prop} {allowed : Mark → Prop} {s t : Actor} {id : SessionId} {session session' : Session} {key : DevicePublicKey}

/-- A binding that passes the checks carries the key that the session already has. -/
def Repeats (runtime : Runtime) (s : Actor) (binding : PeerIdentityBinding) : Prop :=
  ∀ session ∈ s.sessions.lookup ⟨binding.sessionId⟩, ∀ key ∈ session.peerKey,
    ∀ other ∈ (bindingKey runtime session binding).toOption, other = key

instance (binding : PeerIdentityBinding) : Decidable (Repeats runtime s binding) :=
  inferInstanceAs (Decidable (∀ session ∈ s.sessions.lookup ⟨binding.sessionId⟩, ∀ key ∈ session.peerKey,
    ∀ other ∈ (bindingKey runtime session binding).toOption, other = key))

/-- No binding that the actor takes brings another key. -/
def Label.SameKey (runtime : Runtime) (s : Actor) : Label → Prop
  | .input _ (.event generation (.peerIdentityBinding binding) _ _) =>
      s.controlAvailable = true → s.generation = generation → Repeats runtime s binding
  | _ => True

instance (s : Actor) (l : Label) : Decidable (l.SameKey runtime s) :=
  match l with
  | .input _ (.event _ (.peerIdentityBinding _) _ _) => inferInstanceAs (Decidable (_ → _ → Repeats _ _ _))
  | .input _ (.event _ (.rendezvous _) _ _) | .input _ (.event _ (.observationGrant _) _ _)
  | .input _ (.event _ (.peerRelayFrame _) _ _) | .input _ (.event _ (.serverNotice _) _ _)
  | .input _ (.event _ (.punchGrant _) _ _) | .input _ (.opening ..) | .input _ (.controlAttached ..)
  | .input _ (.controlDetached ..) | .input _ (.pathSelected ..) | .input _ (.promoted ..) | .input _ (.sessionFinished _)
  | .input _ (.relayAuthenticated _) | .input _ (.buildRecheck ..) | .input _ (.observationResult ..)
  | .input _ (.sweep _) | .cancelCaller _ | .sever _ | .transmit => isTrue trivial

/-- Wherever the session is, it has the key. -/
def Pinned (id : SessionId) (key : DevicePublicKey) (s : Actor) : Prop :=
  ∀ session, s.sessions.lookup id = some session → session.peerKey = some key

theorem Edit.peerKey (h : Edit allowed session session') : session'.peerKey = session.peerKey := by
  cases h <;> rfl

theorem Evolves.peerKey {epochs : Nat} (h : Evolves runtime follows allowed epochs session session') :
    session'.peerKey = session.peerKey := by
  cases h with
  | edit h => exact h.peerKey
  | same | candidates | follow => rfl

theorem Pinned.change (h : Pinned id key s) (hc : Change runtime why follows marks s t) : Pinned id key t := by
  intro session' hl
  obtain ⟨session, hs, he⟩ := hc.evolves hl
  exact he.peerKey.trans (h session hs)

theorem Pinned.put {other : SessionId} (h : Pinned id key s) (hp : other = id → session.peerKey = some key) :
    Pinned id key (s.put other session) := by
  intro session' hl
  by_cases ho : other = id
  · subst other
    obtain rfl := Option.some.inj (lookup_put_self.symm.trans hl)
    exact hp rfl
  · rw [lookup_put_ne (Ne.symm ho)] at hl
    exact h session' hl

theorem Pinned.head {now : Moment} {i : Input} (h : Pinned id key s) (hin : id ∈ s.sessions)
    (hu : Head runtime now i s t) (hl : (Label.input now i).SameKey runtime s) : Pinned id key t := by
  obtain ⟨session, hs⟩ := Finmap.mem_iff.mp hin
  cases hu with
  | opened peer exportName expiry resolveOnly reply hav hnone =>
      exact h.put fun heq => absurd (heq ▸ hnone) (by simp [hs])
  | answered bind full hav hnone =>
      exact h.put fun heq => absurd (heq ▸ hnone) (by simp [hs])
  | @recheck _ _ found _ requested cancelled reply hfound => exact h.put fun heq => h found (heq ▸ hfound)
  | @bound _ binding found other bind full hav hfound hk =>
      apply h.put
      intro heq
      obtain rfl : found = session := Option.some.inj ((heq ▸ hfound).symm.trans hs)
      exact congrArg some (hl hav rfl found hfound key (h found hs) other (by rw [hk]; rfl))
  | @observed _ _ _ _ found cache ho hfound =>
      exact Pinned.put (s := { s with observations := _, observedIpCache := _ }) h fun heq => h found (heq ▸ hfound)
  | skip | attached | detached | ungranted | granted | unobserved => exact h

theorem Pinned.step {l : Label} (h : Pinned id key s) (hin : id ∈ s.sessions) (hstep : Step runtime s l t)
    (hl : l.SameKey runtime s) : Pinned id key t := by
  cases step_outcome hstep with
  | input _ hu ht =>
      intro session' hs
      exact ht.invariant (fun _ _ h hc => h.change hc) (h.head hin hu hl) session' (lookup_keep_eq_some.mp hs).1
  | @cancelCaller other session hs => exact h.put fun heq => h session (heq ▸ hs)
  | sever | transmit => exact h

/-- A binding for a session that has a key is refused. -/
theorem handleBinding_of_bound {binding : PeerIdentityBinding} (hl : s.sessions.lookup ⟨binding.sessionId⟩ = some session)
    (hk : session.peerKey = some key) : ∃ e u, handleBinding runtime binding s = some (.error e, u) ∧
      (Repeats runtime s binding → Pinned ⟨binding.sessionId⟩ key u) := by
  have hget : okOr (s.sessions.lookup ⟨binding.sessionId⟩) IoError.invalid = .ok session := okOr_eq_ok.mpr hl
  have hpinned : Pinned ⟨binding.sessionId⟩ key s := fun session' hl' => Option.some.inj (hl.symm.trans hl') ▸ hk
  cases hb : bindingKey runtime session binding with
  | error e => exact ⟨e, s, read_bind_eq hget (read_bind_error (g := fun _ => bindingKey runtime session binding) hb _),
      fun _ => hpinned⟩
  | ok other =>
      have hbound : require (session.peerKey = none) IoError.invalid = .error .invalid := by
        rw [hk]
        rfl
      refine ⟨.invalid, s.put ⟨binding.sessionId⟩ (setPeerKey other session), read_bind_eq hget (read_bind_eq hb
        ((bind_of_ok (editSession_of_lookup hl) _).trans
          (read_bind_error (g := fun _ => require (session.peerKey = none) IoError.invalid) hbound _))), fun hr => ?_⟩
      · exact hpinned.put fun _ => congrArg some (hr session hl key hk other (by rw [hb]; rfl))

/-- As long as a session is there and every binding that passes the checks
repeats its key, the key stays, and every further binding is refused. -/
theorem bound_key_stays {labels : List Label} (hl : s.sessions.lookup id = some session) (hk : session.peerKey = some key)
    (h : Run (Restricted (Step runtime) fun s l => id ∈ s.sessions ∧ l.SameKey runtime s) s labels t) :
    Pinned id key t ∧ ∀ binding : PeerIdentityBinding, binding.sessionId = id.bytes → id ∈ t.sessions →
      ∃ e u, handleBinding runtime binding t = some (.error e, u) ∧ (Repeats runtime t binding → Pinned id key u) := by
  have hstart : Pinned id key s := fun session' hl' => Option.some.inj (hl.symm.trans hl') ▸ hk
  have hend : Pinned id key t := h.invariant (fun _ _ _ h hstep => h.step hstep.2.1 hstep.1 hstep.2.2) hstart
  refine ⟨hend, ?_⟩
  rintro binding hid hin
  obtain ⟨session', hs⟩ := Finmap.mem_iff.mp hin
  obtain rfl : (⟨binding.sessionId⟩ : SessionId) = id := by rw [hid]
  exact handleBinding_of_bound hs (hend session' hs)

section Sample

/-- An envelope of "b" in the session that "a" opened. -/
def sampleAnswer (step : UInt64) (payload : RendezvousPayload) : RendezvousEnvelope :=
  let envelope : RendezvousEnvelope :=
    ⟨sampleVersion, sampleId 1, ⟨"b", nameB_bounded⟩, ⟨"a", nameA_bounded⟩, step, .INITIAL, 1025, payload, ⟨[], Nat.zero_le _⟩⟩
  { envelope with signature := sampleSign envelope }

def sampleBinding (publicKey : BoundedString maxPublicKeyBytes) : PeerIdentityBinding :=
  ⟨(sampleId 1).bytes, ⟨"b", by decide⟩, publicKey, none, true, 1025⟩

def bindLabel (publicKey : BoundedString maxPublicKeyBytes) : Label :=
  .input (sampleMoment 0) (.event 1 (.peerIdentityBinding (sampleBinding publicKey)) .failed false)

def sampleBound : List Label := [
  .input (sampleMoment 0) (.opening (sampleId 1) "b" "ssh" false 1),
  bindLabel ⟨"key-b", by decide⟩]

def HasKey (key : DevicePublicKey) (s : Actor) : Prop := (s.sessions.lookup (sampleId 1)).bind Session.peerKey = some key

instance (key : DevicePublicKey) (s : Actor) : Decidable (HasKey key s) := inferInstanceAs (Decidable (_ = _))

def pinnedNext : Actor → Label → Option Actor :=
  restrict (next (sampleRuntime "a" false)) fun s l => sampleId 1 ∈ s.sessions ∧ l.SameKey (sampleRuntime "a" false) s

/-- A binding that repeats the key is refused, and the key stays. -/
theorem bound_key_stays_repeated : ∃ s t, Run (Step (sampleRuntime "a" false)) (.new 1 sampleVersion) sampleBound s ∧
    HasKey (sampleKey "b") s ∧ Run (Step (sampleRuntime "a" false)) s [bindLabel ⟨"key-b", by decide⟩] t ∧
      Pinned (sampleId 1) (sampleKey "b") t := by
  obtain ⟨s, hs, hkey, hagain⟩ := run_of_exec_any
    (P := fun s => HasKey (sampleKey "b") s ∧ (pinnedNext s (bindLabel ⟨"key-b", by decide⟩)).isSome = true)
    (fun _ _ _ h => h) (show (exec (next (sampleRuntime "a" false)) (.new 1 sampleVersion) sampleBound).any _ = true by
      decide +kernel)
  obtain ⟨t, ht⟩ := Option.isSome_iff_exists.mp hagain
  have hstep : Restricted (Step (sampleRuntime "a" false)) _ s _ t := restricted_of_restrict (fun _ _ _ h => h) s _ t ht
  obtain ⟨session, hl, hk⟩ := Option.bind_eq_some_iff.mp hkey
  exact ⟨s, t, hs, hkey, .snoc (.refl s) hstep.1, (bound_key_stays hl hk (.snoc (.refl s) hstep)).1⟩

/-- A binding with another key is refused too, and yet leaves its key. -/
theorem refused_binding_replaces_key : ∃ s t, Run (Step (sampleRuntime "a" false)) (.new 1 sampleVersion) sampleBound s ∧
    HasKey (sampleKey "b") s ∧ Run (Step (sampleRuntime "a" false)) s [bindLabel ⟨"key-a", by decide⟩] t ∧
      HasKey (sampleKey "a") t := by
  obtain ⟨s, hs, hkey, hagain⟩ := run_of_exec_any
    (P := fun s => HasKey (sampleKey "b") s ∧
      (next (sampleRuntime "a" false) s (bindLabel ⟨"key-a", by decide⟩)).any (HasKey (sampleKey "a") ·) = true)
    (fun _ _ _ h => h) (show (exec (next (sampleRuntime "a" false)) (.new 1 sampleVersion) sampleBound).any _ = true by
      decide +kernel)
  obtain ⟨t, ht, hother⟩ := Option.any_eq_true _ _ |>.mp hagain
  exact ⟨s, t, hs, hkey, .snoc (.refl s) ht, of_decide_eq_true hother⟩

end Sample

end Rustgo.Orchestration
