import Rustgo.PeerCipher
import Rustgo.AeadTable
import Rustgo.Runs

namespace Rustgo.OrderedChannel

open Checks Runs PeerCipher AeadTable

variable {Key : Type}

/-- What the two ends of one direction of a channel agree on. -/
structure Channel (Key : Type) where
  sessionId : SessionId
  channelId : UInt64
  contextHash : Vector UInt8 32
  key : Key
  noncePrefix : Vector UInt8 4

/-- Both ends, what the cipher has sealed so far, and two histories: the
plaintext and frame of every successful `seal`, and what `open` returned. -/
structure World (Key : Type) where
  sealer : PeerFrameSealer Key
  opener : PeerFrameOpener Key
  log : List (Entry Key Bytes)
  sent : List (Bytes × PeerRelayFrame)
  returned : List Bytes

inductive Action (Key : Type)
  | sealing (plaintext : Bytes) (flags : PeerRelayFlags)
  | foreign (other : PeerFrameSealer Key) (plaintext : Bytes) (flags : PeerRelayFlags)
  | delivery (frame : PeerRelayFrame)

/-- The cipher calls that one `seal` makes, also those whose frame it drops. -/
def encryptions (aead : Aead Key) (s : PeerFrameSealer Key) (plaintext : Bytes)
    (flags : PeerRelayFlags) : List (Entry Key Bytes) :=
  match s.admits plaintext flags with
  | .error _ => []
  | .ok () => match s.encrypt aead plaintext flags with
    | none => []
    | some ciphertext => [⟨s.key, frameNonce s.noncePrefix s.nextSequence,
        frameAad s.contextHash s.sessionId s.channelId flags s.nextSequence, plaintext, ciphertext⟩]

def World.sealed (aead : Aead Key) (w : World Key) (plaintext : Bytes) (flags : PeerRelayFlags) :
    World Key :=
  let w' := { w with log := w.log ++ encryptions aead w.sealer plaintext flags }
  match w.sealer.seal aead plaintext flags with
  | (.ok frame, s) => { w' with sealer := s, sent := w.sent ++ [(plaintext, frame)] }
  | (.error _, s) => { w' with sealer := s }

def World.delivered [DecidableEq Key] (w : World Key) (frame : PeerRelayFrame) : World Key :=
  match w.opener.open (decrypt w.log) frame with
  | (.ok plaintext, o) => { w with opener := o, returned := w.returned ++ [plaintext] }
  | (.error _, o) => { w with opener := o }

/-- The network delivers any frame at all. Sealers of other domains, sessions
and directions work under other frame keys and feed the same cipher. -/
inductive Step [DecidableEq Key] (aead : Aead Key) : World Key → Action Key → World Key → Prop
  | sealing (w plaintext flags) : Step aead w (.sealing plaintext flags) (w.sealed aead plaintext flags)
  | foreign (w other plaintext flags) (hkey : other.key ≠ w.sealer.key) :
      Step aead w (.foreign other plaintext flags)
        { w with log := w.log ++ encryptions aead other plaintext flags }
  | delivery (w frame) : Step aead w (.delivery frame) (w.delivered frame)

theorem encryptions_key {aead : Aead Key} {s : PeerFrameSealer Key} {plaintext : Bytes}
    {flags : PeerRelayFlags} {e : Entry Key Bytes} (h : e ∈ encryptions aead s plaintext flags) :
    e.key = s.key := by
  rw [encryptions] at h
  split at h
  · simp at h
  · split at h
    · simp at h
    · rw [List.mem_singleton.mp h]

/-- Since the tag has fixed length, `seal` drops no ciphertext: it either
fails before the cipher was called or returns what the cipher produced. -/
theorem seal_spec (aead : Aead Key) (s : PeerFrameSealer Key) (hc : s.channelId ≠ 0)
    (plaintext : Bytes) (flags : PeerRelayFlags) :
    (∃ e, s.seal aead plaintext flags = (.error e, s) ∧ encryptions aead s plaintext flags = []) ∨
    (∃ frame, s.seal aead plaintext flags = (.ok frame, s.advance flags) ∧
      s.admits plaintext flags = .ok () ∧ frame.sessionId = s.sessionId ∧
      frame.channelId = s.channelId ∧ frame.sequence = s.nextSequence ∧ frame.flags = flags ∧
      encryptions aead s plaintext flags =
        [⟨s.key, frameNonce s.noncePrefix s.nextSequence,
          frameAad s.contextHash s.sessionId s.channelId flags s.nextSequence, plaintext,
          frame.ciphertext.bytes⟩]) := by
  cases ha : s.admits plaintext flags with
  | error e => exact .inl ⟨e, by simp only [PeerFrameSealer.seal, ha], by simp only [encryptions, ha]⟩
  | ok u =>
      cases hx : s.encrypt aead plaintext flags with
      | none =>
          exact .inl ⟨.frameTooLarge, by simp only [PeerFrameSealer.seal, ha, hx],
            by simp only [encryptions, ha, hx]⟩
      | some ciphertext =>
          have hl : ciphertext.length ≤ maxPeerRelayCiphertextBytes := by
            rw [aead.encrypt_length _ _ _ _ _ hx]
            exact (PeerFrameSealer.admits_ok ha).1
          refine .inr ⟨⟨s.sessionId, s.channelId, s.nextSequence, flags, UInt32.ofNat ciphertext.length,
            ⟨ciphertext, hl⟩⟩, ?_, rfl, rfl, rfl, rfl, rfl, ?_⟩
          · simp only [PeerFrameSealer.seal, ha, hx, PeerRelayFrame.new_eq_ok hc hl]
          · simp only [encryptions, ha, hx]

/-- A sequence counter after `n` frames; the last one saturates. -/
def At (sequence : UInt64) (exhausted : Bool) (n : Nat) : Prop :=
  if exhausted then n = 2 ^ 64 else sequence.toNat = n

theorem At.succ {sequence : UInt64} {n : Nat} (h : At sequence false n) :
    match checkedSucc sequence with
    | some next => At next false (n + 1)
    | none => At sequence true (n + 1) := by
  simp only [At, Bool.false_eq_true, if_false] at h
  have hlt := sequence.toNat_lt
  by_cases hs : sequence.toNat + 1 < 2 ^ 64
  · simp only [checkedSucc, hs, if_true, At, Bool.false_eq_true, if_false]
    rw [UInt64.toNat_add, UInt64.toNat_one, Nat.mod_eq_of_lt hs, h]
  · simp only [checkedSucc, hs, if_false, At, if_true]
    omega

structure SealerOf (c : Channel Key) (s : PeerFrameSealer Key) : Prop where
  sessionId : s.sessionId = c.sessionId
  channelId : s.channelId = c.channelId
  contextHash : s.contextHash = c.contextHash
  key : s.key = c.key
  mode : s.mode = .ordered
  noncePrefix : s.noncePrefix = c.noncePrefix

structure OpenerOf (c : Channel Key) (o : PeerFrameOpener Key) : Prop where
  sessionId : o.sessionId = c.sessionId
  channelId : o.channelId = c.channelId
  contextHash : o.contextHash = c.contextHash
  key : o.key = c.key
  mode : o.mode = .ordered
  noncePrefix : o.noncePrefix = c.noncePrefix

theorem SealerOf.advance {c : Channel Key} {s : PeerFrameSealer Key} (h : SealerOf c s)
    (flags : PeerRelayFlags) : SealerOf c (s.advance flags) := by
  rw [PeerFrameSealer.advance]
  cases checkedSucc s.nextSequence <;> exact ⟨h.1, h.2, h.3, h.4, h.5, h.6⟩

theorem advance_at {s : PeerFrameSealer Key} {n : Nat} (h : At s.nextSequence s.exhausted n)
    (hx : s.exhausted = false) (flags : PeerRelayFlags) :
    At (s.advance flags).nextSequence (s.advance flags).exhausted (n + 1) := by
  rw [hx] at h
  have hs := h.succ
  rw [PeerFrameSealer.advance]
  cases hc : checkedSucc s.nextSequence <;> simp_all

theorem advance_finished (s : PeerFrameSealer Key) (flags : PeerRelayFlags) :
    (s.advance flags).finished = (s.finished || hasFin flags) := by
  rw [PeerFrameSealer.advance]
  cases checkedSucc s.nextSequence <;> rfl

def Channel.entry (c : Channel Key) (plaintext : Bytes) (frame : PeerRelayFrame) : Entry Key Bytes :=
  ⟨c.key, frameNonce c.noncePrefix frame.sequence,
    frameAad c.contextHash c.sessionId c.channelId frame.flags frame.sequence, plaintext,
    frame.ciphertext.bytes⟩

/-- The `i`-th frame of the sealer, with the entry it left in the cipher. -/
structure Genuine (c : Channel Key) (log : List (Entry Key Bytes)) (i : Nat) (plaintext : Bytes)
    (frame : PeerRelayFrame) : Prop where
  sessionId : frame.sessionId = c.sessionId
  channelId : frame.channelId = c.channelId
  sequence : frame.sequence.toNat = i
  flags : validateFrameFlags .ordered frame.flags = .ok ()
  logged : c.entry plaintext frame ∈ log

structure Inv (c : Channel Key) (w : World Key) : Prop where
  channel : c.channelId ≠ 0
  sealer : SealerOf c w.sealer
  opener : OpenerOf c w.opener
  sealerAt : At w.sealer.nextSequence w.sealer.exhausted w.sent.length
  openerAt : ∃ expected exhausted, w.opener.state = .ordered expected exhausted ∧
    At expected exhausted w.returned.length
  genuine : ∀ (i : Nat) plaintext frame, w.sent[i]? = some (plaintext, frame) → Genuine c w.log i plaintext frame
  logged : ∀ e ∈ w.log, e.key = c.key → ∃ (i : Nat) (plaintext : Bytes) (frame : PeerRelayFrame),
    w.sent[i]? = some (plaintext, frame) ∧ e = c.entry plaintext frame
  delivered : w.returned <+: w.sent.map Prod.fst
  sealedFin : ∀ (i : Nat) plaintext frame, w.sent[i]? = some (plaintext, frame) → hasFin frame.flags = true →
    i + 1 = w.sent.length ∧ w.sealer.finished = true
  openedFin : w.opener.finished = true → ∃ (i : Nat) (plaintext : Bytes) (frame : PeerRelayFrame), i < w.returned.length ∧
    w.sent[i]? = some (plaintext, frame) ∧ hasFin frame.flags = true

theorem getElem?_append_singleton {α : Type} {xs : List α} {x y : α} {i : Nat}
    (h : (xs ++ [x])[i]? = some y) : xs[i]? = some y ∨ (i = xs.length ∧ y = x) := by
  by_cases hi : i < xs.length
  · exact .inl (by rwa [List.getElem?_append_left hi] at h)
  · rw [List.getElem?_append_right (Nat.le_of_not_lt hi)] at h
    right
    cases hd : i - xs.length with
    | zero =>
        simp only [hd, List.getElem?_cons_zero, Option.some.injEq] at h
        exact ⟨by omega, h.symm⟩
    | succ d => simp [hd] at h

theorem getElem?_append_of_some {α : Type} {xs ys : List α} {x : α} {i : Nat} (h : xs[i]? = some x) :
    (xs ++ ys)[i]? = some x := by
  obtain ⟨hi, -⟩ := List.getElem?_eq_some_iff.mp h
  rwa [List.getElem?_append_left hi]

theorem Inv.foreign {c : Channel Key} {w : World Key} (h : Inv c w) {aead : Aead Key}
    {other : PeerFrameSealer Key} (hkey : other.key ≠ w.sealer.key) (plaintext : Bytes)
    (flags : PeerRelayFlags) :
    Inv c { w with log := w.log ++ encryptions aead other plaintext flags } where
  channel := h.channel
  sealer := h.sealer
  opener := h.opener
  sealerAt := h.sealerAt
  openerAt := h.openerAt
  genuine := by
    intro i p frame hi
    have hg := h.genuine i p frame hi
    exact ⟨hg.1, hg.2, hg.3, hg.4, List.mem_append_left _ hg.5⟩
  logged := by
    intro e he hk
    rcases List.mem_append.mp he with he | he
    · exact h.logged e he hk
    · rw [encryptions_key he, ← h.sealer.key] at hk
      exact absurd hk hkey
  delivered := h.delivered
  sealedFin := h.sealedFin
  openedFin := h.openedFin

theorem Inv.sealed {c : Channel Key} {w : World Key} (h : Inv c w) (aead : Aead Key) (plaintext : Bytes)
    (flags : PeerRelayFlags) : Inv c (w.sealed aead plaintext flags) := by
  have hc : w.sealer.channelId ≠ 0 := h.sealer.channelId ▸ h.channel
  rcases seal_spec aead w.sealer hc plaintext flags with
    ⟨e, hs, he⟩ | ⟨frame, hs, ha, hfs, hfc, hfq, hff, he⟩
  · have hw : w.sealed aead plaintext flags = w := by
      simp only [World.sealed, hs, he, List.append_nil]
    rw [hw]
    exact h
  · have hw : w.sealed aead plaintext flags = ⟨w.sealer.advance flags, w.opener,
        w.log ++ [c.entry plaintext frame], w.sent ++ [(plaintext, frame)], w.returned⟩ := by
      simp only [World.sealed, hs, he, Channel.entry, hff, hfq, h.sealer.key, h.sealer.noncePrefix,
        h.sealer.contextHash, h.sealer.sessionId, h.sealer.channelId]
    obtain ⟨-, hvalid, htrans, hx⟩ := PeerFrameSealer.admits_ok ha
    have hopen : w.sealer.finished = false := by
      simpa [validateFlagTransition, h.sealer.mode] using htrans
    have hat := h.sealerAt
    rw [hx] at hat
    rw [hw]
    refine ⟨h.channel, h.sealer.advance flags, h.opener, ?_, h.openerAt, ?_, ?_, ?_, ?_, ?_⟩
    · simpa using advance_at h.sealerAt hx flags
    · intro i p f hi
      rcases getElem?_append_singleton hi with hi | ⟨rfl, heq⟩
      · have hg := h.genuine i p f hi
        exact ⟨hg.1, hg.2, hg.3, hg.4, List.mem_append_left _ hg.5⟩
      · obtain ⟨rfl, rfl⟩ := Prod.mk.inj heq
        refine ⟨hfs.trans h.sealer.sessionId, hfc.trans h.sealer.channelId, ?_, ?_, by simp⟩
        · rw [hfq]
          simpa [At] using hat
        · rw [hff, ← h.sealer.mode]
          exact hvalid
    · intro e hel hk
      rcases List.mem_append.mp hel with hel | hel
      · obtain ⟨i, p, f, hi, heq⟩ := h.logged e hel hk
        exact ⟨i, p, f, getElem?_append_of_some hi, heq⟩
      · exact ⟨w.sent.length, plaintext, frame, by simp, List.mem_singleton.mp hel⟩
    · rw [List.map_append]
      exact h.delivered.trans (List.prefix_append _ _)
    · intro i p f hi hfin
      rw [advance_finished]
      rcases getElem?_append_singleton hi with hi | ⟨rfl, heq⟩
      · -- the sealer had already sent its last frame
        have hdone := (h.sealedFin i p f hi hfin).2
        rw [hopen] at hdone
        exact absurd hdone (by decide)
      · obtain ⟨rfl, rfl⟩ := Prod.mk.inj heq
        rw [hff] at hfin
        simp [hfin]
    · intro hfin
      obtain ⟨i, p, f, hlt, hi, hflag⟩ := h.openedFin hfin
      exact ⟨i, p, f, hlt, getElem?_append_of_some hi, hflag⟩

section Opening

variable [DecidableEq Key]

/-- An accepted frame is the one the sealer made next: same plaintext, same flags. -/
theorem Inv.accepted {c : Channel Key} {w : World Key} (h : Inv c w) {frame : PeerRelayFrame}
    {plaintext : Bytes} {o : PeerFrameOpener Key}
    (ho : w.opener.open (decrypt w.log) frame = (.ok plaintext, o)) :
    (∃ genuine, w.sent[w.returned.length]? = some (plaintext, genuine) ∧ genuine.flags = frame.flags) ∧
      OpenerOf c o ∧ o.finished = (w.opener.finished || hasFin frame.flags) ∧
      ∃ expected exhausted, o.state = .ordered expected exhausted ∧
        At expected exhausted (w.returned.length + 1) := by
  obtain ⟨-, -, -, -, hd, nextState, hn, rfl⟩ := PeerFrameOpener.open_ok ho
  obtain ⟨expected, exhausted, hstate, hat⟩ := h.openerAt
  rw [hstate] at hn
  cases exhausted with
  | true => simp only [receiveSequence] at hn; split at hn <;> simp at hn
  | false =>
      simp only [receiveSequence] at hn
      split at hn
      · simp at hn
      · next hlt =>
        split at hn
        · simp at hn
        · next hgt =>
          have hseq : frame.sequence = expected := by
            apply UInt64.toNat_inj.mp
            have h1 := mt UInt64.lt_iff_toNat_lt.mpr hlt
            have h2 := mt UInt64.lt_iff_toNat_lt.mpr hgt
            omega
          have hidx : expected.toNat = w.returned.length := by simpa [At] using hat
          refine ⟨?_, ⟨h.opener.1, h.opener.2, h.opener.3, h.opener.4, h.opener.5, h.opener.6⟩, rfl, ?_⟩
          · obtain ⟨e, hel, ⟨hk, hnonce, haad, -⟩, hp⟩ := decrypt_sound hd
            obtain ⟨i, p, f, hi, rfl⟩ := h.logged e hel (hk.trans h.opener.key)
            have hg := h.genuine i p f hi
            rw [h.opener.noncePrefix] at hnonce
            have hsame : f.sequence = frame.sequence := frameNonce_injective hnonce
            rw [h.opener.contextHash, h.opener.sessionId, h.opener.channelId] at haad
            have hlen : i = w.returned.length := by rw [← hg.sequence, hsame, hseq, hidx]
            subst hlen
            subst hp
            exact ⟨f, hi, frameAad_flags haad⟩
          · have hs := At.succ hat
            cases hc : checkedSucc expected <;> simp only [hc, Except.ok.injEq] at hn hs <;>
              exact ⟨_, _, hn.symm, hs⟩

theorem Inv.delivered_step {c : Channel Key} {w : World Key} (h : Inv c w) (frame : PeerRelayFrame) :
    Inv c (w.delivered frame) := by
  cases hr : w.opener.open (decrypt w.log) frame with
  | mk result o =>
      cases result with
      | error e =>
          have hw : w.delivered frame = w := by
            simp only [World.delivered, hr, PeerFrameOpener.open_error hr]
          rw [hw]
          exact h
      | ok plaintext =>
          obtain ⟨⟨genuine, hnext, hflags⟩, hof, hfin, hat⟩ := h.accepted hr
          have hw : w.delivered frame = { w with opener := o, returned := w.returned ++ [plaintext] } := by
            simp only [World.delivered, hr]
          obtain ⟨rest, hrest⟩ := h.delivered
          have hmap : (w.sent.map Prod.fst)[w.returned.length]? = some plaintext := by simp [hnext]
          rw [hw]
          refine ⟨h.channel, h.sealer, hof, h.sealerAt, by simpa using hat, h.genuine, h.logged, ?_,
            h.sealedFin, ?_⟩
          · rw [← hrest, List.getElem?_append_right (Nat.le_refl _), Nat.sub_self] at hmap
            cases rest with
            | nil => simp at hmap
            | cons p rest =>
                simp only [List.getElem?_cons_zero, Option.some.injEq] at hmap
                subst hmap
                exact ⟨rest, by simpa using hrest⟩
          · intro hf
            rw [hfin, Bool.or_eq_true] at hf
            rcases hf with hf | hf
            · obtain ⟨i, p, f, hlt, hi, hflag⟩ := h.openedFin hf
              exact ⟨i, p, f, by simp only [List.length_append]; omega, hi, hflag⟩
            · exact ⟨w.returned.length, plaintext, genuine, by simp, hnext, hflags ▸ hf⟩

theorem Inv.step {c : Channel Key} {aead : Aead Key} (w : World Key) (a : Action Key) (w' : World Key)
    (h : Inv c w) (hs : Step aead w a w') : Inv c w' := by
  cases hs with
  | sealing plaintext flags => exact h.sealed aead plaintext flags
  | foreign other plaintext flags hkey => exact h.foreign hkey plaintext flags
  | delivery frame => exact h.delivered_step frame

/-- The frame the sealer made next is always accepted. -/
theorem Inv.next_accepted {c : Channel Key} {w : World Key} (h : Inv c w) {plaintext : Bytes}
    {frame : PeerRelayFrame} (hnext : w.sent[w.returned.length]? = some (plaintext, frame)) :
    ∃ o, w.opener.open (decrypt w.log) frame = (.ok plaintext, o) := by
  have hg := h.genuine _ _ _ hnext
  obtain ⟨hlt, -⟩ := List.getElem?_eq_some_iff.mp hnext
  have hunfinished : w.opener.finished = false := by
    by_contra hf
    obtain ⟨i, p, f, hi, hsent, hfin⟩ := h.openedFin (by simpa using hf)
    have := (h.sealedFin i p f hsent hfin).1
    omega
  obtain ⟨expected, exhausted, hstate, hat⟩ := h.openerAt
  have hex : exhausted = false := by
    by_contra hx
    have hseq := frame.sequence.toNat_lt
    rw [hg.sequence] at hseq
    simp only [Bool.not_eq_false] at hx
    simp only [At, hx, if_true] at hat
    omega
  subst hex
  have hidx : expected.toNat = w.returned.length := by simpa [At] using hat
  have hseq : frame.sequence = expected := UInt64.toNat_inj.mp (by rw [hg.sequence, hidx])
  have hreceive : ∃ nextState, receiveSequence w.opener.state frame.sequence = .ok nextState := by
    rw [hstate, hseq]
    simp only [receiveSequence, UInt64.lt_irrefl, gt_iff_lt, if_false]
    cases checkedSucc expected <;> exact ⟨_, rfl⟩
  have hdec : decrypt w.log w.opener.key (frameNonce w.opener.noncePrefix frame.sequence)
      (frameAad w.opener.contextHash w.opener.sessionId w.opener.channelId frame.flags frame.sequence)
      frame.ciphertext.bytes = some plaintext := by
    rw [h.opener.key, h.opener.noncePrefix, h.opener.contextHash, h.opener.sessionId, h.opener.channelId]
    apply decrypt_complete hg.logged
    intro e hel hk hnonce
    obtain ⟨i, p, f, hi, rfl⟩ := h.logged e hel hk
    have hsame : f.sequence = frame.sequence := frameNonce_injective hnonce
    have hii : i = w.returned.length := by rw [← (h.genuine i p f hi).sequence, hsame, hg.sequence]
    rw [hii, hnext] at hi
    simp only [Option.some.injEq, Prod.mk.injEq] at hi
    exact hi.1.symm
  obtain ⟨nextState, hn⟩ := hreceive
  refine ⟨_, PeerFrameOpener.open_eq_ok (hg.sessionId.trans h.opener.sessionId.symm)
    (hg.channelId.trans h.opener.channelId.symm) ?_ ?_ hdec hn⟩
  · rw [h.opener.mode]
    exact hg.flags
  · simp [validateFlagTransition, hunfinished]

theorem delivered_of_finished {w : World Key} (hm : w.opener.mode = .ordered)
    (hf : w.opener.finished = true) (frame : PeerRelayFrame) : w.delivered frame = w := by
  cases hr : w.opener.open (decrypt w.log) frame with
  | mk result o =>
      cases result with
      | error e => simp only [World.delivered, hr, PeerFrameOpener.open_error hr]
      | ok plaintext =>
          obtain ⟨-, -, -, ht, -⟩ := PeerFrameOpener.open_ok hr
          simp [validateFlagTransition, hm, hf] at ht

/-- Nothing is returned once the opener has seen FIN. -/
theorem finished_run {aead : Aead Key} {w w' : World Key} {actions : List (Action Key)}
    (hm : w.opener.mode = .ordered) (hf : w.opener.finished = true)
    (hrun : Run (Step aead) w actions w') : w'.returned = w.returned := by
  have hkeep : w'.opener = w.opener ∧ w'.returned = w.returned := by
    refine hrun.invariant (P := fun v => v.opener = w.opener ∧ v.returned = w.returned) ?_ ⟨rfl, rfl⟩
    rintro s a t ⟨hso, hsr⟩ hst
    cases hst with
    | sealing plaintext flags =>
        simp only [World.sealed]
        split <;> exact ⟨hso, hsr⟩
    | foreign other plaintext flags hkey => exact ⟨hso, hsr⟩
    | delivery frame =>
        rw [delivered_of_finished (hso ▸ hm) (hso ▸ hf)]
        exact ⟨hso, hsr⟩
  exact hkeep.2

end Opening

theorem inv_new {c : Channel Key} {sealer : PeerFrameSealer Key} {opener : PeerFrameOpener Key}
    (hs : PeerFrameSealer.new c.sessionId c.channelId c.contextHash c.key .ordered c.noncePrefix = .ok sealer)
    (ho : PeerFrameOpener.new c.sessionId c.channelId c.contextHash c.key .ordered c.noncePrefix =
      .ok opener) :
    Inv c ⟨sealer, opener, [], [], []⟩ := by
  simp only [PeerFrameSealer.new, validateChannelId, bind_eq_ok, require_eq_ok, pure_eq_ok] at hs
  simp only [PeerFrameOpener.new, bind_eq_ok, pure_eq_ok] at ho
  obtain ⟨_, hc, rfl⟩ := hs
  obtain ⟨_, _, rfl⟩ := ho
  exact ⟨hc, ⟨rfl, rfl, rfl, rfl, rfl, rfl⟩, ⟨rfl, rfl, rfl, rfl, rfl, rfl⟩, rfl, ⟨0, false, rfl, rfl⟩,
    by simp, by simp, List.prefix_refl _, by simp, by simp⟩

/-- Whatever is sealed and whatever the network delivers: the opener returns a
prefix of what was sealed, returns nothing after an accepted FIN frame, is
unchanged by a failed `open`, and accepts the sealer's next frame. -/
theorem ordered_channel_delivers_in_order [DecidableEq Key] (aead : Aead Key) (c : Channel Key)
    (sealer : PeerFrameSealer Key) (opener : PeerFrameOpener Key)
    (hs : PeerFrameSealer.new c.sessionId c.channelId c.contextHash c.key .ordered c.noncePrefix = .ok sealer)
    (ho : PeerFrameOpener.new c.sessionId c.channelId c.contextHash c.key .ordered c.noncePrefix =
      .ok opener)
    (actions : List (Action Key)) (w : World Key)
    (hrun : Run (Step aead) ⟨sealer, opener, [], [], []⟩ actions w) :
    w.returned <+: w.sent.map Prod.fst ∧
    (∀ frame plaintext o, w.opener.open (decrypt w.log) frame = (.ok plaintext, o) →
      hasFin frame.flags = true → ∀ later w', Run (Step aead) (w.delivered frame) later w' →
      w'.returned = w.returned ++ [plaintext]) ∧
    (∀ frame e o, w.opener.open (decrypt w.log) frame = (.error e, o) → o = w.opener) ∧
    (∀ plaintext frame, w.sent[w.returned.length]? = some (plaintext, frame) →
      ∃ o, w.opener.open (decrypt w.log) frame = (.ok plaintext, o)) := by
  have hinv : Inv c w := hrun.invariant Inv.step (inv_new hs ho)
  refine ⟨hinv.delivered, ?_, fun _ _ _ he => PeerFrameOpener.open_error he,
    fun _ _ hnext => hinv.next_accepted hnext⟩
  intro frame plaintext o hopen hfin later w' hlater
  have hw : w.delivered frame = { w with opener := o, returned := w.returned ++ [plaintext] } := by
    simp only [World.delivered, hopen]
  obtain ⟨-, hof, hflag, -⟩ := hinv.accepted hopen
  rw [hw] at hlater
  exact finished_run hof.mode (by simp [hflag, hfin]) hlater

/-- A cipher that only appends a tag, enough to run the channel. -/
def tagAead : Aead Nat where
  encrypt _ _ _ msg := some (msg ++ List.replicate 16 7)
  encrypt_length _ _ _ msg ciphertext h := by
    rw [← Option.some.inj h]
    simp [aeadTagBytes]

def sampleChannel : Channel Nat :=
  ⟨⟨Vector.replicate 32 66⟩, 9, Vector.replicate 32 102, 1, noncePrefix .ordered .initiator⟩

def sampleStart : World Nat :=
  ⟨⟨⟨Vector.replicate 32 66⟩, 9, Vector.replicate 32 102, 1, .ordered, noncePrefix .ordered .initiator, 0, false,
      false⟩,
    ⟨⟨Vector.replicate 32 66⟩, 9, Vector.replicate 32 102, 1, .ordered, noncePrefix .ordered .initiator,
      .ordered 0 false, false⟩, [], [], []⟩

def sampleFrame : PeerRelayFrame :=
  ⟨⟨Vector.replicate 32 66⟩, 9, 0, PeerRelayFlags.RELIABLE, 18, ⟨[1, 2] ++ List.replicate 16 7, by decide⟩⟩

/-- An early copy is refused, the same frame is returned once it was sealed. -/
def sampleEnd : World Nat :=
  ((sampleStart.delivered sampleFrame).sealed tagAead [1, 2] PeerRelayFlags.RELIABLE).delivered sampleFrame

theorem ordered_channel_delivers_in_order_sample :
    sampleEnd.returned = [[1, 2]] ∧ sampleEnd.returned <+: sampleEnd.sent.map Prod.fst :=
  ⟨by decide +kernel, (ordered_channel_delivers_in_order tagAead sampleChannel sampleStart.sealer sampleStart.opener
    rfl rfl _ sampleEnd (.snoc (.snoc (.snoc (.refl sampleStart) (.delivery _ sampleFrame))
      (.sealing _ [1, 2] PeerRelayFlags.RELIABLE)) (.delivery _ sampleFrame))).1⟩

end Rustgo.OrderedChannel
