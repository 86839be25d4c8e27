import Rustgo.PeerSessionKeys

namespace Rustgo.FrameDomains

open Checks Runs PeerCipher AeadTable OrderedChannel

variable {Key Secret : Type}

/-- One direction of one channel. -/
structure Lane where
  direction : PeerRole
  mode : FrameMode
  channelId : UInt64
  deriving DecidableEq

/-- What a successful `seal` took and returned. -/
structure Sealing where
  lane : Lane
  plaintext : Bytes
  frame : PeerRelayFrame

def sealerLane (p : PeerRole × PeerFrameSealer Key) : Lane := ⟨p.1, p.2.mode, p.2.channelId⟩

def openerLane (p : PeerRole × PeerFrameOpener Key) : Lane := ⟨p.1.other, p.2.mode, p.2.channelId⟩

/-- Both endpoints of one session, with all that they issued. -/
structure Peers (Key : Type) where
  keys : PeerRole → PeerSessionKeys Key
  sealers : List (PeerRole × PeerFrameSealer Key)
  openers : List (PeerRole × PeerFrameOpener Key)
  log : List (Entry Key Bytes)
  sent : List Sealing

inductive Action
  | issueSealer (role : PeerRole) (mode : FrameMode) (channelId : UInt64)
  | issueOpener (role : PeerRole) (mode : FrameMode) (channelId : UInt64)
  | sealing (i : Nat) (plaintext : Bytes) (flags : PeerRelayFlags)
  | opening (i : Nat) (frame : PeerRelayFrame)

namespace Peers

def start (initiator responder : PeerSessionKeys Key) : Peers Key where
  keys
    | .initiator => initiator
    | .responder => responder
  sealers := []
  openers := []
  log := []
  sent := []

variable (w : Peers Key)

def on (lane : Lane) : List Sealing := w.sent.filter (·.lane = lane)

def issueSealer (hkdf : Hkdf Key) (role : PeerRole) (mode : FrameMode) (channelId : UInt64) : Peers Key :=
  match (w.keys role).sealer hkdf channelId mode with
  | (.ok s, keys) => { w with keys := Function.update w.keys role keys, sealers := w.sealers ++ [(role, s)] }
  | (.error _, keys) => { w with keys := Function.update w.keys role keys }

def issueOpener (hkdf : Hkdf Key) (role : PeerRole) (mode : FrameMode) (channelId : UInt64) : Peers Key :=
  match (w.keys role).opener hkdf channelId mode with
  | (.ok o, keys) => { w with keys := Function.update w.keys role keys, openers := w.openers ++ [(role, o)] }
  | (.error _, keys) => { w with keys := Function.update w.keys role keys }

def sealed (aead : Aead Key) (i : Nat) (plaintext : Bytes) (flags : PeerRelayFlags) : Peers Key :=
  match w.sealers[i]? with
  | none => w
  | some (role, s) =>
      let log := w.log ++ encryptions aead s plaintext flags
      match s.seal aead plaintext flags with
      | (.ok frame, s') => { w with
          sealers := w.sealers.set i (role, s')
          log := log
          sent := w.sent ++ [⟨sealerLane (role, s), plaintext, frame⟩] }
      | (.error _, s') => { w with sealers := w.sealers.set i (role, s'), log := log }

def opened [DecidableEq Key] (i : Nat) (frame : PeerRelayFrame) : Peers Key :=
  match w.openers[i]? with
  | none => w
  | some (role, o) => { w with openers := w.openers.set i (role, (o.open (decrypt w.log) frame).2) }

def next [DecidableEq Key] (hkdf : Hkdf Key) (aead : Aead Key) : Action → Peers Key
  | .issueSealer role mode channelId => w.issueSealer hkdf role mode channelId
  | .issueOpener role mode channelId => w.issueOpener hkdf role mode channelId
  | .sealing i plaintext flags => w.sealed aead i plaintext flags
  | .opening i frame => w.opened i frame

end Peers

def Step [DecidableEq Key] (hkdf : Hkdf Key) (aead : Aead Key) (w : Peers Key) (a : Action) (w' : Peers Key) : Prop :=
  w.next hkdf aead a = w'

section Lanes

/-- What both endpoints derive their keys from. -/
structure Schedule (Key : Type) where
  hkdf : Hkdf Key
  prk : Key
  contextHash : Vector UInt8 32
  sessionId : SessionId

namespace Schedule

variable (c : Schedule Key)

def frameKey (lane : Lane) : Key :=
  deriveFrameKey c.hkdf (c.hkdf.expand c.prk (frameLabel lane.mode lane.direction)) c.contextHash c.sessionId lane.mode
    lane.channelId

def entry (g : Sealing) : Entry Key Bytes :=
  ⟨c.frameKey g.lane, frameNonce (noncePrefix g.lane.mode g.lane.direction) g.frame.sequence,
    frameAad c.contextHash c.sessionId g.lane.channelId g.frame.flags g.frame.sequence, g.plaintext,
    g.frame.ciphertext.bytes⟩

def Independent : Prop := c.hkdf.Independent c.prk frameLabels (frameInfos c.contextHash c.sessionId)

variable {c}

theorem frameKey_injective (h : c.Independent) {lane lane' : Lane} (heq : c.frameKey lane = c.frameKey lane') :
    lane = lane' := by
  obtain ⟨hlabel, hinfo⟩ := h _ ⟨_, _, rfl⟩ _ ⟨_, _, rfl⟩ _ ⟨_, _, rfl⟩ _ ⟨_, _, rfl⟩ heq
  obtain ⟨_, hdirection⟩ := frameLabel_injective hlabel
  obtain ⟨hmode, hchannel⟩ := frameKeyInfo_injective hinfo
  cases lane
  cases lane'
  simp_all

/-- A key and nonce stand for a lane and a sequence number. -/
theorem entry_injective (h : c.Independent) {g g' : Sealing} (hkey : (c.entry g).key = (c.entry g').key)
    (hnonce : (c.entry g).nonce = (c.entry g').nonce) : g.lane = g'.lane ∧ g.frame.sequence = g'.frame.sequence := by
  have hlane : g.lane = g'.lane := frameKey_injective h hkey
  simp only [entry, hlane] at hnonce
  exact ⟨hlane, frameNonce_injective hnonce⟩

end Schedule

structure KeysOf (c : Schedule Key) (role : PeerRole) (keys : PeerSessionKeys Key) : Prop where
  sessionId : keys.sessionId = c.sessionId
  contextHash : keys.contextHash = c.contextHash
  outgoing : ∀ mode, keys.outgoingKey mode = c.hkdf.expand c.prk (frameLabel mode role)
  incoming : ∀ mode, keys.incomingKey mode = c.hkdf.expand c.prk (frameLabel mode role.other)
  role : keys.role = role

structure SealerOf (c : Schedule Key) (p : PeerRole × PeerFrameSealer Key) : Prop where
  channel : p.2.channelId ≠ 0
  sessionId : p.2.sessionId = c.sessionId
  contextHash : p.2.contextHash = c.contextHash
  key : p.2.key = c.frameKey (sealerLane p)
  noncePrefix : p.2.noncePrefix = PeerCipher.noncePrefix p.2.mode p.1

structure OpenerOf (c : Schedule Key) (p : PeerRole × PeerFrameOpener Key) : Prop where
  sessionId : p.2.sessionId = c.sessionId
  contextHash : p.2.contextHash = c.contextHash
  key : p.2.key = c.frameKey (openerLane p)
  noncePrefix : p.2.noncePrefix = PeerCipher.noncePrefix p.2.mode p.1.other

variable {c : Schedule Key} {role : PeerRole}

theorem KeysOf.issued {keys : PeerSessionKeys Key} (h : KeysOf c role keys) (sealers openers : List FrameDomain) :
    KeysOf c role { keys with issuedSealers := sealers, issuedOpeners := openers } where
  sessionId := h.sessionId
  contextHash := h.contextHash
  outgoing
    | .ordered => h.outgoing .ordered
    | .datagram => h.outgoing .datagram
  incoming
    | .ordered => h.incoming .ordered
    | .datagram => h.incoming .datagram
  role := h.role

theorem SealerOf.advance {s : PeerFrameSealer Key} (h : SealerOf c (role, s)) (flags : PeerRelayFlags) :
    SealerOf c (role, s.advance flags) := by
  rw [PeerFrameSealer.advance]
  cases checkedSucc s.nextSequence <;> exact ⟨h.1, h.2, h.3, h.4, h.5⟩

theorem sealerLane_advance (s : PeerFrameSealer Key) (flags : PeerRelayFlags) :
    sealerLane (role, s.advance flags) = sealerLane (role, s) := by
  rw [PeerFrameSealer.advance]
  cases checkedSucc s.nextSequence <;> rfl

/-- Opening changes the state and the finished flag only. -/
theorem opened_same (decrypt : Key → Bytes → Bytes → Bytes → Option Bytes) (o : PeerFrameOpener Key)
    (frame : PeerRelayFrame) :
    ∃ state finished, (o.open decrypt frame).2 = { o with state := state, finished := finished } := by
  cases h : o.open decrypt frame with
  | mk result o' =>
      cases result with
      | error e => exact ⟨o.state, o.finished, PeerFrameOpener.open_error h⟩
      | ok plaintext =>
          obtain ⟨-, -, -, -, -, state, -, rfl⟩ := PeerFrameOpener.open_ok h
          exact ⟨state, _, rfl⟩

theorem ciphertextLen_of_seal {aead : Aead Key} {s s' : PeerFrameSealer Key} {plaintext : Bytes} {flags : PeerRelayFlags}
    {frame : PeerRelayFrame} (hc : s.channelId ≠ 0) (h : s.seal aead plaintext flags = (.ok frame, s')) :
    frame.ciphertextLen = UInt32.ofNat frame.ciphertext.bytes.length := by
  rw [PeerFrameSealer.seal] at h
  split at h
  · simp at h
  · next ha =>
    split at h
    · simp at h
    · next ciphertext hx =>
      have hl : ciphertext.length ≤ maxPeerRelayCiphertextBytes := by
        rw [aead.encrypt_length _ _ _ _ _ hx]
        exact (PeerFrameSealer.admits_ok ha).1
      simp only [PeerRelayFrame.new_eq_ok hc hl, Prod.mk.injEq, Except.ok.injEq] at h
      rw [← h.1]

end Lanes

section Invariant

structure Genuine (c : Schedule Key) (w : Peers Key) (g : Sealing) : Prop where
  sealer : g.lane ∈ w.sealers.map sealerLane
  sessionId : g.frame.sessionId = c.sessionId
  channelId : g.frame.channelId = g.lane.channelId
  flags : validateFrameFlags g.lane.mode g.frame.flags = .ok ()
  ciphertextLen : g.frame.ciphertextLen = UInt32.ofNat g.frame.ciphertext.bytes.length

structure Inv (c : Schedule Key) (w : Peers Key) : Prop where
  keys : ∀ role, KeysOf c role (w.keys role)
  sealers : ∀ p ∈ w.sealers, SealerOf c p ∧ ⟨p.2.mode, p.2.channelId⟩ ∈ (w.keys p.1).issuedSealers
  openers : ∀ p ∈ w.openers, OpenerOf c p ∧ ⟨p.2.mode, p.2.channelId⟩ ∈ (w.keys p.1).issuedOpeners
  sealerLanes : (w.sealers.map sealerLane).Nodup
  openerLanes : (w.openers.map openerLane).Nodup
  counted : ∀ p ∈ w.sealers, At p.2.nextSequence p.2.exhausted (w.on (sealerLane p)).length
  numbered : ∀ lane, (w.on lane).map (·.frame.sequence.toNat) = List.range (w.on lane).length
  fresh : (w.sent.map fun g => (g.lane, g.frame.sequence)).Nodup
  genuine : ∀ g ∈ w.sent, Genuine c w g
  log : w.log = w.sent.map c.entry
  sealedFin : ∀ p ∈ w.sealers, p.2.mode = .ordered → ∀ (i : Nat) g, (w.on (sealerLane p))[i]? = some g →
    hasFin g.frame.flags = true → i + 1 = (w.on (sealerLane p)).length ∧ p.2.finished = true

variable {c : Schedule Key} {w : Peers Key}

/-- All but the replaced element keep their own images. -/
theorem mem_set_cases {α β : Type} {f : α → β} {xs : List α} (h : (xs.map f).Nodup) {i : Nat} {a b x : α}
    (hi : xs[i]? = some a) (hx : x ∈ xs.set i b) : x = b ∨ x ∈ xs ∧ f x ≠ f a := by
  obtain ⟨j, hj⟩ := List.mem_iff_getElem?.mp hx
  rw [List.getElem?_set] at hj
  split at hj
  · left
    split at hj
    · exact (Option.some.inj hj).symm
    · exact nomatch hj
  · next hne =>
    refine .inr ⟨List.mem_of_getElem? hj, ?_⟩
    intro heq
    have hlt : i < (xs.map f).length := by simpa using (List.getElem?_eq_some_iff.mp hi).1
    apply hne
    apply (List.getElem?_inj hlt h).mp
    simp [hi, hj, heq]

theorem map_set_same {α β : Type} {f : α → β} {xs : List α} {i : Nat} {a b : α} (hi : xs[i]? = some a)
    (hab : f b = f a) : (xs.set i b).map f = xs.map f := by
  obtain ⟨hlt, rfl⟩ := List.getElem?_eq_some_iff.mp hi
  have hlt' : i < (xs.map f).length := by simpa using hlt
  have hself := List.set_getElem_self hlt'
  rwa [List.getElem_map, ← hab, ← List.map_set] at hself

theorem update_issued (keys : PeerRole → PeerSessionKeys Key) (role : PeerRole) {k : PeerSessionKeys Key}
    (hs : (keys role).issuedSealers ⊆ k.issuedSealers) (ho : (keys role).issuedOpeners ⊆ k.issuedOpeners) (r : PeerRole) :
    (keys r).issuedSealers ⊆ (Function.update keys role k r).issuedSealers ∧
      (keys r).issuedOpeners ⊆ (Function.update keys role k r).issuedOpeners := by
  by_cases hr : r = role
  · subst hr
    simpa only [Function.update_self] using ⟨hs, ho⟩
  · simp only [Function.update_of_ne hr]
    exact ⟨List.Subset.refl _, List.Subset.refl _⟩

theorem Inv.issueSealer (h : Inv c w) (role : PeerRole) (mode : FrameMode) (channelId : UInt64) :
    Inv c (w.issueSealer c.hkdf role mode channelId) := by
  have hkeys := h.keys role
  rcases sealer_cases (w.keys role) c.hkdf mode channelId with ⟨e, hs⟩ | ⟨hc, hnew, hs⟩
  · have hw : w.issueSealer c.hkdf role mode channelId = w := by
      simp only [Peers.issueSealer, hs, Function.update_eq_self]
    rw [hw]
    exact h
  · simp only [Peers.issueSealer, hs]
    have hfresh : (⟨role, mode, channelId⟩ : Lane) ∉ w.sealers.map sealerLane := by
      intro hmem
      obtain ⟨p, hp, hlane⟩ := List.mem_map.mp hmem
      simp only [sealerLane, Lane.mk.injEq] at hlane
      obtain ⟨hrole, hmode, hchannel⟩ := hlane
      have hissued := (h.sealers p hp).2
      rw [hrole, hmode, hchannel] at hissued
      exact hnew hissued
    have hnone : w.on ⟨role, mode, channelId⟩ = [] := by
      apply List.filter_eq_nil_iff.mpr
      intro g hg heq
      exact hfresh (of_decide_eq_true heq ▸ (h.genuine g hg).sealer)
    have hgrows := update_issued w.keys role
      (k := { w.keys role with issuedSealers := ⟨mode, channelId⟩ :: (w.keys role).issuedSealers })
      (List.subset_cons_self _ _) (List.Subset.refl _)
    refine ⟨?_, ?_, ?_, ?_, h.openerLanes, ?_, h.numbered, h.fresh, ?_, h.log, ?_⟩
    · exact (Function.forall_update_iff _ (KeysOf c)).mpr ⟨hkeys.issued _ _, fun r _ => h.keys r⟩
    · intro p hp
      rcases List.mem_append.mp hp with hp | hp
      · exact ⟨(h.sealers p hp).1, (hgrows _).1 (h.sealers p hp).2⟩
      · obtain rfl := List.mem_singleton.mp hp
        refine ⟨⟨hc, hkeys.sessionId, hkeys.contextHash, ?_, ?_⟩, ?_⟩
        · simp only [hkeys.outgoing, hkeys.sessionId, hkeys.contextHash, Schedule.frameKey, sealerLane]
        · simp only [hkeys.role]
        · simp only [Function.update_self, List.mem_cons, true_or]
    · exact fun p hp => ⟨(h.openers p hp).1, (hgrows _).2 (h.openers p hp).2⟩
    · rw [List.map_append, List.map_singleton]
      exact List.Nodup.append h.sealerLanes (List.nodup_singleton _) (by simpa [sealerLane] using hfresh)
    · intro p hp
      rcases List.mem_append.mp hp with hp | hp
      · exact h.counted p hp
      · obtain rfl := List.mem_singleton.mp hp
        change At 0 false (w.on ⟨role, mode, channelId⟩).length
        rw [hnone]
        rfl
    · intro g hg
      have hgen := h.genuine g hg
      exact ⟨by simpa using .inl (by simpa using hgen.1), hgen.2, hgen.3, hgen.4, hgen.5⟩
    · intro p hp hm i g hi
      rcases List.mem_append.mp hp with hp | hp
      · exact h.sealedFin p hp hm i g hi
      · obtain rfl := List.mem_singleton.mp hp
        change (w.on ⟨role, mode, channelId⟩)[i]? = some g at hi
        simp [hnone] at hi

theorem Inv.issueOpener (h : Inv c w) (role : PeerRole) (mode : FrameMode) (channelId : UInt64) :
    Inv c (w.issueOpener c.hkdf role mode channelId) := by
  have hkeys := h.keys role
  rcases opener_cases (w.keys role) c.hkdf mode channelId with ⟨e, hs⟩ | ⟨_, hnew, state, hs, _⟩
  · have hw : w.issueOpener c.hkdf role mode channelId = w := by
      simp only [Peers.issueOpener, hs, Function.update_eq_self]
    rw [hw]
    exact h
  · simp only [Peers.issueOpener, hs]
    have hfresh : (⟨role.other, mode, channelId⟩ : Lane) ∉ w.openers.map openerLane := by
      intro hmem
      obtain ⟨p, hp, hlane⟩ := List.mem_map.mp hmem
      simp only [openerLane, Lane.mk.injEq] at hlane
      obtain ⟨hother, hmode, hchannel⟩ := hlane
      have hrole : p.1 = role := by simpa using congrArg PeerRole.other hother
      have hissued := (h.openers p hp).2
      rw [hrole, hmode, hchannel] at hissued
      exact hnew hissued
    have hgrows := update_issued w.keys role
      (k := { w.keys role with issuedOpeners := ⟨mode, channelId⟩ :: (w.keys role).issuedOpeners })
      (List.Subset.refl _) (List.subset_cons_self _ _)
    refine ⟨?_, ?_, ?_, h.sealerLanes, ?_, h.counted, h.numbered, h.fresh, ?_, h.log, h.sealedFin⟩
    · exact (Function.forall_update_iff _ (KeysOf c)).mpr ⟨hkeys.issued _ _, fun r _ => h.keys r⟩
    · exact fun p hp => ⟨(h.sealers p hp).1, (hgrows _).1 (h.sealers p hp).2⟩
    · intro p hp
      rcases List.mem_append.mp hp with hp | hp
      · exact ⟨(h.openers p hp).1, (hgrows _).2 (h.openers p hp).2⟩
      · obtain rfl := List.mem_singleton.mp hp
        refine ⟨⟨hkeys.sessionId, hkeys.contextHash, ?_, ?_⟩, ?_⟩
        · simp only [hkeys.incoming, hkeys.sessionId, hkeys.contextHash, Schedule.frameKey, openerLane]
        · simp only [hkeys.role]
        · simp only [Function.update_self, List.mem_cons, true_or]
    · rw [List.map_append, List.map_singleton]
      exact List.Nodup.append h.openerLanes (List.nodup_singleton _) (by simpa [openerLane] using hfresh)
    · intro g hg
      have hgen := h.genuine g hg
      exact ⟨hgen.1, hgen.2, hgen.3, hgen.4, hgen.5⟩

/-- The frame of a successful `seal` is the next one of its lane. -/
theorem Inv.sealed (h : Inv c w) (aead : Aead Key) (i : Nat) (plaintext : Bytes) (flags : PeerRelayFlags) :
    Inv c (w.sealed aead i plaintext flags) := by
  rw [Peers.sealed]
  cases hi : w.sealers[i]? with
  | none => exact h
  | some p =>
      obtain ⟨role, s⟩ := p
      have hmem : (role, s) ∈ w.sealers := List.mem_of_getElem? hi
      obtain ⟨hof, hissued⟩ := h.sealers _ hmem
      rcases seal_spec aead s hof.channel plaintext flags with
        ⟨e, hs, he⟩ | ⟨frame, hs, ha, hfs, hfc, hfq, hff, he⟩
      · obtain ⟨hlt, hget⟩ := List.getElem?_eq_some_iff.mp hi
        have hset : w.sealers.set i (role, s) = w.sealers := by
          rw [← hget]
          exact List.set_getElem_self hlt
        simp only [hs, he, hset, List.append_nil]
        exact h
      · have hlane : sealerLane (role, s.advance flags) = sealerLane (role, s) := sealerLane_advance s flags
        have hmap : (w.sealers.set i (role, s.advance flags)).map sealerLane = w.sealers.map sealerLane :=
          map_set_same hi hlane
        obtain ⟨-, hvalid, htrans, hx⟩ := PeerFrameSealer.admits_ok ha
        have hat := h.counted _ hmem
        simp only [hx, At, Bool.false_eq_true, if_false] at hat
        -- the lane of the sealer grows by this frame, the others stay
        have hon : ∀ lane, Peers.on { w with
            sealers := w.sealers.set i (role, s.advance flags)
            log := w.log ++ encryptions aead s plaintext flags
            sent := w.sent ++ [⟨sealerLane (role, s), plaintext, frame⟩] } lane =
              if lane = sealerLane (role, s) then w.on lane ++ [⟨sealerLane (role, s), plaintext, frame⟩]
              else w.on lane := by
          intro lane
          by_cases hl : lane = sealerLane (role, s)
          · simp [Peers.on, hl]
          · simp [Peers.on, hl, Ne.symm hl]
        simp only [hs]
        have hseq : frame.sequence.toNat = (w.on (sealerLane (role, s))).length := by rw [hfq, hat]
        refine ⟨h.keys, ?_, h.openers, ?_, h.openerLanes, ?_, ?_, ?_, ?_, ?_, ?_⟩
        · intro p hp
          rcases mem_set_cases h.sealerLanes hi hp with rfl | ⟨hp, _⟩
          · have hmode : (s.advance flags).mode = s.mode := congrArg Lane.mode hlane
            have hchannel : (s.advance flags).channelId = s.channelId := congrArg Lane.channelId hlane
            refine ⟨hof.advance flags, ?_⟩
            rw [hmode, hchannel]
            exact hissued
          · exact h.sealers p hp
        · rw [hmap]
          exact h.sealerLanes
        · intro p hp
          rw [hon]
          rcases mem_set_cases h.sealerLanes hi hp with rfl | ⟨hp, hne⟩
          · rw [hlane, if_pos rfl, List.length_append]
            exact advance_at (h.counted _ hmem) hx flags
          · rw [if_neg hne]
            exact h.counted p hp
        · intro lane
          rw [hon]
          split
          · next hl =>
            rw [List.map_append, h.numbered, List.map_singleton, hseq, hl, List.length_append, List.length_singleton,
              List.range_succ]
          · exact h.numbered lane
        · rw [List.map_append, List.map_singleton]
          refine List.Nodup.append h.fresh (List.nodup_singleton _) ?_
          rw [List.disjoint_singleton]
          intro hold
          obtain ⟨g, hg, heq⟩ := List.mem_map.mp hold
          obtain ⟨hl, hq⟩ := Prod.mk.inj heq
          have hin : g.frame.sequence.toNat ∈ (w.on g.lane).map (·.frame.sequence.toNat) :=
            List.mem_map_of_mem (List.mem_filter.mpr ⟨hg, decide_eq_true rfl⟩)
          rw [h.numbered, List.mem_range, hq, hl, hseq] at hin
          exact Nat.lt_irrefl _ hin
        · intro g hg
          rcases List.mem_append.mp hg with hg | hg
          · have hgen := h.genuine g hg
            exact ⟨hmap ▸ hgen.1, hgen.2, hgen.3, hgen.4, hgen.5⟩
          · obtain rfl := List.mem_singleton.mp hg
            refine ⟨?_, hfs.trans hof.sessionId, hfc, hff ▸ hvalid, ciphertextLen_of_seal hof.channel hs⟩
            rw [hmap]
            exact List.mem_map_of_mem hmem
        · rw [h.log, he, List.map_append, List.map_singleton, Schedule.entry, ← hof.key, hff, hfq, hof.noncePrefix,
            hof.contextHash, hof.sessionId]
          rfl
        · intro p hp hm k g hk hfin
          rw [hon] at hk ⊢
          rcases mem_set_cases h.sealerLanes hi hp with rfl | ⟨hp, hne⟩
          · have hmode : s.mode = .ordered := (congrArg Lane.mode hlane).symm.trans hm
            have hopen : s.finished = false := by simpa [validateFlagTransition, hmode] using htrans
            rw [hlane, if_pos rfl] at hk ⊢
            rw [advance_finished, hopen, List.length_append]
            rcases getElem?_append_singleton hk with hk | ⟨rfl, rfl⟩
            · -- the sealer had already sent its last frame
              have hdone := (h.sealedFin _ hmem hmode k g hk hfin).2
              exact absurd (hopen.symm.trans hdone) (by decide)
            · exact ⟨rfl, by simpa [hff] using hfin⟩
          · rw [if_neg hne] at hk ⊢
            exact h.sealedFin p hp hm k g hk hfin

theorem Inv.opened [DecidableEq Key] (h : Inv c w) (i : Nat) (frame : PeerRelayFrame) : Inv c (w.opened i frame) := by
  rw [Peers.opened]
  cases hi : w.openers[i]? with
  | none => exact h
  | some p =>
      obtain ⟨role, o⟩ := p
      obtain ⟨hof, hissued⟩ := h.openers _ (List.mem_of_getElem? hi)
      obtain ⟨state, finished, ho⟩ := opened_same (decrypt w.log) o frame
      simp only [ho]
      refine ⟨h.keys, h.sealers, ?_, h.sealerLanes, ?_, h.counted, h.numbered, h.fresh, ?_, h.log, h.sealedFin⟩
      · intro p hp
        rcases List.mem_or_eq_of_mem_set hp with hp | rfl
        · exact h.openers p hp
        · exact ⟨⟨hof.1, hof.2, hof.3, hof.4⟩, hissued⟩
      · have hmap : (w.openers.set i (role, { o with state := state, finished := finished })).map openerLane =
            w.openers.map openerLane := map_set_same hi rfl
        rw [hmap]
        exact h.openerLanes
      · intro g hg
        have hgen := h.genuine g hg
        exact ⟨hgen.1, hgen.2, hgen.3, hgen.4, hgen.5⟩

theorem Inv.step [DecidableEq Key] (aead : Aead Key) (w : Peers Key) (a : Action) (w' : Peers Key) (h : Inv c w)
    (hs : Step c.hkdf aead w a w') : Inv c w' := by
  obtain rfl := hs
  cases a with
  | issueSealer role mode channelId => exact h.issueSealer role mode channelId
  | issueOpener role mode channelId => exact h.issueOpener role mode channelId
  | sealing i plaintext flags => exact h.sealed aead i plaintext flags
  | opening i frame => exact h.opened i frame

theorem inv_start {initiator responder : PeerSessionKeys Key} (hi : KeysOf c .initiator initiator)
    (hr : KeysOf c .responder responder) : Inv c (Peers.start initiator responder) where
  keys
    | .initiator => hi
    | .responder => hr
  sealers := by simp [Peers.start]
  openers := by simp [Peers.start]
  sealerLanes := List.nodup_nil
  openerLanes := List.nodup_nil
  counted := by simp [Peers.start]
  numbered _ := rfl
  fresh := List.nodup_nil
  genuine := by simp [Peers.start]
  log := rfl
  sealedFin := by simp [Peers.start]

end Invariant

section Opening

variable {c : Schedule Key} {w : Peers Key}

/-- The receiving state and the lifecycle let the frame pass. -/
def Admits (o : PeerFrameOpener Key) (frame : PeerRelayFrame) : Prop :=
  (∃ state, receiveSequence o.state frame.sequence = .ok state) ∧ validateFlagTransition o.mode o.finished = .ok ()

theorem Inv.nonces (h : Inv c w) (hind : c.Independent) : (w.log.map fun e => (e.key, e.nonce)).Nodup := by
  rw [h.log, List.map_map]
  have hfresh := h.fresh
  rw [List.Nodup, List.pairwise_map] at hfresh ⊢
  refine hfresh.imp ?_
  intro g g' hne heq
  obtain ⟨hkey, hnonce⟩ := Prod.mk.inj heq
  obtain ⟨hlane, hseq⟩ := Schedule.entry_injective hind hkey hnonce
  exact hne (by rw [hlane, hseq])

theorem eq_of_fresh (h : Inv c w) {g g' : Sealing} (hg : g ∈ w.sent) (hg' : g' ∈ w.sent) (hlane : g.lane = g'.lane)
    (hseq : g.frame.sequence = g'.frame.sequence) : g = g' :=
  List.inj_on_of_nodup_map h.fresh hg hg' (by simp only [hlane, hseq])

/-- A sealer counts its frames from zero and stops after the last number. -/
theorem Inv.stops (h : Inv c w) (aead : Aead Key) {p : PeerRole × PeerFrameSealer Key} (hp : p ∈ w.sealers) :
    (w.on (sealerLane p)).length ≤ 2 ^ 64 ∧ ((w.on (sealerLane p)).length = 2 ^ 64 → ∀ plaintext flags,
      ∃ e, p.2.seal aead plaintext flags = (.error e, p.2)) := by
  have hat := h.counted p hp
  have hlt := p.2.nextSequence.toNat_lt
  cases hx : p.2.exhausted with
  | false =>
      simp only [hx, At, Bool.false_eq_true, if_false] at hat
      exact ⟨by omega, fun hlast => by omega⟩
  | true =>
      simp only [hx, At, if_true] at hat
      refine ⟨by omega, ?_⟩
      intro _ plaintext flags
      rcases seal_spec aead p.2 (h.sealers p hp).1.channel plaintext flags with ⟨e, hs, _⟩ | ⟨_, _, ha, _⟩
      · exact ⟨e, hs⟩
      · exact absurd (PeerFrameSealer.admits_ok ha).2.2.2 (by simp [hx])

theorem Inv.unique (h : Inv c w) (hind : c.Independent) {g : Sealing} (hg : g ∈ w.sent) (e : Entry Key Bytes)
    (he : e ∈ w.log) (hkey : e.key = (c.entry g).key) (hnonce : e.nonce = (c.entry g).nonce) : e.plaintext = g.plaintext := by
  rw [h.log] at he
  obtain ⟨g', hg', rfl⟩ := List.mem_map.mp he
  obtain ⟨hlane, hseq⟩ := Schedule.entry_injective hind hkey hnonce
  rw [eq_of_fresh h hg' hg hlane hseq]
  rfl

variable [DecidableEq Key]

theorem matches_of_open {log : List (Entry Key Bytes)} {o o' : PeerFrameOpener Key} {frame : PeerRelayFrame}
    {plaintext : Bytes} (h : o.open (decrypt log) frame = (.ok plaintext, o')) :
    Admits o frame ∧ ∃ e ∈ log, e.Matches o.key (frameNonce o.noncePrefix frame.sequence)
      (frameAad o.contextHash o.sessionId o.channelId frame.flags frame.sequence) frame.ciphertext.bytes ∧
      e.plaintext = plaintext := by
  obtain ⟨_, _, _, ht, hd, state, hn, _⟩ := PeerFrameOpener.open_ok h
  exact ⟨⟨⟨state, hn⟩, ht⟩, decrypt_sound hd⟩

theorem Inv.opens (h : Inv c w) {log : List (Entry Key Bytes)} {g : Sealing} (hg : g ∈ w.sent)
    {p : PeerRole × PeerFrameOpener Key} (hof : OpenerOf c p) (hlane : openerLane p = g.lane) (hadmits : Admits p.2 g.frame)
    (hmem : c.entry g ∈ log) (hlog : ∀ e ∈ log, e.key = (c.entry g).key → e.nonce = (c.entry g).nonce →
      e.plaintext = g.plaintext) :
    ∃ state, receiveSequence p.2.state g.frame.sequence = .ok state ∧ p.2.open (decrypt log) g.frame =
      (.ok g.plaintext, { p.2 with state := state, finished := p.2.finished || hasFin g.frame.flags }) := by
  obtain ⟨⟨state, hn⟩, ht⟩ := hadmits
  have hgen := h.genuine g hg
  have hmode : p.2.mode = g.lane.mode := congrArg Lane.mode hlane
  have hchannel : p.2.channelId = g.lane.channelId := congrArg Lane.channelId hlane
  have hdirection : p.1.other = g.lane.direction := congrArg Lane.direction hlane
  refine ⟨state, hn, PeerFrameOpener.open_eq_ok (hgen.sessionId.trans hof.sessionId.symm)
    (hgen.channelId.trans hchannel.symm) (hmode ▸ hgen.flags) ht ?_ hn⟩
  have hd := decrypt_complete hmem hlog
  rw [hof.key, hlane, hof.noncePrefix, hmode, hdirection, hof.contextHash, hof.sessionId, hchannel]
  exact hd

/-- On its own, a sealed frame opens exactly with the opener of its lane. -/
theorem Inv.opens_iff (h : Inv c w) (hind : c.Independent) {g : Sealing} (hg : g ∈ w.sent)
    {p : PeerRole × PeerFrameOpener Key} (hp : p ∈ w.openers) :
    (∃ plaintext o, p.2.open (decrypt [c.entry g]) g.frame = (.ok plaintext, o)) ↔
      openerLane p = g.lane ∧ Admits p.2 g.frame := by
  have hof := (h.openers p hp).1
  constructor
  · rintro ⟨plaintext, o, ho⟩
    obtain ⟨hadmits, e, he, ⟨hkey, -⟩, -⟩ := matches_of_open ho
    obtain rfl := List.mem_singleton.mp he
    exact ⟨(Schedule.frameKey_injective hind (hkey.trans hof.key)).symm, hadmits⟩
  · rintro ⟨hlane, hadmits⟩
    obtain ⟨state, -, ho⟩ := h.opens hg hof hlane hadmits (List.mem_singleton_self _) fun e he _ _ => by
      rw [List.mem_singleton.mp he]
      rfl
    exact ⟨_, _, ho⟩

/-- Beside everything else that was sealed, no opener returns what was not sealed on its lane. -/
theorem Inv.only_own (h : Inv c w) (hind : c.Independent) {frame : PeerRelayFrame} {plaintext : Bytes}
    {o : PeerFrameOpener Key} {p : PeerRole × PeerFrameOpener Key} (hp : p ∈ w.openers)
    (hlen : frame.ciphertextLen = UInt32.ofNat frame.ciphertext.bytes.length)
    (ho : p.2.open (decrypt w.log) frame = (.ok plaintext, o)) :
    ∃ g ∈ w.sent, g.lane = openerLane p ∧ g.frame = frame ∧ g.plaintext = plaintext := by
  have hof := (h.openers p hp).1
  obtain ⟨hsession, hchannel, -⟩ := PeerFrameOpener.open_ok ho
  obtain ⟨-, e, he, ⟨hkey, hnonce, haad, hcipher⟩, hplain⟩ := matches_of_open ho
  rw [h.log] at he
  obtain ⟨g, hg, rfl⟩ := List.mem_map.mp he
  have hgen := h.genuine g hg
  have hlane : g.lane = openerLane p := Schedule.frameKey_injective hind (hkey.trans hof.key)
  refine ⟨g, hg, hlane, ?_, hplain⟩
  have hmode : g.lane.mode = p.2.mode := congrArg Lane.mode hlane
  have hdirection : g.lane.direction = p.1.other := congrArg Lane.direction hlane
  have hlaneChannel : g.lane.channelId = p.2.channelId := congrArg Lane.channelId hlane
  rw [hof.noncePrefix] at hnonce
  rw [hof.contextHash, hof.sessionId] at haad
  simp only [Schedule.entry, hmode, hdirection, hlaneChannel] at hnonce haad hcipher
  have hseq : g.frame.sequence = frame.sequence := frameNonce_injective hnonce
  have hflags : g.frame.flags = frame.flags := frameAad_flags haad
  have hbytes : g.frame.ciphertext = frame.ciphertext := by
    cases hc : g.frame.ciphertext
    cases hc' : frame.ciphertext
    simp_all
  have hlength : g.frame.ciphertextLen = frame.ciphertextLen := by rw [hgen.ciphertextLen, hcipher, hlen]
  have hid : g.frame.sessionId = frame.sessionId := by rw [hgen.sessionId, hsession, hof.sessionId]
  have hcid : g.frame.channelId = frame.channelId := by rw [hgen.channelId, hlaneChannel, hchannel]
  cases hf : g.frame
  cases frame
  simp_all

end Opening

section InOrder

def openAll (decrypt : Key → Bytes → Bytes → Bytes → Option Bytes) : PeerFrameOpener Key → List PeerRelayFrame → Option (List Bytes)
  | _, [] => some []
  | o, frame :: frames => match o.open decrypt frame with
    | (.ok plaintext, o') => (openAll decrypt o' frames).map (plaintext :: ·)
    | (.error _, _) => none

/-- A state that has received the numbers below `n`. -/
def Expects (state : ReceiveState) (n : Nat) : Prop :=
  match state with
  | .ordered expected exhausted => At expected exhausted n
  | .datagram window => ∀ highest, window.highest = some highest → highest.toNat < n

theorem receiveSequence_expects {state : ReceiveState} {sequence : UInt64} (h : Expects state sequence.toNat) :
    ∃ next, receiveSequence state sequence = .ok next ∧ Expects next (sequence.toNat + 1) := by
  cases state with
  | ordered expected exhausted =>
      cases exhausted with
      | true =>
          have hlt := sequence.toNat_lt
          simp only [Expects, At, if_true] at h
          omega
      | false =>
          have hsucc := At.succ h
          simp only [Expects, At, Bool.false_eq_true, if_false] at h
          obtain rfl := UInt64.toNat_inj.mp h
          simp only [receiveSequence, UInt64.lt_irrefl, gt_iff_lt, if_false]
          cases hs : checkedSucc expected <;> simp only [hs] at hsucc <;> exact ⟨_, rfl, hsucc⟩
  | datagram window =>
      simp only [receiveSequence, replayWindowAccept]
      cases hw : window.highest with
      | none => exact ⟨_, rfl, fun highest heq => by simp [← Option.some.inj heq]⟩
      | some highest =>
          have hgt : highest < sequence := UInt64.lt_iff_toNat_lt.mpr (h highest hw)
          simp only [gt_iff_lt, hgt, if_true]
          exact ⟨_, rfl, fun _ heq => by simp [← Option.some.inj heq]⟩

variable {c : Schedule Key} {w : Peers Key} [DecidableEq Key]

/-- An opener that has returned the first frames of its lane returns the rest. -/
theorem Inv.openAll_rest (h : Inv c w) (hind : c.Independent) {p : PeerRole × PeerFrameSealer Key} (hp : p ∈ w.sealers)
    {role : PeerRole} (rest : List Sealing) : ∀ (o : PeerFrameOpener Key) (done : List Sealing), OpenerOf c (role, o) →
      openerLane (role, o) = sealerLane p → w.on (sealerLane p) = done ++ rest → Expects o.state done.length →
      (o.mode = .ordered → o.finished = true → rest = []) →
      openAll (decrypt w.log) o (rest.map (·.frame)) = some (rest.map (·.plaintext)) := by
  induction rest with
  | nil => exact fun _ _ _ _ _ _ _ => rfl
  | cons g rest ih =>
      intro o done hof hlane hon hexpects hfin
      have hget : (w.on (sealerLane p))[done.length]? = some g := by simp [hon]
      obtain ⟨hg, hglane⟩ := List.mem_filter.mp (List.mem_of_getElem? hget)
      have hseq : g.frame.sequence.toNat = done.length := by
        have hnumber := congrArg (fun numbers => numbers[done.length]?) (h.numbered (sealerLane p))
        simpa [hon] using hnumber
      obtain ⟨state, hreceive, hnext⟩ := receiveSequence_expects (hseq ▸ hexpects)
      have hopen : ¬(o.mode = .ordered ∧ o.finished = true) := fun hdone => nomatch hfin hdone.1 hdone.2
      have htrans : validateFlagTransition o.mode o.finished = .ok () := by simpa [validateFlagTransition] using hopen
      obtain ⟨state', hstate, ho⟩ := h.opens hg hof (hlane.trans (of_decide_eq_true hglane).symm) ⟨⟨state, hreceive⟩, htrans⟩
        (h.log ▸ List.mem_map_of_mem hg) (h.unique hind hg)
      obtain rfl := Except.ok.inj (hreceive.symm.trans hstate)
      simp only [List.map_cons, openAll, ho]
      have hrest := ih { o with state := state, finished := o.finished || hasFin g.frame.flags } (done ++ [g])
        ⟨hof.1, hof.2, hof.3, hof.4⟩ hlane (by simp [hon]) (by simpa [hseq] using hnext) (by
          intro hm hdone
          rcases Bool.or_eq_true_iff.mp hdone with hdone | hdone
          · exact absurd ⟨hm, hdone⟩ hopen
          · have hmode : p.2.mode = .ordered := (congrArg Lane.mode hlane).symm.trans hm
            have hlast := (h.sealedFin p hp hmode _ _ hget hdone).1
            rw [hon, List.length_append, List.length_cons] at hlast
            exact List.length_eq_zero_iff.mp (by omega))
      rw [hrest]
      rfl

end InOrder

section Derived

variable {x25519 : X25519 Secret} {hkdf : Hkdf Key} {transcript : Orchestration.PeerTranscript}

def scheduleOf (hkdf : Hkdf Key) (shared : Vector UInt8 32) (transcript : Orchestration.PeerTranscript) : Schedule Key :=
  ⟨hkdf, hkdf.extract (Sha256.digest transcript.asBytes) shared, Sha256.digest transcript.asBytes, transcript.sessionId⟩

theorem keysOf_derive {role : PeerRole} {ephemeral : Secret} {keys : PeerSessionKeys Key}
    (h : PeerSessionKeys.derive x25519 hkdf role ephemeral transcript = .ok keys) :
    x25519.publicKey ephemeral = localEphemeral transcript role ∧
      KeysOf (scheduleOf hkdf (x25519.diffieHellman ephemeral (peerEphemeral transcript role)) transcript) role keys := by
  simp only [PeerSessionKeys.derive, bind_eq_ok, require_eq_ok, pure_eq_ok] at h
  obtain ⟨-, hlocal, -, -, rfl⟩ := h
  refine ⟨hlocal, rfl, rfl, ?_, ?_, rfl⟩
  all_goals
    intro mode
    cases mode <;> cases role <;> rfl

theorem shared_eq {initiator responder : Secret} (hi : x25519.publicKey initiator = localEphemeral transcript .initiator)
    (hr : x25519.publicKey responder = localEphemeral transcript .responder) :
    x25519.diffieHellman responder (peerEphemeral transcript .responder) =
      x25519.diffieHellman initiator (peerEphemeral transcript .initiator) := by
  simp only [localEphemeral] at hi hr
  simp only [peerEphemeral, ← hi, ← hr]
  exact x25519.agree responder initiator

theorem openerOf_opener {c : Schedule Key} {role : PeerRole} {keys keys' : PeerSessionKeys Key} {mode : FrameMode}
    {channelId : UInt64} {o : PeerFrameOpener Key} (h : KeysOf c role keys)
    (ho : keys.opener c.hkdf channelId mode = (.ok o, keys')) :
    OpenerOf c (role, o) ∧ o.mode = mode ∧ o.channelId = channelId ∧ Expects o.state 0 ∧ o.finished = false := by
  rcases opener_cases keys c.hkdf mode channelId with ⟨e, he⟩ | ⟨-, -, state, hs, hstate⟩
  · rw [he] at ho
    exact nomatch congrArg Prod.fst ho
  · rw [hs] at ho
    obtain rfl := Except.ok.inj (congrArg Prod.fst ho)
    refine ⟨⟨h.sessionId, h.contextHash, ?_, ?_⟩, rfl, rfl, ?_, rfl⟩
    · simp only [h.incoming, h.sessionId, h.contextHash, Schedule.frameKey, openerLane]
    · simp only [h.role]
    · subst hstate
      cases mode with
      | ordered => rfl
      | datagram => exact fun _ heq => nomatch heq

theorem Inv.entry_of_zip {c : Schedule Key} {w : Peers Key} (h : Inv c w) {sealing : Sealing × Entry Key Bytes}
    (hmem : sealing ∈ w.sent.zip w.log) : sealing.1 ∈ w.sent ∧ sealing.2 = c.entry sealing.1 := by
  obtain ⟨i, hi⟩ := List.mem_iff_getElem?.mp hmem
  obtain ⟨hg, he⟩ := List.getElem?_zip_eq_some.mp hi
  rw [h.log, List.getElem?_map, hg, Option.map_some] at he
  exact ⟨List.mem_of_getElem? hg, (Option.some.inj he).symm⟩

variable [DecidableEq Key]

/-- Whatever the two endpoints issue, seal and open: no key and nonce serve two calls of the cipher, no
domain is issued twice in one direction, a sealer numbers its frames from zero and stops after the last number, and
a sealed frame opens with the opener of its own lane and no other. -/
theorem frame_keys_never_repeat_a_nonce (aead : Aead Key) {initiator responder : Secret} {ki kr : PeerSessionKeys Key}
    (hi : PeerSessionKeys.derive x25519 hkdf .initiator initiator transcript = .ok ki)
    (hr : PeerSessionKeys.derive x25519 hkdf .responder responder transcript = .ok kr)
    (hind : (scheduleOf hkdf (x25519.diffieHellman initiator transcript.responderEphemeral) transcript).Independent)
    {actions : List Action} {w : Peers Key} (hrun : Run (Step hkdf aead) (Peers.start ki kr) actions w) :
    (w.log.map fun e => (e.key, e.nonce)).Nodup ∧ (w.sealers.map sealerLane).Nodup ∧ (w.openers.map openerLane).Nodup ∧
      (∀ p ∈ w.sealers, ∃ n ≤ 2 ^ 64, (w.on (sealerLane p)).map (·.frame.sequence.toNat) = List.range n ∧
        (n = 2 ^ 64 → ∀ plaintext flags, ∃ e, p.2.seal aead plaintext flags = (.error e, p.2)) ∧
        ∀ o keys, (w.keys p.1.other).opener hkdf p.2.channelId p.2.mode = (.ok o, keys) →
          openAll (decrypt w.log) o ((w.on (sealerLane p)).map (·.frame)) = some ((w.on (sealerLane p)).map (·.plaintext))) ∧
      w.sent.length = w.log.length ∧ ∀ sealing ∈ w.sent.zip w.log, ∀ p ∈ w.openers,
        ((∃ plaintext o, p.2.open (decrypt [sealing.2]) sealing.1.frame = (.ok plaintext, o)) ↔
          openerLane p = sealing.1.lane ∧ Admits p.2 sealing.1.frame) ∧
        (openerLane p = sealing.1.lane → Admits p.2 sealing.1.frame →
          ∃ o, p.2.open (decrypt w.log) sealing.1.frame = (.ok sealing.1.plaintext, o)) ∧
        ∀ plaintext o, p.2.open (decrypt w.log) sealing.1.frame = (.ok plaintext, o) →
          ∃ own ∈ w.sent, own.lane = openerLane p ∧ own.frame = sealing.1.frame ∧ own.plaintext = plaintext := by
  obtain ⟨hlocal, hki⟩ := keysOf_derive hi
  obtain ⟨hlocal', hkr⟩ := keysOf_derive hr
  rw [shared_eq hlocal hlocal'] at hkr
  have hinv := hrun.invariant (Inv.step aead) (inv_start hki hkr)
  refine ⟨hinv.nonces hind, hinv.sealerLanes, hinv.openerLanes, ?_, by rw [hinv.log, List.length_map], ?_⟩
  · intro p hp
    obtain ⟨hle, hstops⟩ := hinv.stops aead hp
    refine ⟨_, hle, hinv.numbered _, hstops, ?_⟩
    intro o keys ho
    obtain ⟨hof, hmode, hchannel, hexpects, hfin⟩ := openerOf_opener (hinv.keys p.1.other) ho
    have hlane : openerLane (p.1.other, o) = sealerLane p := by
      simp only [openerLane, sealerLane, hmode, hchannel, PeerRole.other_other]
    exact hinv.openAll_rest hind hp _ o [] hof hlane rfl hexpects fun _ hdone => nomatch hfin.symm.trans hdone
  · intro sealing hmem p hp
    obtain ⟨hg, he⟩ := hinv.entry_of_zip hmem
    rw [he]
    refine ⟨hinv.opens_iff hind hg hp, ?_, ?_⟩
    · intro hlane hadmits
      obtain ⟨_, _, ho⟩ := hinv.opens hg (hinv.openers p hp).1 hlane hadmits (hinv.log ▸ List.mem_map_of_mem hg)
        (hinv.unique hind hg)
      exact ⟨_, ho⟩
    · exact fun _ _ ho => hinv.only_own hind hp (hinv.genuine _ hg).ciphertextLen ho

/-- Keys that remember how they were made. -/
inductive SampleKey
  | extracted (salt ikm : Vector UInt8 32)
  | expanded (key : SampleKey) (info : Bytes)
  deriving DecidableEq

def sampleHkdf : Hkdf SampleKey := ⟨.extracted, .expanded⟩

def sampleX25519 : X25519 (Vector UInt8 32) where
  publicKey := id
  diffieHellman a b := Vector.zipWith (· ^^^ ·) a b
  wasContributory shared := shared ≠ Vector.replicate 32 0
  agree a b := by
    ext i hi
    simp [UInt8.xor_comm]

def sampleAead : Aead SampleKey where
  encrypt _ _ _ msg := some (msg ++ List.replicate 16 7)
  encrypt_length _ _ _ msg ciphertext h := by
    rw [← Option.some.inj h]
    simp [aeadTagBytes]

def sampleTranscript : Orchestration.PeerTranscript :=
  ⟨⟨Vector.replicate 32 66⟩, .INITIAL, ⟨Vector.replicate 32 1⟩, ⟨Vector.replicate 32 2⟩, Vector.replicate 32 3,
    Vector.replicate 32 4, ⟨"web", by decide⟩, ⟨1, 2⟩, Vector.replicate 32 5⟩

theorem sample_independent (shared : Vector UInt8 32) : (scheduleOf sampleHkdf shared sampleTranscript).Independent := by
  intro label _ label' _ info _ info' _ heq
  simp only [scheduleOf, sampleHkdf, SampleKey.expanded.injEq, true_and] at heq
  exact heq

def sampleSecret : PeerRole → Vector UInt8 32
  | .initiator => Vector.replicate 32 3
  | .responder => Vector.replicate 32 4

def sampleDerive (role : PeerRole) : Except PeerCryptoError (PeerSessionKeys SampleKey) :=
  PeerSessionKeys.derive sampleX25519 sampleHkdf role (sampleSecret role) sampleTranscript

theorem sampleDerive_isSome (role : PeerRole) : (sampleDerive role).toOption.isSome = true := by
  cases role <;> decide +kernel

def sampleKeys (role : PeerRole) : PeerSessionKeys SampleKey := (sampleDerive role).toOption.get (sampleDerive_isSome role)

theorem sampleDerive_eq (role : PeerRole) : sampleDerive role = .ok (sampleKeys role) := by
  have hsome := sampleDerive_isSome role
  cases h : sampleDerive role with
  | ok keys => simp only [sampleKeys, h, Except.toOption, Option.get_some]
  | error e => simp [h, Except.toOption] at hsome

/-- The initiator seals a frame for the responder. -/
def sampleEnd : Peers SampleKey :=
  ((Peers.start (sampleKeys .initiator) (sampleKeys .responder)).next sampleHkdf sampleAead
    (.issueSealer .initiator .ordered 9)).next sampleHkdf sampleAead (.sealing 0 [1, 2] PeerRelayFlags.RELIABLE)

theorem frame_keys_never_repeat_a_nonce_sample :
    sampleEnd.sent.length = 1 ∧ (sampleEnd.log.map fun e => (e.key, e.nonce)).Nodup :=
  ⟨by decide +kernel, (frame_keys_never_repeat_a_nonce sampleAead (sampleDerive_eq .initiator) (sampleDerive_eq .responder)
    (sample_independent _) (.snoc (.snoc (.refl _) rfl) rfl)).1⟩

end Derived

end Rustgo.FrameDomains
