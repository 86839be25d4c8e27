import Rustgo.PeerCipher
import Mathlib.Data.List.Induction

namespace Rustgo.ReplayWindow

open Checks PeerCipher

def bit (word : UInt64) (i : Nat) : Bool := word.toBitVec.getLsbD i

theorem bit_or (a b : UInt64) (i : Nat) : bit (a ||| b) i = (bit a i || bit b i) := by
  simp [bit]

theorem bit_one (i : Nat) : bit 1 i = decide (i = 0) := by
  have h : bit 1 i = (1#64).getLsbD i := rfl
  simp [h, BitVec.getLsbD_one]

theorem bit_shiftLeft (a d : UInt64) (hd : d.toNat < 64) (i : Nat) :
    bit (a <<< d) i = (decide (i < 64) && (!decide (i < d.toNat) && bit a (i - d.toNat))) := by
  have h : (a <<< d).toBitVec = a.toBitVec <<< d.toNat := by
    simp [Nat.mod_eq_of_lt hd]
  simp [bit, h, Bool.and_assoc]

theorem bit_mask (d : UInt64) (hd : d.toNat < 64) (i : Nat) :
    bit (1 <<< d) i = decide (i = d.toNat) := by
  rw [bit_shiftLeft 1 d hd, bit_one]
  by_cases hi : i = d.toNat
  · subst hi
    simp [hd]
  · by_cases hlt : i < d.toNat
    · simp [hi, hlt]
    · have hne : i - d.toNat ≠ 0 := by omega
      simp [hi, hne]

theorem and_mask_ne_zero (a d : UInt64) (hd : d.toNat < 64) :
    a &&& (1 <<< d) ≠ 0 ↔ bit a d.toNat = true := by
  have hand (i : Nat) : bit (a &&& (1 <<< d)) i = (bit a i && decide (i = d.toNat)) := by
    rw [← bit_mask d hd i]
    simp [bit]
  constructor
  · intro hne
    by_contra hbit
    apply hne
    apply UInt64.toBitVec_inj.mp
    apply BitVec.eq_of_getLsbD_eq
    intro i _
    change bit (a &&& (1 <<< d)) i = bit 0 i
    have hzero : bit 0 i = false := by simp [bit]
    rw [hand i, hzero]
    by_cases hid : i = d.toNat
    · subst hid
      simpa using hbit
    · simp [hid]
  · intro hbit hzero
    have hd' := hand d.toNat
    rw [hzero, hbit] at hd'
    simp [bit] at hd'

/-- What the window is for: a number is fresh when it was not taken before and
no number taken so far is `64` or more above it. -/
def Fresh (history : List UInt64) (sequence : UInt64) : Prop :=
  sequence ∉ history ∧ ∀ h ∈ history, h.toNat < sequence.toNat + 64

/-- Bit `d` of the bitmap says whether the number `d` below the highest one
has been taken. -/
def Represents (window : ReplayWindow) (history : List UInt64) : Prop :=
  match window.highest with
  | none => history = []
  | some highest => highest ∈ history ∧ (∀ h ∈ history, h ≤ highest) ∧
      ∀ d, d < 64 → (bit window.bitmap d = true ↔ ∃ h ∈ history, h.toNat + d = highest.toNat)

theorem accept_first {window : ReplayWindow} {history : List UInt64} (sequence : UInt64)
    (h : Represents window history) (hw : window.highest = none) :
    history = [] ∧ replayWindowAccept window sequence = .ok ⟨some sequence, 1⟩ ∧
      Represents ⟨some sequence, 1⟩ [sequence] := by
  simp only [Represents, hw] at h
  refine ⟨h, by simp only [replayWindowAccept, hw], ?_⟩
  refine ⟨by simp, by simp, ?_⟩
  intro d _
  simp only [bit_one, decide_eq_true_eq, List.mem_singleton, exists_eq_left]
  omega

theorem accept_above {window : ReplayWindow} {history : List UInt64} {highest sequence : UInt64}
    (h : Represents window history) (hw : window.highest = some highest) (hs : sequence > highest) :
    ∃ window', replayWindowAccept window sequence = .ok window' ∧
      Represents window' (history ++ [sequence]) := by
  simp only [Represents, hw] at h
  obtain ⟨hmem, hle, hbits⟩ := h
  have hlt : highest.toNat < sequence.toNat := UInt64.lt_iff_toNat_lt.mp hs
  have hdist : (sequence - highest).toNat = sequence.toNat - highest.toNat :=
    UInt64.toNat_sub_of_le _ _ (UInt64.le_iff_toNat_le.mpr hlt.le)
  have hbound (h : UInt64) (hh : h ∈ history) : h.toNat ≤ highest.toNat :=
    UInt64.le_iff_toNat_le.mp (hle h hh)
  refine ⟨⟨some sequence, if sequence - highest ≥ replayWindowBits then 1
    else (window.bitmap <<< (sequence - highest)) ||| 1⟩, ?_, ?_, ?_, ?_⟩
  · simp only [replayWindowAccept, hw, hs, if_true]
  · simp
  · intro h hh
    rcases List.mem_append.mp hh with hh | hh
    · exact UInt64.le_iff_toNat_le.mpr ((hbound h hh).trans hlt.le)
    · rw [List.mem_singleton.mp hh]
      exact UInt64.le_refl sequence
  · intro d hd
    simp only [List.mem_append, List.mem_singleton]
    by_cases hfar : sequence - highest ≥ replayWindowBits
    · -- everything taken before is out of the new window
      have hfar' : 64 ≤ sequence.toNat - highest.toNat := by
        rw [← hdist]
        exact UInt64.le_iff_toNat_le.mp hfar
      simp only [hfar, if_true, bit_one, decide_eq_true_eq]
      constructor
      · rintro rfl
        exact ⟨sequence, .inr rfl, rfl⟩
      · rintro ⟨h, hh | rfl, he⟩
        · have := hbound h hh
          omega
        · omega
    · have hnear : sequence.toNat - highest.toNat < 64 := by
        rw [← hdist]
        exact Nat.lt_of_not_le fun hc => hfar (UInt64.le_iff_toNat_le.mpr hc)
      simp only [hfar, if_false, bit_or, bit_one, Bool.or_eq_true, decide_eq_true_eq]
      rw [bit_shiftLeft _ _ (hdist ▸ hnear), hdist]
      constructor
      · rintro (hold | rfl)
        · simp only [hd, decide_true, Bool.true_and, Bool.and_eq_true, Bool.not_eq_true',
            decide_eq_false_iff_not, not_lt] at hold
          obtain ⟨h, hh, he⟩ := (hbits _ (by omega)).mp hold.2
          exact ⟨h, .inl hh, by omega⟩
        · exact ⟨sequence, .inr rfl, rfl⟩
      · rintro ⟨h, hh | rfl, he⟩
        · have hb := hbound h hh
          left
          have hge : ¬d < sequence.toNat - highest.toNat := by omega
          simp only [hd, hge, decide_true, decide_false, Bool.not_false, Bool.true_and]
          exact (hbits _ (by omega)).mpr ⟨h, hh, by omega⟩
        · right
          omega

theorem accept_within {window : ReplayWindow} {history : List UInt64} {highest sequence : UInt64}
    (h : Represents window history) (hw : window.highest = some highest) (hs : ¬sequence > highest)
    (hf : Fresh history sequence) :
    ∃ window', replayWindowAccept window sequence = .ok window' ∧
      Represents window' (history ++ [sequence]) := by
  simp only [Represents, hw] at h
  obtain ⟨hmem, hle, hbits⟩ := h
  have hge : sequence.toNat ≤ highest.toNat :=
    Nat.le_of_not_lt fun hc => hs (UInt64.lt_iff_toNat_lt.mpr hc)
  have hdist : (highest - sequence).toNat = highest.toNat - sequence.toNat :=
    UInt64.toNat_sub_of_le _ _ (UInt64.le_iff_toNat_le.mpr hge)
  have hnear : (highest - sequence).toNat < 64 := by
    have := hf.2 highest hmem
    omega
  have hnotfar : ¬highest - sequence ≥ replayWindowBits := fun hc =>
    absurd (UInt64.le_iff_toNat_le.mp hc) (Nat.not_le.mpr hnear)
  have hclear : ¬window.bitmap &&& (1 <<< (highest - sequence)) ≠ 0 := by
    rw [and_mask_ne_zero _ _ hnear, hbits _ hnear]
    rintro ⟨h, hh, he⟩
    apply hf.1
    have heq : h = sequence := UInt64.toNat_inj.mp (by omega)
    rwa [← heq]
  refine ⟨⟨window.highest, window.bitmap ||| (1 <<< (highest - sequence))⟩, ?_, ?_⟩
  · simp only [replayWindowAccept, hw, hs, hnotfar, hclear, or_self, if_false]
  · simp only [Represents, hw]
    refine ⟨by simp [hmem], ?_, ?_⟩
    · intro h hh
      rcases List.mem_append.mp hh with hh | hh
      · exact hle h hh
      · rw [List.mem_singleton.mp hh]
        exact UInt64.le_iff_toNat_le.mpr hge
    · intro d hd
      rw [bit_or, bit_mask _ hnear, Bool.or_eq_true, decide_eq_true_eq, hbits d hd]
      simp only [List.mem_append, List.mem_singleton]
      constructor
      · rintro (⟨h, hh, he⟩ | rfl)
        · exact ⟨h, .inl hh, he⟩
        · exact ⟨sequence, .inr rfl, by omega⟩
      · rintro ⟨h, hh | rfl, he⟩
        · exact .inl ⟨h, hh, he⟩
        · right
          omega

theorem reject_stale {window : ReplayWindow} {history : List UInt64} {sequence : UInt64}
    (h : Represents window history) (hf : ¬Fresh history sequence) :
    replayWindowAccept window sequence = .error .replay := by
  cases hw : window.highest with
  | none =>
      obtain ⟨rfl, -, -⟩ := accept_first sequence h hw
      exact absurd ⟨by simp, by simp⟩ hf
  | some highest =>
      simp only [Represents, hw] at h
      obtain ⟨hmem, hle, hbits⟩ := h
      have hbound (h : UInt64) (hh : h ∈ history) : h.toNat ≤ highest.toNat :=
        UInt64.le_iff_toNat_le.mp (hle h hh)
      have hs : ¬sequence > highest := by
        intro hs
        have hlt := UInt64.lt_iff_toNat_lt.mp hs
        refine hf ⟨fun hc => ?_, fun h hh => ?_⟩
        · have := hbound sequence hc
          omega
        · have := hbound h hh
          omega
      have hge : sequence.toNat ≤ highest.toNat :=
        Nat.le_of_not_lt fun hc => hs (UInt64.lt_iff_toNat_lt.mpr hc)
      have hdist : (highest - sequence).toNat = highest.toNat - sequence.toNat :=
        UInt64.toNat_sub_of_le _ _ (UInt64.le_iff_toNat_le.mpr hge)
      have hrej : highest - sequence ≥ replayWindowBits ∨
          window.bitmap &&& (1 <<< (highest - sequence)) ≠ 0 := by
        by_cases hfar : highest - sequence ≥ replayWindowBits
        · exact .inl hfar
        · have hnear : (highest - sequence).toNat < 64 :=
            Nat.lt_of_not_le fun hc => hfar (UInt64.le_iff_toNat_le.mpr hc)
          right
          rw [and_mask_ne_zero _ _ hnear, hbits _ hnear]
          by_contra hnone
          refine hf ⟨fun hc => hnone ⟨sequence, hc, by omega⟩, fun h hh => ?_⟩
          have := hbound h hh
          omega
      simp only [replayWindowAccept, hw, hs, if_false, hrej, if_true]

/-- One call of the window against the history it stands for. -/
theorem accept_spec {window : ReplayWindow} {history : List UInt64} (sequence : UInt64)
    (h : Represents window history) :
    (Fresh history sequence ∧ ∃ window', replayWindowAccept window sequence = .ok window' ∧
      Represents window' (history ++ [sequence])) ∨
    (¬Fresh history sequence ∧ replayWindowAccept window sequence = .error .replay) := by
  by_cases hf : Fresh history sequence
  · left
    refine ⟨hf, ?_⟩
    cases hw : window.highest with
    | none =>
        obtain ⟨rfl, ha, hr⟩ := accept_first sequence h hw
        exact ⟨_, ha, hr⟩
    | some highest =>
        by_cases hs : sequence > highest
        · exact accept_above h hw hs
        · exact accept_within h hw hs hf
  · exact .inr ⟨hf, reject_stale h hf⟩

section Runs

variable {Key : Type} (decrypt : Key → Bytes → Bytes → Bytes → Option Bytes)

/-- The frame carries the opener's context and flags, and its ciphertext
authenticates under the opener's key. -/
def Authenticated (o : PeerFrameOpener Key) (frame : PeerRelayFrame) : Prop :=
  frame.sessionId = o.sessionId ∧ frame.channelId = o.channelId ∧
    validateFrameFlags o.mode frame.flags = .ok () ∧
    (decrypt o.key (frameNonce o.noncePrefix frame.sequence)
      (frameAad o.contextHash o.sessionId o.channelId frame.flags frame.sequence)
      frame.ciphertext.bytes).isSome

/-- One open attempt; the history collects the accepted sequence numbers. -/
def attempt (run : PeerFrameOpener Key × List UInt64) (frame : PeerRelayFrame) :
    PeerFrameOpener Key × List UInt64 :=
  match run.1.open decrypt frame with
  | (.ok _, o) => (o, run.2 ++ [frame.sequence])
  | (.error _, o) => (o, run.2)

def attempts (o : PeerFrameOpener Key) (frames : List PeerRelayFrame) :
    PeerFrameOpener Key × List UInt64 :=
  frames.foldl (attempt decrypt) (o, [])

def Accepts (o : PeerFrameOpener Key) (frame : PeerRelayFrame) : Prop :=
  ∃ plaintext o', o.open decrypt frame = (.ok plaintext, o')

/-- The opener still is the datagram opener `o₀` and its window stands for
the history of the run. -/
structure Tracks (o₀ : PeerFrameOpener Key) (run : PeerFrameOpener Key × List UInt64) : Prop where
  sessionId : run.1.sessionId = o₀.sessionId
  channelId : run.1.channelId = o₀.channelId
  contextHash : run.1.contextHash = o₀.contextHash
  key : run.1.key = o₀.key
  noncePrefix : run.1.noncePrefix = o₀.noncePrefix
  mode : run.1.mode = .datagram
  window : ∃ window, run.1.state = .datagram window ∧ Represents window run.2
  nodup : run.2.Nodup

variable {decrypt}

theorem open_error_iff (o : PeerFrameOpener Key) (frame : PeerRelayFrame) :
    ¬Accepts decrypt o frame ↔ ∃ e, o.open decrypt frame = (.error e, o) := by
  constructor
  · intro h
    cases hr : o.open decrypt frame with
    | mk result o' =>
        cases result with
        | ok plaintext => exact absurd ⟨plaintext, o', hr⟩ h
        | error e => exact ⟨e, by rw [PeerFrameOpener.open_error hr]⟩
  · rintro ⟨e, he⟩ ⟨plaintext, o', ho⟩
    simp [he] at ho

theorem attempt_of_not_accepts {run : PeerFrameOpener Key × List UInt64} {frame : PeerRelayFrame}
    (h : ¬Accepts decrypt run.1 frame) : attempt decrypt run frame = run := by
  obtain ⟨e, he⟩ := (open_error_iff run.1 frame).mp h
  simp only [attempt, he]

theorem Tracks.authenticated_iff {o₀ : PeerFrameOpener Key} {run : PeerFrameOpener Key × List UInt64}
    (h : Tracks o₀ run) (hm : o₀.mode = .datagram) (frame : PeerRelayFrame) :
    Authenticated decrypt run.1 frame ↔ Authenticated decrypt o₀ frame := by
  simp only [Authenticated, h.sessionId, h.channelId, h.contextHash, h.key, h.noncePrefix, h.mode, hm]

theorem Tracks.accepts_iff {o₀ : PeerFrameOpener Key} {run : PeerFrameOpener Key × List UInt64}
    (h : Tracks o₀ run) (frame : PeerRelayFrame) :
    Accepts decrypt run.1 frame ↔ Authenticated decrypt run.1 frame ∧ Fresh run.2 frame.sequence := by
  obtain ⟨window, hw, hr⟩ := h.window
  constructor
  · rintro ⟨plaintext, o', ho⟩
    obtain ⟨hs, hc, hf, -, hd, nextState, hn, -⟩ := PeerFrameOpener.open_ok ho
    refine ⟨⟨hs, hc, hf, by simp [hd]⟩, ?_⟩
    by_contra hstale
    simp [receiveSequence, hw, reject_stale hr hstale] at hn
  · rintro ⟨⟨hs, hc, hf, hd⟩, hfresh⟩
    obtain ⟨plaintext, hp⟩ := Option.isSome_iff_exists.mp hd
    rcases accept_spec frame.sequence hr with ⟨-, window', ha, -⟩ | ⟨hstale, -⟩
    · have hn : receiveSequence run.1.state frame.sequence = .ok (.datagram window') := by
        simp [receiveSequence, hw, ha]
      have ht : validateFlagTransition run.1.mode run.1.finished = .ok () := by
        simp [validateFlagTransition, h.mode]
      exact ⟨plaintext, _, PeerFrameOpener.open_eq_ok hs hc hf ht hp hn⟩
    · exact absurd hfresh hstale

theorem Tracks.step {o₀ : PeerFrameOpener Key} {run : PeerFrameOpener Key × List UInt64}
    (h : Tracks o₀ run) (frame : PeerRelayFrame) : Tracks o₀ (attempt decrypt run frame) := by
  by_cases ha : Accepts decrypt run.1 frame
  · have hfresh := ((h.accepts_iff frame).mp ha).2
    obtain ⟨plaintext, o', ho⟩ := ha
    obtain ⟨-, -, -, -, -, nextState, hn, rfl⟩ := PeerFrameOpener.open_ok ho
    obtain ⟨window, hw, hr⟩ := h.window
    rcases accept_spec frame.sequence hr with ⟨-, window', hacc, hr'⟩ | ⟨hstale, -⟩
    · simp only [receiveSequence, hw, hacc, Except.ok.injEq] at hn
      simp only [attempt, ho]
      exact ⟨h.sessionId, h.channelId, h.contextHash, h.key, h.noncePrefix, h.mode,
        ⟨window', hn.symm, hr'⟩, List.nodup_append.mpr ⟨h.nodup, by simp, by
          intro a ha b hb hab
          rw [List.mem_singleton.mp hb] at hab
          exact hfresh.1 (hab ▸ ha)⟩⟩
    · exact absurd hfresh hstale
  · rw [attempt_of_not_accepts ha]
    exact h

theorem attempts_append (o : PeerFrameOpener Key) (frames : List PeerRelayFrame) (frame : PeerRelayFrame) :
    attempts decrypt o (frames ++ [frame]) = attempt decrypt (attempts decrypt o frames) frame := by
  simp [attempts]

theorem attempts_tracks {o₀ : PeerFrameOpener Key} (hm : o₀.mode = .datagram)
    (hw : o₀.state = .datagram ⟨none, 0⟩) (frames : List PeerRelayFrame) :
    Tracks o₀ (attempts decrypt o₀ frames) := by
  induction frames using List.reverseRecOn with
  | nil => exact ⟨rfl, rfl, rfl, rfl, rfl, hm, ⟨_, hw, rfl⟩, List.nodup_nil⟩
  | append_singleton frames frame ih =>
      rw [attempts_append]
      exact ih.step frame

end Runs

/-- After any attempts on a new datagram opener, an authenticated frame is
accepted exactly when its number is fresh, no number is accepted twice, and an
attempt that is not accepted can be left out of the run. -/
theorem datagram_accepts_iff_fresh {Key : Type} (decrypt : Key → Bytes → Bytes → Bytes → Option Bytes)
    (sessionId : SessionId) (channelId : UInt64) (contextHash : Vector UInt8 32) (key : Key)
    (pre : Vector UInt8 4) (o₀ : PeerFrameOpener Key)
    (hnew : PeerFrameOpener.new sessionId channelId contextHash key .datagram pre = .ok o₀)
    (frames : List PeerRelayFrame) :
    (∀ frame, Authenticated decrypt o₀ frame →
      (Accepts decrypt (attempts decrypt o₀ frames).1 frame ↔
        frame.sequence ∉ (attempts decrypt o₀ frames).2 ∧
        ∀ h ∈ (attempts decrypt o₀ frames).2, h.toNat < frame.sequence.toNat + 64)) ∧
    (∀ frame, ¬Authenticated decrypt o₀ frame →
      ¬Accepts decrypt (attempts decrypt o₀ frames).1 frame) ∧
    (attempts decrypt o₀ frames).2.Nodup ∧
    (∀ frame, ¬Accepts decrypt (attempts decrypt o₀ frames).1 frame → ∀ later,
      attempts decrypt o₀ (frames ++ frame :: later) = attempts decrypt o₀ (frames ++ later)) := by
  have hinit : o₀.mode = .datagram ∧ o₀.state = .datagram ⟨none, 0⟩ := by
    simp only [PeerFrameOpener.new, bind_eq_ok, pure_eq_ok] at hnew
    obtain ⟨_, _, rfl⟩ := hnew
    exact ⟨rfl, rfl⟩
  have ht : Tracks o₀ (attempts decrypt o₀ frames) := attempts_tracks hinit.1 hinit.2 frames
  refine ⟨?_, ?_, ht.nodup, ?_⟩
  · intro frame ha
    rw [ht.accepts_iff, ht.authenticated_iff hinit.1]
    exact and_iff_right ha
  · intro frame ha hacc
    rw [ht.accepts_iff, ht.authenticated_iff hinit.1] at hacc
    exact ha hacc.1
  · intro frame hrej later
    have he := attempt_of_not_accepts hrej
    simp only [attempts, List.foldl_append, List.foldl_cons] at he ⊢
    rw [he]

/-- A datagram frame whose ciphertext is a bare tag. -/
def tagFrame (sequence : UInt64) : PeerRelayFrame :=
  ⟨⟨Vector.replicate 32 66⟩, 9, sequence, PeerRelayFlags.DATAGRAM, 16, ⟨List.replicate 16 7, by decide⟩⟩

def tagDecrypt (_ : Unit) (_ _ ciphertext : Bytes) : Option Bytes :=
  if ciphertext = List.replicate 16 7 then some [] else none

def datagramOpener : PeerFrameOpener Unit :=
  ⟨⟨Vector.replicate 32 66⟩, 9, Vector.replicate 32 102, (), .datagram, noncePrefix .datagram .initiator,
    .datagram ⟨none, 0⟩, false⟩

theorem datagram_accepts_iff_fresh_after_jump :
    (attempts tagDecrypt datagramOpener [tagFrame 3, tagFrame 18446744073709551615]).2 = [3, 18446744073709551615] ∧
      Accepts tagDecrypt (attempts tagDecrypt datagramOpener [tagFrame 3, tagFrame 18446744073709551615]).1
        (tagFrame 18446744073709551552) := by
  have hspec := datagram_accepts_iff_fresh tagDecrypt ⟨Vector.replicate 32 66⟩ 9 (Vector.replicate 32 102) ()
    (noncePrefix .datagram .initiator) datagramOpener rfl [tagFrame 3, tagFrame 18446744073709551615]
  have hhist : (attempts tagDecrypt datagramOpener [tagFrame 3, tagFrame 18446744073709551615]).2 =
      [3, 18446744073709551615] := by decide
  refine ⟨hhist, (hspec.1 (tagFrame 18446744073709551552) ⟨rfl, rfl, rfl, rfl⟩).mpr ?_⟩
  rw [hhist]
  refine ⟨by decide, ?_⟩
  intro h hmem
  simp only [List.mem_cons, List.not_mem_nil, or_false] at hmem
  rcases hmem with rfl | rfl
  · decide
  · decide

end Rustgo.ReplayWindow
