import Rustgo.PeerFrame
import Rustgo.Checks

namespace Rustgo.PeerCipher

open Checks

inductive PeerRole
  | initiator
  | responder
  deriving DecidableEq

def PeerRole.tag : PeerRole → UInt8
  | .initiator => 1
  | .responder => 2

inductive PeerCryptoError
  | signatureVerificationFailed
  | localEphemeralKeyMismatch
  | invalidPeerEphemeralKey
  | keyDerivationFailed
  | handshakeAuthenticationFailed
  | frameAuthenticationFailed
  | frameContextMismatch
  | invalidFrameContext
  | domainAlreadyIssued
  | invalidFlagTransition
  | replay
  | unexpectedSequence
  | sequenceExhausted
  | frameTooLarge
  deriving DecidableEq, Repr

inductive FrameMode
  | ordered
  | datagram
  deriving DecidableEq

def frameModeTag : FrameMode → UInt8
  | .ordered => 1
  | .datagram => 2

def noncePrefix (mode : FrameMode) (direction : PeerRole) : Vector UInt8 4 :=
  #v[frameModeTag mode, direction.tag, 0, 0]

def aeadTagBytes : Nat := 16

/-- The sealing half of the AEAD crate: key, nonce, associated data and
message to ciphertext. The crate appends a tag of fixed length. -/
structure Aead (Key : Type) where
  encrypt : Key → Bytes → Bytes → Bytes → Option Bytes
  encrypt_length : ∀ key nonce aad msg ciphertext,
    encrypt key nonce aad msg = some ciphertext → ciphertext.length = msg.length + aeadTagBytes

def frameDomain : Bytes := "rustgo-peer-frame-v1".toUTF8.toList

def appendBytes (value : Bytes) : Bytes := be 4 value.length ++ value

def frameNonce (pre : Vector UInt8 4) (sequence : UInt64) : Bytes := pre.toList ++ be 8 sequence.toNat

def frameAad (contextHash : Vector UInt8 32) (sessionId : SessionId) (channelId : UInt64)
    (flags : PeerRelayFlags) (sequence : UInt64) : Bytes :=
  frameDomain ++ appendBytes contextHash.toList ++ appendBytes sessionId.bytes.toList ++
    be 8 channelId.toNat ++ ([flags.bits] ++ be 8 sequence.toNat)

def hasFin (flags : PeerRelayFlags) : Bool := flags.bits &&& PeerRelayFlags.FIN.bits ≠ 0

def validateChannelId (channelId : UInt64) : Except PeerCryptoError Unit :=
  require (channelId ≠ 0) .invalidFrameContext

def validateFrameFlags (mode : FrameMode) (flags : PeerRelayFlags) : Except PeerCryptoError Unit :=
  match mode with
  | .ordered => require (flags = PeerRelayFlags.RELIABLE ∨
      flags = PeerRelayFlags.bitor PeerRelayFlags.RELIABLE PeerRelayFlags.FIN) .invalidFrameContext
  | .datagram => require (flags = PeerRelayFlags.DATAGRAM) .invalidFrameContext

def validateFlagTransition (mode : FrameMode) (finished : Bool) : Except PeerCryptoError Unit :=
  require (¬(mode = .ordered ∧ finished = true)) .invalidFlagTransition

def checkedSucc (sequence : UInt64) : Option UInt64 :=
  if sequence.toNat + 1 < 2 ^ 64 then some (sequence + 1) else none

structure PeerFrameSealer (Key : Type) where
  sessionId : SessionId
  channelId : UInt64
  contextHash : Vector UInt8 32
  key : Key
  mode : FrameMode
  noncePrefix : Vector UInt8 4
  nextSequence : UInt64
  exhausted : Bool
  finished : Bool

structure ReplayWindow where
  highest : Option UInt64
  bitmap : UInt64
  deriving DecidableEq, Repr

inductive ReceiveState
  | ordered (expected : UInt64) (exhausted : Bool)
  | datagram (window : ReplayWindow)
  deriving DecidableEq, Repr

structure PeerFrameOpener (Key : Type) where
  sessionId : SessionId
  channelId : UInt64
  contextHash : Vector UInt8 32
  key : Key
  mode : FrameMode
  noncePrefix : Vector UInt8 4
  state : ReceiveState
  finished : Bool

variable {Key : Type}

def PeerFrameSealer.new (sessionId : SessionId) (channelId : UInt64) (contextHash : Vector UInt8 32)
    (key : Key) (mode : FrameMode) (pre : Vector UInt8 4) : Except PeerCryptoError (PeerFrameSealer Key) := do
  validateChannelId channelId
  pure ⟨sessionId, channelId, contextHash, key, mode, pre, 0, false, false⟩

def PeerFrameOpener.new (sessionId : SessionId) (channelId : UInt64) (contextHash : Vector UInt8 32)
    (key : Key) (mode : FrameMode) (pre : Vector UInt8 4) : Except PeerCryptoError (PeerFrameOpener Key) := do
  validateChannelId channelId
  let state := match mode with
    | .ordered => ReceiveState.ordered 0 false
    | .datagram => ReceiveState.datagram ⟨none, 0⟩
  pure ⟨sessionId, channelId, contextHash, key, mode, pre, state, false⟩

/-- The checks `seal` makes before it calls the cipher, in its order. -/
def PeerFrameSealer.admits (s : PeerFrameSealer Key) (plaintext : Bytes) (flags : PeerRelayFlags) :
    Except PeerCryptoError Unit := do
  require (plaintext.length ≤ maxPeerRelayCiphertextBytes - aeadTagBytes) .frameTooLarge
  validateFrameFlags s.mode flags
  validateFlagTransition s.mode s.finished
  require (s.exhausted = false) .sequenceExhausted

def PeerFrameSealer.encrypt (aead : Aead Key) (s : PeerFrameSealer Key) (plaintext : Bytes)
    (flags : PeerRelayFlags) : Option Bytes :=
  aead.encrypt s.key (frameNonce s.noncePrefix s.nextSequence)
    (frameAad s.contextHash s.sessionId s.channelId flags s.nextSequence) plaintext

def PeerFrameSealer.advance (s : PeerFrameSealer Key) (flags : PeerRelayFlags) : PeerFrameSealer Key :=
  let s' := match checkedSucc s.nextSequence with
    | some next => { s with nextSequence := next }
    | none => { s with exhausted := true }
  { s' with finished := s'.finished || hasFin flags }

/-- The result and the sealer afterwards, which an early return leaves as it was. -/
def PeerFrameSealer.seal (aead : Aead Key) (s : PeerFrameSealer Key) (plaintext : Bytes)
    (flags : PeerRelayFlags) : Except PeerCryptoError PeerRelayFrame × PeerFrameSealer Key :=
  match s.admits plaintext flags with
  | .error e => (.error e, s)
  | .ok () => match s.encrypt aead plaintext flags with
    | none => (.error .frameTooLarge, s)
    | some ciphertext =>
      match PeerRelayFrame.new s.sessionId s.channelId s.nextSequence flags ciphertext with
      | .error _ => (.error .frameTooLarge, s)
      | .ok frame => (.ok frame, s.advance flags)

def replayWindowBits : UInt64 := 64

def replayWindowAccept (window : ReplayWindow) (sequence : UInt64) : Except PeerCryptoError ReplayWindow :=
  match window.highest with
  | none => .ok ⟨some sequence, 1⟩
  | some highest =>
    if sequence > highest then
      let distance := sequence - highest
      let bitmap := if distance ≥ replayWindowBits then 1 else (window.bitmap <<< distance) ||| 1
      .ok ⟨some sequence, bitmap⟩
    else
      let distance := highest - sequence
      if distance ≥ replayWindowBits ∨ window.bitmap &&& (1 <<< distance) ≠ 0 then .error .replay
      else .ok ⟨window.highest, window.bitmap ||| (1 <<< distance)⟩

def receiveSequence (state : ReceiveState) (sequence : UInt64) : Except PeerCryptoError ReceiveState :=
  match state with
  | .ordered _ true =>
      if sequence.toNat = 2 ^ 64 - 1 then .error .replay else .error .sequenceExhausted
  | .ordered expected false =>
      if sequence < expected then .error .replay
      else if sequence > expected then .error .unexpectedSequence
      else match checkedSucc expected with
        | some next => .ok (.ordered next false)
        | none => .ok (.ordered expected true)
  | .datagram window => match replayWindowAccept window sequence with
      | .error e => .error e
      | .ok window' => .ok (.datagram window')

/-- `decrypt` is the opening half of the AEAD crate. The result and the opener
afterwards, which is written only after authentication. -/
def PeerFrameOpener.open (decrypt : Key → Bytes → Bytes → Bytes → Option Bytes) (o : PeerFrameOpener Key)
    (frame : PeerRelayFrame) : Except PeerCryptoError Bytes × PeerFrameOpener Key :=
  if frame.sessionId ≠ o.sessionId ∨ frame.channelId ≠ o.channelId then (.error .frameContextMismatch, o)
  else match validateFrameFlags o.mode frame.flags with
  | .error e => (.error e, o)
  | .ok () => match receiveSequence o.state frame.sequence with
  | .error e => (.error e, o)
  | .ok nextState => match validateFlagTransition o.mode o.finished with
  | .error e => (.error e, o)
  | .ok () =>
    match decrypt o.key (frameNonce o.noncePrefix frame.sequence)
      (frameAad o.contextHash frame.sessionId frame.channelId frame.flags frame.sequence)
      frame.ciphertext.bytes with
    | none => (.error .frameAuthenticationFailed, o)
    | some plaintext =>
        (.ok plaintext, { o with state := nextState, finished := o.finished || hasFin frame.flags })

theorem frameNonce_injective {pre : Vector UInt8 4} {m n : UInt64}
    (h : frameNonce pre m = frameNonce pre n) : m = n :=
  be_uInt64_injective (List.append_cancel_left h)

theorem frameAad_flags {hash : Vector UInt8 32} {session : SessionId} {channel : UInt64}
    {f g : PeerRelayFlags} {m n : UInt64}
    (h : frameAad hash session channel f m = frameAad hash session channel g n) : f = g := by
  have ht := List.append_cancel_left h
  simp only [List.singleton_append, List.cons.injEq] at ht
  cases f
  cases g
  simpa using ht.1

theorem PeerFrameSealer.admits_ok {s : PeerFrameSealer Key} {plaintext : Bytes} {flags : PeerRelayFlags}
    (h : s.admits plaintext flags = .ok ()) :
    plaintext.length + aeadTagBytes ≤ maxPeerRelayCiphertextBytes ∧
      validateFrameFlags s.mode flags = .ok () ∧ validateFlagTransition s.mode s.finished = .ok () ∧
      s.exhausted = false := by
  simp only [PeerFrameSealer.admits, bind_eq_ok, require_eq_ok] at h
  obtain ⟨_, hl, _, hf, _, ht, hx⟩ := h
  refine ⟨?_, hf, ht, hx⟩
  simp only [maxPeerRelayCiphertextBytes, aeadTagBytes] at hl ⊢
  omega

/-- Everything a successful `open` has checked and all that it writes. -/
theorem PeerFrameOpener.open_ok {decrypt : Key → Bytes → Bytes → Bytes → Option Bytes}
    {o o' : PeerFrameOpener Key} {frame : PeerRelayFrame} {plaintext : Bytes}
    (h : o.open decrypt frame = (.ok plaintext, o')) :
    frame.sessionId = o.sessionId ∧ frame.channelId = o.channelId ∧
      validateFrameFlags o.mode frame.flags = .ok () ∧
      validateFlagTransition o.mode o.finished = .ok () ∧
      decrypt o.key (frameNonce o.noncePrefix frame.sequence)
        (frameAad o.contextHash o.sessionId o.channelId frame.flags frame.sequence)
        frame.ciphertext.bytes = some plaintext ∧
      ∃ nextState, receiveSequence o.state frame.sequence = .ok nextState ∧
        o' = { o with state := nextState, finished := o.finished || hasFin frame.flags } := by
  rw [PeerFrameOpener.open] at h
  split at h
  · simp at h
  · next hc =>
    simp only [ne_eq, not_or, not_not] at hc
    split at h
    · simp at h
    · next hf =>
      split at h
      · simp at h
      · next nextState hr =>
        split at h
        · simp at h
        · next ht =>
          split at h
          · simp at h
          · next p hd =>
            simp only [Prod.mk.injEq, Except.ok.injEq] at h
            obtain ⟨rfl, rfl⟩ := h
            rw [hc.1, hc.2] at hd
            exact ⟨hc.1, hc.2, hf, ht, hd, nextState, hr, rfl⟩

theorem PeerFrameOpener.open_eq_ok {decrypt : Key → Bytes → Bytes → Bytes → Option Bytes}
    {o : PeerFrameOpener Key} {frame : PeerRelayFrame} {plaintext : Bytes} {nextState : ReceiveState}
    (hs : frame.sessionId = o.sessionId) (hc : frame.channelId = o.channelId)
    (hf : validateFrameFlags o.mode frame.flags = .ok ())
    (ht : validateFlagTransition o.mode o.finished = .ok ())
    (hd : decrypt o.key (frameNonce o.noncePrefix frame.sequence)
      (frameAad o.contextHash o.sessionId o.channelId frame.flags frame.sequence)
      frame.ciphertext.bytes = some plaintext)
    (hr : receiveSequence o.state frame.sequence = .ok nextState) :
    o.open decrypt frame =
      (.ok plaintext, { o with state := nextState, finished := o.finished || hasFin frame.flags }) := by
  simp only [PeerFrameOpener.open, hs, hc, ne_eq, not_true_eq_false, or_self, if_false, hf, hr, ht, hd]

theorem PeerFrameOpener.open_error {decrypt : Key → Bytes → Bytes → Bytes → Option Bytes}
    {o o' : PeerFrameOpener Key} {frame : PeerRelayFrame} {e : PeerCryptoError}
    (h : o.open decrypt frame = (.error e, o')) : o' = o := by
  rw [PeerFrameOpener.open] at h
  repeat' split at h
  all_goals simp_all

end Rustgo.PeerCipher
