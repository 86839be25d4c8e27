import Rustgo.EnvelopeTranscript
import Rustgo.OrchestrationState

namespace Rustgo

open Postcard.Format (utf8)
open PeerCipher Protocol Rendezvous

section Session

def sessionDomain : Bytes := utf8 "rustgo-peer-session-v1"

def appendRole (role : PeerCipher.PeerRole) (identity : Orchestration.DevicePublicKey) (ephemeral : Vector UInt8 32) : Bytes :=
  [role.tag] ++ (appendBytes identity.bytes.toList ++ appendBytes ephemeral.toList)

/-- What `PeerTranscript::new` encodes. -/
def Orchestration.PeerTranscript.asBytes (transcript : Orchestration.PeerTranscript) : Bytes :=
  sessionDomain ++ (appendBytes transcript.sessionId.bytes.toList ++ be 8 transcript.generation.value.toNat ++
    appendRole .initiator transcript.initiatorIdentity transcript.initiatorEphemeral ++
    appendRole .responder transcript.responderIdentity transcript.responderEphemeral ++
    appendString transcript.exportName ++
    (be 2 transcript.version.major.toNat ++ be 2 transcript.version.minor.toNat) ++ appendBytes transcript.hash.toList)

theorem delimited_appendRole (role : PeerCipher.PeerRole) :
    SelfDelimited fun p : Orchestration.DevicePublicKey × Vector UInt8 32 => appendRole role p.1 p.2 := by
  have hidentity : SelfDelimited fun identity : Orchestration.DevicePublicKey => appendBytes identity.bytes.toList := by
    apply (delimited_vector (by decide)).comap (f := Orchestration.DevicePublicKey.bytes)
    rintro ⟨⟩ ⟨⟩ h
    rwa [Orchestration.DevicePublicKey.mk.injEq]
  exact (hidentity.pair (delimited_vector (by decide))).behind [role.tag]

theorem asBytes_injective : Function.Injective Orchestration.PeerTranscript.asBytes := by
  intro a b h
  have hexport : SelfDelimited (appendString : BoundedString maxExportNameBytes → Bytes) := delimited_appendString (by decide)
  have hhash : SelfDelimited fun hash : Vector UInt8 32 => appendBytes hash.toList := delimited_vector (by decide)
  have hfields := ((((((delimited_sessionId.pair delimited_generation).pair (delimited_appendRole .initiator)).pair
    (delimited_appendRole .responder)).pair hexport).pair delimited_version).pair hhash).behind sessionDomain
  have heq := hfields.injective
    (a := ((((((a.sessionId, a.generation), (a.initiatorIdentity, a.initiatorEphemeral)),
      (a.responderIdentity, a.responderEphemeral)), a.exportName), a.version), a.hash))
    (b := ((((((b.sessionId, b.generation), (b.initiatorIdentity, b.initiatorEphemeral)),
      (b.responderIdentity, b.responderEphemeral)), b.exportName), b.version), b.hash)) trivial trivial h
  cases a
  cases b
  simp only [Prod.mk.injEq, and_assoc] at heq
  simp only [heq]

end Session

section Auth

def authDomain : Bytes := utf8 "rustgo-auth-v1"

/-- A field of 4 GiB or more panics. -/
def appendAuthField (value : Bytes) : Option Bytes :=
  if value.length < 2 ^ 32 then some (appendBytes value) else none

structure AuthTranscript where
  encoded : Bytes
  deriving DecidableEq

def AuthTranscript.new (challenge sessionId : Bytes) (protocolVersion : UInt16) (clientName : String) :
    Option AuthTranscript := do
  let challenge ← appendAuthField challenge
  let sessionId ← appendAuthField sessionId
  let clientName ← appendAuthField (utf8 clientName)
  pure ⟨authDomain ++ (challenge ++ sessionId ++ be 2 protocolVersion.toNat ++ clientName)⟩

/-- Versions with a part of more than one byte are refused. -/
def transcriptVersion (version : ProtocolVersion) : Option UInt16 :=
  if 255 < version.major ∨ 255 < version.minor then none else some ((version.major <<< 8) ||| version.minor)

/-- What a client signs to log in, under the version negotiated for the connection. -/
def loginTranscript (challenge sessionId : Bytes) (version : ProtocolVersion) (clientName : String) : Option AuthTranscript := do
  let version ← transcriptVersion version
  AuthTranscript.new challenge sessionId version clientName

/-- What a client signs to have its enrollment approved. -/
def approvalTranscript (requestId intent : String) : Option AuthTranscript :=
  AuthTranscript.new (utf8 "rustgo-approval-v1") (utf8 requestId) 1 intent

variable {challenge challenge' sessionId sessionId' : Bytes} {version version' : UInt16} {clientName clientName' : String}
  {transcript transcript' : AuthTranscript}

theorem appendAuthField_eq_some {value code : Bytes} :
    appendAuthField value = some code ↔ value.length < 2 ^ 32 ∧ appendBytes value = code := by
  simp [appendAuthField]

theorem authTranscript_new_eq_some : AuthTranscript.new challenge sessionId version clientName = some transcript ↔
    (challenge.length < 2 ^ 32 ∧ sessionId.length < 2 ^ 32 ∧ (utf8 clientName).length < 2 ^ 32) ∧
      ⟨authDomain ++ (appendBytes challenge ++ appendBytes sessionId ++ be 2 version.toNat ++ appendBytes (utf8 clientName))⟩ =
        transcript := by
  simp only [AuthTranscript.new, Option.bind_eq_bind, Option.bind_eq_some_iff, appendAuthField_eq_some, pure,
    Option.some.injEq]
  grind

theorem authTranscript_injective (h : AuthTranscript.new challenge sessionId version clientName = some transcript)
    (h' : AuthTranscript.new challenge' sessionId' version' clientName' = some transcript) :
    challenge = challenge' ∧ sessionId = sessionId' ∧ version = version' ∧ clientName = clientName' := by
  obtain ⟨⟨hc, hs, hn⟩, rfl⟩ := authTranscript_new_eq_some.mp h
  obtain ⟨⟨hc', hs', hn'⟩, heq⟩ := authTranscript_new_eq_some.mp h'
  have hfields := List.append_cancel_left (congrArg AuthTranscript.encoded heq)
  simp only [List.append_assoc] at hfields
  obtain ⟨hchallenge, hfields⟩ := delimited_appendBytes _ _ hc' hc _ _ hfields
  obtain ⟨hsession, hfields⟩ := delimited_appendBytes _ _ hs' hs _ _ hfields
  obtain ⟨hversion, hfields⟩ := Delimited.uInt16 _ _ trivial trivial _ _ hfields
  have hname := utf8_injective (delimited_appendBytes.injective hn' hn hfields)
  exact ⟨hchallenge.symm, hsession.symm, hversion.symm, hname.symm⟩

theorem transcriptVersion_ne_one {version : ProtocolVersion} (hmajor : version.major = 1) :
    transcriptVersion version ≠ some 1 := by
  intro h
  rw [transcriptVersion, hmajor] at h
  split at h
  · exact nomatch h
  · have hlow : ((1 : UInt16) <<< 8 ||| version.minor).toNat = 1 := congrArg UInt16.toNat (Option.some.inj h)
    have hshift : ((1 : UInt16) <<< 8).toNat = 256 := rfl
    rw [UInt16.toNat_or, hshift] at hlow
    have hhigh : 256 ≤ 256 ||| version.minor.toNat := Nat.left_le_or
    omega

theorem loginTranscript_ne_approvalTranscript {version : ProtocolVersion} (hmajor : version.major = 1)
    {requestId intent : String} (h : loginTranscript challenge sessionId version clientName = some transcript) :
    approvalTranscript requestId intent ≠ some transcript := by
  intro h'
  obtain ⟨number, hnumber, h⟩ := Option.bind_eq_some_iff.mp h
  obtain ⟨_, _, rfl, _⟩ := authTranscript_injective h h'
  exact transcriptVersion_ne_one hmajor hnumber

/-- The domains differ in their eighth byte. -/
theorem authTranscript_ne_envelope (h : AuthTranscript.new challenge sessionId version clientName = some transcript)
    (envelope : RendezvousEnvelope) : transcript.encoded ≠ encodeEnvelope envelope := by
  intro heq
  obtain ⟨_, rfl⟩ := authTranscript_new_eq_some.mp h
  have hbyte := congrArg (fun bytes : Bytes => bytes[7]?) heq
  have hauth : 7 < authDomain.length := by decide
  have hpeer : 7 < envelopeDomain.length := by decide
  simp only [encodeEnvelope, List.getElem?_append_left hauth, List.getElem?_append_left hpeer] at hbyte
  exact absurd hbyte (by decide)

/-- Both transcripts stand for what they were made from, and what is signed to log
in over a connection of major version 1, to have an enrollment approved, and
for an envelope are three different byte strings. -/
theorem signatures_keep_their_purpose :
    (∀ challenge sessionId version clientName challenge' sessionId' version' clientName' transcript,
      AuthTranscript.new challenge sessionId version clientName = some transcript →
      AuthTranscript.new challenge' sessionId' version' clientName' = some transcript →
        challenge = challenge' ∧ sessionId = sessionId' ∧ version = version' ∧ clientName = clientName') ∧
      Function.Injective Orchestration.PeerTranscript.asBytes ∧
      ∀ challenge sessionId (version : ProtocolVersion) clientName requestId intent (envelope : RendezvousEnvelope)
        login approval, version.major = 1 →
        loginTranscript challenge sessionId version clientName = some login →
        approvalTranscript requestId intent = some approval →
          login.encoded ≠ approval.encoded ∧ login.encoded ≠ encodeEnvelope envelope ∧
            approval.encoded ≠ encodeEnvelope envelope := by
  refine ⟨fun _ _ _ _ _ _ _ _ _ h h' => authTranscript_injective h h', asBytes_injective, ?_⟩
  intro challenge sessionId version clientName requestId intent envelope login approval hmajor hlogin happroval
  refine ⟨?_, ?_, authTranscript_ne_envelope happroval envelope⟩
  · intro h
    obtain rfl : login = approval := by cases login; cases approval; simpa using h
    exact loginTranscript_ne_approvalTranscript hmajor hlogin happroval
  · obtain ⟨_, _, hnew⟩ := Option.bind_eq_some_iff.mp hlogin
    exact authTranscript_ne_envelope hnew envelope

end Auth

end Rustgo
