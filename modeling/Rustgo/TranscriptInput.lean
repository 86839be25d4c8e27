import Rustgo.OrchestrationSteps
import Rustgo.SigningTranscripts

namespace Rustgo.Orchestration

open Postcard.Format (utf8)
open PeerCipher (utf8_injective)
open Coordinator Protocol Rendezvous

theorem toList_loop (bytes : ByteArray) (i : Nat) (read : List UInt8) :
    ByteArray.toList.loop bytes i read = read.reverse ++ bytes.data.toList.drop i := by
  fun_induction ByteArray.toList.loop bytes i read with
  | case1 i read hi ih =>
      have hget : bytes.data.toList.drop i = bytes.get! i :: bytes.data.toList.drop (i + 1) := by
        have hsize : i < bytes.data.toList.length := by simpa using hi
        rw [List.drop_eq_getElem_cons hsize]
        congr 1
        simp [ByteArray.get!, getElem!_pos, hi]
      rw [ih, hget, List.reverse_cons, List.append_assoc, List.singleton_append]
  | case2 i read hi =>
      have hsize : bytes.data.toList.length ≤ i := by simpa using hi
      rw [List.drop_eq_nil_of_le hsize, List.append_nil]

theorem toList_toUTF8 (s : String) : s.toUTF8.toList = utf8 s := toList_loop _ 0 []

theorem length_utf8 (s : String) : (utf8 s).length = s.utf8ByteSize := by
  rw [utf8, Array.length_toList]
  rfl

/-- What a rendezvous transcript says of a session. -/
structure TranscriptFields where
  sessionId : SessionId
  initiator : String
  responder : String
  exportName : String
  expiry : UInt64
  transport : CandidateTransport
  deriving DecidableEq

namespace TranscriptFields

variable {f g : TranscriptFields}

/-- The names of a transcript, one after another. -/
def names (f : TranscriptFields) : Bytes := utf8 f.initiator ++ utf8 f.responder ++ utf8 f.exportName

def input (f : TranscriptFields) : Bytes :=
  utf8 "rustgo-rendezvous-transcript-v1" ++ f.sessionId.bytes.toList ++ f.names ++ be 8 f.expiry.toNat ++
    [transportTag f.transport]

theorem transportTag_injective {a b : CandidateTransport} (h : transportTag a = transportTag b) : a = b := by
  cases a <;> cases b <;> first | rfl | exact absurd h (by decide)

/-- Everything but the names has its place in the input. -/
theorem input_eq_iff : f.input = g.input ↔
    f.sessionId = g.sessionId ∧ f.names = g.names ∧ f.expiry = g.expiry ∧ f.transport = g.transport := by
  constructor
  · intro h
    obtain ⟨h, htransport⟩ := List.append_inj' h rfl
    obtain ⟨h, hexpiry⟩ := List.append_inj' h (by simp)
    rw [List.append_assoc, List.append_assoc] at h
    obtain ⟨hid, hnames⟩ := List.append_inj (List.append_cancel_left h) (by simp)
    have hbytes : f.sessionId.bytes = g.sessionId.bytes := Vector.toList_inj.mp hid
    refine ⟨?_, hnames, be_uInt64_injective hexpiry, transportTag_injective (List.singleton_inj.mp htransport)⟩
    cases hf : f.sessionId
    cases hg : g.sessionId
    rw [hf, hg] at hbytes
    exact congrArg SessionId.mk hbytes
  · rintro ⟨hid, hnames, hexpiry, htransport⟩
    rw [input, input, hid, hnames, hexpiry, htransport]

/-- The names are cut at the same places. -/
def CutAlike (f g : TranscriptFields) : Prop :=
  f.initiator.utf8ByteSize = g.initiator.utf8ByteSize ∧ f.responder.utf8ByteSize = g.responder.utf8ByteSize

theorem names_injective (h : f.names = g.names) (hcut : CutAlike f g) :
    f.initiator = g.initiator ∧ f.responder = g.responder ∧ f.exportName = g.exportName := by
  have hinitiator : (utf8 f.initiator).length = (utf8 g.initiator).length := by
    rw [length_utf8, length_utf8, hcut.1]
  have hresponder : (utf8 f.responder).length = (utf8 g.responder).length := by
    rw [length_utf8, length_utf8, hcut.2]
  rw [names, names, List.append_assoc, List.append_assoc] at h
  obtain ⟨hi, h⟩ := List.append_inj h hinitiator
  obtain ⟨hr, he⟩ := List.append_inj h hresponder
  exact ⟨utf8_injective hi, utf8_injective hr, utf8_injective he⟩

end TranscriptFields

section Input

variable (runtime : Runtime) (id : SessionId) (session : Session) (transport : CandidateTransport)

def transcriptFields : TranscriptFields where
  sessionId := id
  initiator := match session.role with | .initiator => runtime.name | .responder => session.peer
  responder := match session.role with | .initiator => session.peer | .responder => runtime.name
  exportName := session.exportName
  expiry := session.expiry
  transport := transport

/-- The bytes that the transcript hash of a session is taken of. -/
def transcriptHashInput : Bytes := (transcriptFields runtime id session transport).input

theorem transcriptHashForTransport_eq : transcriptHashForTransport runtime id session transport =
    runtime.sha256 (transcriptHashInput runtime id session transport) := by
  rw [transcriptHashForTransport, transcriptHashInput, TranscriptFields.input, TranscriptFields.names]
  simp only [toList_toUTF8, transcriptFields, List.append_assoc]
  cases session.role with
  | initiator => rfl
  | responder => rfl

end Input

/-- Two peer sessions with one hash input agree in all that the transcript
names, unless nothing but the places at which the names are cut tells them apart. -/
theorem transcript_input_injective_iff (runtime runtime' : Runtime) (id id' : SessionId) (session session' : Session)
    (transport transport' : CandidateTransport) :
    (transcriptHashInput runtime id session transport = transcriptHashInput runtime' id' session' transport' →
      transcriptFields runtime id session transport = transcriptFields runtime' id' session' transport') ↔
    (id = id' → session.expiry = session'.expiry → transport = transport' →
      (transcriptFields runtime id session transport).names = (transcriptFields runtime' id' session' transport').names →
      (transcriptFields runtime id session transport).CutAlike (transcriptFields runtime' id' session' transport')) := by
  constructor
  · intro h hid hexpiry htransport hnames
    have hfields := h (TranscriptFields.input_eq_iff.mpr ⟨hid, hnames, hexpiry, htransport⟩)
    rw [hfields]
    exact ⟨rfl, rfl⟩
  · intro h heq
    obtain ⟨hid, hnames, hexpiry, htransport⟩ := TranscriptFields.input_eq_iff.mp heq
    obtain ⟨hi, hr, he⟩ := TranscriptFields.names_injective hnames (h hid hexpiry htransport hnames)
    exact TranscriptFields.mk.injEq .. |>.mpr ⟨hid, hi, hr, he, hexpiry, htransport⟩

/-- A session of the device "a" with a peer, as it is opened. -/
def sampleOpened (peer exportName : String) : Session :=
  freshSession (sampleRuntime "a" false) (.new 1 sampleVersion) 0 peer exportName .initiator 1020

/-- The peers "bc" and "b" with the exports "d" and "cd". -/
theorem transcript_input_ambiguous :
    transcriptHashInput (sampleRuntime "a" false) (sampleId 1) (sampleOpened "bc" "d") .relay =
      transcriptHashInput (sampleRuntime "a" false) (sampleId 1) (sampleOpened "b" "cd") .relay ∧
    transcriptHashForTransport (sampleRuntime "a" false) (sampleId 1) (sampleOpened "bc" "d") .relay =
      transcriptHashForTransport (sampleRuntime "a" false) (sampleId 1) (sampleOpened "b" "cd") .relay ∧
    (sampleOpened "bc" "d").peer ≠ (sampleOpened "b" "cd").peer ∧
      (sampleOpened "bc" "d").exportName ≠ (sampleOpened "b" "cd").exportName := by
  have hinput : transcriptHashInput (sampleRuntime "a" false) (sampleId 1) (sampleOpened "bc" "d") .relay =
      transcriptHashInput (sampleRuntime "a" false) (sampleId 1) (sampleOpened "b" "cd") .relay := by
    apply TranscriptFields.input_eq_iff.mpr
    exact ⟨rfl, by decide, rfl, rfl⟩
  refine ⟨hinput, ?_, by decide, by decide⟩
  rw [transcriptHashForTransport_eq, transcriptHashForTransport_eq, hinput]

end Rustgo.Orchestration
