import Rustgo.FrameCodec
import Rustgo.PeerTcp
import Rustgo.PostcardStreams

namespace Rustgo

open Checks Postcard Protocol PeerTcp

def PeerRelayFrame.fromProtocolMessage (message : Message) : Except WireError PeerRelayFrame :=
  match message with
  | .peerRelayFrame encoded => okOr (decodeFrame encoded.bytes) .decode
  | _ => .error (.notPeerRelayFrame message.id)

namespace Rendezvous

/-- The key bindings and the candidates of a second-version set, against the envelope. -/
def checkCandidateSet (envelope : RendezvousEnvelope) : Except WireError Unit :=
  match envelope.payload with
  | .candidateSetV2 set => do
      set.validate
      require (∀ candidate ∈ set.candidates.items, candidate.generation = envelope.generation ∧
        candidate.expiresUnixSecs = envelope.expiresUnixSecs) .invalidTransportBindings
  | _ => .ok ()

/-- `postcard::from_bytes` leaves the bytes that the value did not use unread. -/
def fromBytes {α : Type} (format : Format α) (bytes : Bytes) : Option α := (format.read bytes).map Prod.fst

def decodeEnvelope (actual : MessageId) (encoded : Bytes) : Except WireError RendezvousEnvelope := do
  let envelope ← okOr (fromBytes RendezvousFormat.envelope encoded) .decode
  require (envelope.messageId = actual) (.messageIdMismatch envelope.messageId actual)
  checkCandidateSet envelope
  pure envelope

def RendezvousEnvelope.fromProtocolMessage (message : Message) : Except WireError RendezvousEnvelope :=
  match message with
  | .rendezvousRequest encoded | .rendezvousProviderDecision encoded | .rendezvousCandidateSet encoded
  | .rendezvousCandidateSetV2 encoded | .rendezvousConnectivityResult encoded | .rendezvousRelayRequest encoded
  | .rendezvousClose encoded | .rendezvousError encoded => decodeEnvelope message.id encoded.bytes
  | _ => .error (.notRendezvousMessage message.id)

section RoundTrip

theorem fromBytes_write {α : Type} (format : Format α) (a : α) : fromBytes format (format.write a) = some a := by
  have h := format.read_write a []
  rw [List.append_nil] at h
  rw [fromBytes, h, Option.map_some]

theorem decodeEnvelope_write {envelope : RendezvousEnvelope} (h : checkCandidateSet envelope = .ok ()) :
    decodeEnvelope envelope.messageId (RendezvousFormat.envelope.write envelope) = .ok envelope := by
  rw [decodeEnvelope, fromBytes_write, okOr, ok_bind, require_of rfl, ok_bind, h, ok_bind]
  rfl

theorem fromProtocolMessage_opaqueMessage (payload : RendezvousPayload) (encoded : OpaqueRendezvousMessage) :
    RendezvousEnvelope.fromProtocolMessage (opaqueMessage payload encoded) =
      decodeEnvelope payload.messageId encoded.bytes := by
  cases payload <;> rfl

theorem envelope_length (envelope : RendezvousEnvelope) :
    (RendezvousFormat.envelope.write envelope).length ≤ maxRendezvousEnvelopeBytes :=
  (RendezvousFormat.envelope.write_length envelope).trans (by decide)

theorem fromProtocolMessage_toProtocolMessage {envelope : RendezvousEnvelope} (h : checkCandidateSet envelope = .ok ()) :
    ∃ message, envelope.toProtocolMessage = .ok message ∧
      RendezvousEnvelope.fromProtocolMessage message = .ok envelope := by
  refine ⟨opaqueMessage envelope.payload ⟨_, envelope_length envelope⟩, ?_, ?_⟩
  · rw [RendezvousEnvelope.toProtocolMessage, BoundedBytes.tryFrom_of_le (envelope_length envelope)]
  · rw [fromProtocolMessage_opaqueMessage]
    exact decodeEnvelope_write h

theorem decodeFrame_write {frame : PeerRelayFrame} (hchannel : frame.channelId ≠ 0)
    (hlength : frame.ciphertextLen.toNat = frame.ciphertext.bytes.length) :
    decodeFrame (RendezvousFormat.wirePeerRelayFrame.write frame) = some frame := by
  have h := RendezvousFormat.wirePeerRelayFrame.read_write frame []
  rw [List.append_nil] at h
  simp only [decodeFrame, h]
  exact if_pos ⟨hchannel, hlength⟩

theorem new_spec {sessionId : SessionId} {channelId sequence : UInt64} {flags : PeerRelayFlags} {ciphertext : Bytes}
    {frame : PeerRelayFrame} (h : PeerRelayFrame.new sessionId channelId sequence flags ciphertext = .ok frame) :
    frame.channelId ≠ 0 ∧ frame.ciphertextLen.toNat = frame.ciphertext.bytes.length := by
  rw [PeerRelayFrame.new] at h
  split at h
  · cases h
  · next hchannel =>
    split at h
    · cases h
    · next hlength =>
      rw [BoundedBytes.tryFrom] at h
      split at h
      · cases h
      · next hbounded =>
        split at hbounded
        · next hle =>
          obtain rfl := Except.ok.inj hbounded
          obtain rfl := Except.ok.inj h
          refine ⟨hchannel, ?_⟩
          rw [UInt32.toNat_ofNat', Nat.mod_eq_of_lt (not_le.mp hlength)]
        · cases hbounded

theorem relayFrame_length (frame : PeerRelayFrame) :
    (RendezvousFormat.wirePeerRelayFrame.write frame).length ≤ maxPeerRelayFrameBytes :=
  (RendezvousFormat.wirePeerRelayFrame.write_length frame).trans (by decide)

theorem fromProtocolMessage_relayMessage {frame : PeerRelayFrame} (hchannel : frame.channelId ≠ 0)
    (hlength : frame.ciphertextLen.toNat = frame.ciphertext.bytes.length) :
    ∃ message, relayMessage frame = .ok message ∧ PeerRelayFrame.fromProtocolMessage message = .ok frame := by
  refine ⟨.peerRelayFrame ⟨_, relayFrame_length frame⟩, ?_, ?_⟩
  · rw [relayMessage, BoundedBytes.tryFrom_of_le (relayFrame_length frame)]
  · rw [PeerRelayFrame.fromProtocolMessage, decodeFrame_write hchannel hlength, okOr]

/-- The message has the kind of the envelope that is read from it. -/
theorem fromProtocolMessage_eq_ok {message : Message} {envelope : RendezvousEnvelope}
    (h : RendezvousEnvelope.fromProtocolMessage message = .ok envelope) :
    ∃ encoded, message = opaqueMessage envelope.payload encoded ∧
      decodeEnvelope envelope.messageId encoded.bytes = .ok envelope := by
  cases message with
  | rendezvousRequest encoded | rendezvousProviderDecision encoded | rendezvousCandidateSet encoded
  | rendezvousCandidateSetV2 encoded | rendezvousConnectivityResult encoded | rendezvousRelayRequest encoded
  | rendezvousClose encoded | rendezvousError encoded =>
      have hdecode := h
      simp only [RendezvousEnvelope.fromProtocolMessage, decodeEnvelope, bind_eq_ok, require_eq_ok, pure_eq_ok] at hdecode
      obtain ⟨read, -, -, hid, -, -, rfl⟩ := hdecode
      refine ⟨encoded, ?_, by rw [hid]; exact h⟩
      rw [RendezvousEnvelope.messageId] at hid
      cases hpayload : read.payload <;> rw [hpayload] at hid <;> first | rfl | cases hid
  | _ => cases h

theorem messageId_opaqueMessage (payload : RendezvousPayload) (encoded : OpaqueRendezvousMessage) :
    (opaqueMessage payload encoded).id = payload.messageId := by
  cases payload <;> rfl

/-- Every well-formed envelope and relay frame gets into a message and back
out of it, and no message of another kind is read as one. -/
theorem peer_messages_round_trip :
    (∀ envelope : RendezvousEnvelope,
      (∀ set, envelope.payload = .candidateSetV2 set → set.validate = .ok () ∧ ∀ candidate ∈ set.candidates.items,
        candidate.generation = envelope.generation ∧ candidate.expiresUnixSecs = envelope.expiresUnixSecs) →
      ∃ message, envelope.toProtocolMessage = .ok message ∧
        RendezvousEnvelope.fromProtocolMessage message = .ok envelope) ∧
    (∀ sessionId channelId sequence flags ciphertext frame,
      PeerRelayFrame.new sessionId channelId sequence flags ciphertext = .ok frame →
      ∃ message, relayMessage frame = .ok message ∧ PeerRelayFrame.fromProtocolMessage message = .ok frame) ∧
    (∀ message envelope, RendezvousEnvelope.fromProtocolMessage message = .ok envelope →
      message.id = envelope.messageId) ∧
    ∀ message frame, PeerRelayFrame.fromProtocolMessage message = .ok frame → message.id = .peerRelayFrame := by
  refine ⟨fun envelope h => fromProtocolMessage_toProtocolMessage ?_, fun _ _ _ _ _ frame h => ?_,
    fun message envelope h => ?_, fun message frame h => ?_⟩
  · cases hpayload : envelope.payload with
    | candidateSetV2 set =>
        obtain ⟨hvalid, hagree⟩ := h set hpayload
        simp only [checkCandidateSet, hpayload, hvalid, ok_bind]
        exact require_of hagree
    | _ => rw [checkCandidateSet, hpayload]
  · obtain ⟨hchannel, hlength⟩ := new_spec h
    exact fromProtocolMessage_relayMessage hchannel hlength
  · obtain ⟨encoded, rfl, -⟩ := fromProtocolMessage_eq_ok h
    exact messageId_opaqueMessage envelope.payload encoded
  · cases message with
    | peerRelayFrame encoded => rfl
    | _ => cases h

end RoundTrip

section Rest

open Postcard.Format

/-- What `read_frame` makes of a body that it has read behind its length. -/
def readFrame (body : Bytes) : Except PeerTcpError PeerRelayFrame := do
  require (body.length ≤ maxWireFrameBytes) .frameTooLarge
  okOr (decodeFrame body) .malformedFrame

/-- A payload of a control frame that arrives as an envelope. -/
def AcceptsEnvelope (id : MessageId) (payload : Bytes) : Prop :=
  ∃ message envelope, decodePayload id payload = .ok message ∧
    RendezvousEnvelope.fromProtocolMessage message = .ok envelope

def AcceptsRelayFrame (id : MessageId) (payload : Bytes) : Prop :=
  ∃ message frame, decodePayload id payload = .ok message ∧ PeerRelayFrame.fromProtocolMessage message = .ok frame

def AcceptsBody (body : Bytes) : Prop := ∃ frame, readFrame body = .ok frame

instance : Streams RendezvousFormat.sessionId := inferInstanceAs (Streams (iso _ _ _ _))

instance : Streams RendezvousFormat.candidateGeneration := inferInstanceAs (Streams (via _ _ _ _))

instance : Streams RendezvousFormat.candidateTransport := inferInstanceAs (Streams (via _ _ _ _))

instance (max : Nat) (h : max < 2 ^ 64) : Streams (MessageFormat.boundedBytes max h) :=
  inferInstanceAs (Streams (iso _ _ _ _))

instance (max : Nat) (h : max < 2 ^ 64) : Streams (MessageFormat.boundedString max h) :=
  inferInstanceAs (Streams (iso _ _ _ _))

instance {α : Type} (f : Format α) (max : Nat) (h : max < 2 ^ 64) [Streams f] :
    Streams (MessageFormat.boundedVec f max h) :=
  inferInstanceAs (Streams (iso _ _ _ _))

instance : Streams MessageFormat.tunnelProtocol := inferInstanceAs (Streams (via _ _ _ _))

instance : Streams MessageFormat.errorDetail := inferInstanceAs (Streams (MessageFormat.boundedString _ _))

instance : Streams MessageFormat.socketAddress where
  read_append h suffix := by
    obtain ⟨⟨i, rest⟩, hi, h⟩ := Option.bind_eq_some_iff.mp h
    dsimp only at h
    split at h
    · next hv4 =>
      obtain ⟨⟨a, rest⟩, ha, h⟩ := Option.bind_eq_some_iff.mp h
      obtain ⟨rfl, rfl⟩ := Prod.mk.inj (Option.some.inj h)
      simp only [MessageFormat.socketAddress, read_append hi, Option.bind_eq_bind, Option.bind_some, if_pos hv4,
        read_append ha]
      rfl
    · next hv6 =>
      obtain ⟨⟨a, rest⟩, ha, h⟩ := Option.bind_eq_some_iff.mp h
      obtain ⟨rfl, rfl⟩ := Prod.mk.inj (Option.some.inj h)
      simp only [MessageFormat.socketAddress, read_append hi, Option.bind_eq_bind, Option.bind_some, if_neg hv6,
        read_append ha]
      rfl

instance : Streams RendezvousFormat.candidate := inferInstanceAs (Streams (iso _ _ _ _))

instance : Streams RendezvousFormat.ephemeralPublicKey := inferInstanceAs (Streams (MessageFormat.boundedBytes _ _))

instance : Streams RendezvousFormat.rendezvousRequest := inferInstanceAs (Streams (iso _ _ _ _))

instance : Streams RendezvousFormat.providerDecision := inferInstanceAs (Streams (via _ _ _ _))

instance : Streams RendezvousFormat.candidateSet := inferInstanceAs (Streams (iso _ _ _ _))

instance : Streams RendezvousFormat.transportKeyBinding := inferInstanceAs (Streams (iso _ _ _ _))

instance : Streams RendezvousFormat.candidateSetV2 := inferInstanceAs (Streams (iso _ _ _ _))

instance : Streams RendezvousFormat.connectivityResult := inferInstanceAs (Streams (iso _ _ _ _))

instance : Streams RendezvousFormat.relayRequest := inferInstanceAs (Streams (iso _ _ _ _))

instance : Streams RendezvousFormat.rendezvousClose := inferInstanceAs (Streams (iso _ _ _ _))

instance : Streams RendezvousFormat.rendezvousError := inferInstanceAs (Streams (iso _ _ _ _))

instance : Streams RendezvousFormat.payloadIndex := inferInstanceAs (Streams (variant _ _))

theorem map_read_append {α β : Type} {f : Format α} [Streams f] {wrap : α → β} {bytes rest : Bytes} {b : β}
    (h : (f.read bytes).map (fun p => (wrap p.1, p.2)) = some (b, rest)) (suffix : Bytes) :
    (f.read (bytes ++ suffix)).map (fun p => (wrap p.1, p.2)) = some (b, rest ++ suffix) := by
  obtain ⟨⟨a, rest'⟩, ha, heq⟩ := Option.map_eq_some_iff.mp h
  obtain ⟨rfl, rfl⟩ := Prod.mk.inj heq
  rw [read_append ha, Option.map_some]

instance : Streams RendezvousFormat.payload where
  read_append h suffix := by
    obtain ⟨⟨i, rest⟩, hi, h⟩ := Option.bind_eq_some_iff.mp h
    simp only [RendezvousFormat.payload, read_append hi, Option.bind_eq_bind, Option.bind_some]
    match i, h with
    | 0, h | 1, h | 2, h | 3, h | 4, h | 5, h | 6, h | 7, h => exact map_read_append h suffix

instance : Streams RendezvousFormat.protocolVersion := inferInstanceAs (Streams (iso _ _ _ _))

instance : Streams RendezvousFormat.deviceName := inferInstanceAs (Streams (MessageFormat.boundedString _ _))

instance : Streams RendezvousFormat.envelope := inferInstanceAs (Streams (iso _ _ _ _))

instance : Streams RendezvousFormat.peerRelayFlags := inferInstanceAs (Streams (via _ _ _ _))

instance : Streams RendezvousFormat.wirePeerRelayFrame := inferInstanceAs (Streams (iso _ _ _ _))

theorem decodeOpaque_eq_ok {max : Nat} {payload : Bytes} {value : BoundedBytes max} :
    decodeOpaque max payload = .ok value ↔ value.bytes = payload := by
  obtain ⟨bytes, hbytes⟩ := value
  rw [decodeOpaque, BoundedBytes.tryFrom]
  split
  · next h => split at h <;> simp_all [eq_comm]
  · next h =>
    split at h
    · cases h
    · next hover =>
      constructor
      · intro heq
        cases heq
      · rintro rfl
        exact absurd hbytes hover

theorem decodePayload_messageId (payload : RendezvousPayload) (bytes : Bytes) :
    decodePayload payload.messageId bytes = opaqueMessage payload <$> decodeOpaque maxRendezvousEnvelopeBytes bytes := by
  cases payload <;> rfl

theorem decodePayload_id {id : MessageId} {payload : Bytes} {message : Message}
    (h : decodePayload id payload = .ok message) : message.id = id := by
  cases id <;>
    · obtain ⟨_, _, rfl⟩ := map_eq_ok.mp h
      rfl

theorem opaqueMessage_injective {payload : RendezvousPayload} {a b : OpaqueRendezvousMessage}
    (h : opaqueMessage payload a = opaqueMessage payload b) : a = b := by
  cases payload <;> cases h <;> rfl

theorem acceptsEnvelope_iff {id : MessageId} {payload : Bytes} : AcceptsEnvelope id payload ↔
    payload.length ≤ maxRendezvousEnvelopeBytes ∧ ∃ envelope, decodeEnvelope id payload = .ok envelope := by
  constructor
  · rintro ⟨message, envelope, hmessage, henvelope⟩
    obtain ⟨encoded, rfl, hdecode⟩ := fromProtocolMessage_eq_ok henvelope
    have hid : envelope.messageId = id := by
      rw [← decodePayload_id hmessage, messageId_opaqueMessage]
      rfl
    subst hid
    rw [RendezvousEnvelope.messageId, decodePayload_messageId] at hmessage
    obtain ⟨read, hread, heq⟩ := map_eq_ok.mp hmessage
    obtain rfl := opaqueMessage_injective heq
    rw [← decodeOpaque_eq_ok.mp hread]
    exact ⟨read.bounded, envelope, hdecode⟩
  · rintro ⟨hle, envelope, hdecode⟩
    have hid : envelope.messageId = id := by
      have h := hdecode
      simp only [decodeEnvelope, bind_eq_ok, require_eq_ok, pure_eq_ok] at h
      obtain ⟨read, -, -, hid, -, -, rfl⟩ := h
      exact hid
    subst hid
    refine ⟨opaqueMessage envelope.payload ⟨payload, hle⟩, envelope, ?_, ?_⟩
    · rw [RendezvousEnvelope.messageId, decodePayload_messageId]
      exact map_eq_ok.mpr ⟨_, decodeOpaque_eq_ok.mpr rfl, rfl⟩
    · rw [fromProtocolMessage_opaqueMessage]
      exact hdecode

theorem acceptsRelayFrame_iff {id : MessageId} {payload : Bytes} : AcceptsRelayFrame id payload ↔
    payload.length ≤ maxPeerRelayFrameBytes ∧ id = .peerRelayFrame ∧ ∃ frame, decodeFrame payload = some frame := by
  constructor
  · rintro ⟨message, frame, hmessage, hframe⟩
    cases message with
    | peerRelayFrame encoded =>
        obtain rfl : MessageId.peerRelayFrame = id := decodePayload_id hmessage
        obtain ⟨read, hread, heq⟩ := map_eq_ok.mp hmessage
        obtain rfl := Message.peerRelayFrame.inj heq
        rw [← decodeOpaque_eq_ok.mp hread]
        exact ⟨read.bounded, rfl, frame, okOr_eq_ok.mp hframe⟩
    | _ => cases hframe
  · rintro ⟨hle, rfl, frame, hframe⟩
    exact ⟨.peerRelayFrame ⟨payload, hle⟩, frame, map_eq_ok.mpr ⟨_, decodeOpaque_eq_ok.mpr rfl, rfl⟩,
      okOr_eq_ok.mpr hframe⟩

theorem acceptsBody_iff {body : Bytes} : AcceptsBody body ↔
    body.length ≤ maxWireFrameBytes ∧ ∃ frame, decodeFrame body = some frame := by
  simp [AcceptsBody, readFrame]

theorem decodeEnvelope_append {id : MessageId} {payload : Bytes} {envelope : RendezvousEnvelope}
    (h : decodeEnvelope id payload = .ok envelope) (suffix : Bytes) :
    decodeEnvelope id (payload ++ suffix) = .ok envelope := by
  rw [decodeEnvelope] at h ⊢
  obtain ⟨read, hread, hchecks⟩ := bind_eq_ok.mp h
  obtain ⟨⟨value, rest⟩, hvalue, rfl⟩ := Option.map_eq_some_iff.mp (okOr_eq_ok.mp hread)
  rw [fromBytes, read_append hvalue, Option.map_some]
  exact hchecks

theorem decodeFrame_append {payload : Bytes} {frame : PeerRelayFrame} (h : decodeFrame payload = some frame)
    (suffix : Bytes) : decodeFrame (payload ++ suffix) = some frame := by
  rw [decodeFrame] at h ⊢
  split at h
  · next read rest hread =>
    rw [read_append hread]
    exact h
  · cases h

/-- A peer-facing decoder refuses more bytes behind what it accepts only where
they no longer fit its bound. -/
theorem peer_decoders_refuse_rest_iff (suffix : Bytes) :
    (∀ id payload, AcceptsEnvelope id payload → suffix ≠ [] →
      (¬AcceptsEnvelope id (payload ++ suffix) ↔ maxRendezvousEnvelopeBytes < payload.length + suffix.length)) ∧
    (∀ id payload, AcceptsRelayFrame id payload → suffix ≠ [] →
      (¬AcceptsRelayFrame id (payload ++ suffix) ↔ maxPeerRelayFrameBytes < payload.length + suffix.length)) ∧
    ∀ body, AcceptsBody body → suffix ≠ [] →
      (¬AcceptsBody (body ++ suffix) ↔ maxWireFrameBytes < body.length + suffix.length) := by
  refine ⟨fun id payload h _ => ?_, fun id payload h _ => ?_, fun body h _ => ?_⟩
  · obtain ⟨-, envelope, hdecode⟩ := acceptsEnvelope_iff.mp h
    rw [acceptsEnvelope_iff, List.length_append, ← not_le]
    exact not_congr (and_iff_left ⟨envelope, decodeEnvelope_append hdecode suffix⟩)
  · obtain ⟨-, hid, frame, hdecode⟩ := acceptsRelayFrame_iff.mp h
    rw [acceptsRelayFrame_iff, List.length_append, ← not_le]
    exact not_congr (and_iff_left ⟨hid, frame, decodeFrame_append hdecode suffix⟩)
  · obtain ⟨-, frame, hdecode⟩ := acceptsBody_iff.mp h
    rw [acceptsBody_iff, List.length_append, ← not_le]
    exact not_congr (and_iff_left ⟨frame, decodeFrame_append hdecode suffix⟩)

/-- A relay frame of one byte of ciphertext. -/
def slackFrame : PeerRelayFrame := ⟨⟨Vector.replicate 32 7⟩, 1, 0, .RELIABLE, 1, ⟨[9], by decide⟩⟩

theorem slackSender_bounded : "a".utf8ByteSize ≤ maxDeviceNameBytes := by decide

theorem slackTarget_bounded : "b".utf8ByteSize ≤ maxDeviceNameBytes := by decide

theorem slackExport_bounded : "ssh".utf8ByteSize ≤ maxExportNameBytes := by decide

/-- A request of "a" to "b". -/
def slackEnvelope : RendezvousEnvelope where
  version := ⟨1, 1⟩
  sessionId := ⟨Vector.replicate 32 7⟩
  sender := ⟨"a", slackSender_bounded⟩
  target := ⟨"b", slackTarget_bounded⟩
  step := 1
  generation := .INITIAL
  expiresUnixSecs := 60
  payload := .request ⟨⟨"ssh", slackExport_bounded⟩⟩
  signature := ⟨[], Nat.zero_le _⟩

/-- Each of the three decoders takes one more byte behind what it accepts. -/
theorem trailing_byte_accepted :
    (AcceptsEnvelope .rendezvousRequest (RendezvousFormat.envelope.write slackEnvelope) ∧
      AcceptsEnvelope .rendezvousRequest (RendezvousFormat.envelope.write slackEnvelope ++ [0])) ∧
    (AcceptsRelayFrame .peerRelayFrame (RendezvousFormat.wirePeerRelayFrame.write slackFrame) ∧
      AcceptsRelayFrame .peerRelayFrame (RendezvousFormat.wirePeerRelayFrame.write slackFrame ++ [0])) ∧
    AcceptsBody (RendezvousFormat.wirePeerRelayFrame.write slackFrame) ∧
      AcceptsBody (RendezvousFormat.wirePeerRelayFrame.write slackFrame ++ [0]) := by
  have hframe : decodeFrame (RendezvousFormat.wirePeerRelayFrame.write slackFrame) = some slackFrame :=
    decodeFrame_write (by decide) (by decide)
  have hlength : (RendezvousFormat.wirePeerRelayFrame.write slackFrame).length = 38 := by decide
  have henvelope : decodeEnvelope .rendezvousRequest (RendezvousFormat.envelope.write slackEnvelope) = .ok slackEnvelope :=
    decodeEnvelope_write rfl
  have hsize : (RendezvousFormat.envelope.write slackEnvelope).length = 47 := by decide
  refine ⟨⟨acceptsEnvelope_iff.mpr ⟨by rw [hsize]; decide, _, henvelope⟩, ?_⟩,
    ⟨acceptsRelayFrame_iff.mpr ⟨by rw [hlength]; decide, rfl, _, hframe⟩, ?_⟩,
    acceptsBody_iff.mpr ⟨by rw [hlength]; decide, _, hframe⟩, ?_⟩
  · exact acceptsEnvelope_iff.mpr ⟨by rw [List.length_append, hsize]; decide, _, decodeEnvelope_append henvelope [0]⟩
  · exact acceptsRelayFrame_iff.mpr ⟨by rw [List.length_append, hlength]; decide, rfl, _, decodeFrame_append hframe [0]⟩
  · exact acceptsBody_iff.mpr ⟨by rw [List.length_append, hlength]; decide, _, decodeFrame_append hframe [0]⟩

end Rest

end Rendezvous

end Rustgo
