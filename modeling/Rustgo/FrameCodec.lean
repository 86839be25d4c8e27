import Rustgo.MessageFormat
import Rustgo.Checks

namespace Rustgo.Protocol

open Checks Postcard

def MAGIC : Bytes := [0x52, 0x53, 0x47, 0x4F]
def headerLen : Nat := 16

structure Frame where
  version : ProtocolVersion
  flags : UInt16
  message : Message
  deriving DecidableEq

inductive FrameError
  | invalidMagic
  | unknownMessage (id : UInt16)
  | unsupportedFlags (flags : UInt16)
  | payloadTooLarge (declared max : Nat)
  | messagePayloadTooLarge (message : MessageId) (declared max : Nat)
  | truncated (needed available : Nat)
  | malformedPayload (message : MessageId)
  | trailingBytes (count : Nat)
  | lengthOverflow
  deriving DecidableEq

structure FrameCodec where
  maxPayload : Nat

structure Header where
  version : ProtocolVersion
  messageId : MessageId
  flags : UInt16
  payloadLen : Nat

def slice (input : Bytes) (start len : Nat) : Bytes := (input.drop start).take len

def validateFlags (flags : UInt16) : Except FrameError Unit :=
  -- no flag is supported, so every set bit is an unsupported one
  require (flags = 0) (.unsupportedFlags flags)

def FrameCodec.validatePayloadLength (codec : FrameCodec) (message : MessageId) (declared : Nat) :
    Except FrameError Unit := do
  require (declared ≤ codec.maxPayload) (.payloadTooLarge declared codec.maxPayload)
  require (declared ≤ message.maxPayload) (.messagePayloadTooLarge message declared message.maxPayload)

def addressBytes : SocketAddress → Bytes
  | .v4 octets port => [4] ++ (octets.toList ++ List.replicate 12 0) ++ be 2 port.toNat
  | .v6 octets port => [6] ++ octets.toList ++ be 2 port.toNat

def encodeUdp (datagram : UdpDatagram) : Except FrameError Bytes := do
  require (¬(datagram.tunnelId = 0 ∨ datagram.sessionId = 0)) (.malformedPayload .udpDatagram)
  pure (be 4 datagram.tunnelId.toNat ++ (be 8 datagram.sessionId.toNat ++
    (addressBytes datagram.source ++ datagram.payload.bytes)))

theorem size_toArray_of {n : Nat} {bytes : Bytes} (h : bytes.length = n) : bytes.toArray.size = n := by simpa using h

def toVector (n : Nat) (bytes : Bytes) : Option (Vector UInt8 n) :=
  if h : bytes.length = n then some ⟨bytes.toArray, size_toArray_of h⟩ else none

def decodeAddress (family : Option UInt8) (address : Bytes) (port : UInt16) : Option SocketAddress :=
  if family = some 4 ∧ address.drop 4 = List.replicate 12 0 then
    (toVector 4 (address.take 4)).map fun octets => .v4 octets port
  else if family = some 6 then (toVector 16 address).map fun octets => .v6 octets port
  else none

def decodeUdp (message : MessageId) (payload : Bytes) : Except FrameError UdpDatagram := do
  require (udpMetadataLen ≤ payload.length) (.malformedPayload message)
  let raw := payload.drop udpMetadataLen
  let tooLarge : FrameError :=
    .messagePayloadTooLarge message payload.length (udpMetadataLen + maxUdpPayloadBytes)
  require (raw.length ≤ maxUdpPayloadBytes) tooLarge
  let tunnelId := UInt32.ofNat (ofBe (slice payload 0 4))
  let sessionId := UInt64.ofNat (ofBe (slice payload 4 8))
  require (¬(tunnelId = 0 ∨ sessionId = 0)) (.malformedPayload message)
  let port := UInt16.ofNat (ofBe (slice payload 29 2))
  let source ← okOr (decodeAddress payload[12]? (slice payload 13 16) port) (.malformedPayload message)
  match BoundedBytes.tryFrom maxUdpPayloadBytes raw with
  | .error _ => throw tooLarge
  | .ok bounded => pure ⟨tunnelId, sessionId, source, bounded⟩

def encodePayload : Message → Except FrameError Bytes
  | .clientHello v => .ok (MessageFormat.clientHello.write v)
  | .serverChallenge v => .ok (MessageFormat.serverChallenge.write v)
  | .clientAuthenticate v => .ok (MessageFormat.clientAuthenticate.write v)
  | .authResult v => .ok (MessageFormat.authResult.write v)
  | .registerTunnels v => .ok (MessageFormat.registerTunnels.write v)
  | .tunnelResults v => .ok (MessageFormat.tunnelResults.write v)
  | .openTcpStream v => .ok (MessageFormat.openTcpStream.write v)
  | .tcpStreamReady v => .ok (MessageFormat.tcpStreamReady.write v)
  | .udpDatagram v => encodeUdp v
  | .heartbeat v => .ok (MessageFormat.heartbeat.write v)
  | .error v => .ok (MessageFormat.errorMessage.write v)
  | .openUdpChannel v => .ok (MessageFormat.wireOpenUdpChannel.write v)
  | .dataChannelBind v => .ok (MessageFormat.dataChannelBind.write v)
  | .udpSessionRetired v => .ok (MessageFormat.wireUdpSessionRetired.write v)
  | .rendezvousRequest v | .rendezvousProviderDecision v | .rendezvousCandidateSet v
  | .rendezvousCandidateSetV2 v | .rendezvousConnectivityResult v | .rendezvousRelayRequest v
  | .rendezvousClose v | .rendezvousError v => .ok v.bytes
  | .peerRelayFrame v => .ok v.bytes
  | .observationGrantRequest => .ok (Format.empty.write ())
  | .observationGrant v => .ok v.bytes
  | .serverNotice v => .ok (MessageFormat.serverNotice.write v)
  | .peerIdentityBinding v => .ok (MessageFormat.peerIdentityBinding.write v)
  | .peerIdentityLookup v => .ok (MessageFormat.peerIdentityLookup.write v)
  | .punchGrant v => .ok (MessageFormat.punchGrant.write v)
  | .telemetryReport v => .ok (MessageFormat.telemetryReport.write v)
  | .managedConfigRequest v => .ok (MessageFormat.managedConfigRequest.write v)
  | .managedConfigSnapshot v => .ok (MessageFormat.managedConfigSnapshot.write v)
  | .managedConfigReport v => .ok (MessageFormat.managedConfigReport.write v)
  | .managedConfigUpdate v => .ok (MessageFormat.managedConfigUpdate.write v)
  | .managedConfigUpdateResult v => .ok (MessageFormat.managedConfigUpdateResult.write v)
  | .enrollmentRequest v => .ok (MessageFormat.enrollmentRequest.write v)
  | .enrollmentResult v => .ok (MessageFormat.enrollmentResult.write v)

/-- The control codec refuses bytes that the value did not use. -/
def deserialize {α : Type} (format : Format α) (message : MessageId) (payload : Bytes) : Except FrameError α :=
  match format.read payload with
  | some (value, []) => .ok value
  | _ => .error (.malformedPayload message)

def decodeOpaque (max : Nat) (payload : Bytes) : Except FrameError (BoundedBytes max) :=
  match BoundedBytes.tryFrom max payload with
  | .ok value => .ok value
  | .error _ => .error .lengthOverflow

def decodePayload (message : MessageId) (payload : Bytes) : Except FrameError Message :=
  match message with
  | .clientHello => .clientHello <$> deserialize MessageFormat.clientHello message payload
  | .serverChallenge => .serverChallenge <$> deserialize MessageFormat.serverChallenge message payload
  | .clientAuthenticate => .clientAuthenticate <$> deserialize MessageFormat.clientAuthenticate message payload
  | .authResult => .authResult <$> deserialize MessageFormat.authResult message payload
  | .registerTunnels => .registerTunnels <$> deserialize MessageFormat.registerTunnels message payload
  | .tunnelResults => .tunnelResults <$> deserialize MessageFormat.tunnelResults message payload
  | .openTcpStream => .openTcpStream <$> deserialize MessageFormat.openTcpStream message payload
  | .tcpStreamReady => .tcpStreamReady <$> deserialize MessageFormat.tcpStreamReady message payload
  | .udpDatagram => .udpDatagram <$> decodeUdp message payload
  | .heartbeat => .heartbeat <$> deserialize MessageFormat.heartbeat message payload
  | .error => .error <$> deserialize MessageFormat.errorMessage message payload
  | .openUdpChannel => (fun c => .openUdpChannel c.val) <$> deserialize MessageFormat.openUdpChannel message payload
  | .dataChannelBind => .dataChannelBind <$> deserialize MessageFormat.dataChannelBind message payload
  | .udpSessionRetired =>
      (fun r => .udpSessionRetired r.val) <$> deserialize MessageFormat.udpSessionRetired message payload
  | .rendezvousRequest => .rendezvousRequest <$> decodeOpaque _ payload
  | .rendezvousProviderDecision => .rendezvousProviderDecision <$> decodeOpaque _ payload
  | .rendezvousCandidateSet => .rendezvousCandidateSet <$> decodeOpaque _ payload
  | .rendezvousCandidateSetV2 => .rendezvousCandidateSetV2 <$> decodeOpaque _ payload
  | .rendezvousConnectivityResult => .rendezvousConnectivityResult <$> decodeOpaque _ payload
  | .rendezvousRelayRequest => .rendezvousRelayRequest <$> decodeOpaque _ payload
  | .rendezvousClose => .rendezvousClose <$> decodeOpaque _ payload
  | .rendezvousError => .rendezvousError <$> decodeOpaque _ payload
  | .peerRelayFrame => .peerRelayFrame <$> decodeOpaque _ payload
  | .observationGrantRequest => (fun _ => .observationGrantRequest) <$> deserialize Format.empty message payload
  | .observationGrant => .observationGrant <$> decodeOpaque _ payload
  | .serverNotice => .serverNotice <$> deserialize MessageFormat.serverNotice message payload
  | .peerIdentityBinding => .peerIdentityBinding <$> deserialize MessageFormat.peerIdentityBinding message payload
  | .peerIdentityLookup => .peerIdentityLookup <$> deserialize MessageFormat.peerIdentityLookup message payload
  | .punchGrant => .punchGrant <$> deserialize MessageFormat.punchGrant message payload
  | .telemetryReport => .telemetryReport <$> deserialize MessageFormat.telemetryReport message payload
  | .managedConfigRequest =>
      .managedConfigRequest <$> deserialize MessageFormat.managedConfigRequest message payload
  | .managedConfigSnapshot =>
      .managedConfigSnapshot <$> deserialize MessageFormat.managedConfigSnapshot message payload
  | .managedConfigReport => .managedConfigReport <$> deserialize MessageFormat.managedConfigReport message payload
  | .managedConfigUpdate => .managedConfigUpdate <$> deserialize MessageFormat.managedConfigUpdate message payload
  | .managedConfigUpdateResult =>
      .managedConfigUpdateResult <$> deserialize MessageFormat.managedConfigUpdateResult message payload
  | .enrollmentRequest => .enrollmentRequest <$> deserialize MessageFormat.enrollmentRequest message payload
  | .enrollmentResult => .enrollmentResult <$> deserialize MessageFormat.enrollmentResult message payload

def header (version : ProtocolVersion) (flags : UInt16) (message : MessageId) (payloadLen : Nat) : Bytes :=
  MAGIC ++ (be 2 version.major.toNat ++ (be 2 version.minor.toNat ++ (be 2 message.asU16.toNat ++
    (be 2 flags.toNat ++ be 4 payloadLen))))

def FrameCodec.encode (codec : FrameCodec) (version : ProtocolVersion) (flags : UInt16) (message : Message) :
    Except FrameError Bytes := do
  validateFlags flags
  let payload ← encodePayload message
  codec.validatePayloadLength message.id payload.length
  require (payload.length < 2 ^ 32) .lengthOverflow
  pure (header version flags message.id payload.length ++ payload)

/-- What `inspect_header` reads from at least `headerLen` bytes. -/
def FrameCodec.parseHeader (codec : FrameCodec) (input : Bytes) : Except FrameError Header := do
  require (slice input 0 4 = MAGIC) .invalidMagic
  let major := UInt16.ofNat (ofBe (slice input 4 2))
  let minor := UInt16.ofNat (ofBe (slice input 6 2))
  let messageId ← match MessageId.tryFrom (UInt16.ofNat (ofBe (slice input 8 2))) with
    | .ok id => pure id
    | .error raw => throw (.unknownMessage raw)
  let flags := UInt16.ofNat (ofBe (slice input 10 2))
  validateFlags flags
  let payloadLen := ofBe (slice input 12 4)
  codec.validatePayloadLength messageId payloadLen
  pure ⟨⟨major, minor⟩, messageId, flags, payloadLen⟩

def FrameCodec.inspectHeader (codec : FrameCodec) (input : Bytes) : Except FrameError (Option Header) :=
  if input.length < headerLen then .ok none else some <$> codec.parseHeader input

def FrameCodec.decodeExact (codec : FrameCodec) (input : Bytes) : Except FrameError Frame := do
  require (headerLen ≤ input.length) (.truncated headerLen input.length)
  let header ← codec.parseHeader input
  let frameLen := headerLen + header.payloadLen
  require (frameLen ≤ input.length) (.truncated frameLen input.length)
  require (input.length ≤ frameLen) (.trailingBytes (input.length - frameLen))
  let message ← decodePayload header.messageId (input.drop headerLen)
  pure ⟨header.version, header.flags, message⟩

/-- Takes one frame off an incremental buffer. Nothing is consumed while the
frame is incomplete. -/
def FrameCodec.decode (codec : FrameCodec) (input : Bytes) : Except FrameError (Option Frame × Bytes) := do
  match ← codec.inspectHeader input with
  | none => pure (none, input)
  | some header =>
      let frameLen := headerLen + header.payloadLen
      if input.length < frameLen then pure (none, input)
      else
        let message ← decodePayload header.messageId (slice input headerLen header.payloadLen)
        pure (some ⟨header.version, header.flags, message⟩, input.drop frameLen)

/-- The checks on field values that the bounded types do not make. -/
def Message.Valid : Message → Prop
  | .udpDatagram d => d.tunnelId ≠ 0 ∧ d.sessionId ≠ 0
  | .openUdpChannel c => c.hasValidLimits = true
  | .udpSessionRetired r => r.tunnelId ≠ 0 ∧ r.sessionId ≠ 0
  | _ => True

/-- A message whose payload fits its kind's limit and reads back. -/
def Carried (m : Message) : Prop :=
  ∃ payload, encodePayload m = .ok payload ∧ payload.length ≤ m.id.maxPayload ∧
    decodePayload m.id payload = .ok m

theorem deserialize_write {α : Type} (format : Format α) (message : MessageId) (a : α) :
    deserialize format message (format.write a) = .ok a := by
  have h := format.read_write a []
  rw [List.append_nil] at h
  rw [deserialize, h]

theorem carried_of_format {α : Type} (format : Format α) (wrap : α → Message) (id : MessageId) {a : α}
    (hi : (wrap a).id = id) (he : encodePayload (wrap a) = .ok (format.write a)) (hw : format.width ≤ id.maxPayload)
    (hd : ∀ payload, decodePayload id payload = wrap <$> deserialize format id payload) : Carried (wrap a) := by
  subst hi
  refine ⟨format.write a, he, (format.write_length a).trans hw, ?_⟩
  rw [hd, deserialize_write]
  rfl

theorem carried_of_opaque {max : Nat} (wrap : BoundedBytes max → Message) (id : MessageId)
    {a : BoundedBytes max} (hi : (wrap a).id = id) (he : encodePayload (wrap a) = .ok a.bytes)
    (hw : max ≤ id.maxPayload) (hd : ∀ payload, decodePayload id payload = wrap <$> decodeOpaque max payload) :
    Carried (wrap a) := by
  subst hi
  refine ⟨a.bytes, he, a.bounded.trans hw, ?_⟩
  rw [hd, decodeOpaque, BoundedBytes.tryFrom_of_le a.bounded]
  rfl

theorem slice_eq {input left mid right : Bytes} {i n : Nat} (h : input = left ++ (mid ++ right))
    (hi : left.length = i) (hn : mid.length = n) : slice input i n = mid := by
  subst h hi hn
  simp [slice]

theorem toVector_toList {n : Nat} (v : Vector UInt8 n) : toVector n v.toList = some v := by
  have hl : v.toList.length = n := by simp
  rw [toVector, dif_pos hl]
  simp [Vector.toList]

theorem addressBytes_eq (a : SocketAddress) :
    ∃ (family : UInt8) (address : Bytes) (port : UInt16),
      addressBytes a = [family] ++ (address ++ be 2 port.toNat) ∧ address.length = 16 ∧
        decodeAddress (some family) address port = some a := by
  cases a with
  | v4 octets port =>
      have ho : octets.toList.length = 4 := by simp
      refine ⟨4, octets.toList ++ List.replicate 12 0, port, by simp [addressBytes], by simp, ?_⟩
      have hdrop : (octets.toList ++ List.replicate 12 0).drop 4 = List.replicate 12 0 := List.drop_left' ho
      have htake : (octets.toList ++ List.replicate 12 0).take 4 = octets.toList := List.take_left' ho
      rw [decodeAddress, if_pos ⟨rfl, hdrop⟩, htake, toVector_toList]
      rfl
  | v6 octets port =>
      refine ⟨6, octets.toList, port, by simp [addressBytes], by simp, ?_⟩
      rw [decodeAddress, if_neg (by simp), if_pos rfl, toVector_toList]
      rfl

/-- The five fields of the metadata at the offsets the decoder cuts at. -/
theorem decodeUdp_layout {tunnelId : UInt32} {sessionId : UInt64} {family : UInt8} {address : Bytes}
    {port : UInt16} {data payload : Bytes} (hl : address.length = 16)
    (hp : payload = be 4 tunnelId.toNat ++ (be 8 sessionId.toNat ++
      ([family] ++ (address ++ be 2 port.toNat) ++ data))) :
    payload.drop udpMetadataLen = data ∧ payload[12]? = some family ∧ slice payload 13 16 = address ∧
      UInt32.ofNat (ofBe (slice payload 0 4)) = tunnelId ∧
      UInt64.ofNat (ofBe (slice payload 4 8)) = sessionId ∧
      UInt16.ofNat (ofBe (slice payload 29 2)) = port := by
  have h4 : (be 4 tunnelId.toNat).length = 4 := length_be 4 _
  have h8 : (be 8 sessionId.toNat).length = 8 := length_be 8 _
  have h2 : (be 2 port.toNat).length = 2 := length_be 2 _
  refine ⟨?_, ?_, ?_, ?_, ?_, ?_⟩
  · have hassoc : payload = (be 4 tunnelId.toNat ++ (be 8 sessionId.toNat ++
        ([family] ++ (address ++ be 2 port.toNat)))) ++ data := by
      rw [hp]
      simp only [List.append_assoc]
    rw [hassoc]
    exact List.drop_left' (by simp [hl, udpMetadataLen])
  · rw [hp, List.getElem?_append_right (by omega), List.getElem?_append_right (by omega), h4, h8]
    rfl
  · have hassoc : payload = (be 4 tunnelId.toNat ++ (be 8 sessionId.toNat ++ [family])) ++
        (address ++ (be 2 port.toNat ++ data)) := by
      rw [hp]
      simp only [List.append_assoc]
    exact slice_eq hassoc (by simp) hl
  · have hstart : slice payload 0 4 = be 4 tunnelId.toNat := slice_eq (hp.trans (List.nil_append _).symm) rfl h4
    rw [hstart, ofBe_be tunnelId.toNat_lt]
    simp
  · rw [slice_eq hp h4 h8, ofBe_be sessionId.toNat_lt]
    simp
  · have hassoc : payload = (be 4 tunnelId.toNat ++ (be 8 sessionId.toNat ++ ([family] ++ address))) ++
        (be 2 port.toNat ++ data) := by
      rw [hp]
      simp only [List.append_assoc]
    rw [slice_eq hassoc (by simp [hl]) h2, ofBe_be port.toNat_lt]
    simp

/-- A datagram with ids reads back from its encoding. -/
theorem decodeUdp_encodeUdp (message : MessageId) {d : UdpDatagram} (ht : d.tunnelId ≠ 0) (hs : d.sessionId ≠ 0) :
    ∃ payload, encodeUdp d = .ok payload ∧ payload.length = udpMetadataLen + d.payload.bytes.length ∧
      decodeUdp message payload = .ok d := by
  obtain ⟨family, address, port, ha, hl, hd⟩ := addressBytes_eq d.source
  have hnz : ¬(d.tunnelId = 0 ∨ d.sessionId = 0) := by tauto
  let payload := be 4 d.tunnelId.toNat ++ (be 8 d.sessionId.toNat ++ (addressBytes d.source ++ d.payload.bytes))
  have he : encodeUdp d = .ok payload := by
    simp only [encodeUdp, require_of hnz]
    rfl
  obtain ⟨hraw, hfamily, haddress, htunnel, hsession, hport⟩ :=
    decodeUdp_layout hl (show payload = _ by rw [← ha])
  have hlen : payload.length = udpMetadataLen + d.payload.bytes.length := by
    simp only [payload, ha, List.length_append, length_be, List.length_singleton, hl, udpMetadataLen]
    omega
  refine ⟨payload, he, hlen, ?_⟩
  simp only [decodeUdp, hraw, hfamily, haddress, htunnel, hsession, hport, hd, okOr, require_of hnz,
    require_of d.payload.bounded, BoundedBytes.tryFrom_of_le d.payload.bounded,
    require_of (show udpMetadataLen ≤ payload.length by omega)]
  rfl

theorem carried_udpDatagram {d : UdpDatagram} (ht : d.tunnelId ≠ 0) (hs : d.sessionId ≠ 0) :
    Carried (.udpDatagram d) := by
  obtain ⟨payload, he, hlen, hd⟩ := decodeUdp_encodeUdp .udpDatagram ht hs
  refine ⟨payload, he, ?_, ?_⟩
  · rw [hlen]
    exact Nat.add_le_add_left d.payload.bounded _
  · change Message.udpDatagram <$> decodeUdp .udpDatagram payload = _
    rw [hd]
    rfl

theorem carried_openUdpChannel {c : OpenUdpChannel} (hc : c.hasValidLimits = true) :
    Carried (.openUdpChannel c) :=
  carried_of_format MessageFormat.openUdpChannel (fun c => .openUdpChannel c.val) .openUdpChannel
    (a := ⟨c, hc⟩) rfl rfl (by decide) (fun _ => rfl)

theorem carried_udpSessionRetired {r : UdpSessionRetired} (hr : r.tunnelId ≠ 0 ∧ r.sessionId ≠ 0) :
    Carried (.udpSessionRetired r) :=
  carried_of_format MessageFormat.udpSessionRetired (fun r => .udpSessionRetired r.val) .udpSessionRetired
    (a := ⟨r, hr⟩) rfl rfl (by decide) (fun _ => rfl)

theorem carried_of_valid {m : Message} (h : m.Valid) : Carried m := by
  cases m with
  | clientHello v =>
      exact carried_of_format MessageFormat.clientHello .clientHello .clientHello rfl rfl (by decide) (fun _ => rfl)
  | serverChallenge v =>
      exact carried_of_format MessageFormat.serverChallenge .serverChallenge .serverChallenge rfl rfl (by decide) (fun _ => rfl)
  | clientAuthenticate v =>
      exact carried_of_format MessageFormat.clientAuthenticate .clientAuthenticate .clientAuthenticate rfl rfl (by decide) (fun _ => rfl)
  | authResult v =>
      exact carried_of_format MessageFormat.authResult .authResult .authResult rfl rfl (by decide) (fun _ => rfl)
  | registerTunnels v =>
      exact carried_of_format MessageFormat.registerTunnels .registerTunnels .registerTunnels rfl rfl (by decide) (fun _ => rfl)
  | tunnelResults v =>
      exact carried_of_format MessageFormat.tunnelResults .tunnelResults .tunnelResults rfl rfl (by decide) (fun _ => rfl)
  | openTcpStream v =>
      exact carried_of_format MessageFormat.openTcpStream .openTcpStream .openTcpStream rfl rfl (by decide) (fun _ => rfl)
  | tcpStreamReady v =>
      exact carried_of_format MessageFormat.tcpStreamReady .tcpStreamReady .tcpStreamReady rfl rfl (by decide) (fun _ => rfl)
  | udpDatagram v => exact carried_udpDatagram h.1 h.2
  | heartbeat v =>
      exact carried_of_format MessageFormat.heartbeat .heartbeat .heartbeat rfl rfl (by decide) (fun _ => rfl)
  | error v =>
      exact carried_of_format MessageFormat.errorMessage .error .error rfl rfl (by decide) (fun _ => rfl)
  | openUdpChannel v => exact carried_openUdpChannel h
  | dataChannelBind v =>
      exact carried_of_format MessageFormat.dataChannelBind .dataChannelBind .dataChannelBind rfl rfl (by decide) (fun _ => rfl)
  | udpSessionRetired v => exact carried_udpSessionRetired h
  | rendezvousRequest v =>
      exact carried_of_opaque .rendezvousRequest .rendezvousRequest rfl rfl (by decide) (fun _ => rfl)
  | rendezvousProviderDecision v =>
      exact carried_of_opaque .rendezvousProviderDecision .rendezvousProviderDecision rfl rfl (by decide) (fun _ => rfl)
  | rendezvousCandidateSet v =>
      exact carried_of_opaque .rendezvousCandidateSet .rendezvousCandidateSet rfl rfl (by decide) (fun _ => rfl)
  | rendezvousCandidateSetV2 v =>
      exact carried_of_opaque .rendezvousCandidateSetV2 .rendezvousCandidateSetV2 rfl rfl (by decide) (fun _ => rfl)
  | rendezvousConnectivityResult v =>
      exact carried_of_opaque .rendezvousConnectivityResult .rendezvousConnectivityResult rfl rfl (by decide) (fun _ => rfl)
  | rendezvousRelayRequest v =>
      exact carried_of_opaque .rendezvousRelayRequest .rendezvousRelayRequest rfl rfl (by decide) (fun _ => rfl)
  | rendezvousClose v =>
      exact carried_of_opaque .rendezvousClose .rendezvousClose rfl rfl (by decide) (fun _ => rfl)
  | rendezvousError v =>
      exact carried_of_opaque .rendezvousError .rendezvousError rfl rfl (by decide) (fun _ => rfl)
  | peerRelayFrame v =>
      exact carried_of_opaque .peerRelayFrame .peerRelayFrame rfl rfl (by decide) (fun _ => rfl)
  | observationGrantRequest =>
      exact carried_of_format Format.empty (fun _ => .observationGrantRequest) .observationGrantRequest
        (a := ()) rfl rfl (by decide) (fun _ => rfl)
  | observationGrant v =>
      exact carried_of_opaque .observationGrant .observationGrant rfl rfl (by decide) (fun _ => rfl)
  | serverNotice v =>
      exact carried_of_format MessageFormat.serverNotice .serverNotice .serverNotice rfl rfl (by decide) (fun _ => rfl)
  | peerIdentityBinding v =>
      exact carried_of_format MessageFormat.peerIdentityBinding .peerIdentityBinding .peerIdentityBinding rfl rfl (by decide) (fun _ => rfl)
  | peerIdentityLookup v =>
      exact carried_of_format MessageFormat.peerIdentityLookup .peerIdentityLookup .peerIdentityLookup rfl rfl (by decide) (fun _ => rfl)
  | punchGrant v =>
      exact carried_of_format MessageFormat.punchGrant .punchGrant .punchGrant rfl rfl (by decide) (fun _ => rfl)
  | telemetryReport v =>
      exact carried_of_format MessageFormat.telemetryReport .telemetryReport .telemetryReport rfl rfl (by decide) (fun _ => rfl)
  | managedConfigRequest v =>
      exact carried_of_format MessageFormat.managedConfigRequest .managedConfigRequest .managedConfigRequest rfl rfl (by decide) (fun _ => rfl)
  | managedConfigSnapshot v =>
      exact carried_of_format MessageFormat.managedConfigSnapshot .managedConfigSnapshot .managedConfigSnapshot rfl rfl (by decide) (fun _ => rfl)
  | managedConfigReport v =>
      exact carried_of_format MessageFormat.managedConfigReport .managedConfigReport .managedConfigReport rfl rfl (by decide) (fun _ => rfl)
  | managedConfigUpdate v =>
      exact carried_of_format MessageFormat.managedConfigUpdate .managedConfigUpdate .managedConfigUpdate rfl rfl (by decide) (fun _ => rfl)
  | managedConfigUpdateResult v =>
      exact carried_of_format MessageFormat.managedConfigUpdateResult .managedConfigUpdateResult .managedConfigUpdateResult rfl rfl (by decide) (fun _ => rfl)
  | enrollmentRequest v =>
      exact carried_of_format MessageFormat.enrollmentRequest .enrollmentRequest .enrollmentRequest rfl rfl (by decide) (fun _ => rfl)
  | enrollmentResult v =>
      exact carried_of_format MessageFormat.enrollmentResult .enrollmentResult .enrollmentResult rfl rfl (by decide) (fun _ => rfl)

theorem MessageId.maxPayload_le_control (id : MessageId) : id.maxPayload ≤ 70 * 1024 := by
  cases id <;> decide

theorem validatePayloadLength_of_le {codec : FrameCodec} {id : MessageId} {n : Nat} (h : n ≤ id.maxPayload)
    (hc : id.maxPayload ≤ codec.maxPayload) : codec.validatePayloadLength id n = .ok () := by
  simp only [FrameCodec.validatePayloadLength, require_of (h.trans hc), require_of h]
  rfl

theorem length_header (v : ProtocolVersion) (flags : UInt16) (id : MessageId) (n : Nat) :
    (header v flags id n).length = headerLen := by
  simp [header, MAGIC, headerLen]

theorem slice_here {mid : Bytes} {n : Nat} (h : mid.length = n) (rest : Bytes) : slice (mid ++ rest) 0 n = mid := by
  subst h
  simp [slice]

theorem slice_skip {left : Bytes} {i w n : Nat} (hl : left.length = w) (h : w ≤ i) (rest : Bytes) :
    slice (left ++ rest) i n = slice rest (i - w) n := by
  subst hl
  simp [slice, List.drop_append, List.drop_eq_nil_of_le h]

theorem parseHeader_header {codec : FrameCodec} {v : ProtocolVersion} {id : MessageId} {n : Nat}
    (h : n ≤ id.maxPayload) (hc : id.maxPayload ≤ codec.maxPayload) (hn : n < 2 ^ 32) (payload : Bytes) :
    codec.parseHeader (header v 0 id n ++ payload) = .ok ⟨v, id, 0, n⟩ := by
  have hm : MAGIC.length = 4 := rfl
  have h2 (x : Nat) : (be 2 x).length = 2 := length_be 2 x
  have h4 : (be 4 n).length = 4 := length_be 4 n
  have hof (x : UInt16) : UInt16.ofNat (ofBe (be 2 x.toNat)) = x := by rw [ofBe_be x.toNat_lt]; simp
  have hlen : ofBe (be 4 n) = n := ofBe_be hn
  have hflags : validateFlags 0 = .ok () := rfl
  have hmagic : slice (header v 0 id n ++ payload) 0 4 = MAGIC := by
    simp only [header, List.append_assoc, slice_here hm]
  have hmajor : slice (header v 0 id n ++ payload) 4 2 = be 2 v.major.toNat := by
    simp (disch := decide) only [header, List.append_assoc, slice_skip hm, slice_here (h2 _), Nat.reduceSub]
  have hminor : slice (header v 0 id n ++ payload) 6 2 = be 2 v.minor.toNat := by
    simp (disch := decide) only [header, List.append_assoc, slice_skip hm, slice_skip (h2 _), slice_here (h2 _),
      Nat.reduceSub]
  have hid : slice (header v 0 id n ++ payload) 8 2 = be 2 id.asU16.toNat := by
    simp (disch := decide) only [header, List.append_assoc, slice_skip hm, slice_skip (h2 _), slice_here (h2 _),
      Nat.reduceSub]
  have hbits : slice (header v 0 id n ++ payload) 10 2 = be 2 (0 : UInt16).toNat := by
    simp (disch := decide) only [header, List.append_assoc, slice_skip hm, slice_skip (h2 _), slice_here (h2 _),
      Nat.reduceSub]
  have hcount : slice (header v 0 id n ++ payload) 12 4 = be 4 n := by
    simp (disch := decide) only [header, List.append_assoc, slice_skip hm, slice_skip (h2 _), slice_here h4,
      Nat.reduceSub]
  simp only [FrameCodec.parseHeader, require_of hmagic, hmajor, hminor, hid, hbits, hcount, hof, hlen, hflags,
    MessageId.tryFrom_asU16, pure_bind, ok_bind, validatePayloadLength_of_le h hc]
  rfl

theorem decodeExact_encode {codec : FrameCodec} {v : ProtocolVersion} {m : Message} (hm : Carried m)
    (hc : m.id.maxPayload ≤ codec.maxPayload) :
    ∃ bytes, codec.encode v 0 m = .ok bytes ∧ codec.decodeExact bytes = .ok ⟨v, 0, m⟩ := by
  obtain ⟨payload, he, hl, hd⟩ := hm
  have hn : payload.length < 2 ^ 32 := by
    have := m.id.maxPayload_le_control
    omega
  have hlen : (header v 0 m.id payload.length ++ payload).length = headerLen + payload.length := by
    rw [List.length_append, length_header]
  refine ⟨header v 0 m.id payload.length ++ payload, ?_, ?_⟩
  · have hflags : validateFlags 0 = .ok () := rfl
    simp only [FrameCodec.encode, hflags, he, ok_bind, validatePayloadLength_of_le hl hc, require_of hn]
    rfl
  · have hdrop : (header v 0 m.id payload.length ++ payload).drop headerLen = payload :=
      List.drop_left' (length_header v 0 m.id payload.length)
    simp only [FrameCodec.decodeExact, parseHeader_header hl hc hn, hlen, hdrop, hd, ok_bind, require_of (Nat.le_refl _),
      require_of (Nat.le_add_right headerLen payload.length)]
    rfl

def controlCodec : FrameCodec := ⟨70 * 1024⟩

/-- No limit on a message kind or on control frames ever refuses a message of
valid field values. -/
theorem control_frame_round_trip (v : ProtocolVersion) (m : Message) (h : m.Valid) :
    ∃ bytes, controlCodec.encode v 0 m = .ok bytes ∧ controlCodec.decodeExact bytes = .ok ⟨v, 0, m⟩ :=
  decodeExact_encode (carried_of_valid h) m.id.maxPayload_le_control

/-- The longest valid message of its kind: 94 of 96 bytes. -/
def widestUdpChannel : OpenUdpChannel :=
  ⟨4294967295, 18446744073709551615, ⟨List.replicate 64 255, by decide⟩, 1000000, 4294967295, 65507, 65536⟩

theorem control_frame_round_trip_widest :
    (Message.openUdpChannel widestUdpChannel).Valid ∧
      ∃ bytes, controlCodec.encode ⟨1, 0⟩ 0 (.openUdpChannel widestUdpChannel) = .ok bytes ∧
        controlCodec.decodeExact bytes = .ok ⟨⟨1, 0⟩, 0, .openUdpChannel widestUdpChannel⟩ := by
  have h : widestUdpChannel.hasValidLimits = true := by decide
  exact ⟨h, control_frame_round_trip ⟨1, 0⟩ (.openUdpChannel widestUdpChannel) h⟩

end Rustgo.Protocol
