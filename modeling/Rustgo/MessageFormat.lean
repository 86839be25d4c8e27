import Rustgo.Postcard
import Rustgo.ProtocolMessage

namespace Rustgo.MessageFormat

open Postcard Protocol

def boundedBytes (max : Nat) (h : max < 2 ^ 64) : Format (BoundedBytes max) :=
  (Format.bytes max h).iso (fun b => ⟨b.bytes, b.bounded⟩) (fun xs => ⟨xs.val, xs.property⟩) (fun _ => rfl)

theorem utf8ByteSize_val {max : Nat} (s : { s : String // s.utf8ByteSize ≤ max }) : s.val.utf8ByteSize ≤ max := s.property

def boundedString (max : Nat) (h : max < 2 ^ 64) : Format (BoundedString max) :=
  (Format.string max h).iso (fun b => ⟨b.str, b.bounded⟩) (fun s => ⟨s.val, utf8ByteSize_val s⟩) (fun _ => rfl)

def boundedVec {α : Type} (f : Format α) (max : Nat) (h : max < 2 ^ 64) : Format (BoundedVec α max) :=
  (f.seq max h).iso (fun b => ⟨b.items, b.bounded⟩) (fun xs => ⟨xs.val, xs.property⟩) (fun _ => rfl)

def protocolErrorCode : Format ProtocolErrorCode :=
  Format.u16.via ProtocolErrorCode.value
    (fun v => if h : (1 ≤ v ∧ v ≤ 12) ∨ v = 255 then some ⟨v, h⟩ else none)
    (fun c => by rw [dif_pos c.known])

def tunnelProtocol : Format TunnelProtocol :=
  Format.byte.via TunnelProtocol.value (fun v => if h : v = 1 ∨ v = 2 then some ⟨v, h⟩ else none)
    (fun p => by rw [dif_pos p.known])

def dataChannelKind : Format DataChannelKind :=
  Format.byte.via DataChannelKind.value (fun v => if h : v = 1 ∨ v = 2 then some ⟨v, h⟩ else none)
    (fun k => by rw [dif_pos k.known])

/-- Derived enumerations put the variant's index first. -/
def socketAddress : Format SocketAddress where
  write
    | .v4 octets port => (Format.variant 2 (by decide)).write 0 ++
        ((Format.array 4).pair Format.u16).write (octets, port)
    | .v6 octets port => (Format.variant 2 (by decide)).write 1 ++
        ((Format.array 16).pair Format.u16).write (octets, port)
  read bytes := do
    let (i, rest) ← (Format.variant 2 (by decide)).read bytes
    if i = 0 then do
      let (a, rest) ← ((Format.array 4).pair Format.u16).read rest
      pure (.v4 a.1 a.2, rest)
    else do
      let (a, rest) ← ((Format.array 16).pair Format.u16).read rest
      pure (.v6 a.1 a.2, rest)
  width := 20
  read_write a rest := by
    cases a with
    | v4 octets port => simp [List.append_assoc, Format.read_write]
    | v6 octets port => simp [List.append_assoc, Format.read_write]
  write_length a := by
    cases a with
    | v4 octets port =>
        have h1 := (Format.variant 2 (by decide)).write_length 0
        have h2 := ((Format.array 4).pair Format.u16).write_length (octets, port)
        rw [List.length_append]
        exact (Nat.add_le_add h1 h2).trans (by decide)
    | v6 octets port =>
        have h1 := (Format.variant 2 (by decide)).write_length 1
        have h2 := ((Format.array 16).pair Format.u16).write_length (octets, port)
        rw [List.length_append]
        exact (Nat.add_le_add h1 h2).trans (by decide)

def enrollmentErrorCodes : List EnrollmentErrorCode :=
  [.invalidKey, .expired, .alreadyUsed, .purposeMismatch, .alreadyBound, .disabled, .publicKeyConflict,
    .capacityReached, .unavailable, .unsupportedVersion, .pendingApproval, .approvalRejected,
    .replacementApprovalPending]

def enrollmentErrorCode : Format EnrollmentErrorCode :=
  (Format.variant 13 (by decide)).via (fun c => Fin.ofNat 13 (enrollmentErrorCodes.idxOf c))
    (fun i => enrollmentErrorCodes[i.val]?) (fun c => by cases c <;> rfl)

def clientName : Format (BoundedString maxClientNameBytes) := boundedString _ (by decide)
def bindingToken : Format (BoundedBytes maxBindingTokenBytes) := boundedBytes _ (by decide)
def sessionIdBytes : Format (BoundedBytes maxSessionIdBytes) := boundedBytes _ (by decide)
def configuration : Format (BoundedBytes maxManagedConfigurationBytes) := boundedBytes _ (by decide)
def errorDetail : Format (BoundedString maxErrorDetailBytes) := boundedString _ (by decide)

def clientHello : Format ClientHello :=
  (clientName.pair ((boundedBytes _ (by decide)).pair Format.u32)).iso
    (fun v => (v.clientName, v.fingerprint, v.heartbeatIntervalSecs)) (fun p => ⟨p.1, p.2.1, p.2.2⟩)
    (fun _ => rfl)

def serverChallenge : Format ServerChallenge :=
  ((boundedBytes _ (by decide)).pair sessionIdBytes).iso (fun v => (v.challenge, v.sessionId))
    (fun p => ⟨p.1, p.2⟩) (fun _ => rfl)

def clientAuthenticate : Format ClientAuthenticate :=
  ((boundedBytes _ (by decide)).pair (boundedBytes _ (by decide))).iso (fun v => (v.publicKey, v.signature))
    (fun p => ⟨p.1, p.2⟩) (fun _ => rfl)

def authResult : Format AuthResult :=
  (Format.bool.pair protocolErrorCode.option).iso (fun v => (v.accepted, v.error)) (fun p => ⟨p.1, p.2⟩)
    (fun _ => rfl)

def tunnelRegistration : Format TunnelRegistration :=
  (Format.u32.pair ((boundedString _ (by decide)).pair (tunnelProtocol.pair Format.u16))).iso
    (fun v => (v.tunnelId, v.name, v.protocol, v.remotePort)) (fun p => ⟨p.1, p.2.1, p.2.2.1, p.2.2.2⟩)
    (fun _ => rfl)

def registerTunnels : Format RegisterTunnels :=
  (boundedVec tunnelRegistration _ (by decide)).iso RegisterTunnels.tunnels (fun v => ⟨v⟩) (fun _ => rfl)

def tunnelResult : Format TunnelResult :=
  (Format.u32.pair (Format.bool.pair protocolErrorCode.option)).iso
    (fun v => (v.tunnelId, v.accepted, v.error)) (fun p => ⟨p.1, p.2.1, p.2.2⟩) (fun _ => rfl)

def tunnelResults : Format TunnelResults :=
  (boundedVec tunnelResult _ (by decide)).iso TunnelResults.results (fun v => ⟨v⟩) (fun _ => rfl)

def openTcpStream : Format OpenTcpStream :=
  (Format.u32.pair (Format.u64.pair (socketAddress.pair bindingToken))).iso
    (fun v => (v.tunnelId, v.connectionId, v.peer, v.bindingToken)) (fun p => ⟨p.1, p.2.1, p.2.2.1, p.2.2.2⟩)
    (fun _ => rfl)

def tcpStreamReady : Format TcpStreamReady :=
  (Format.u64.pair (Format.bool.pair protocolErrorCode.option)).iso
    (fun v => (v.connectionId, v.accepted, v.error)) (fun p => ⟨p.1, p.2.1, p.2.2⟩) (fun _ => rfl)

def heartbeat : Format Heartbeat := Format.u64.iso Heartbeat.sequence (fun v => ⟨v⟩) (fun _ => rfl)

def errorMessage : Format ErrorMessage :=
  (protocolErrorCode.pair errorDetail).iso (fun v => (v.code, v.detail)) (fun p => ⟨p.1, p.2⟩) (fun _ => rfl)

def dataChannelBind : Format DataChannelBind :=
  (clientName.pair (sessionIdBytes.pair (dataChannelKind.pair (Format.u32.pair
    (Format.u64.pair bindingToken))))).iso
    (fun v => (v.clientName, v.sessionId, v.kind, v.tunnelId, v.targetId, v.bindingToken))
    (fun p => ⟨p.1, p.2.1, p.2.2.1, p.2.2.2.1, p.2.2.2.2.1, p.2.2.2.2.2⟩) (fun _ => rfl)

def serverNotice : Format ServerNotice :=
  ((Format.array 32).pair (Format.u16.pair (errorDetail.pair clientName.option))).iso
    (fun v => (v.sessionId, v.code, v.detail, v.peer)) (fun p => ⟨p.1, p.2.1, p.2.2.1, p.2.2.2⟩)
    (fun _ => rfl)

def punchGrant : Format PunchGrant :=
  ((Format.array 32).pair (Format.u64.pair (Format.u64.pair (Format.u16.pair (Format.u16.pair
    ((Format.array 32).pair ((Format.array 32).pair (Format.array 32)))))))).iso
    (fun v => (v.sessionId, v.generation, v.startUnixMillis, v.windowMillis, v.cadenceMillis,
      v.initiatorCandidatesSha256, v.responderCandidatesSha256, v.token))
    (fun p => ⟨p.1, p.2.1, p.2.2.1, p.2.2.2.1, p.2.2.2.2.1, p.2.2.2.2.2.1, p.2.2.2.2.2.2.1,
      p.2.2.2.2.2.2.2⟩) (fun _ => rfl)

def peerIdentityBinding : Format PeerIdentityBinding :=
  ((Format.array 32).pair (clientName.pair ((boundedString _ (by decide)).pair (tunnelProtocol.option.pair
    (Format.bool.pair Format.u64))))).iso
    (fun v => (v.sessionId, v.peer, v.publicKey, v.protocol, v.peerIsProvider, v.expiresUnixSecs))
    (fun p => ⟨p.1, p.2.1, p.2.2.1, p.2.2.2.1, p.2.2.2.2.1, p.2.2.2.2.2⟩) (fun _ => rfl)

def peerIdentityLookup : Format PeerIdentityLookup :=
  ((Format.array 32).pair clientName).iso (fun v => (v.sessionId, v.peer)) (fun p => ⟨p.1, p.2⟩) (fun _ => rfl)

def telemetryReport : Format TelemetryReport :=
  (Format.u64.pair (Format.u64.pair (Format.u16.pair (Format.u64.pair (Format.u64.pair (Format.u64.pair
    (Format.u64.pair (Format.u64.pair Format.u64)))))))).iso
    (fun v => (v.sampledUnixMillis, v.sequence, v.cpuBasisPoints, v.memoryUsedBytes, v.memoryTotalBytes,
      v.diskUsedBytes, v.diskTotalBytes, v.txBytesPerSec, v.rxBytesPerSec))
    (fun p => ⟨p.1, p.2.1, p.2.2.1, p.2.2.2.1, p.2.2.2.2.1, p.2.2.2.2.2.1, p.2.2.2.2.2.2.1,
      p.2.2.2.2.2.2.2.1, p.2.2.2.2.2.2.2.2⟩) (fun _ => rfl)

def enrollmentRequest : Format EnrollmentRequest :=
  (Format.u16.pair ((boundedString _ (by decide)).pair ((boundedBytes _ (by decide)).pair
    (boundedString _ (by decide))))).iso
    (fun v => (v.protocolVersion, v.enrollmentKey, v.publicKey, v.requestId))
    (fun p => ⟨p.1, p.2.1, p.2.2.1, p.2.2.2⟩) (fun _ => rfl)

def enrollmentResult : Format EnrollmentResultMessage :=
  (Format.u16.pair (Format.bool.pair (clientName.option.pair (Format.u64.option.pair
    enrollmentErrorCode.option)))).iso
    (fun v => (v.protocolVersion, v.accepted, v.clientId, v.revision, v.error))
    (fun p => ⟨p.1, p.2.1, p.2.2.1, p.2.2.2.1, p.2.2.2.2⟩) (fun _ => rfl)

def managedConfigRequest : Format ManagedConfigRequest :=
  configuration.iso ManagedConfigRequest.configuration (fun v => ⟨v⟩) (fun _ => rfl)

def managedConfigSnapshot : Format ManagedConfigSnapshot :=
  (Format.u64.pair configuration.option).iso (fun v => (v.revision, v.configuration))
    (fun p => ⟨p.1, p.2⟩) (fun _ => rfl)

def managedConfigReport : Format ManagedConfigReport :=
  (Format.u64.pair configuration).iso (fun v => (v.revision, v.results)) (fun p => ⟨p.1, p.2⟩) (fun _ => rfl)

def managedConfigUpdate : Format ManagedConfigUpdate :=
  (Format.u64.pair configuration).iso (fun v => (v.expectedRevision, v.configuration))
    (fun p => ⟨p.1, p.2⟩) (fun _ => rfl)

def managedConfigUpdateResult : Format ManagedConfigUpdateResult :=
  (Format.u64.pair (boundedString 1024 (by decide)).option).iso (fun v => (v.revision, v.error))
    (fun p => ⟨p.1, p.2⟩) (fun _ => rfl)

/-- The derived wire form, before the limits are checked on arrival. -/
def wireOpenUdpChannel : Format OpenUdpChannel :=
  (Format.u32.pair (Format.u64.pair (bindingToken.pair (Format.u32.pair (Format.u32.pair
    (Format.u32.pair Format.u32)))))).iso
    (fun v => (v.tunnelId, v.channelId, v.bindingToken, v.maxSessions, v.idleTimeoutMillis,
      v.maxPayloadBytes, v.queueCapacity))
    (fun p => ⟨p.1, p.2.1, p.2.2.1, p.2.2.2.1, p.2.2.2.2.1, p.2.2.2.2.2.1, p.2.2.2.2.2.2⟩) (fun _ => rfl)

def wireUdpSessionRetired : Format UdpSessionRetired :=
  (Format.u32.pair Format.u64).iso (fun v => (v.tunnelId, v.sessionId)) (fun p => ⟨p.1, p.2⟩) (fun _ => rfl)

def openUdpChannel : Format { c : OpenUdpChannel // c.hasValidLimits = true } :=
  (wireOpenUdpChannel.via Subtype.val
    (fun c => if h : c.hasValidLimits = true then some ⟨c, h⟩ else none)
    (fun c => by rw [dif_pos c.property])).narrow 94 (fun c => by
      obtain ⟨c, hc⟩ := c
      simp only [OpenUdpChannel.hasValidLimits, Bool.and_eq_true, decide_eq_true_eq] at hc
      obtain ⟨⟨⟨⟨⟨⟨⟨⟨-, -⟩, -⟩, hsessions⟩, -⟩, -⟩, hpayload⟩, -⟩, hqueue⟩ := hc
      have h1 := Format.u32.write_length c.tunnelId
      have h2 := Format.u64.write_length c.channelId
      have h3 := bindingToken.write_length c.bindingToken
      have h4 : (Format.u32.write c.maxSessions).length ≤ 3 :=
        varint_length_of_lt (by decide) (by
          have := UInt32.le_iff_toNat_le.mp hsessions
          exact Nat.lt_of_le_of_lt this (by decide)) 5
      have h5 := Format.u32.write_length c.idleTimeoutMillis
      have h6 : (Format.u32.write c.maxPayloadBytes).length ≤ 3 :=
        varint_length_of_lt (by decide) (Nat.lt_of_le_of_lt hpayload (by decide)) 5
      have h7 : (Format.u32.write c.queueCapacity).length ≤ 3 :=
        varint_length_of_lt (by decide) (by
          have := UInt32.le_iff_toNat_le.mp hqueue
          exact Nat.lt_of_le_of_lt this (by decide)) 5
      have hw1 : Format.u32.width = 5 := rfl
      have hw2 : Format.u64.width = 10 := rfl
      have hw3 : bindingToken.width = 65 := rfl
      change (Format.u32.write c.tunnelId ++ (Format.u64.write c.channelId ++
        (bindingToken.write c.bindingToken ++ (Format.u32.write c.maxSessions ++
        (Format.u32.write c.idleTimeoutMillis ++ (Format.u32.write c.maxPayloadBytes ++
        Format.u32.write c.queueCapacity)))))).length ≤ 94
      simp only [List.length_append]
      omega)

def udpSessionRetired : Format { r : UdpSessionRetired // r.tunnelId ≠ 0 ∧ r.sessionId ≠ 0 } :=
  wireUdpSessionRetired.via Subtype.val
    (fun r => if h : r.tunnelId ≠ 0 ∧ r.sessionId ≠ 0 then some ⟨r, h⟩ else none)
    (fun r => by rw [dif_pos r.property])

end Rustgo.MessageFormat
