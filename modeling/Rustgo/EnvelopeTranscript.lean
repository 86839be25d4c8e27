import Rustgo.Delimited
import Rustgo.PeerCipher
import Rustgo.RendezvousMessage

namespace Rustgo.PeerCipher

open Postcard.Format (utf8 decodeUtf8_utf8)
open Protocol Rendezvous

def envelopeDomain : Bytes := utf8 "rustgo-peer-envelope-v1"

def flagByte (flag : Bool) : UInt8 := if flag then 1 else 0

def appendString {max : Nat} (value : BoundedString max) : Bytes := appendBytes (utf8 value.str)

def appendOptional {α : Type} (append : α → Bytes) : Option α → Bytes
  | none => [0]
  | some value => [1] ++ append value

def appendOptionalString {max : Nat} (value : Option (BoundedString max)) : Bytes := appendOptional appendString value

def appendOptionalProtocol (protocol : Option TunnelProtocol) : Bytes :=
  appendOptional (fun protocol => [protocol.value]) protocol

def transportByte : CandidateTransport → UInt8
  | .quicUdp => 1
  | .nativeTcp => 2
  | .relay => 3

def appendAddress : SocketAddress → Bytes
  | .v4 octets port => [1] ++ (appendBytes octets.toList ++ be 2 port.toNat)
  | .v6 octets port => [2] ++ (appendBytes octets.toList ++ be 2 port.toNat)

def appendCandidate (candidate : Candidate) : Bytes :=
  [transportByte candidate.transport] ++ appendAddress candidate.address ++ be 4 candidate.priority.toNat ++
    appendString candidate.foundation ++ be 8 candidate.generation.value.toNat ++
    be 8 candidate.expiresUnixSecs.toNat ++ appendString candidate.observationSource

/-- The number of items, then the items. -/
def appendItems {α : Type} {max : Nat} (append : α → Bytes) (items : BoundedVec α max) : Bytes :=
  be 4 items.items.length ++ items.items.flatMap append

def appendBinding (binding : TransportKeyBinding) : Bytes :=
  [transportByte binding.transport] ++ appendBytes binding.ephemeralPublicKey.bytes

def appendProviderDecision (decision : ProviderDecision) : Bytes :=
  [flagByte decision.isAccepted] ++ appendOptionalProtocol decision.protocol ++ appendOptionalString decision.detail

def appendCandidateSet (set : CandidateSet) : Bytes :=
  appendBytes set.ephemeralPublicKey.bytes ++ appendItems appendCandidate set.candidates

def appendCandidateSetV2 (set : CandidateSetV2) : Bytes :=
  [flagByte set.ownerIsInitiator] ++ appendItems appendBinding set.bindings ++ appendItems appendCandidate set.candidates

def appendConnectivityResult (result : ConnectivityResult) : Bytes :=
  [flagByte result.connected] ++ appendOptional (fun transport => [transportByte transport]) result.transport ++
    appendOptionalString result.detail

def appendError (error : RendezvousError) : Bytes := be 2 error.code.toNat ++ appendString error.detail

def payloadByte : RendezvousPayload → UInt8
  | .request _ => 1
  | .providerDecision _ => 2
  | .candidateSet _ => 3
  | .candidateSetV2 _ => 8
  | .connectivityResult _ => 4
  | .relayRequest _ => 5
  | .close _ => 6
  | .error _ => 7

def appendFields : RendezvousPayload → Bytes
  | .request request => appendString request.exportName
  | .providerDecision decision => appendProviderDecision decision
  | .candidateSet set => appendCandidateSet set
  | .candidateSetV2 set => appendCandidateSetV2 set
  | .connectivityResult result => appendConnectivityResult result
  | .relayRequest request => [flagByte request.datagram]
  | .close close => appendOptionalString close.detail
  | .error error => appendError error

def appendPayload (payload : RendezvousPayload) : Bytes := [payloadByte payload] ++ appendFields payload

/-- The bytes of an envelope that are signed: all of it but the signature. -/
def encodeEnvelope (envelope : RendezvousEnvelope) : Bytes :=
  envelopeDomain ++ (be 2 envelope.version.major.toNat ++ be 2 envelope.version.minor.toNat ++
    appendBytes envelope.sessionId.bytes.toList ++ appendString envelope.sender ++ appendString envelope.target ++
    be 8 envelope.step.toNat ++ be 8 envelope.generation.value.toNat ++ be 8 envelope.expiresUnixSecs.toNat ++
    appendPayload envelope.payload)

section Fields

theorem delimited_appendBytes : Delimited (fun value => value.length < 2 ^ 32) appendBytes := Delimited.prefixed 4

theorem delimited_vector {n : Nat} (hn : n < 2 ^ 32) : SelfDelimited fun value : Vector UInt8 n => appendBytes value.toList :=
  (delimited_appendBytes.comap fun _ _ h => Vector.toList_inj.mp h).mono fun value _ => by simpa using hn

theorem delimited_bytes {max : Nat} (hmax : max < 2 ^ 32) : SelfDelimited fun value : BoundedBytes max => appendBytes value.bytes := by
  apply (delimited_appendBytes.comap _).mono fun value _ => Nat.lt_of_le_of_lt value.bounded hmax
  rintro ⟨a, _⟩ ⟨b, _⟩ (rfl : a = b)
  rfl

theorem utf8_injective {a b : String} (h : utf8 a = utf8 b) : a = b := by
  have ha := decodeUtf8_utf8 a
  rw [h, decodeUtf8_utf8] at ha
  exact (Option.some.inj ha).symm

theorem delimited_appendString {max : Nat} (hmax : max < 2 ^ 32) : SelfDelimited (appendString : BoundedString max → Bytes) := by
  apply (delimited_appendBytes.comap (f := fun value : BoundedString max => utf8 value.str) _).mono
  · intro value _
    exact Nat.lt_of_le_of_lt value.bounded hmax
  · rintro ⟨a, _⟩ ⟨b, _⟩ h
    obtain rfl : a = b := utf8_injective h
    rfl

theorem delimited_flagByte : SelfDelimited fun flag => [flagByte flag] :=
  SelfDelimited.symbol.comap (f := flagByte) (by decide)

theorem delimited_transportByte : SelfDelimited fun transport => [transportByte transport] :=
  SelfDelimited.symbol.comap (f := transportByte) fun a b h => by cases a <;> cases b <;> first | rfl | exact absurd h (by decide)

theorem delimited_appendOptional {α : Type} {append : α → Bytes} (h : SelfDelimited append) :
    SelfDelimited (appendOptional append) := by
  intro a b _ _ xs ys heq
  cases a with
  | none =>
      cases b with
      | none => exact ⟨rfl, List.cons.inj heq |>.2⟩
      | some b => exact absurd (List.cons.inj heq).1 (by decide)
  | some a =>
      cases b with
      | none => exact absurd (List.cons.inj heq).1 (by decide)
      | some b =>
          obtain ⟨hab, hrest⟩ := h a b trivial trivial xs ys (List.cons.inj heq).2
          exact ⟨congrArg some hab, hrest⟩

theorem delimited_appendItems {α : Type} {max : Nat} {append : α → Bytes} (h : SelfDelimited append) (hmax : max < 2 ^ 32) :
    SelfDelimited (appendItems append : BoundedVec α max → Bytes) := by
  apply ((Delimited.counted h 4).comap (f := BoundedVec.items) _).mono
  · exact fun items _ => ⟨fun _ _ => trivial, Nat.lt_of_le_of_lt items.bounded hmax⟩
  · rintro ⟨a, _⟩ ⟨b, _⟩ (rfl : a = b)
    rfl

theorem delimited_address {n : Nat} (hn : n < 2 ^ 32) :
    SelfDelimited fun p : Vector UInt8 n × UInt16 => appendBytes p.1.toList ++ be 2 p.2.toNat :=
  (delimited_vector hn).pair Delimited.uInt16

theorem delimited_appendAddress : SelfDelimited appendAddress := by
  intro a b _ _ xs ys h
  cases a with
  | v4 octets port =>
      cases b with
      | v4 octets' port' =>
          obtain ⟨hp, hrest⟩ := delimited_address (by decide) (octets, port) (octets', port') trivial trivial xs ys
            (List.cons.inj h).2
          obtain ⟨rfl, rfl⟩ := Prod.mk.inj hp
          exact ⟨rfl, hrest⟩
      | v6 => exact absurd (List.cons.inj h).1 (by decide)
  | v6 octets port =>
      cases b with
      | v4 => exact absurd (List.cons.inj h).1 (by decide)
      | v6 octets' port' =>
          obtain ⟨hp, hrest⟩ := delimited_address (by decide) (octets, port) (octets', port') trivial trivial xs ys
            (List.cons.inj h).2
          obtain ⟨rfl, rfl⟩ := Prod.mk.inj hp
          exact ⟨rfl, hrest⟩

theorem delimited_generation : SelfDelimited fun generation : CandidateGeneration => be 8 generation.value.toNat := by
  apply Delimited.uInt64.comap (f := CandidateGeneration.value)
  rintro ⟨a, _⟩ ⟨b, _⟩ (rfl : a = b)
  rfl

end Fields

section Payloads

theorem delimited_appendCandidate : SelfDelimited appendCandidate := by
  apply (((((((delimited_transportByte.pair delimited_appendAddress).pair Delimited.uInt32).pair
    (delimited_appendString (by decide))).pair delimited_generation).pair Delimited.uInt64).pair
    (delimited_appendString (by decide)))).comap
    (f := fun c : Candidate => ((((((c.transport, c.address), c.priority), c.foundation), c.generation),
      c.expiresUnixSecs), c.observationSource))
  rintro ⟨⟩ ⟨⟩ h
  simpa only [Prod.mk.injEq, Candidate.mk.injEq, and_assoc] using h

theorem delimited_appendBinding : SelfDelimited appendBinding := by
  apply (delimited_transportByte.pair (delimited_bytes (by decide))).comap
    (f := fun b : TransportKeyBinding => (b.transport, b.ephemeralPublicKey))
  rintro ⟨⟩ ⟨⟩ h
  simpa only [Prod.mk.injEq, TransportKeyBinding.mk.injEq] using h

theorem delimited_appendOptionalProtocol : SelfDelimited appendOptionalProtocol := by
  apply delimited_appendOptional
  apply SelfDelimited.symbol.comap (f := TunnelProtocol.value)
  rintro ⟨a, _⟩ ⟨b, _⟩ (rfl : a = b)
  rfl

theorem delimited_appendOptionalString {max : Nat} (hmax : max < 2 ^ 32) :
    SelfDelimited (appendOptionalString : Option (BoundedString max) → Bytes) :=
  delimited_appendOptional (delimited_appendString hmax)

theorem delimited_appendProviderDecision : SelfDelimited appendProviderDecision := by
  apply ((delimited_flagByte.pair delimited_appendOptionalProtocol).pair (delimited_appendOptionalString (by decide))).comap
    (f := fun d : ProviderDecision => ((d.isAccepted, d.protocol), d.detail))
  rintro (⟨⟩ | ⟨⟩) (⟨⟩ | ⟨⟩) h <;> simp_all [ProviderDecision.isAccepted, ProviderDecision.protocol, ProviderDecision.detail]

theorem delimited_appendCandidateSet : SelfDelimited appendCandidateSet := by
  apply ((delimited_bytes (by decide)).pair (delimited_appendItems delimited_appendCandidate (by decide))).comap
    (f := fun set : CandidateSet => (set.ephemeralPublicKey, set.candidates))
  rintro ⟨⟩ ⟨⟩ h
  simpa only [Prod.mk.injEq, CandidateSet.mk.injEq] using h

theorem delimited_appendCandidateSetV2 : SelfDelimited appendCandidateSetV2 := by
  apply ((delimited_flagByte.pair (delimited_appendItems delimited_appendBinding (by decide))).pair
    (delimited_appendItems delimited_appendCandidate (by decide))).comap
    (f := fun set : CandidateSetV2 => ((set.ownerIsInitiator, set.bindings), set.candidates))
  rintro ⟨⟩ ⟨⟩ h
  simpa only [Prod.mk.injEq, CandidateSetV2.mk.injEq, and_assoc] using h

theorem delimited_appendConnectivityResult : SelfDelimited appendConnectivityResult := by
  apply ((delimited_flagByte.pair (delimited_appendOptional delimited_transportByte)).pair
    (delimited_appendOptionalString (by decide))).comap
    (f := fun result : ConnectivityResult => ((result.connected, result.transport), result.detail))
  rintro ⟨⟩ ⟨⟩ h
  simpa only [Prod.mk.injEq, ConnectivityResult.mk.injEq, and_assoc] using h

theorem delimited_appendError : SelfDelimited appendError := by
  apply (SelfDelimited.pair Delimited.uInt16 (delimited_appendString (by decide))).comap
    (f := fun error : RendezvousError => (error.code, error.detail))
  rintro ⟨⟩ ⟨⟩ h
  simpa only [Prod.mk.injEq, RendezvousError.mk.injEq] using h

theorem delimited_appendRequest : SelfDelimited fun request : RendezvousRequest => appendString request.exportName := by
  apply (delimited_appendString (by decide)).comap (f := RendezvousRequest.exportName)
  rintro ⟨⟩ ⟨⟩ h
  rwa [RendezvousRequest.mk.injEq]

theorem delimited_appendRelayRequest : SelfDelimited fun request : RelayRequest => [flagByte request.datagram] := by
  apply delimited_flagByte.comap (f := RelayRequest.datagram)
  rintro ⟨⟩ ⟨⟩ h
  rwa [RelayRequest.mk.injEq]

theorem delimited_appendClose : SelfDelimited fun close : RendezvousClose => appendOptionalString close.detail := by
  apply (delimited_appendOptionalString (by decide)).comap (f := RendezvousClose.detail)
  rintro ⟨⟩ ⟨⟩ h
  rwa [RendezvousClose.mk.injEq]

theorem fields_congr {α : Type} {append : α → Bytes} (payload : α → RendezvousPayload) (h : SelfDelimited append)
    {a b : α} {xs ys : Bytes} (heq : append a ++ xs = append b ++ ys) : payload a = payload b ∧ xs = ys := by
  obtain ⟨hab, hrest⟩ := h a b trivial trivial xs ys heq
  exact ⟨congrArg payload hab, hrest⟩

theorem delimited_appendPayload : SelfDelimited appendPayload := by
  apply Delimited.tagged
  rintro _ a b ⟨_, rfl⟩ ⟨_, htag⟩ xs ys h
  cases a with
  | request =>
      cases b with
      | request => exact fields_congr .request delimited_appendRequest h
      | _ => exact absurd htag (by simp [payloadByte])
  | providerDecision =>
      cases b with
      | providerDecision => exact fields_congr .providerDecision delimited_appendProviderDecision h
      | _ => exact absurd htag (by simp [payloadByte])
  | candidateSet =>
      cases b with
      | candidateSet => exact fields_congr .candidateSet delimited_appendCandidateSet h
      | _ => exact absurd htag (by simp [payloadByte])
  | candidateSetV2 =>
      cases b with
      | candidateSetV2 => exact fields_congr .candidateSetV2 delimited_appendCandidateSetV2 h
      | _ => exact absurd htag (by simp [payloadByte])
  | connectivityResult =>
      cases b with
      | connectivityResult => exact fields_congr .connectivityResult delimited_appendConnectivityResult h
      | _ => exact absurd htag (by simp [payloadByte])
  | relayRequest =>
      cases b with
      | relayRequest => exact fields_congr .relayRequest delimited_appendRelayRequest h
      | _ => exact absurd htag (by simp [payloadByte])
  | close =>
      cases b with
      | close => exact fields_congr .close delimited_appendClose h
      | _ => exact absurd htag (by simp [payloadByte])
  | error =>
      cases b with
      | error => exact fields_congr .error delimited_appendError h
      | _ => exact absurd htag (by simp [payloadByte])

end Payloads

section Envelope

/-- An envelope without its signature. -/
def unsigned (envelope : RendezvousEnvelope) : RendezvousEnvelope := { envelope with signature := ⟨[], Nat.zero_le _⟩ }

theorem delimited_sessionId : SelfDelimited fun id : SessionId => appendBytes id.bytes.toList := by
  apply (delimited_vector (by decide)).comap (f := SessionId.bytes)
  rintro ⟨⟩ ⟨⟩ h
  rwa [SessionId.mk.injEq]

theorem delimited_version : SelfDelimited fun version : ProtocolVersion => be 2 version.major.toNat ++ be 2 version.minor.toNat := by
  apply (SelfDelimited.pair Delimited.uInt16 Delimited.uInt16).comap (f := fun v : ProtocolVersion => (v.major, v.minor))
  rintro ⟨⟩ ⟨⟩ h
  rwa [ProtocolVersion.mk.injEq, ← Prod.mk.injEq]

/-- Two envelopes with one encoding agree on all that is signed. -/
theorem unsigned_of_encodeEnvelope {a b : RendezvousEnvelope} (h : encodeEnvelope a = encodeEnvelope b) :
    unsigned a = unsigned b := by
  have hname : SelfDelimited (appendString : BoundedString maxDeviceNameBytes → Bytes) := delimited_appendString (by decide)
  have hfields := (((((((delimited_version.pair delimited_sessionId).pair hname).pair hname).pair Delimited.uInt64).pair
    delimited_generation).pair Delimited.uInt64).pair delimited_appendPayload).behind envelopeDomain
  have heq := hfields.injective
    (a := (((((((a.version, a.sessionId), a.sender), a.target), a.step), a.generation), a.expiresUnixSecs), a.payload))
    (b := (((((((b.version, b.sessionId), b.sender), b.target), b.step), b.generation), b.expiresUnixSecs), b.payload))
    trivial trivial h
  simp only [Prod.mk.injEq, and_assoc] at heq
  simp only [unsigned, heq]

/-- The signing transcript stands for every field of the envelope but the signature. -/
theorem encode_envelope_injective (a b : RendezvousEnvelope) :
    encodeEnvelope a = encodeEnvelope b ↔
      a.version = b.version ∧ a.sessionId = b.sessionId ∧ a.sender = b.sender ∧ a.target = b.target ∧
        a.step = b.step ∧ a.generation = b.generation ∧ a.expiresUnixSecs = b.expiresUnixSecs ∧ a.payload = b.payload := by
  constructor
  · intro h
    have heq := unsigned_of_encodeEnvelope h
    simpa only [unsigned, RendezvousEnvelope.mk.injEq, and_true] using heq
  · rintro ⟨hversion, hid, hsender, htarget, hstep, hgeneration, hexpires, hpayload⟩
    simp only [encodeEnvelope, hversion, hid, hsender, htarget, hstep, hgeneration, hexpires, hpayload]

end Envelope

end Rustgo.PeerCipher
