import Rustgo.ControlStream

namespace Rustgo.Protocol

open Checks

variable {codec : FrameCodec} {input more rest payload : Bytes} {e : FrameError}

section Udp

variable {n : Nat} {datagram : UdpDatagram} {message : MessageId}

theorem slice_drop (i n : Nat) (input : Bytes) : slice input i n ++ input.drop (i + n) = input.drop i := by
  rw [slice, ← List.drop_drop, List.take_append_drop]

theorem length_slice {i : Nat} (h : i + n ≤ input.length) : (slice input i n).length = n := by
  rw [slice, List.length_take, List.length_drop]
  omega

theorem toVector_eq_some {v : Vector UInt8 n} : toVector n payload = some v ↔ v.toList = payload := by
  constructor
  · intro h
    rw [toVector] at h
    split at h
    · obtain rfl := Option.some.inj h
      simp [Vector.toList]
    · cases h
  · rintro rfl
    exact toVector_toList v

/-- The number that a slice spells is written back as the slice. -/
theorem be_ofBe (h : input.length = n) : be n (ofBe input) = input := by
  have hlt := ofBe_lt input
  rw [h] at hlt
  exact ofBe_injective ((length_be n _).trans h.symm) (ofBe_be hlt)

theorem be_toNat_uInt32 (h : input.length = 4) : be 4 (UInt32.ofNat (ofBe input)).toNat = input := by
  have hlt := ofBe_lt input
  rw [h] at hlt
  rw [UInt32.toNat_ofNat_of_lt' hlt, be_ofBe h]

theorem be_toNat_uInt64 (h : input.length = 8) : be 8 (UInt64.ofNat (ofBe input)).toNat = input := by
  have hlt := ofBe_lt input
  rw [h] at hlt
  rw [UInt64.toNat_ofNat_of_lt' hlt, be_ofBe h]

theorem be_toNat_uInt16 (h : input.length = 2) : be 2 (UInt16.ofNat (ofBe input)).toNat = input := by
  have hlt := ofBe_lt input
  rw [h] at hlt
  rw [UInt16.toNat_ofNat_of_lt' hlt, be_ofBe h]

/-- An address that is accepted is the one that the tag and the sixteen bytes spell. -/
theorem addressBytes_of_decodeAddress {family : Option UInt8} {address : Bytes} {port : UInt16} {source : SocketAddress}
    (hl : address.length = 16) (h : decodeAddress family address port = some source) :
    ∃ tag, family = some tag ∧ addressBytes source = [tag] ++ (address ++ be 2 port.toNat) := by
  rw [decodeAddress] at h
  split at h
  · next hv4 =>
    obtain ⟨octets, hoctets, rfl⟩ := Option.map_eq_some_iff.mp h
    have haddress : octets.toList ++ List.replicate 12 0 = address := by
      rw [toVector_eq_some.mp hoctets, ← hv4.2, List.take_append_drop]
    exact ⟨4, hv4.1, by rw [addressBytes, haddress, List.append_assoc]⟩
  · split at h
    · next hv6 =>
      obtain ⟨octets, hoctets, rfl⟩ := Option.map_eq_some_iff.mp h
      exact ⟨6, hv6, by rw [addressBytes, toVector_eq_some.mp hoctets, List.append_assoc]⟩
    · cases h

theorem encodeUdp_eq_ok : encodeUdp datagram = .ok payload ↔ datagram.tunnelId ≠ 0 ∧ datagram.sessionId ≠ 0 ∧
    payload = be 4 datagram.tunnelId.toNat ++ (be 8 datagram.sessionId.toNat ++
      (addressBytes datagram.source ++ datagram.payload.bytes)) := by
  simp only [encodeUdp, bind_eq_ok, require_eq_ok, pure_eq_ok, not_or]
  constructor
  · rintro ⟨_, hids, rfl⟩
    exact ⟨hids.1, hids.2, rfl⟩
  · rintro ⟨ht, hs, rfl⟩
    exact ⟨(), ⟨ht, hs⟩, rfl⟩

/-- What is decoded spells the payload again. -/
theorem encodeUdp_of_decodeUdp (h : decodeUdp message payload = .ok datagram) : encodeUdp datagram = .ok payload := by
  simp only [decodeUdp, bind_eq_ok, require_eq_ok, okOr_eq_ok] at h
  obtain ⟨_, hlen, _, -, _, hids, source, hsource, h⟩ := h
  cases hraw : BoundedBytes.tryFrom maxUdpPayloadBytes (payload.drop udpMetadataLen) with
  | error _ =>
      rw [hraw] at h
      cases h
  | ok bounded =>
      simp only [hraw, pure_eq_ok] at h
      subst h
      have hlen' : 31 ≤ payload.length := hlen
      have hbounded : bounded.bytes = payload.drop udpMetadataLen := by
        rw [BoundedBytes.tryFrom] at hraw
        split at hraw
        · exact (congrArg BoundedBytes.bytes (Except.ok.inj hraw)).symm
        · cases hraw
      obtain ⟨tag, htag, haddress⟩ := addressBytes_of_decodeAddress (length_slice (by omega)) hsource
      have hfamily : [tag] ++ payload.drop 13 = payload.drop 12 := by
        obtain ⟨hbound, htag⟩ := List.getElem?_eq_some_iff.mp htag
        rw [← htag, List.singleton_append, List.getElem_cons_drop]
      rw [not_or] at hids
      refine encodeUdp_eq_ok.mpr ⟨hids.1, hids.2, ?_⟩
      rw [be_toNat_uInt32 (length_slice (by omega)), be_toNat_uInt64 (length_slice (by omega)), haddress,
        be_toNat_uInt16 (length_slice (by omega)), hbounded]
      simp only [List.append_assoc]
      rw [show udpMetadataLen = 29 + 2 from rfl, slice_drop, slice_drop 13 16, hfamily, slice_drop 4 8, slice_drop 0 4,
        List.drop_zero]

/-- The datagram payload is canonical: its decoder accepts exactly what its encoder
writes, and each undoes the other. -/
theorem udp_payload_canonical (message : MessageId) :
    (∀ payload datagram, decodeUdp message payload = .ok datagram → encodeUdp datagram = .ok payload) ∧
      (∀ datagram : UdpDatagram, datagram.tunnelId ≠ 0 → datagram.sessionId ≠ 0 →
        ∃ payload, encodeUdp datagram = .ok payload ∧ decodeUdp message payload = .ok datagram) ∧
      ∀ payload, (∃ datagram, decodeUdp message payload = .ok datagram) ↔ ∃ datagram, encodeUdp datagram = .ok payload := by
  have hread : ∀ datagram : UdpDatagram, datagram.tunnelId ≠ 0 → datagram.sessionId ≠ 0 →
      ∃ payload, encodeUdp datagram = .ok payload ∧ decodeUdp message payload = .ok datagram := by
    intro datagram ht hs
    obtain ⟨payload, hencode, -, hdecode⟩ := decodeUdp_encodeUdp message ht hs
    exact ⟨payload, hencode, hdecode⟩
  refine ⟨fun _ _ => encodeUdp_of_decodeUdp, hread, fun payload => ⟨?_, ?_⟩⟩
  · rintro ⟨datagram, hdecode⟩
    exact ⟨datagram, encodeUdp_of_decodeUdp hdecode⟩
  · rintro ⟨datagram, hencode⟩
    obtain ⟨ht, hs, -⟩ := encodeUdp_eq_ok.mp hencode
    obtain ⟨payload', hencode', hdecode⟩ := hread datagram ht hs
    obtain rfl := Except.ok.inj (hencode.symm.trans hencode')
    exact ⟨datagram, hdecode⟩

def sampleDatagram : UdpDatagram := ⟨1, 2, .v4 #v[192, 0, 2, 1] 53, ⟨[7, 7], by decide⟩⟩

theorem udp_payload_canonical_sample :
    ∃ payload, encodeUdp sampleDatagram = .ok payload ∧ decodeUdp .udpDatagram payload = .ok sampleDatagram :=
  (udp_payload_canonical .udpDatagram).2.1 sampleDatagram (by decide) (by decide)

end Udp

section Decoders

/-- `decode` with the buffer as it leaves it, also where it fails. -/
def FrameCodec.decodeBuffer (codec : FrameCodec) (input : Bytes) : Except FrameError (Option Frame) × Bytes :=
  match codec.inspectHeader input with
  | .error e => (.error e, input)
  | .ok none => (.ok none, input)
  | .ok (some header) =>
      let frameLen := headerLen + header.payloadLen
      if input.length < frameLen then (.ok none, input)
      else
        match decodePayload header.messageId (slice input headerLen header.payloadLen) with
        | .error e => (.error e, input)
        | .ok message => (.ok (some ⟨header.version, header.flags, message⟩), input.drop frameLen)

theorem decodeBuffer_eq (codec : FrameCodec) (input : Bytes) :
    codec.decodeBuffer input =
      match codec.decode input with
      | .ok (frame, rest) => (.ok frame, rest)
      | .error e => (.error e, input) := by
  obtain ⟨hshort, hdecode⟩ | ⟨hlen, e, hheader, hdecode⟩ | ⟨hlen, header, hheader, hframe⟩ := decode_cases codec input
  · simp [FrameCodec.decodeBuffer, FrameCodec.inspectHeader, hshort, hdecode]
  · rw [FrameCodec.decodeBuffer, FrameCodec.inspectHeader, if_neg (not_lt.mpr hlen), hheader, hdecode]
    rfl
  · have hinspect : codec.inspectHeader input = .ok (some header) := by
      rw [FrameCodec.inspectHeader, if_neg (not_lt.mpr hlen), hheader]
      rfl
    obtain ⟨hpart, hdecode⟩ | ⟨hpart, ⟨e, hpayload, hdecode⟩ | ⟨message, hpayload, hdecode⟩⟩ := hframe
    · simp [FrameCodec.decodeBuffer, hinspect, hpart, hdecode]
    · simp [FrameCodec.decodeBuffer, hinspect, not_lt.mpr hpart, hpayload, hdecode]
    · simp [FrameCodec.decodeBuffer, hinspect, not_lt.mpr hpart, hpayload, hdecode]

theorem decodeBuffer_eq_ok {frame : Option Frame} :
    codec.decodeBuffer input = (.ok frame, rest) ↔ codec.decode input = .ok (frame, rest) := by
  rw [decodeBuffer_eq]
  cases codec.decode input <;> simp [Prod.ext_iff]

theorem decodeBuffer_eq_error :
    codec.decodeBuffer input = (.error e, rest) ↔ codec.decode input = .error e ∧ rest = input := by
  rw [decodeBuffer_eq]
  cases codec.decode input <;> simp [eq_comm]

/-- Beyond the header the exact decoder asks for the length of the frame, no less and no more. -/
theorem decodeExact_of_header {header : Header} {frame : Frame} (hlen : headerLen ≤ input.length)
    (hheader : codec.parseHeader input = .ok header) :
    codec.decodeExact input = .ok frame ↔ input.length = headerLen + header.payloadLen ∧
      ∃ message, decodePayload header.messageId (input.drop headerLen) = .ok message ∧
        ⟨header.version, header.flags, message⟩ = frame := by
  simp only [FrameCodec.decodeExact, bind_eq_ok, require_eq_ok, pure_eq_ok, hheader, Except.ok.injEq]
  constructor
  · rintro ⟨_, -, _, rfl, _, hle, _, hge, message, hpayload, hframe⟩
    exact ⟨Nat.le_antisymm hge hle, message, hpayload, hframe⟩
  · rintro ⟨hframe, message, hpayload, rfl⟩
    exact ⟨(), hlen, header, rfl, (), hframe.ge, (), hframe.le, message, hpayload, rfl⟩

/-- The exact decoder accepts what the other one takes whole. -/
theorem decodeExact_eq_ok {frame : Frame} :
    codec.decodeExact input = .ok frame ↔ codec.decode input = .ok (some frame, []) := by
  obtain ⟨hshort, hdecode⟩ | ⟨hlen, e, hheader, hdecode⟩ | ⟨hlen, header, hheader, hframe⟩ := decode_cases codec input
  · have hlen : ¬headerLen ≤ input.length := not_le.mpr hshort
    simp [FrameCodec.decodeExact, hlen, hdecode]
  · simp [FrameCodec.decodeExact, hlen, hheader, hdecode]
  · rw [decodeExact_of_header hlen hheader]
    obtain ⟨hpart, hdecode⟩ | ⟨hpart, hpayload⟩ := hframe
    · simp [hdecode, hpart.ne]
    · have hrest : input.drop (headerLen + header.payloadLen) = [] ↔ input.length = headerLen + header.payloadLen := by
        rw [List.drop_eq_nil_iff]
        exact ⟨fun hle => Nat.le_antisymm hle hpart, Nat.le_of_eq⟩
      have hslice : input.length = headerLen + header.payloadLen →
          slice input headerLen header.payloadLen = input.drop headerLen := by
        intro hwhole
        rw [slice, List.take_of_length_le]
        rw [List.length_drop, hwhole, Nat.add_sub_cancel_left]
      obtain ⟨e, hpayload, hdecode⟩ | ⟨message, hpayload, hdecode⟩ := hpayload
      · rw [hdecode]
        refine ⟨fun h => ?_, fun h => by cases h⟩
        obtain ⟨hwhole, message, hok, -⟩ := h
        rw [← hslice hwhole, hpayload] at hok
        cases hok
      · rw [hdecode, Except.ok.injEq, Prod.mk.injEq, Option.some.injEq, hrest]
        constructor
        · rintro ⟨hwhole, message', hok, rfl⟩
          rw [← hslice hwhole, hpayload] at hok
          exact ⟨by rw [Except.ok.inj hok], hwhole⟩
        · rintro ⟨rfl, hwhole⟩
          exact ⟨hwhole, message, by rw [← hslice hwhole, hpayload], rfl⟩

/-- The two decoders agree, a decoder that takes no frame leaves its buffer, and an
answer that it has given stays when more bytes follow. -/
theorem decoders_agree (codec : FrameCodec) (input : Bytes) :
    (∀ frame, codec.decodeExact input = .ok frame ↔ codec.decodeBuffer input = (.ok (some frame), [])) ∧
      (∀ rest, codec.decodeBuffer input = (.ok none, rest) → rest = input) ∧
      (∀ e rest, codec.decodeBuffer input = (.error e, rest) → rest = input) ∧
      ∀ more,
        (∀ frame rest, codec.decodeBuffer input = (.ok (some frame), rest) →
          codec.decodeBuffer (input ++ more) = (.ok (some frame), rest ++ more)) ∧
        ∀ e rest, codec.decodeBuffer input = (.error e, rest) →
          codec.decodeBuffer (input ++ more) = (.error e, input ++ more) := by
  have hincremental := decode_incremental codec
  refine ⟨fun frame => ?_, fun rest h => ?_, fun e rest h => ?_, fun more => ⟨fun frame rest h => ?_, fun e rest h => ?_⟩⟩
  · rw [decodeExact_eq_ok, decodeBuffer_eq_ok]
  · exact hincremental.incomplete (decodeBuffer_eq_ok.mp h)
  · exact (decodeBuffer_eq_error.mp h).2
  · exact decodeBuffer_eq_ok.mpr ((hincremental.complete (decodeBuffer_eq_ok.mp h)).1 more)
  · exact decodeBuffer_eq_error.mpr ⟨hincremental.failed (decodeBuffer_eq_error.mp h).1 more, rfl⟩

end Decoders

end Rustgo.Protocol
