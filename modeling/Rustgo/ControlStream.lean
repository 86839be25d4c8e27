import Rustgo.FrameCodec
import Rustgo.Incremental

namespace Rustgo.Protocol

open Checks

variable {codec : FrameCodec} {input more rest : Bytes} {e : FrameError}

section Decode

theorem slice_append {i n : Nat} (h : i + n ≤ input.length) (more : Bytes) : slice (input ++ more) i n = slice input i n := by
  rw [slice, slice, List.drop_append_of_le_length (Nat.le_of_add_right_le h), List.take_append_of_le_length]
  rw [List.length_drop]
  exact Nat.le_sub_of_add_le' h

theorem length_le_append {n : Nat} (h : n ≤ input.length) (more : Bytes) : n ≤ (input ++ more).length := by
  rw [List.length_append]
  exact h.trans (Nat.le_add_right _ _)

theorem parseHeader_append (h : headerLen ≤ input.length) (more : Bytes) :
    codec.parseHeader (input ++ more) = codec.parseHeader input := by
  have hslice : ∀ i n, i + n ≤ headerLen → slice (input ++ more) i n = slice input i n :=
    fun i n hin => slice_append (hin.trans h) more
  simp only [FrameCodec.parseHeader, hslice 0 4 (by decide), hslice 4 2 (by decide), hslice 6 2 (by decide),
    hslice 8 2 (by decide), hslice 10 2 (by decide), hslice 12 4 (by decide)]

theorem inspectHeader_append (h : headerLen ≤ input.length) (more : Bytes) :
    codec.inspectHeader (input ++ more) = codec.inspectHeader input := by
  rw [FrameCodec.inspectHeader, FrameCodec.inspectHeader, if_neg (not_lt.mpr (length_le_append h more)),
    if_neg (not_lt.mpr h), parseHeader_append h]

theorem payloadLen_le {header : Header} (h : codec.parseHeader input = .ok header) : header.payloadLen ≤ codec.maxPayload := by
  simp only [FrameCodec.parseHeader, bind_eq_ok, require_eq_ok] at h
  obtain ⟨_, -, h⟩ := h
  cases hid : MessageId.tryFrom (UInt16.ofNat (ofBe (slice input 8 2))) with
  | error raw =>
      rw [hid] at h
      cases h
  | ok id =>
      simp only [hid, FrameCodec.validatePayloadLength, bind_eq_ok, require_eq_ok, pure_eq_ok] at h
      obtain ⟨_, -, _, -, _, ⟨_, hle, -⟩, rfl⟩ := h
      exact hle

theorem decode_of_header {header : Header} (hlen : headerLen ≤ input.length) (hheader : codec.parseHeader input = .ok header) :
    codec.decode input =
      if input.length < headerLen + header.payloadLen then pure (none, input)
      else (fun message => (some ⟨header.version, header.flags, message⟩, input.drop (headerLen + header.payloadLen))) <$>
        decodePayload header.messageId (slice input headerLen header.payloadLen) := by
  rw [FrameCodec.decode, FrameCodec.inspectHeader, if_neg (not_lt.mpr hlen), hheader]
  rfl

theorem decode_of_header_error (hlen : headerLen ≤ input.length) (hheader : codec.parseHeader input = .error e) :
    codec.decode input = .error e := by
  rw [FrameCodec.decode, FrameCodec.inspectHeader, if_neg (not_lt.mpr hlen), hheader]
  rfl

/-- How a call of the decoder ends: before the header is there, at a header it
refuses, before the frame is there, at a payload it refuses, or with the frame. -/
theorem decode_cases (codec : FrameCodec) (input : Bytes) :
    (input.length < headerLen ∧ codec.decode input = .ok (none, input)) ∨
    (headerLen ≤ input.length ∧ ∃ e, codec.parseHeader input = .error e ∧ codec.decode input = .error e) ∨
    (headerLen ≤ input.length ∧ ∃ header, codec.parseHeader input = .ok header ∧
      ((input.length < headerLen + header.payloadLen ∧ codec.decode input = .ok (none, input)) ∨
      (headerLen + header.payloadLen ≤ input.length ∧
        ((∃ e, decodePayload header.messageId (slice input headerLen header.payloadLen) = .error e ∧
          codec.decode input = .error e) ∨
        ∃ message, decodePayload header.messageId (slice input headerLen header.payloadLen) = .ok message ∧
          codec.decode input = .ok (some ⟨header.version, header.flags, message⟩,
            input.drop (headerLen + header.payloadLen)))))) := by
  by_cases hshort : input.length < headerLen
  · exact .inl ⟨hshort, by rw [FrameCodec.decode, FrameCodec.inspectHeader, if_pos hshort]; rfl⟩
  have hlen := not_lt.mp hshort
  cases hheader : codec.parseHeader input with
  | error e => exact .inr (.inl ⟨hlen, e, rfl, decode_of_header_error hlen hheader⟩)
  | ok header =>
      have hdecode := decode_of_header hlen hheader
      refine .inr (.inr ⟨hlen, header, rfl, ?_⟩)
      by_cases hpart : input.length < headerLen + header.payloadLen
      · exact .inl ⟨hpart, by rw [hdecode, if_pos hpart]; rfl⟩
      · rw [if_neg hpart] at hdecode
        refine .inr ⟨not_lt.mp hpart, ?_⟩
        cases hpayload : decodePayload header.messageId (slice input headerLen header.payloadLen) with
        | error e => exact .inl ⟨e, rfl, by rw [hdecode, hpayload]; rfl⟩
        | ok message => exact .inr ⟨message, rfl, by rw [hdecode, hpayload]; rfl⟩

theorem decode_incremental (codec : FrameCodec) : Incremental codec.decode where
  complete {input frame rest} h := by
    obtain ⟨-, hdecode⟩ | ⟨-, e, -, hdecode⟩ | ⟨hlen, header, hheader, ⟨-, hdecode⟩ | ⟨hpart, ⟨e, -, hdecode⟩ | hmessage⟩⟩ :=
      decode_cases codec input
    · cases hdecode.symm.trans h
    · cases hdecode.symm.trans h
    · cases hdecode.symm.trans h
    · cases hdecode.symm.trans h
    · obtain ⟨message, hpayload, hdecode⟩ := hmessage
      obtain ⟨hframe, rfl⟩ := Prod.mk.inj (Except.ok.inj (hdecode.symm.trans h))
      obtain rfl := Option.some.inj hframe
      refine ⟨fun more => ?_, ?_⟩
      · rw [decode_of_header (length_le_append hlen more) ((parseHeader_append hlen more).trans hheader),
          if_neg (not_lt.mpr (length_le_append hpart more)), slice_append hpart, hpayload,
          List.drop_append_of_le_length hpart]
        rfl
      · rw [List.length_drop]
        have hpos : 0 < headerLen := by decide
        omega
  incomplete {input rest} h := by
    obtain ⟨-, hdecode⟩ | ⟨-, e, -, hdecode⟩ | ⟨-, header, -, ⟨-, hdecode⟩ | ⟨-, ⟨e, -, hdecode⟩ | ⟨message, -, hdecode⟩⟩⟩ :=
      decode_cases codec input
    · exact (Prod.mk.inj (Except.ok.inj (hdecode.symm.trans h))).2.symm
    · cases hdecode.symm.trans h
    · exact (Prod.mk.inj (Except.ok.inj (hdecode.symm.trans h))).2.symm
    · cases hdecode.symm.trans h
    · cases (Prod.mk.inj (Except.ok.inj (hdecode.symm.trans h))).1
  failed {input e} h more := by
    obtain ⟨-, hdecode⟩ | ⟨hlen, e', hheader, hdecode⟩ |
        ⟨hlen, header, hheader, ⟨-, hdecode⟩ | ⟨hpart, ⟨e', hpayload, hdecode⟩ | ⟨message, -, hdecode⟩⟩⟩ :=
      decode_cases codec input
    · cases hdecode.symm.trans h
    · obtain rfl := Except.error.inj (hdecode.symm.trans h)
      exact decode_of_header_error (length_le_append hlen more) ((parseHeader_append hlen more).trans hheader)
    · cases hdecode.symm.trans h
    · obtain rfl := Except.error.inj (hdecode.symm.trans h)
      rw [decode_of_header (length_le_append hlen more) ((parseHeader_append hlen more).trans hheader),
        if_neg (not_lt.mpr (length_le_append hpart more)), slice_append hpart, hpayload]
      rfl
    · cases hdecode.symm.trans h

end Decode

/-- Bytes that one read of the connection returned; a read that returns none
is the end of the stream. -/
structure Chunk where
  bytes : Bytes
  nonempty : bytes ≠ []

def Chunk.join (chunks : List Chunk) : Bytes := (chunks.map Chunk.bytes).flatten

@[simp] theorem Chunk.join_nil : Chunk.join [] = [] := rfl

@[simp] theorem Chunk.join_cons (chunk : Chunk) (later : List Chunk) :
    Chunk.join (chunk :: later) = chunk.bytes ++ Chunk.join later := rfl

inductive ReceiveError
  | frame (e : FrameError)
  | frameTooLarge
  | closed
  deriving DecidableEq

structure FramedControl where
  codec : FrameCodec
  maxBuffer : Nat

/-- The loop of `receive` over the chunks that the connection has for it. It
keeps its buffer, and the chunks that it did not read stay in the connection. -/
def FramedControl.receive (control : FramedControl) (buffer : Bytes) (chunks : List Chunk) :
    Except ReceiveError Frame × Bytes × List Chunk :=
  match control.codec.decode buffer with
  | .error e => (.error (.frame e), buffer, chunks)
  | .ok (some frame, rest) => (.ok frame, rest, chunks)
  | .ok (none, rest) =>
      if control.maxBuffer ≤ rest.length then (.error .frameTooLarge, rest, chunks)
      else
        match chunks with
        | [] => (.error .closed, rest, [])
        | chunk :: later => control.receive (rest ++ chunk.bytes) later

/-- What the owner of a control stream gets that receives until the first
error: the frames, the error, and the bytes that no frame has used. -/
inductive FramedControl.Receives (control : FramedControl) :
    Bytes → List Chunk → List Frame → ReceiveError → Bytes → Prop
  | frame {buffer chunks frame next later frames failure rest} :
      control.receive buffer chunks = (.ok frame, next, later) → control.Receives next later frames failure rest →
        control.Receives buffer chunks (frame :: frames) failure rest
  | stop {buffer chunks failure next later} : control.receive buffer chunks = (.error failure, next, later) →
      control.Receives buffer chunks [] failure (next ++ Chunk.join later)

namespace Server

def MAX_CONTROL_PAYLOAD : Nat := 70 * 1024

def framedControl : FramedControl := ⟨⟨MAX_CONTROL_PAYLOAD⟩, MAX_CONTROL_PAYLOAD + headerLen⟩

end Server

namespace Client

def MAX_CONTROL_PAYLOAD : Nat := 70 * 1024

def framedControl : FramedControl := ⟨⟨MAX_CONTROL_PAYLOAD⟩, MAX_CONTROL_PAYLOAD + headerLen⟩

end Client

inductive Side
  | server
  | client

def Side.framedControl : Side → FramedControl
  | .server => Server.framedControl
  | .client => Client.framedControl

section Receive

variable {control : FramedControl}

/-- A frame that is not complete fits the buffer with room to spare, as its
header bounds it. -/
theorem incomplete_fits (hroom : headerLen + codec.maxPayload ≤ control.maxBuffer) (h : codec.decode input = .ok (none, rest)) :
    input.length < control.maxBuffer := by
  obtain ⟨hshort, -⟩ | ⟨-, e, -, hdecode⟩ | ⟨-, header, hheader, ⟨hshort, -⟩ | ⟨-, ⟨e, -, hdecode⟩ | ⟨message, -, hdecode⟩⟩⟩ :=
    decode_cases codec input
  · omega
  · cases hdecode.symm.trans h
  · have hle := payloadLen_le hheader
    omega
  · cases hdecode.symm.trans h
  · cases (Prod.mk.inj (Except.ok.inj (hdecode.symm.trans h))).1

/-- One call of `receive` does what the decoder does on the buffer and all
that is still to be read. -/
theorem receive_cases (hroom : headerLen + control.codec.maxPayload ≤ control.maxBuffer) (buffer : Bytes) (chunks : List Chunk) :
    (∃ frame next later, control.receive buffer chunks = (.ok frame, next, later) ∧
      control.codec.decode (buffer ++ Chunk.join chunks) = .ok (some frame, next ++ Chunk.join later)) ∨
    (∃ e next later, control.receive buffer chunks = (.error (.frame e), next, later) ∧
      control.codec.decode (buffer ++ Chunk.join chunks) = .error e ∧
        next ++ Chunk.join later = buffer ++ Chunk.join chunks) ∨
    (control.receive buffer chunks = (.error .closed, buffer ++ Chunk.join chunks, []) ∧
      ∃ rest, control.codec.decode (buffer ++ Chunk.join chunks) = .ok (none, rest)) := by
  have hincremental := decode_incremental control.codec
  induction chunks generalizing buffer with
  | nil =>
      rw [show buffer ++ Chunk.join [] = buffer from List.append_nil buffer]
      cases hdecode : control.codec.decode buffer with
      | error e => exact .inr (.inl ⟨e, buffer, [], by rw [FramedControl.receive, hdecode], rfl, List.append_nil buffer⟩)
      | ok answer =>
          obtain ⟨item, next⟩ := answer
          cases item with
          | some frame =>
              exact .inl ⟨frame, next, [], by rw [FramedControl.receive, hdecode], by rw [Chunk.join_nil, List.append_nil]⟩
          | none =>
              obtain rfl := hincremental.incomplete hdecode
              refine .inr (.inr ⟨?_, next, rfl⟩)
              rw [FramedControl.receive, hdecode]
              exact if_neg (not_le.mpr (incomplete_fits hroom hdecode))
  | cons chunk later ih =>
      cases hdecode : control.codec.decode buffer with
      | error e =>
          exact .inr (.inl ⟨e, buffer, chunk :: later, by rw [FramedControl.receive, hdecode],
            hincremental.failed hdecode _, rfl⟩)
      | ok answer =>
          obtain ⟨item, next⟩ := answer
          cases item with
          | some frame =>
              exact .inl ⟨frame, next, chunk :: later, by rw [FramedControl.receive, hdecode],
                (hincremental.complete hdecode).1 _⟩
          | none =>
              -- the chunk joins the buffer, and the loop goes on with the others
              obtain rfl := hincremental.incomplete hdecode
              have hreceive : control.receive next (chunk :: later) = control.receive (next ++ chunk.bytes) later := by
                rw [FramedControl.receive, hdecode]
                exact if_neg (not_le.mpr (incomplete_fits hroom hdecode))
              rw [hreceive, Chunk.join_cons, ← List.append_assoc]
              exact ih (next ++ chunk.bytes)

/-- The error that the owner sees where the decoder stops. -/
def ReceiveError.ofStop : Option FrameError → ReceiveError
  | some e => .frame e
  | none => .closed

theorem receives_of_decodes (hroom : headerLen + control.codec.maxPayload ≤ control.maxBuffer) {frames : List Frame}
    {error : Option FrameError} {buffer : Bytes} {chunks : List Chunk}
    (h : Decodes control.codec.decode (buffer ++ Chunk.join chunks) frames error rest) :
    control.Receives buffer chunks frames (.ofStop error) rest := by
  generalize hinput : buffer ++ Chunk.join chunks = input at h
  induction h generalizing buffer chunks with
  | item hdecode _ ih =>
      subst hinput
      obtain ⟨frame, next, later, hreceive, hstep⟩ | ⟨e, next, later, -, hstep, -⟩ | ⟨-, rest, hstep⟩ :=
        receive_cases hroom buffer chunks
      · obtain ⟨hframe, hnext⟩ := Prod.mk.inj (Except.ok.inj (hstep.symm.trans hdecode))
        obtain rfl := Option.some.inj hframe
        exact .frame hreceive (ih hnext)
      · cases hstep.symm.trans hdecode
      · cases (Prod.mk.inj (Except.ok.inj (hstep.symm.trans hdecode))).1
  | incomplete hdecode =>
      subst hinput
      obtain ⟨frame, next, later, -, hstep⟩ | ⟨e, next, later, -, hstep, -⟩ | ⟨hreceive, -⟩ := receive_cases hroom buffer chunks
      · cases (Prod.mk.inj (Except.ok.inj (hstep.symm.trans hdecode))).1
      · cases hstep.symm.trans hdecode
      · have hstop := FramedControl.Receives.stop hreceive
        rwa [Chunk.join_nil, List.append_nil] at hstop
  | failed hdecode =>
      subst hinput
      obtain ⟨frame, next, later, -, hstep⟩ | ⟨e, next, later, hreceive, hstep, hrest⟩ | ⟨-, rest, hstep⟩ :=
        receive_cases hroom buffer chunks
      · cases hstep.symm.trans hdecode
      · obtain rfl := Except.error.inj (hstep.symm.trans hdecode)
        rw [← hrest]
        exact .stop hreceive
      · cases hstep.symm.trans hdecode

theorem receives_unique {buffer : Bytes} {chunks : List Chunk} {frames frames' : List Frame} {failure failure' : ReceiveError}
    {rest' : Bytes} (h : control.Receives buffer chunks frames failure rest)
    (h' : control.Receives buffer chunks frames' failure' rest') : frames' = frames ∧ failure' = failure ∧ rest' = rest := by
  induction h generalizing frames' with
  | frame hreceive _ ih =>
      cases h' with
      | frame hreceive' hlater =>
          obtain ⟨hframe, hnext⟩ := Prod.mk.inj (hreceive.symm.trans hreceive')
          obtain rfl := Except.ok.inj hframe
          obtain ⟨rfl, rfl⟩ := Prod.mk.inj hnext
          obtain ⟨rfl, hfailure, hrest⟩ := ih hlater
          exact ⟨rfl, hfailure, hrest⟩
      | stop hreceive' => cases (Prod.mk.inj (hreceive.symm.trans hreceive')).1
  | stop hreceive =>
      cases h' with
      | frame hreceive' _ => cases (Prod.mk.inj (hreceive.symm.trans hreceive')).1
      | stop hreceive' =>
          obtain ⟨hfailure, hnext⟩ := Prod.mk.inj (hreceive.symm.trans hreceive')
          obtain ⟨rfl, rfl⟩ := Prod.mk.inj hnext
          exact ⟨rfl, (Except.error.inj hfailure).symm, rfl⟩

end Receive

theorem Side.room (side : Side) : headerLen + side.framedControl.codec.maxPayload ≤ side.framedControl.maxBuffer := by
  cases side <;> exact Nat.le_of_eq (Nat.add_comm _ _)

/-- However the bytes of a control stream are cut into reads, both sides get
the frames that the bytes decode to at once, the same first error, before the
same byte, and never the report that a frame is too large for the buffer. -/
theorem control_stream_decodes_at_once (side : Side) (chunks : List Chunk) :
    (∃ frames error rest, Decodes side.framedControl.codec.decode (Chunk.join chunks) frames error rest ∧
      ∀ frames' failure rest', side.framedControl.Receives [] chunks frames' failure rest' ↔
        frames' = frames ∧ failure = .ofStop error ∧ rest' = rest) ∧
      ∀ buffer, (side.framedControl.receive buffer chunks).1 ≠ .error .frameTooLarge := by
  refine ⟨?_, fun buffer => ?_⟩
  · obtain ⟨frames, error, rest, hdecodes⟩ := Decodes.total (decode_incremental side.framedControl.codec) (Chunk.join chunks)
    have hreceives : side.framedControl.Receives [] chunks frames (.ofStop error) rest := receives_of_decodes side.room hdecodes
    refine ⟨frames, error, rest, hdecodes, fun frames' failure rest' => ⟨receives_unique hreceives, ?_⟩⟩
    rintro ⟨rfl, rfl, rfl⟩
    exact hreceives
  · obtain ⟨frame, next, later, hreceive, -⟩ | ⟨e, next, later, hreceive, -⟩ | ⟨hreceive, -⟩ :=
      receive_cases side.room buffer chunks
    · rw [hreceive]
      rintro ⟨⟩
    · rw [hreceive]
      rintro ⟨⟩
    · rw [hreceive]
      rintro ⟨⟩

end Rustgo.Protocol
