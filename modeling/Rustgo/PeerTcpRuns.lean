import Rustgo.PeerTcp

namespace Rustgo.PeerTcp

open AeadTable OrderedChannel PeerCipher Rendezvous Runs Tickets

variable {Key : Type}

section Records

def record (frame : PeerRelayFrame) : Bytes :=
  be 4 (RendezvousFormat.wirePeerRelayFrame.write frame).length ++ RendezvousFormat.wirePeerRelayFrame.write frame

theorem write_le (frame : PeerRelayFrame) :
    (RendezvousFormat.wirePeerRelayFrame.write frame).length ≤ maxWireFrameBytes :=
  (RendezvousFormat.wirePeerRelayFrame.write_length frame).trans (by decide)

theorem writeFrame_eq (frame : PeerRelayFrame) : writeFrame frame = .ok (record frame) := by
  simp only [writeFrame, Nat.not_lt.mpr (write_le frame), if_false, record]

theorem length_record (frame : PeerRelayFrame) :
    (record frame).length = 4 + (RendezvousFormat.wirePeerRelayFrame.write frame).length := by
  rw [record, List.length_append, length_be]

theorem record_ne_nil (frame : PeerRelayFrame) : record frame ≠ [] := by
  intro h
  have hlen := length_record frame
  rw [h, List.length_nil] at hlen
  omega

/-- Four bytes of a record give its length. -/
theorem recordSize_of_prefix {frame : PeerRelayFrame} {taken rest : Bytes} (h : taken <+: record frame ++ rest)
    (hlen : 4 ≤ taken.length) : recordSize taken = (RendezvousFormat.wirePeerRelayFrame.write frame).length := by
  have hfour : taken.take 4 = be 4 (RendezvousFormat.wirePeerRelayFrame.write frame).length := by
    have htake := (List.prefix_iff_eq_take.mp h)
    rw [htake, List.take_take, Nat.min_eq_left hlen, record, List.append_assoc, List.take_left' (length_be _ _)]
  have hle := write_le frame
  rw [recordSize, hfour, ofBe_be (by simp only [maxWireFrameBytes] at hle; omega)]

def Readable (frame : PeerRelayFrame) : Prop :=
  frame.channelId ≠ 0 ∧ frame.ciphertextLen.toNat = frame.ciphertext.bytes.length

theorem decodeFrame_record {frame : PeerRelayFrame} (h : Readable frame) : decodeFrame ((record frame).drop 4) = some frame := by
  have hread := RendezvousFormat.wirePeerRelayFrame.read_write frame []
  rw [List.append_nil] at hread
  rw [record, List.drop_left' (length_be _ _), decodeFrame, hread]
  simp only [h.1, h.2, ne_eq, not_false_eq_true, and_self, if_true]

end Records

section Channel

variable {c : Channel Key} {w : World Key}

/-- What sealing does to a channel whose invariant holds. -/
theorem sealed_cases (h : OrderedChannel.Inv c w) (aead : Aead Key) (plaintext : Bytes) (flags : PeerRelayFlags) :
    (∃ e, (w.sealer.seal aead plaintext flags).1 = .error e ∧ w.sealed aead plaintext flags = w) ∨
    ∃ frame, (w.sealer.seal aead plaintext flags).1 = .ok frame ∧ (w.sealed aead plaintext flags).sent =
      w.sent ++ [(plaintext, frame)] ∧ (w.sealed aead plaintext flags).returned = w.returned ∧
      frame.sequence.toNat = w.sent.length ∧ Readable frame := by
  have hc : w.sealer.channelId ≠ 0 := h.sealer.channelId ▸ h.channel
  rcases seal_spec aead w.sealer hc plaintext flags with ⟨e, hs, he⟩ | ⟨frame, hs, ha, -, hfc, hfq, -, -⟩
  · exact .inl ⟨e, by rw [hs], by simp only [World.sealed, hs, he, List.append_nil]⟩
  · have hat := h.sealerAt
    simp only [(PeerFrameSealer.admits_ok ha).2.2.2, At, Bool.false_eq_true, if_false] at hat
    have hlen := FrameDomains.ciphertextLen_of_seal hc hs
    have hbound := frame.ciphertext.bounded
    refine .inr ⟨frame, by rw [hs], by simp only [World.sealed, hs], by simp only [World.sealed, hs], ?_, ?_, ?_⟩
    · rw [hfq, hat]
    · rw [hfc]
      exact hc
    · rw [hlen, UInt32.toNat_ofNat_of_lt']
      simp only [maxPeerRelayCiphertextBytes, UInt32.size] at hbound ⊢
      omega

variable [DecidableEq Key]

theorem delivered_next (h : OrderedChannel.Inv c w) {plaintext : Bytes} {frame : PeerRelayFrame}
    (hnext : w.sent[w.returned.length]? = some (plaintext, frame)) :
    (w.opener.open (decrypt w.log) frame).1 = .ok plaintext ∧
      (w.delivered frame).returned = w.returned ++ [plaintext] ∧ (w.delivered frame).sent = w.sent ∧
      (w.delivered frame).log = w.log ∧ (w.delivered frame).opener = (w.opener.open (decrypt w.log) frame).2 := by
  obtain ⟨o, ho⟩ := h.next_accepted hnext
  simp only [World.delivered, ho, and_self]

/-- The opener takes the frames that it has not returned yet, in their order. -/
theorem openAll_rest (n : Nat) : ∀ w : World Key, OrderedChannel.Inv c w → w.returned.length + n ≤ w.sent.length →
    FrameDomains.openAll (decrypt w.log) w.opener (((w.sent.map Prod.snd).drop w.returned.length).take n) =
      some (((w.sent.map Prod.fst).drop w.returned.length).take n) := by
  induction n with
  | zero => exact fun _ _ _ => rfl
  | succ n ih =>
      intro w h hle
      have hlt : w.returned.length < w.sent.length := by omega
      cases hp : w.sent[w.returned.length] with
      | mk plaintext frame =>
          have hnext : w.sent[w.returned.length]? = some (plaintext, frame) := by rw [List.getElem?_eq_getElem hlt, hp]
          obtain ⟨hok, hreturned, hsent, hlog, hopener⟩ := delivered_next h hnext
          have hrest := ih (w.delivered frame) (h.delivered_step _) (by
            rw [hreturned, hsent, List.length_append, List.length_singleton]
            omega)
          rw [hreturned, hsent, hlog, hopener, List.length_append, List.length_singleton] at hrest
          have hlt₁ : w.returned.length < (w.sent.map Prod.fst).length := by simpa using hlt
          have hlt₂ : w.returned.length < (w.sent.map Prod.snd).length := by simpa using hlt
          have hfst := List.drop_eq_getElem_cons hlt₁
          have hsnd := List.drop_eq_getElem_cons hlt₂
          simp only [List.getElem_map, hp] at hfst hsnd
          rw [hfst, hsnd, List.take_succ_cons, List.take_succ_cons]
          cases ho : w.opener.open (decrypt w.log) frame with
          | mk result o =>
              simp only [ho] at hok hrest
              simp only [FrameDomains.openAll, ho, hok, hrest, Option.map_some]

end Channel

section Sending

def Sender.locked : Sender → Bool
  | .writing _ _ _ | .written _ => true
  | .returned _ | .called _ | .sealed _ _ => false

structure Sending (w : Link Key) : Prop where
  tickets : w.closed = false → Held (Sender.ticket ∘ w.senders) w.written.length w.channel.sent.length
  sealed : ∀ i request frame, w.senders i = .sealed request frame →
    ∃ plaintext, w.channel.sent[frame.sequence.toNat]? = some (plaintext, frame)
  written : w.written <+: w.channel.sent.map Prod.snd
  lock : ∀ i, (w.senders i).locked = true → w.writer = some i
  writing : w.closed = false → ∀ i request frame rest, w.senders i = .writing request frame rest → ∃ plaintext done,
    w.channel.sent[w.written.length]? = some (plaintext, frame) ∧ frame.sequence.toNat = w.written.length ∧
      w.wire = w.written.flatMap record ++ done ∧ record frame = done ++ rest ∧ rest ≠ []
  quiet : w.closed = false → (∀ i request frame rest, w.senders i ≠ .writing request frame rest) →
    w.wire = w.written.flatMap record
  torn : ∃ part, w.wire = w.written.flatMap record ++ part ∧ (part = [] ∨ ∃ plaintext frame rest,
    w.channel.sent[w.written.length]? = some (plaintext, frame) ∧ record frame = part ++ rest ∧ rest ≠ [])

variable {w : Link Key} {i : Nat}

theorem sender_cases {senders : Nat → Sender} {phase : Sender} {j : Nat} {P : Sender → Prop}
    (h : P (Function.update senders i phase j)) : j = i ∧ P phase ∨ j ≠ i ∧ P (senders j) := by
  by_cases hj : j = i
  · subst hj
    exact .inl ⟨rfl, by simpa using h⟩
  · exact .inr ⟨hj, by simpa [Function.update_of_ne hj] using h⟩

theorem Sending.close (h : Sending w) : Sending { w with closed := true } where
  tickets := by simp
  sealed := h.sealed
  written := h.written
  lock := h.lock
  writing := by simp
  quiet := by simp
  torn := h.torn

theorem Sending.unlock (h : Sending w) (hfree : ∀ j, (w.senders j).locked = false) : Sending { w with writer := none } where
  tickets := h.tickets
  sealed := h.sealed
  written := h.written
  lock j hj := nomatch (hfree j).symm.trans hj
  writing := h.writing
  quiet := h.quiet
  torn := h.torn

/-- A call that owes no frame, or whose socket is closed, may come to rest. -/
theorem Sending.rest (h : Sending w) {phase : Sender} (hold : w.closed = true ∨ (w.senders i).ticket = none)
    (hnew : phase.ticket = none) (hlocked : phase.locked = false) : Sending (w.sender i phase) where
  tickets hc := by
    have hnone : (w.senders i).ticket = none := hold.resolve_left (by simpa [Link.sender] using hc)
    have hsame : Sender.ticket ∘ Function.update w.senders i phase = Sender.ticket ∘ w.senders := by
      rw [Function.comp_update, hnew, ← hnone]
      exact Function.update_eq_self i (Sender.ticket ∘ w.senders)
    simpa only [Link.sender, hsame] using h.tickets hc
  sealed j request frame hj := by
    rcases sender_cases (P := (· = .sealed request frame)) hj with ⟨-, rfl⟩ | ⟨-, hj⟩
    · exact nomatch hnew
    · exact h.sealed j request frame hj
  written := h.written
  lock j hj := by
    rcases sender_cases (P := fun s => s.locked = true) hj with ⟨-, hj⟩ | ⟨-, hj⟩
    · exact nomatch hlocked.symm.trans hj
    · exact h.lock j hj
  writing hc j request frame rest hj := by
    rcases sender_cases (P := (· = .writing request frame rest)) hj with ⟨-, rfl⟩ | ⟨-, hj⟩
    · exact nomatch hnew
    · exact h.writing hc j request frame rest hj
  quiet hc hidle := by
    refine h.quiet hc fun j request frame rest hj => ?_
    by_cases hji : j = i
    · subst hji
      have hnone : (w.senders j).ticket = none := hold.resolve_left (by simpa [Link.sender] using hc)
      rw [hj] at hnone
      exact nomatch hnone
    · exact hidle j request frame rest (by simpa [Link.sender, Function.update_of_ne hji] using hj)
  torn := h.torn

theorem Sending.alone (h : Sending w) (hi : (w.senders i).locked = true) {phase : Sender} (hlocked : phase.locked = false)
    (j : Nat) : (Function.update w.senders i phase j).locked = false := by
  by_cases hji : j = i
  · subst hji
    simpa using hlocked
  · rw [Function.update_of_ne hji]
    by_contra hj
    have heq := (h.lock j (by simpa using hj)).symm.trans (h.lock i hi)
    exact hji (Option.some.inj heq)

theorem Sending.sealFrame (h : Sending w) {request : Request} {frame : PeerRelayFrame} {plaintext : Bytes} {channel : World Key}
    (hi : w.senders i = .called request) (hsent : channel.sent = w.channel.sent ++ [(plaintext, frame)])
    (hseq : frame.sequence.toNat = w.channel.sent.length) :
    Sending (({ w with channel := channel } : Link Key).sender i (.sealed request frame)) where
  tickets hc := by
    have hnone : (Sender.ticket ∘ w.senders) i = none := by simp [hi, Sender.ticket]
    have hle : w.written.length ≤ w.channel.sent.length := by simpa using h.written.length_le
    have hissue := (h.tickets hc).issue hle hnone
    simp only [Link.sender, hsent, List.length_append, List.length_singleton, Function.comp_update, Sender.ticket, hseq]
    exact hissue
  sealed j request' frame' hj := by
    simp only [Link.sender, hsent]
    rcases sender_cases (P := (· = .sealed request' frame')) hj with ⟨-, hj⟩ | ⟨-, hj⟩
    · obtain ⟨rfl, rfl⟩ := Sender.sealed.inj hj
      exact ⟨plaintext, by rw [hseq, List.getElem?_concat_length]⟩
    · obtain ⟨plaintext', hget⟩ := h.sealed j request' frame' hj
      exact ⟨plaintext', getElem?_append_of_some hget⟩
  written := by
    simp only [Link.sender, hsent, List.map_append]
    exact h.written.trans (List.prefix_append _ _)
  lock j hj := by
    rcases sender_cases (P := fun s => s.locked = true) hj with ⟨-, hj⟩ | ⟨-, hj⟩
    · exact nomatch hj
    · exact h.lock j hj
  writing hc j request' frame' rest hj := by
    rcases sender_cases (P := (· = .writing request' frame' rest)) hj with ⟨-, hj⟩ | ⟨-, hj⟩
    · exact nomatch hj
    · obtain ⟨plaintext', done, hget, hrest⟩ := h.writing hc j request' frame' rest hj
      simp only [Link.sender, hsent]
      exact ⟨plaintext', done, getElem?_append_of_some hget, hrest⟩
  quiet hc hidle := by
    refine h.quiet hc fun j request' frame' rest hj => ?_
    have hji : j ≠ i := by
      rintro rfl
      exact nomatch hi.symm.trans hj
    exact hidle j request' frame' rest (by simpa [Link.sender, Function.update_of_ne hji] using hj)
  torn := by
    obtain ⟨part, hwire, hpart⟩ := h.torn
    refine ⟨part, hwire, hpart.imp_right ?_⟩
    rintro ⟨plaintext', frame', rest, hget, hrest⟩
    simp only [Link.sender, hsent]
    exact ⟨plaintext', frame', rest, getElem?_append_of_some hget, hrest⟩

theorem Sending.no_writer (h : Sending w) (hw : w.writer = none) (j : Nat) (request : Request) (frame : PeerRelayFrame)
    (rest : Bytes) : w.senders j ≠ .writing request frame rest := by
  intro hj
  exact nomatch hw.symm.trans (h.lock j (by rw [hj]; rfl))

/-- The writer is given to the call that holds the first frame not yet written. -/
theorem Sending.lockWriter (h : Sending w) {request : Request} {frame : PeerRelayFrame} (hi : w.senders i = .sealed request frame)
    (hw : w.writer = none) (hfirst : ∀ j k, (w.senders j).ticket = some k → frame.sequence.toNat ≤ k) :
    Sending { w.sender i (.writing request frame (record frame)) with writer := some i } where
  tickets hc := by
    have hsame : Sender.ticket ∘ Function.update w.senders i (.writing request frame (record frame)) =
        Sender.ticket ∘ w.senders := by
      rw [Function.comp_update]
      refine Function.update_eq_self_iff.mpr ?_
      simp [hi, Sender.ticket]
    simpa only [Link.sender, hsame] using h.tickets hc
  sealed j request' frame' hj := by
    rcases sender_cases (P := (· = .sealed request' frame')) hj with ⟨-, hj⟩ | ⟨-, hj⟩
    · exact nomatch hj
    · exact h.sealed j request' frame' hj
  written := h.written
  lock j hj := by
    rcases sender_cases (P := fun s => s.locked = true) hj with ⟨rfl, -⟩ | ⟨-, hj⟩
    · rfl
    · exact nomatch hw.symm.trans (h.lock j hj)
  writing hc j request' frame' rest hj := by
    rcases sender_cases (P := (· = .writing request' frame' rest)) hj with ⟨-, hj⟩ | ⟨-, hj⟩
    · obtain ⟨rfl, rfl, rfl⟩ := Sender.writing.inj hj
      obtain ⟨plaintext, hget⟩ := h.sealed i request frame hi
      have hk : frame.sequence.toNat = w.written.length := (h.tickets hc).first (i := i) (by simp [hi, Sender.ticket]) hfirst
      refine ⟨plaintext, [], hk ▸ hget, hk, ?_, rfl, record_ne_nil frame⟩
      rw [List.append_nil]
      exact h.quiet hc (h.no_writer hw)
    · exact absurd hj (h.no_writer hw j request' frame' rest)
  quiet _ hidle := absurd (by simp [Link.sender]) (hidle i request frame (record frame))
  torn := h.torn

theorem Sending.writeSome (h : Sending w) {request : Request} {frame : PeerRelayFrame} {rest : Bytes} {n : Nat}
    (hi : w.senders i = .writing request frame rest) (hc : w.closed = false) (hn : n < rest.length) :
    Sending (({ w with wire := w.wire ++ rest.take n } : Link Key).sender i (.writing request frame (rest.drop n))) := by
  obtain ⟨plaintext, done, hget, hseq, hwire, hrecord, -⟩ := h.writing hc i request frame rest hi
  have hleft : rest.drop n ≠ [] := by
    intro heq
    have hlen := congrArg List.length heq
    rw [List.length_drop, List.length_nil] at hlen
    omega
  have hrecord' : record frame = (done ++ rest.take n) ++ rest.drop n := by
    rw [List.append_assoc, List.take_append_drop, hrecord]
  refine ⟨?_, ?_, h.written, ?_, ?_, ?_, ?_⟩
  · have hsame : Sender.ticket ∘ Function.update w.senders i (.writing request frame (rest.drop n)) =
        Sender.ticket ∘ w.senders := by
      rw [Function.comp_update]
      refine Function.update_eq_self_iff.mpr ?_
      simp [hi, Sender.ticket]
    simpa only [Link.sender, hsame] using h.tickets
  · intro j request' frame' hj
    rcases sender_cases (P := (· = .sealed request' frame')) hj with ⟨-, hj⟩ | ⟨-, hj⟩
    · exact nomatch hj
    · exact h.sealed j request' frame' hj
  · intro j hj
    rcases sender_cases (P := fun s => s.locked = true) hj with ⟨rfl, -⟩ | ⟨-, hj⟩
    · exact h.lock j (by rw [hi]; rfl)
    · exact h.lock j hj
  · intro _ j request' frame' rest' hj
    rcases sender_cases (P := (· = .writing request' frame' rest')) hj with ⟨-, hj⟩ | ⟨hji, hj⟩
    · obtain ⟨rfl, rfl, rfl⟩ := Sender.writing.inj hj
      exact ⟨plaintext, done ++ rest.take n, hget, hseq, by simp [Link.sender, hwire], hrecord', hleft⟩
    · have heq := (h.lock j (by rw [hj]; rfl)).symm.trans (h.lock i (by rw [hi]; rfl))
      exact absurd (Option.some.inj heq) hji
  · exact fun _ hidle => absurd (by simp [Link.sender]) (hidle i request frame (rest.drop n))
  · exact ⟨done ++ rest.take n, by simp [Link.sender, hwire], .inr ⟨plaintext, frame, rest.drop n, hget, hrecord', hleft⟩⟩

theorem Sending.writeLast (h : Sending w) {request : Request} {frame : PeerRelayFrame} {rest : Bytes}
    (hi : w.senders i = .writing request frame rest) (hc : w.closed = false) :
    Sending { ({ w with wire := w.wire ++ rest } : Link Key).sender i (.written request) with
      written := w.written ++ [frame] } := by
  obtain ⟨plaintext, done, hget, hseq, hwire, hrecord, -⟩ := h.writing hc i request frame rest hi
  have hwire' : w.wire ++ rest = (w.written ++ [frame]).flatMap record := by
    rw [hwire, List.append_assoc, ← hrecord, List.flatMap_append, List.flatMap_singleton]
  refine ⟨?_, ?_, ?_, ?_, ?_, fun _ _ => hwire', ⟨[], by rw [List.append_nil]; exact hwire', .inl rfl⟩⟩
  · intro _
    have hredeem := (h.tickets hc).redeem (i := i) (by simp [hi, Sender.ticket, hseq])
    simp only [Link.sender, Function.comp_update, List.length_append, List.length_singleton]
    exact hredeem
  · intro j request' frame' hj
    rcases sender_cases (P := (· = .sealed request' frame')) hj with ⟨-, hj⟩ | ⟨-, hj⟩
    · exact nomatch hj
    · exact h.sealed j request' frame' hj
  · obtain ⟨more, hmore⟩ := h.written
    have hat : (w.channel.sent.map Prod.snd)[w.written.length]? = some frame := by rw [List.getElem?_map, hget]; rfl
    rw [← hmore, List.getElem?_append_right (Nat.le_refl _), Nat.sub_self] at hat
    cases more with
    | nil => exact nomatch hat
    | cons next more =>
        obtain rfl : next = frame := by simpa using hat
        exact ⟨more, by simpa [Link.sender] using hmore⟩
  · intro j hj
    rcases sender_cases (P := fun s => s.locked = true) hj with ⟨rfl, -⟩ | ⟨-, hj⟩
    · exact h.lock j (by rw [hi]; rfl)
    · exact h.lock j hj
  · intro _ j request' frame' rest' hj
    rcases sender_cases (P := (· = .writing request' frame' rest')) hj with ⟨-, hj⟩ | ⟨hji, hj⟩
    · exact nomatch hj
    · have heq := (h.lock j (by rw [hj]; rfl)).symm.trans (h.lock i (by rw [hi]; rfl))
      exact absurd (Option.some.inj heq) hji

end Sending

section Receiving

structure Receiving (w : Link Key) : Prop where
  tickets : Held (Receiver.ticket ∘ w.receivers) w.opened.length w.read.length
  holding : ∀ i k frame, w.receivers i = .holding k frame → w.read[k]? = some frame
  lock : ∀ i taken, w.receivers i = .reading taken → w.reader = some i
  consumed : w.consumed ≤ w.wire.length
  reading : w.broken = false → ∀ i taken, w.receivers i = .reading taken →
    w.wire.take w.consumed = w.read.flatMap record ++ taken ∧ taken.length ≤ wanted taken
  quiet : w.broken = false → (∀ i taken, w.receivers i ≠ .reading taken) → w.wire.take w.consumed = w.read.flatMap record
  stuck : w.broken = true → ∀ i taken, w.receivers i = .reading taken → taken = []
  read : w.read <+: w.written
  opened : w.opened = (w.channel.sent.take w.opened.length).map fun p => (p.2, .ok p.1)
  returned : w.channel.returned.length = w.opened.length
  ahead : w.opened.length ≤ w.read.length

variable {w : Link Key} {i : Nat}

/-- What the sending endpoint does keeps what the receiving endpoint has. -/
theorem Receiving.grow (h : Receiving w) {w' : Link Key} (hreceivers : w'.receivers = w.receivers) (hreader : w'.reader = w.reader)
    (hconsumed : w'.consumed = w.consumed) (hread : w'.read = w.read) (hopened : w'.opened = w.opened)
    (hbroken : w'.broken = w.broken) (hwire : w.wire <+: w'.wire) (hwritten : w.written <+: w'.written)
    (hsent : w.channel.sent <+: w'.channel.sent) (hreturned : w'.channel.returned = w.channel.returned) : Receiving w' := by
  have htake : w'.wire.take w.consumed = w.wire.take w.consumed := by
    obtain ⟨more, hmore⟩ := hwire
    rw [← hmore, List.take_append_of_le_length h.consumed]
  have hfirst : w'.channel.sent.take w.opened.length = w.channel.sent.take w.opened.length := by
    obtain ⟨more, hmore⟩ := hsent
    have hlen := congrArg List.length h.opened
    rw [List.length_map, List.length_take] at hlen
    rw [← hmore, List.take_append_of_le_length (by omega)]
  refine ⟨?_, ?_, ?_, ?_, ?_, ?_, ?_, ?_, ?_, ?_, ?_⟩
  all_goals simp only [hreceivers, hreader, hconsumed, hread, hopened, hbroken, htake, hfirst, hreturned]
  · exact h.tickets
  · exact h.holding
  · exact h.lock
  · exact h.consumed.trans hwire.length_le
  · exact h.reading
  · exact h.quiet
  · exact h.stuck
  · exact h.read.trans hwritten
  · exact h.opened
  · exact h.returned
  · exact h.ahead

theorem receiver_cases {receivers : Nat → Receiver} {phase : Receiver} {j : Nat} {P : Receiver → Prop}
    (h : P (Function.update receivers i phase j)) : j = i ∧ P phase ∨ j ≠ i ∧ P (receivers j) := by
  by_cases hj : j = i
  · subst hj
    exact .inl ⟨rfl, by simpa using h⟩
  · exact .inr ⟨hj, by simpa [Function.update_of_ne hj] using h⟩

/-- A call that has taken nothing may come to rest, or wait for the reader. -/
theorem Receiving.rest (h : Receiving w) {phase : Receiver} (hold : (w.receivers i).ticket = none)
    (hnothing : ∀ taken, w.receivers i = .reading taken → taken = [])
    (hnew : phase.ticket = none) (hphase : ∀ taken, phase ≠ .reading taken) : Receiving (w.receiver i phase) where
  tickets := by
    have hsame : Receiver.ticket ∘ Function.update w.receivers i phase = Receiver.ticket ∘ w.receivers := by
      rw [Function.comp_update, hnew, ← hold]
      exact Function.update_eq_self i (Receiver.ticket ∘ w.receivers)
    simpa only [Link.receiver, hsame] using h.tickets
  holding j k frame hj := by
    rcases receiver_cases (P := (· = .holding k frame)) hj with ⟨-, rfl⟩ | ⟨-, hj⟩
    · exact nomatch hnew
    · exact h.holding j k frame hj
  lock j taken hj := by
    rcases receiver_cases (P := (· = .reading taken)) hj with ⟨-, hj⟩ | ⟨-, hj⟩
    · exact absurd hj (hphase taken)
    · exact h.lock j taken hj
  consumed := h.consumed
  reading hb j taken hj := by
    rcases receiver_cases (P := (· = .reading taken)) hj with ⟨-, hj⟩ | ⟨-, hj⟩
    · exact absurd hj (hphase taken)
    · exact h.reading hb j taken hj
  quiet hb hidle := by
    by_cases hi : ∃ taken, w.receivers i = .reading taken
    · obtain ⟨taken, hi⟩ := hi
      have hall := (h.reading hb i taken hi).1
      rw [hnothing taken hi, List.append_nil] at hall
      exact hall
    · refine h.quiet hb fun j taken hj => ?_
      by_cases hji : j = i
      · subst hji
        exact hi ⟨taken, hj⟩
      · exact hidle j taken (by simpa [Link.receiver, Function.update_of_ne hji] using hj)
  stuck hb j taken hj := by
    rcases receiver_cases (P := (· = .reading taken)) hj with ⟨-, hj⟩ | ⟨-, hj⟩
    · exact absurd hj (hphase taken)
    · exact h.stuck hb j taken hj
  read := h.read
  opened := h.opened
  returned := h.returned
  ahead := h.ahead

theorem Receiving.unlock (h : Receiving w) (hfree : ∀ j taken, w.receivers j ≠ .reading taken) :
    Receiving { w with reader := none } where
  tickets := h.tickets
  holding := h.holding
  lock j taken hj := absurd hj (hfree j taken)
  consumed := h.consumed
  reading := h.reading
  quiet := h.quiet
  stuck := h.stuck
  read := h.read
  opened := h.opened
  returned := h.returned
  ahead := h.ahead

theorem Receiving.alone (h : Receiving w) {taken : Bytes} (hi : w.receivers i = .reading taken) {j : Nat} {taken' : Bytes}
    (hj : w.receivers j = .reading taken') : j = i :=
  Option.some.inj ((h.lock j taken' hj).symm.trans (h.lock i taken hi))

/-- Only the call that has the reader changes what it has taken. -/
theorem Receiving.same_tickets (h : Receiving w) {phase : Receiver} (hold : (w.receivers i).ticket = none)
    (hnew : phase.ticket = none) :
    Held (Receiver.ticket ∘ Function.update w.receivers i phase) w.opened.length w.read.length := by
  have hsame : Receiver.ticket ∘ Function.update w.receivers i phase = Receiver.ticket ∘ w.receivers := by
    rw [Function.comp_update, hnew, ← hold]
    exact Function.update_eq_self i (Receiver.ticket ∘ w.receivers)
  rw [hsame]
  exact h.tickets

theorem Receiving.lockReader (h : Receiving w) (hi : w.receivers i = .called) (hr : w.reader = none) :
    Receiving { w.receiver i (.reading []) with reader := some i } := by
  have hfree : ∀ j taken, w.receivers j ≠ .reading taken := fun j taken hj => nomatch hr.symm.trans (h.lock j taken hj)
  refine ⟨h.same_tickets (by rw [hi]; rfl) rfl, ?_, ?_, h.consumed, ?_, ?_, ?_, h.read, h.opened, h.returned, h.ahead⟩
  · intro j k frame hj
    rcases receiver_cases (P := (· = .holding k frame)) hj with ⟨-, hj⟩ | ⟨-, hj⟩
    · exact nomatch hj
    · exact h.holding j k frame hj
  · intro j taken hj
    rcases receiver_cases (P := (· = .reading taken)) hj with ⟨rfl, -⟩ | ⟨-, hj⟩
    · rfl
    · exact absurd hj (hfree j taken)
  · intro hb j taken hj
    rcases receiver_cases (P := (· = .reading taken)) hj with ⟨-, hj⟩ | ⟨-, hj⟩
    · obtain rfl := Receiver.reading.inj hj
      exact ⟨by rw [List.append_nil]; exact h.quiet hb hfree, Nat.zero_le _⟩
    · exact absurd hj (hfree j taken)
  · exact fun _ hidle => absurd (by simp [Link.receiver]) (hidle i [])
  · intro _ j taken hj
    rcases receiver_cases (P := (· = .reading taken)) hj with ⟨-, hj⟩ | ⟨-, hj⟩
    · exact (Receiver.reading.inj hj).symm
    · exact absurd hj (hfree j taken)

theorem length_le_wanted {taken more : Bytes} (hle : taken.length + more.length ≤ wanted taken) :
    (taken ++ more).length ≤ wanted (taken ++ more) := by
  rw [List.length_append]
  by_cases hshort : taken.length + more.length < 4
  · simp only [wanted, List.length_append, hshort, if_true]
    omega
  · simp only [wanted, List.length_append, hshort, if_false]
    by_cases hfour : taken.length < 4
    · simp only [wanted, hfour, if_true] at hle
      omega
    · simp only [wanted, hfour, if_false, recordSize] at hle ⊢
      rwa [List.take_append_of_le_length (Nat.le_of_not_lt hfour)]

theorem Receiving.readBytes (h : Receiving w) {taken : Bytes} {n : Nat} (hi : w.receivers i = .reading taken)
    (hb : w.broken = false) (hwanted : taken.length + n ≤ wanted taken) (hn : w.consumed + n ≤ w.wire.length) :
    Receiving { w.receiver i (.reading (taken ++ (w.wire.drop w.consumed).take n)) with consumed := w.consumed + n } := by
  obtain ⟨htake, -⟩ := h.reading hb i taken hi
  have hlen : ((w.wire.drop w.consumed).take n).length = n := by
    rw [List.length_take, List.length_drop]
    omega
  refine ⟨h.same_tickets (by rw [hi]; rfl) rfl, ?_, ?_, hn, ?_, ?_, ?_, h.read, h.opened, h.returned, h.ahead⟩
  · intro j k frame hj
    rcases receiver_cases (P := (· = .holding k frame)) hj with ⟨-, hj⟩ | ⟨-, hj⟩
    · exact nomatch hj
    · exact h.holding j k frame hj
  · intro j taken' hj
    rcases receiver_cases (P := (· = .reading taken')) hj with ⟨rfl, -⟩ | ⟨-, hj⟩
    · exact h.lock j taken hi
    · exact h.lock j taken' hj
  · intro _ j taken' hj
    rcases receiver_cases (P := (· = .reading taken')) hj with ⟨-, hj⟩ | ⟨hji, hj⟩
    · obtain rfl := Receiver.reading.inj hj
      refine ⟨?_, length_le_wanted (by rwa [hlen])⟩
      simp only [Link.receiver, List.take_add, htake, List.append_assoc]
    · exact absurd (h.alone hi hj) hji
  · exact fun _ hidle => absurd (by simp [Link.receiver]) (hidle i (taken ++ (w.wire.drop w.consumed).take n))
  · exact fun hbroken => nomatch hb.symm.trans hbroken

theorem Receiving.failRead (h : Receiving w) {taken : Bytes} (hi : w.receivers i = .reading taken)
    (result : Option (Except PeerTcpError (Option Bytes))) :
    Receiving { w.receiver i (.returned result) with reader := none, broken := true } := by
  have hfree : ∀ j taken', Function.update w.receivers i (.returned result) j ≠ .reading taken' := by
    intro j taken' hj
    rcases receiver_cases (P := (· = .reading taken')) hj with ⟨-, hj⟩ | ⟨hji, hj⟩
    · exact nomatch hj
    · exact hji (h.alone hi hj)
  refine ⟨h.same_tickets (by rw [hi]; rfl) rfl, ?_, ?_, h.consumed, ?_, ?_, ?_, h.read, h.opened, h.returned, h.ahead⟩
  · intro j k frame hj
    rcases receiver_cases (P := (· = .holding k frame)) hj with ⟨-, hj⟩ | ⟨-, hj⟩
    · exact nomatch hj
    · exact h.holding j k frame hj
  · exact fun j taken' hj => absurd hj (hfree j taken')
  · exact fun hb => nomatch hb
  · exact fun hb => nomatch hb
  · exact fun _ j taken' hj => absurd hj (hfree j taken')

/-- A whole record of honest bytes is the next frame that was written. -/
theorem Receiving.parse (h : Receiving w) (hs : Sending w) (hreadable : ∀ p ∈ w.channel.sent, Readable p.2) {taken : Bytes}
    (hi : w.receivers i = .reading taken) (hlen : 4 ≤ taken.length) :
    recordSize taken ≤ maxWireFrameBytes ∧ (wanted taken ≤ taken.length →
      ∃ frame, decodeFrame (taken.drop 4) = some frame ∧ Receiving { w.receiver i (.holding w.read.length frame) with
        reader := none
        read := w.read ++ [frame] }) := by
  have hb : w.broken = false := by
    by_contra hbroken
    have hnil := h.stuck (by simpa using hbroken) i taken hi
    rw [hnil, List.length_nil] at hlen
    exact absurd hlen (by decide)
  obtain ⟨htake, hle⟩ := h.reading hb i taken hi
  obtain ⟨part, hwire, hpart⟩ := hs.torn
  obtain ⟨more, hmore⟩ := h.read
  have hstream : taken <+: more.flatMap record ++ part := by
    have hprefix : w.read.flatMap record ++ taken <+: w.wire := htake ▸ List.take_prefix _ _
    rw [hwire, ← hmore, List.flatMap_append, List.append_assoc] at hprefix
    exact (List.prefix_append_right_inj _).mp hprefix
  have hwanted : wanted taken = 4 + recordSize taken := if_neg (Nat.not_lt.mpr hlen)
  cases more with
  | nil =>
      rw [List.flatMap_nil, List.nil_append] at hstream
      rcases hpart with rfl | ⟨plaintext, frame, rest, -, hrecord, hrest⟩
      · rw [List.prefix_nil.mp hstream] at hlen
        exact absurd hlen (by decide)
      · -- only a part of the next record has been written
        have hpre : taken <+: record frame ++ [] := by
          rw [List.append_nil, hrecord]
          exact hstream.trans (List.prefix_append _ _)
        have hsize := recordSize_of_prefix hpre hlen
        refine ⟨hsize ▸ write_le frame, fun hfull => ?_⟩
        have htotal := length_record frame
        have hsplit := congrArg List.length hrecord
        rw [List.length_append] at hsplit
        have hshort := hstream.length_le
        have hpos : 0 < rest.length := List.length_pos_of_ne_nil hrest
        omega
  | cons frame more =>
      rw [List.flatMap_cons, List.append_assoc] at hstream
      have hsize := recordSize_of_prefix hstream hlen
      refine ⟨hsize ▸ write_le frame, fun hfull => ?_⟩
      have htaken : taken = record frame := by
        have htotal : taken.length = (record frame).length := by
          rw [length_record]
          omega
        rw [List.prefix_iff_eq_take.mp hstream, htotal, List.take_left]
      have hmem : frame ∈ w.channel.sent.map Prod.snd := by
        apply hs.written.subset
        rw [← hmore]
        simp
      obtain ⟨p, hp, rfl⟩ := List.mem_map.mp hmem
      refine ⟨p.2, by rw [htaken, decodeFrame_record (hreadable p hp)], ?_⟩
      have hfree : ∀ j taken', Function.update w.receivers i (.holding w.read.length p.2) j ≠ .reading taken' := by
        intro j taken' hj
        rcases receiver_cases (P := (· = .reading taken')) hj with ⟨-, hj⟩ | ⟨hji, hj⟩
        · exact nomatch hj
        · exact hji (h.alone hi hj)
      refine ⟨?_, ?_, ?_, h.consumed, ?_, ?_, ?_, ?_, h.opened, h.returned, ?_⟩
      · have hissue := h.tickets.issue h.ahead (i := i) (by simp [hi, Receiver.ticket])
        simp only [Link.receiver, Function.comp_update, List.length_append, List.length_singleton]
        exact hissue
      · intro j k frame' hj
        rcases receiver_cases (P := (· = .holding k frame')) hj with ⟨-, hj⟩ | ⟨-, hj⟩
        · obtain ⟨rfl, rfl⟩ := Receiver.holding.inj hj
          exact List.getElem?_concat_length
        · exact getElem?_append_of_some (h.holding j k frame' hj)
      · exact fun j taken' hj => absurd hj (hfree j taken')
      · exact fun _ j taken' hj => absurd hj (hfree j taken')
      · intro _ _
        rw [List.flatMap_append, List.flatMap_singleton, ← htaken]
        exact htake
      · exact fun _ j taken' hj => absurd hj (hfree j taken')
      · exact ⟨more, by simpa [Link.receiver] using hmore⟩
      · rw [List.length_append]
        exact Nat.le_add_right_of_le h.ahead

/-- The call that holds the first frame not yet opened has it accepted. -/
theorem Receiving.openFrame [DecidableEq Key] {c : Channel Key} (h : Receiving w) (hs : Sending w)
    (hc : OrderedChannel.Inv c w.channel) {k : Nat} {frame : PeerRelayFrame} (hi : w.receivers i = .holding k frame)
    (hfirst : ∀ j k', (w.receivers j).ticket = some k' → k ≤ k') {phase : Receiver} (hnew : phase.ticket = none)
    (hphase : ∀ taken, phase ≠ .reading taken) :
    Receiving { w.receiver i phase with
      channel := w.channel.delivered frame
      opened := w.opened ++ [(frame, (w.channel.opener.open (decrypt w.channel.log) frame).1)] } := by
  have hticket : (Receiver.ticket ∘ w.receivers) i = some k := by simp [hi, Receiver.ticket]
  have hk : k = w.opened.length := h.tickets.first hticket hfirst
  subst hk
  have hat : (w.channel.sent.map Prod.snd)[w.opened.length]? = some frame := by
    obtain ⟨more, hmore⟩ := h.read.trans hs.written
    rw [← hmore]
    exact getElem?_append_of_some (h.holding i _ frame hi)
  rw [List.getElem?_map] at hat
  obtain ⟨⟨plaintext, frame'⟩, hsent, rfl⟩ := Option.map_eq_some_iff.mp hat
  obtain ⟨hok, hreturned, hsame, -⟩ := delivered_next hc (h.returned.symm ▸ hsent)
  refine ⟨?_, ?_, ?_, h.consumed, ?_, ?_, ?_, h.read, ?_, ?_, ?_⟩
  · have hredeem := h.tickets.redeem hticket
    simp only [Link.receiver, Function.comp_update, hnew, List.length_append, List.length_singleton]
    exact hredeem
  · intro j k frame hj
    rcases receiver_cases (P := (· = .holding k frame)) hj with ⟨-, rfl⟩ | ⟨-, hj⟩
    · cases hnew
    · exact h.holding j k frame hj
  · intro j taken hj
    rcases receiver_cases (P := (· = .reading taken)) hj with ⟨-, hj⟩ | ⟨-, hj⟩
    · exact absurd hj (hphase taken)
    · exact h.lock j taken hj
  · intro hb j taken hj
    rcases receiver_cases (P := (· = .reading taken)) hj with ⟨-, hj⟩ | ⟨-, hj⟩
    · exact absurd hj (hphase taken)
    · exact h.reading hb j taken hj
  · intro hb hidle
    refine h.quiet hb fun j taken hj => ?_
    have hji : j ≠ i := by
      rintro rfl
      cases hi.symm.trans hj
    exact hidle j taken (by simpa [Link.receiver, Function.update_of_ne hji] using hj)
  · intro hb j taken hj
    rcases receiver_cases (P := (· = .reading taken)) hj with ⟨-, hj⟩ | ⟨-, hj⟩
    · exact absurd hj (hphase taken)
    · exact h.stuck hb j taken hj
  · have hopened := h.opened
    obtain ⟨hlt, hget⟩ := List.getElem?_eq_some_iff.mp hsent
    simp only [hok, hsame, List.length_append, List.length_singleton]
    rw [List.take_succ_eq_append_getElem hlt, List.map_append, ← hopened, hget]
    rfl
  · simp only [hreturned, List.length_append, List.length_singleton, h.returned]
  · have hlt := (h.tickets.bounds i _ hticket).2
    rw [List.length_append]
    exact hlt

end Receiving

section Runs

def Receiver.empty : Receiver → Bool
  | .returned _ | .called => true
  | .reading taken => taken = []
  | .holding _ _ => false

/-- The writer is given to the call that sealed first, the opener to the call
that read first, and no call is dropped that has sealed a frame not yet
written or has read something not yet opened. -/
def Orderly (w : Link Key) : Action Key → Prop
  | .lockWriter i => ∀ k, (w.senders i).ticket = some k → ∀ j k', (w.senders j).ticket = some k' → k ≤ k'
  | .openFrame i => ∀ k, (w.receivers i).ticket = some k → ∀ j k', (w.receivers j).ticket = some k' → k ≤ k'
  | .abandon i => (w.senders i).ticket = none
  | .abandonReceive i => (w.receivers i).empty = true
  | _ => True

structure Inv (c : Channel Key) (w : Link Key) : Prop where
  channel : OrderedChannel.Inv c w.channel
  sending : Sending w
  receiving : Receiving w
  readable : ∀ p ∈ w.channel.sent, Readable p.2

variable {c : Channel Key} {w w' : Link Key} {i : Nat}

/-- A step of the sending endpoint that seals nothing. -/
theorem Inv.of_sending (h : Inv c w) (hs : Sending w') (hchannel : w'.channel = w.channel) (hreceivers : w'.receivers = w.receivers)
    (hreader : w'.reader = w.reader) (hconsumed : w'.consumed = w.consumed) (hread : w'.read = w.read)
    (hopened : w'.opened = w.opened) (hbroken : w'.broken = w.broken) (hwire : w.wire <+: w'.wire)
    (hwritten : w.written <+: w'.written) : Inv c w' where
  channel := hchannel ▸ h.channel
  sending := hs
  receiving := h.receiving.grow hreceivers hreader hconsumed hread hopened hbroken hwire hwritten
    (hchannel ▸ List.prefix_refl _) (by rw [hchannel])
  readable := hchannel ▸ h.readable

theorem Inv.call (h : Inv c w) {request : Request} (hw : w.call i request = some w') : Inv c w' := by
  rw [Link.call] at hw
  split at hw
  · next hi =>
    have hnone : (w.senders i).ticket = none := by rw [hi]; rfl
    split at hw
    · obtain rfl := Option.some.inj hw
      exact h.of_sending (h.sending.rest (.inr hnone) rfl rfl) rfl rfl rfl rfl rfl rfl rfl (List.prefix_refl _) (List.prefix_refl _)
    · obtain rfl := Option.some.inj hw
      exact h.of_sending (h.sending.rest (.inr hnone) rfl rfl) rfl rfl rfl rfl rfl rfl rfl (List.prefix_refl _) (List.prefix_refl _)
  · exact nomatch hw

theorem Inv.sealFrame (h : Inv c w) {aead : Aead Key} (hw : w.sealFrame i aead = some w') : Inv c w' := by
  rw [Link.sealFrame] at hw
  split at hw
  · next request hi =>
    have hchannel := h.channel.sealed aead request.plaintext request.flags
    rcases sealed_cases h.channel aead request.plaintext request.flags with
      ⟨e, hresult, hsame⟩ | ⟨frame, hresult, hsent, hreturned, hseq, hreadable⟩
    · simp only [hresult, hsame, Option.some.injEq] at hw
      obtain rfl := hw
      exact h.of_sending (h.sending.rest (.inr (by rw [hi]; rfl)) rfl rfl) rfl rfl rfl rfl rfl rfl rfl (List.prefix_refl _)
        (List.prefix_refl _)
    · simp only [hresult, Option.some.injEq] at hw
      obtain rfl := hw
      refine ⟨hchannel, h.sending.sealFrame hi hsent hseq, ?_, ?_⟩
      · exact h.receiving.grow rfl rfl rfl rfl rfl rfl (List.prefix_refl _) (List.prefix_refl _)
          (hsent ▸ List.prefix_append _ _) hreturned
      · intro p hp
        simp only [Link.sender, hsent] at hp
        rcases List.mem_append.mp hp with hp | hp
        · exact h.readable p hp
        · rw [List.mem_singleton.mp hp]
          exact hreadable
  · exact nomatch hw

theorem Inv.lockWriter (h : Inv c w) (hfirst : Orderly w (.lockWriter i)) (hw : w.lockWriter i = some w') : Inv c w' := by
  rw [Link.lockWriter] at hw
  split at hw
  · next request frame hi hfree =>
    simp only [writeFrame_eq, Option.some.injEq] at hw
    obtain rfl := hw
    have hlowest := hfirst _ (by rw [hi]; rfl)
    exact h.of_sending (h.sending.lockWriter hi hfree hlowest) rfl rfl rfl rfl rfl rfl rfl (List.prefix_refl _) (List.prefix_refl _)
  · exact nomatch hw

theorem Inv.write (h : Inv c w) {n : Nat} (hw : w.write i n = some w') : Inv c w' := by
  rw [Link.write] at hw
  split at hw
  · next request frame rest hi =>
    split at hw
    · exact nomatch hw
    · next hn =>
      obtain ⟨hopen, hpos, hle⟩ : w.closed = false ∧ n ≠ 0 ∧ ¬rest.length < n := by simpa [not_or] using hn
      split at hw
      · next hlast =>
        rw [hlast, List.take_length] at hw
        obtain rfl := Option.some.inj hw
        exact h.of_sending (h.sending.writeLast hi hopen) rfl rfl rfl rfl rfl rfl rfl (List.prefix_append _ _)
          (List.prefix_append _ _)
      · next hlast =>
        obtain rfl := Option.some.inj hw
        exact h.of_sending (h.sending.writeSome hi hopen (by omega)) rfl rfl rfl rfl rfl rfl rfl (List.prefix_append _ _)
          (List.prefix_refl _)
  · exact nomatch hw

theorem Inv.finish (h : Inv c w) (hw : w.finish i = some w') : Inv c w' := by
  rw [Link.finish] at hw
  split at hw
  · next request hi =>
    have hreturned : Sending (w.sender i (.returned (some (.ok ())))) := h.sending.rest (.inr (by rw [hi]; rfl)) rfl rfl
    have hrest := hreturned.unlock (h.sending.alone (by rw [hi]; rfl) rfl)
    cases hc : w.closed || decide (request = .shutdown) with
    | true =>
        simp only [hc, Option.some.injEq] at hw
        obtain rfl := hw
        exact h.of_sending hrest.close rfl rfl rfl rfl rfl rfl rfl (List.prefix_refl _) (List.prefix_refl _)
    | false =>
        simp only [hc, Option.some.injEq] at hw
        obtain rfl := hw
        rw [Bool.or_eq_false_iff] at hc
        have hsame := h.of_sending hrest rfl rfl rfl rfl rfl rfl rfl (List.prefix_refl _) (List.prefix_refl _)
        simpa only [Link.sender, hc.1] using hsame
  · exact nomatch hw

/-- After a failed write the socket is closed, and its call owes nothing more. -/
theorem Inv.failWrite (h : Inv c w) (hw : w.failWrite i = some w') : Inv c w' := by
  have hlocked : (w.senders i).locked = true := by
    rw [Link.failWrite] at hw
    split at hw
    · next hi => rw [hi]; rfl
    · next hi => rw [hi]; rfl
    · exact nomatch hw
  have hreturned : Sending (({ w with closed := true } : Link Key).sender i (.returned (some (.error .io)))) :=
    h.sending.close.rest (.inl rfl) rfl rfl
  have hrest := hreturned.unlock (h.sending.alone hlocked rfl)
  have hinv := h.of_sending hrest rfl rfl rfl rfl rfl rfl rfl (List.prefix_refl _) (List.prefix_refl _)
  rw [Link.failWrite] at hw
  split at hw
  · obtain rfl := Option.some.inj hw
    exact hinv
  · obtain rfl := Option.some.inj hw
    exact hinv
  · exact nomatch hw

theorem Inv.abandon (h : Inv c w) (howes : Orderly w (.abandon i)) (hw : w.abandon i = some w') : Inv c w' := by
  obtain rfl := Option.some.inj hw
  have hrest : Sending (w.sender i (.returned none)) := h.sending.rest (.inr howes) rfl rfl
  by_cases hwriter : w.writer = some i
  · simp only [hwriter, if_true]
    refine h.of_sending (hrest.unlock ?_) rfl rfl rfl rfl rfl rfl rfl (List.prefix_refl _) (List.prefix_refl _)
    intro j
    by_contra hj
    rcases sender_cases (P := fun s => s.locked = true) (by simpa [Link.sender] using hj) with ⟨-, hj⟩ | ⟨hji, hj⟩
    · exact nomatch hj
    · exact hji (Option.some.inj ((h.sending.lock j hj).symm.trans hwriter))
  · simp only [hwriter, if_false]
    exact h.of_sending hrest rfl rfl rfl rfl rfl rfl rfl (List.prefix_refl _) (List.prefix_refl _)

theorem Sending.same (h : Sending w) (hsent : w'.channel.sent = w.channel.sent) (hsenders : w'.senders = w.senders)
    (hwriter : w'.writer = w.writer) (hwire : w'.wire = w.wire) (hwritten : w'.written = w.written)
    (hclosed : w'.closed = w.closed) : Sending w' := by
  refine ⟨?_, ?_, ?_, ?_, ?_, ?_, ?_⟩
  all_goals simp only [hsent, hsenders, hwriter, hwire, hwritten, hclosed]
  · exact h.tickets
  · exact h.sealed
  · exact h.written
  · exact h.lock
  · exact h.writing
  · exact h.quiet
  · exact h.torn

/-- A step of the receiving endpoint that opens nothing. -/
theorem Inv.of_receiving (h : Inv c w) (hr : Receiving w') (hchannel : w'.channel = w.channel) (hsenders : w'.senders = w.senders)
    (hwriter : w'.writer = w.writer) (hwire : w'.wire = w.wire) (hwritten : w'.written = w.written)
    (hclosed : w'.closed = w.closed) : Inv c w' :=
  ⟨hchannel ▸ h.channel, h.sending.same (by rw [hchannel]) hsenders hwriter hwire hwritten hclosed, hr, hchannel ▸ h.readable⟩

theorem Inv.receive (h : Inv c w) (hw : w.receive i = some w') : Inv c w' := by
  rw [Link.receive] at hw
  split at hw
  · next hi =>
    obtain rfl := Option.some.inj hw
    refine h.of_receiving (h.receiving.rest (by rw [hi]; rfl) ?_ rfl ?_) rfl rfl rfl rfl rfl rfl
    · exact fun taken hj => nomatch hi.symm.trans hj
    · exact fun _ hj => nomatch hj
  · exact nomatch hw

theorem Inv.lockReader (h : Inv c w) (hw : w.lockReader i = some w') : Inv c w' := by
  rw [Link.lockReader] at hw
  split at hw
  · next hi hr =>
    obtain rfl := Option.some.inj hw
    exact h.of_receiving (h.receiving.lockReader hi hr) rfl rfl rfl rfl rfl rfl
  · exact nomatch hw

theorem Inv.readBytes (h : Inv c w) {n : Nat} (hw : w.readBytes i n = some w') : Inv c w' := by
  rw [Link.readBytes] at hw
  split at hw
  · next taken hi =>
    split at hw
    · exact nomatch hw
    · next hn =>
      simp only [not_or, Bool.not_eq_true, Nat.not_lt] at hn
      obtain rfl := Option.some.inj hw
      exact h.of_receiving (h.receiving.readBytes hi hn.1 hn.2.2.1 hn.2.2.2.1) rfl rfl rfl rfl rfl rfl
  · exact nomatch hw

theorem Inv.parse (h : Inv c w) (hw : w.parse i = some w') : Inv c w' := by
  rw [Link.parse] at hw
  split at hw
  · next taken hi =>
    split at hw
    · exact nomatch hw
    · next hlen =>
      obtain ⟨hsize, hparse⟩ := h.receiving.parse h.sending h.readable hi (Nat.le_of_not_lt hlen)
      rw [if_neg (Nat.not_lt.mpr hsize)] at hw
      split at hw
      · exact nomatch hw
      · next hfull =>
        obtain ⟨frame, hdecode, hreceiving⟩ := hparse (Nat.le_of_not_lt hfull)
        simp only [hdecode, Option.some.injEq] at hw
        obtain rfl := hw
        exact h.of_receiving hreceiving rfl rfl rfl rfl rfl rfl
  · exact nomatch hw

theorem Inv.failRead (h : Inv c w) (hw : w.failRead i = some w') : Inv c w' := by
  rw [Link.failRead] at hw
  split at hw
  · next taken hi =>
    obtain rfl := Option.some.inj hw
    exact h.of_receiving (h.receiving.failRead hi _) rfl rfl rfl rfl rfl rfl
  · exact nomatch hw

theorem Inv.openFrame [DecidableEq Key] (h : Inv c w) (hfirst : Orderly w (.openFrame i)) (hw : w.openFrame i = some w') :
    Inv c w' := by
  rw [Link.openFrame] at hw
  split at hw
  · next k frame hi =>
    obtain rfl := Option.some.inj hw
    have hlowest := hfirst k (by rw [hi]; rfl)
    have hsent : (w.channel.delivered frame).sent = w.channel.sent := by
      rw [World.delivered]
      split <;> rfl
    refine ⟨h.channel.delivered_step frame, h.sending.same hsent rfl rfl rfl rfl rfl,
      h.receiving.openFrame h.sending h.channel hi hlowest rfl ?_, ?_⟩
    · exact fun _ hj => by cases hj
    · exact fun p hp => h.readable p (hsent ▸ hp)
  · cases hw

theorem Inv.abandonReceive (h : Inv c w) (hempty : Orderly w (.abandonReceive i)) (hw : w.abandonReceive i = some w') :
    Inv c w' := by
  obtain rfl := Option.some.inj hw
  have hphase : (w.receivers i).empty = true := hempty
  have hnone : (w.receivers i).ticket = none := by
    cases hi : w.receivers i <;> simp_all [Receiver.empty, Receiver.ticket]
  have hnothing : ∀ taken, w.receivers i = .reading taken → taken = [] := by
    intro taken hi
    rw [hi] at hphase
    exact of_decide_eq_true hphase
  have hrest : Receiving (w.receiver i (.returned none)) :=
    h.receiving.rest hnone hnothing rfl (fun _ hj => nomatch hj)
  by_cases hreader : w.reader = some i
  · simp only [hreader, if_true]
    refine h.of_receiving (hrest.unlock ?_) rfl rfl rfl rfl rfl rfl
    intro j taken hj
    rcases receiver_cases (P := (· = .reading taken)) hj with ⟨-, hj⟩ | ⟨hji, hj⟩
    · exact nomatch hj
    · exact hji (Option.some.inj ((h.receiving.lock j taken hj).symm.trans hreader))
  · simp only [hreader, if_false]
    exact h.of_receiving hrest rfl rfl rfl rfl rfl rfl

theorem Inv.foreign [DecidableEq Key] (h : Inv c w) {aead : Aead Key} {other : PeerFrameSealer Key} {plaintext : Bytes}
    {flags : PeerRelayFlags} (hw : w.foreign aead other plaintext flags = some w') : Inv c w' := by
  rw [Link.foreign] at hw
  split at hw
  · exact nomatch hw
  · next hkey =>
    obtain rfl := Option.some.inj hw
    exact ⟨h.channel.foreign hkey plaintext flags, h.sending.same rfl rfl rfl rfl rfl rfl,
      h.receiving.grow rfl rfl rfl rfl rfl rfl (List.prefix_refl _) (List.prefix_refl _) (List.prefix_refl _) rfl, h.readable⟩

theorem Inv.step [DecidableEq Key] (aead : Aead Key) (w : Link Key) (a : Action Key) (w' : Link Key) (h : Inv c w)
    (hs : Restricted (Step aead) Orderly w a w') : Inv c w' := by
  obtain ⟨hw, horderly⟩ := hs
  cases a with
  | call i request => exact h.call hw
  | sealFrame i => exact h.sealFrame hw
  | lockWriter i => exact h.lockWriter horderly hw
  | write i n => exact h.write hw
  | finish i => exact h.finish hw
  | failWrite i => exact h.failWrite hw
  | abandon i => exact h.abandon horderly hw
  | receive i => exact h.receive hw
  | lockReader i => exact h.lockReader hw
  | read i n => exact h.readBytes hw
  | parse i => exact h.parse hw
  | failRead i => exact h.failRead hw
  | openFrame i => exact h.openFrame horderly hw
  | abandonReceive i => exact h.abandonReceive horderly hw
  | foreign other plaintext flags => exact h.foreign hw

theorem inv_start {sealer : PeerFrameSealer Key} {opener : PeerFrameOpener Key}
    (hs : PeerFrameSealer.new c.sessionId c.channelId c.contextHash c.key .ordered c.noncePrefix = .ok sealer)
    (ho : PeerFrameOpener.new c.sessionId c.channelId c.contextHash c.key .ordered c.noncePrefix = .ok opener) :
    Inv c (Link.start sealer opener) where
  channel := inv_new hs ho
  sending := ⟨fun _ => held_none 0, (fun _ _ _ h => nomatch h), List.nil_prefix, (fun _ h => nomatch h),
    (fun _ _ _ _ _ h => nomatch h), fun _ _ => rfl, ⟨[], rfl, .inl rfl⟩⟩
  receiving := ⟨held_none 0, (fun _ _ _ h => nomatch h), (fun _ _ h => nomatch h), Nat.le_refl _, (fun _ _ _ h => nomatch h),
    fun _ _ => rfl, (fun h => nomatch h), List.nil_prefix, rfl, rfl, Nat.le_refl _⟩
  readable := by simp [Link.start]

/-- Frames reach the wire in the order in which they were sealed and the peer's
opener accepts them, and every frame that was read is opened once, in the order of reading. -/
structure InOrder [DecidableEq Key] (opener : PeerFrameOpener Key) (w : Link Key) : Prop where
  wire : ∃ part, w.wire = w.written.flatMap record ++ part
  numbered : w.written.map (·.sequence.toNat) = List.range w.written.length
  accepted : FrameDomains.openAll (decrypt w.channel.log) opener w.written =
    some ((w.channel.sent.map Prod.fst).take w.written.length)
  read : w.read <+: w.written
  opened : w.opened = (w.channel.sent.take w.opened.length).map fun p => (p.2, .ok p.1)
  waiting : Held (Receiver.ticket ∘ w.receivers) w.opened.length w.read.length
  held : ∀ i k frame, w.receivers i = .holding k frame → w.read[k]? = some frame

theorem Inv.inOrder [DecidableEq Key] (h : Inv c w) {opener : PeerFrameOpener Key}
    (ho : PeerFrameOpener.new c.sessionId c.channelId c.contextHash c.key .ordered c.noncePrefix = .ok opener) :
    InOrder opener w := by
  have hfirst : w.written = (w.channel.sent.map Prod.snd).take w.written.length :=
    List.prefix_iff_eq_take.mp h.sending.written
  have hle : w.written.length ≤ w.channel.sent.length := by simpa using h.sending.written.length_le
  refine ⟨?_, ?_, ?_, h.receiving.read, h.receiving.opened, h.receiving.tickets, h.receiving.holding⟩
  · obtain ⟨part, hwire, -⟩ := h.sending.torn
    exact ⟨part, hwire⟩
  · apply List.ext_getElem
    · simp
    · intro k hk _
      have hlt : k < w.channel.sent.length := by
        rw [List.length_map] at hk
        omega
      have hget : w.written[k]? = some w.channel.sent[k].2 := by
        rw [hfirst, List.getElem?_take_of_lt (by simpa using hk), List.getElem?_map, List.getElem?_eq_getElem hlt]
        rfl
      obtain ⟨hk', hwritten⟩ := List.getElem?_eq_some_iff.mp hget
      rw [List.getElem_map, List.getElem_range, hwritten]
      exact (h.channel.genuine k _ _ (List.getElem?_eq_getElem hlt)).sequence
  · -- an opener that has taken nothing yet, beside what was sealed
    have hnew : OrderedChannel.Inv c { w.channel with opener := opener, returned := [] } := by
      simp only [PeerFrameOpener.new, Checks.bind_eq_ok, Checks.pure_eq_ok] at ho
      obtain ⟨_, _, rfl⟩ := ho
      exact ⟨h.channel.channel, h.channel.sealer, ⟨rfl, rfl, rfl, rfl, rfl, rfl⟩, h.channel.sealerAt, ⟨0, false, rfl, rfl⟩,
        h.channel.genuine, h.channel.logged, List.nil_prefix, h.channel.sealedFin, fun hf => by cases hf⟩
    have hall := openAll_rest w.written.length _ hnew (by simpa using hle)
    simp only [List.length_nil, List.drop_zero, ← hfirst] at hall
    exact hall

/-- As long as the writer and the opener are given to the calls in the order in
which they sealed and read, everything is in order. -/
theorem concurrent_calls_in_order [DecidableEq Key] (aead : Aead Key) (c : Channel Key) (sealer : PeerFrameSealer Key)
    (opener : PeerFrameOpener Key)
    (hs : PeerFrameSealer.new c.sessionId c.channelId c.contextHash c.key .ordered c.noncePrefix = .ok sealer)
    (ho : PeerFrameOpener.new c.sessionId c.channelId c.contextHash c.key .ordered c.noncePrefix = .ok opener)
    (actions : List (Action Key)) (w : Link Key)
    (hrun : Run (Restricted (Step aead) Orderly) (Link.start sealer opener) actions w) : InOrder opener w :=
  (hrun.invariant (Inv.step aead) (inv_start hs ho)).inOrder ho

section Sample

def sampleLink : Link Nat := Link.start sampleStart.sealer sampleStart.opener

/-- Two calls seal, and the second gets the writer first. -/
def overtaking : List (Action Nat) :=
  [.call 0 (.send [1]), .call 1 (.send [2]), .sealFrame 0, .sealFrame 1, .lockWriter 1, .write 1 58]

theorem concurrent_calls_out_of_order : ¬∀ (actions : List (Action Nat)) (w : Link Nat),
    Run (Step tagAead) sampleLink actions w → InOrder sampleStart.opener w := by
  intro h
  have hlate : (exec (fun w a => w.next tagAead a) sampleLink overtaking).any
      (fun w => w.written.map (·.sequence.toNat) = [1]) = true := by decide +kernel
  obtain ⟨w, hrun, hone⟩ := run_of_exec_any (fun _ _ _ h => h) hlate
  have hnumbered := (h overtaking w hrun).numbered
  have hlen := congrArg List.length hone
  rw [List.length_map] at hlen
  rw [hone, hlen] at hnumbered
  exact absurd hnumbered (by decide)

/-- Steps of calls that hold the very first frame. -/
def firstOnly (w : Link Nat) : Action Nat → Bool
  | .lockWriter i => (w.senders i).ticket = some 0
  | .openFrame i => (w.receivers i).ticket = some 0
  | .abandon _ | .abandonReceive _ => false
  | _ => true

theorem orderly_of_firstOnly {w : Link Nat} {a : Action Nat} (h : firstOnly w a = true) : Orderly w a := by
  cases a with
  | lockWriter i =>
      intro k hk j k' _
      have hzero := (of_decide_eq_true h).symm.trans hk
      exact Option.some.inj hzero ▸ Nat.zero_le k'
  | openFrame i =>
      intro k hk j k' _
      have hzero := (of_decide_eq_true h).symm.trans hk
      exact Option.some.inj hzero ▸ Nat.zero_le k'
  | abandon i => exact nomatch h
  | abandonReceive i => exact nomatch h
  | _ => trivial

/-- One frame from a call of `send` to a call of `receive`. -/
def sampleActions : List (Action Nat) :=
  [.call 0 (.send [1]), .sealFrame 0, .lockWriter 0, .write 0 20, .write 0 38, .finish 0, .receive 0, .lockReader 0,
    .read 0 4, .read 0 54, .parse 0, .openFrame 0]

theorem concurrent_calls_in_order_sample : ∃ w, Run (Restricted (Step tagAead) Orderly) sampleLink sampleActions w ∧
    w.opened.map Prod.snd = [.ok [1]] ∧ InOrder sampleStart.opener w := by
  have hlast : (exec (fun w a => if firstOnly w a then w.next tagAead a else none) sampleLink sampleActions).any
      (fun w => w.opened.map Prod.snd = [.ok [1]]) = true := by decide +kernel
  have hnext : ∀ w a w', (if firstOnly w a then w.next tagAead a else none) = some w' →
      Restricted (Step tagAead) Orderly w a w' := by
    intro w a w' h
    split at h
    · next hfirst => exact ⟨h, orderly_of_firstOnly hfirst⟩
    · exact nomatch h
  obtain ⟨w, hrun, hopened⟩ := run_of_exec_any hnext hlast
  exact ⟨w, hrun, hopened, concurrent_calls_in_order tagAead sampleChannel sampleStart.sealer sampleStart.opener rfl rfl
    sampleActions w hrun⟩

end Sample

end Runs

end Rustgo.PeerTcp
