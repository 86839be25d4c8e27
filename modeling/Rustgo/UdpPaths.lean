import Mathlib.Data.List.Nodup
import Rustgo.OrderedChannel

namespace Rustgo.UdpPaths

open AeadTable Checks OrderedChannel PeerCipher Runs

variable {Key : Type}

def maxUdpDatagramBytes : Nat := 65507
def maxPeerDatagramBytes : Nat := 1024
def udpSourceQueueCapacity : Nat := 64

/-- The buffer of `pump_udp_target`, and the one of the responder in `run_direct_quic`. -/
def relayTargetBuffer : Nat := 65507
def directTargetBuffer : Nat := 1024

inductive UdpPath
  | relay
  | directQuic
  deriving DecidableEq

inductive Direction
  | toTarget
  | toConsumer
  deriving DecidableEq

inductive QuicPeerError
  | datagramsUnsupported
  | datagramTooLarge (size max : Nat)
  deriving DecidableEq

/-- A UDP receive fills the buffer and drops what is left. -/
def receiveInto (size : Nat) (datagram : Bytes) : Bytes := datagram.take size

/-- `PeerDatagram::send`. The limit of the connection is the transport's. -/
def peerDatagramSend (peerMax : Option Nat) (payload : Bytes) : Except QuicPeerError Bytes := do
  require (payload.length ≤ maxPeerDatagramBytes) (.datagramTooLarge payload.length maxPeerDatagramBytes)
  let peerMax ← okOr peerMax .datagramsUnsupported
  require (payload.length ≤ peerMax) (.datagramTooLarge payload.length peerMax)
  pure payload

/-- `PeerDatagram::receive`. -/
def peerDatagramReceive (payload : Bytes) : Except QuicPeerError Bytes := do
  require (payload.length ≤ maxPeerDatagramBytes) (.datagramTooLarge payload.length maxPeerDatagramBytes)
  pure payload

/-- A payload and the number of the emitted datagram that it comes from. -/
structure Tagged where
  emission : Nat
  payload : Bytes
  deriving DecidableEq

/-- One direction of a session, from the application that emits to the one on the other side. -/
structure Flow (Key : Type) where
  emitted : List Bytes
  socket : List Tagged
  queue : List Tagged
  outbound : List Tagged
  sealer : PeerFrameSealer Key
  opener : PeerFrameOpener Key
  log : List (Entry Key Bytes)
  frames : List (Tagged × PeerRelayFrame)
  datagrams : List Tagged
  inbound : List Tagged
  delivered : List Tagged
  ended : Bool

inductive Action (Key : Type)
  | emit (datagram : Bytes)
  | lose
  | receive (peerMax : Option Nat)
  | forward (peerMax : Option Nat)
  | pump
  | deliverFrame (k : Nat)
  | deliverDatagram (k : Nat)
  | pass
  | stop
  | foreign (other : PeerFrameSealer Key) (plaintext : Bytes) (flags : PeerRelayFlags)

namespace Flow

/-- Where the pumps begin, after whatever the handshake has sealed and opened. -/
def start (sealer : PeerFrameSealer Key) (opener : PeerFrameOpener Key) : Flow Key where
  emitted := []
  socket := []
  queue := []
  outbound := []
  sealer := sealer
  opener := opener
  log := []
  frames := []
  datagrams := []
  inbound := []
  delivered := []
  ended := false

variable (w : Flow Key)

/-- `send_plain`: what it seals is handed to the relay. -/
def sendPlain (aead : Aead Key) (t : Tagged) : Flow Key :=
  let log := w.log ++ encryptions aead w.sealer t.payload PeerRelayFlags.DATAGRAM
  match w.sealer.seal aead t.payload PeerRelayFlags.DATAGRAM with
  | (.ok frame, sealer) => { w with sealer := sealer, log := log, frames := w.frames ++ [(t, frame)] }
  | (.error _, sealer) => { w with sealer := sealer, log := log, ended := true }

def sendDatagram (peerMax : Option Nat) (t : Tagged) : Flow Key :=
  match peerDatagramSend peerMax t.payload with
  | .ok payload => { w with datagrams := w.datagrams ++ [⟨t.emission, payload⟩] }
  | .error _ => { w with ended := true }

/-- The source session checks the size of what it gives back to the application. -/
def toApplication (t : Tagged) : Flow Key :=
  if maxUdpDatagramBytes < t.payload.length then { w with ended := true }
  else { w with delivered := w.delivered ++ [t] }

def emit (datagram : Bytes) : Option (Flow Key) :=
  if maxUdpDatagramBytes < datagram.length then none
  else some { w with emitted := w.emitted ++ [datagram], socket := w.socket ++ [⟨w.emitted.length, datagram⟩] }

/-- A datagram is read from the socket: by `run_udp_forward` at the consumer, by the responder's pump at the target. -/
def receive (aead : Aead Key) (path : UdpPath) (direction : Direction) (peerMax : Option Nat) : Option (Flow Key) :=
  match w.socket with
  | [] => none
  | t :: rest =>
      let w' := { w with socket := rest }
      match direction, path with
      | .toTarget, _ =>
          let t' := ⟨t.emission, receiveInto maxUdpDatagramBytes t.payload⟩
          some (if w.queue.length < udpSourceQueueCapacity then { w' with queue := w.queue ++ [t'] } else w')
      | .toConsumer, .relay => some (w'.sendPlain aead ⟨t.emission, receiveInto relayTargetBuffer t.payload⟩)
      | .toConsumer, .directQuic => some (w'.sendDatagram peerMax ⟨t.emission, receiveInto directTargetBuffer t.payload⟩)

/-- `run_udp_source` sends what was queued on the session. -/
def forward (path : UdpPath) (direction : Direction) (peerMax : Option Nat) : Option (Flow Key) :=
  match w.queue with
  | [] => none
  | t :: rest => match direction, path with
    | .toTarget, .relay => some { w with queue := rest, outbound := w.outbound ++ [t] }
    | .toTarget, .directQuic => some ({ w with queue := rest }.sendDatagram peerMax t)
    | .toConsumer, _ => none

/-- `pump_datagram` seals what the session was given. -/
def pump (aead : Aead Key) (path : UdpPath) (direction : Direction) : Option (Flow Key) :=
  match w.outbound with
  | [] => none
  | t :: rest => match direction, path with
    | .toTarget, .relay => some ({ w with outbound := rest }.sendPlain aead t)
    | .toTarget, .directQuic | .toConsumer, _ => none

/-- A frame that the relay was given arrives, in any order and maybe again. -/
def deliverFrame [DecidableEq Key] (path : UdpPath) (direction : Direction) (k : Nat) : Option (Flow Key) :=
  match w.frames[k]? with
  | none => none
  | some (t, frame) => match path with
    | .directQuic => none
    | .relay => match w.opener.open (decrypt w.log) frame with
      | (.error _, opener) => some { w with opener := opener, ended := true }
      | (.ok payload, opener) => match direction with
        | .toTarget => some { w with opener := opener, delivered := w.delivered ++ [⟨t.emission, payload⟩] }
        | .toConsumer => some { w with opener := opener, inbound := w.inbound ++ [⟨t.emission, payload⟩] }

def deliverDatagram (path : UdpPath) (direction : Direction) (k : Nat) : Option (Flow Key) :=
  match w.datagrams[k]? with
  | none => none
  | some t => match path with
    | .relay => none
    | .directQuic => match peerDatagramReceive t.payload with
      | .error _ => some { w with ended := true }
      | .ok payload => match direction with
        | .toTarget => some { w with delivered := w.delivered ++ [⟨t.emission, payload⟩] }
        | .toConsumer => some (w.toApplication ⟨t.emission, payload⟩)

/-- `run_udp_source` takes what `pump_datagram` has opened. -/
def pass : Option (Flow Key) :=
  match w.inbound with
  | t :: rest => some ({ w with inbound := rest }.toApplication t)
  | [] => none

def foreign [DecidableEq Key] (aead : Aead Key) (other : PeerFrameSealer Key) (plaintext : Bytes) (flags : PeerRelayFlags) :
    Option (Flow Key) :=
  if other.key = w.sealer.key then none else some { w with log := w.log ++ encryptions aead other plaintext flags }

/-- Nothing moves any more once a task of the session has returned. -/
def next [DecidableEq Key] (aead : Aead Key) (path : UdpPath) (direction : Direction) (a : Action Key) : Option (Flow Key) :=
  if w.ended then none
  else match a with
    | .emit datagram => w.emit datagram
    | .lose => some { w with socket := w.socket.tail }
    | .receive peerMax => w.receive aead path direction peerMax
    | .forward peerMax => w.forward path direction peerMax
    | .pump => w.pump aead path direction
    | .deliverFrame k => w.deliverFrame path direction k
    | .deliverDatagram k => w.deliverDatagram path direction k
    | .pass => w.pass
    | .stop => some { w with ended := true }
    | .foreign other plaintext flags => w.foreign aead other plaintext flags

end Flow

def Step [DecidableEq Key] (aead : Aead Key) (path : UdpPath) (direction : Direction) (w : Flow Key) (a : Action Key)
    (w' : Flow Key) : Prop := w.next aead path direction a = some w'

section Carried

/-- What is left of a datagram after the first socket read. -/
def carried (path : UdpPath) (direction : Direction) (datagram : Bytes) : Bytes :=
  if path = .directQuic ∧ direction = .toConsumer then receiveInto directTargetBuffer datagram else datagram

variable {path : UdpPath} {direction : Direction} {w w' : Flow Key}

theorem carried_eq_iff (datagram : Bytes) :
    carried path direction datagram = datagram ↔
      ¬(path = .directQuic ∧ direction = .toConsumer ∧ maxPeerDatagramBytes < datagram.length) := by
  by_cases h : path = .directQuic ∧ direction = .toConsumer
  · have htake : datagram.take 1024 = datagram ↔ datagram.length ≤ 1024 :=
      ⟨fun heq => by rw [← heq]; exact List.length_take_le _ _, List.take_of_length_le⟩
    simp [carried, h, receiveInto, directTargetBuffer, maxPeerDatagramBytes, htake]
  · rw [carried, if_neg h]
    exact iff_of_true rfl fun hbad => h ⟨hbad.1, hbad.2.1⟩

/-- The tag names the datagram that the payload comes from. -/
def Carries (path : UdpPath) (direction : Direction) (emitted : List Bytes) (t : Tagged) : Prop :=
  ∃ datagram, emitted[t.emission]? = some datagram ∧ t.payload = carried path direction datagram

/-- Which frame of the sealer a number stands for. -/
def Flow.entry (w : Flow Key) (f : Tagged × PeerRelayFrame) : Entry Key Bytes :=
  ⟨w.sealer.key, frameNonce w.sealer.noncePrefix f.2.sequence,
    frameAad w.sealer.contextHash w.sealer.sessionId w.sealer.channelId f.2.flags f.2.sequence, f.1.payload,
    f.2.ciphertext.bytes⟩

structure Inv (path : UdpPath) (direction : Direction) (w : Flow Key) : Prop where
  bounded : ∀ datagram ∈ w.emitted, datagram.length ≤ maxUdpDatagramBytes
  socket : ∀ t ∈ w.socket, w.emitted[t.emission]? = some t.payload
  queue : ∀ t ∈ w.queue, Carries path direction w.emitted t
  outbound : ∀ t ∈ w.outbound, Carries path direction w.emitted t
  frames : ∀ f ∈ w.frames, Carries path direction w.emitted f.1
  datagrams : ∀ t ∈ w.datagrams, Carries path direction w.emitted t
  inbound : ∀ t ∈ w.inbound, Carries path direction w.emitted t
  delivered : ∀ t ∈ w.delivered, Carries path direction w.emitted t
  channel : w.sealer.channelId ≠ 0
  key : w.opener.key = w.sealer.key
  logged : ∀ e ∈ w.log, e.key = w.sealer.key → ∃ f ∈ w.frames, e = w.entry f
  numbered : ∀ f ∈ w.frames, w.sealer.exhausted = false → f.2.sequence < w.sealer.nextSequence
  distinct : (w.frames.map fun f => f.2.sequence).Nodup

theorem advance_eq (s : PeerFrameSealer Key) (flags : PeerRelayFlags) : ∃ next exhausted finished,
    s.advance flags = { s with nextSequence := next, exhausted := exhausted, finished := finished } ∧
      (exhausted = false → s.nextSequence < next) := by
  rw [PeerFrameSealer.advance, checkedSucc]
  by_cases hmax : s.nextSequence.toNat + 1 < 2 ^ 64
  · refine ⟨s.nextSequence + 1, s.exhausted, _, by rw [if_pos hmax], fun _ => ?_⟩
    rw [UInt64.lt_iff_toNat_lt, UInt64.toNat_add, UInt64.toNat_one, Nat.mod_eq_of_lt hmax]
    exact Nat.lt_succ_self _
  · exact ⟨s.nextSequence, true, _, by rw [if_neg hmax], fun h => by cases h⟩

theorem Inv.sendPlain (h : Inv path direction w) (aead : Aead Key) {t : Tagged} (ht : Carries path direction w.emitted t) :
    Inv path direction (w.sendPlain aead t) := by
  rcases seal_spec aead w.sealer h.channel t.payload PeerRelayFlags.DATAGRAM with
    ⟨e, hs, he⟩ | ⟨frame, hs, ha, -, -, hseq, hflags, he⟩
  · simp only [Flow.sendPlain, hs, he, List.append_nil]
    exact { h with }
  · have hx := (PeerFrameSealer.admits_ok ha).2.2.2
    have hnew : ∀ f ∈ w.frames, f.2.sequence < frame.sequence := fun f hf => hseq ▸ h.numbered f hf hx
    obtain ⟨next, exhausted, finished, hadvance, hlater⟩ := advance_eq w.sealer PeerRelayFlags.DATAGRAM
    simp only [Flow.sendPlain, hs, he, hadvance]
    refine { h with frames := ?_, logged := ?_, numbered := ?_, distinct := ?_ }
    · intro f hf
      rcases List.mem_append.mp hf with hf | hf
      · exact h.frames f hf
      · rw [List.mem_singleton.mp hf]
        exact ht
    · intro e he' hkey
      rcases List.mem_append.mp he' with he' | he'
      · obtain ⟨f, hf, heq⟩ := h.logged e he' hkey
        exact ⟨f, List.mem_append_left _ hf, heq⟩
      · refine ⟨(t, frame), List.mem_append_right _ (List.mem_singleton_self _), ?_⟩
        rw [List.mem_singleton.mp he', Flow.entry, hseq, hflags]
    · intro f hf hopen
      rcases List.mem_append.mp hf with hf | hf
      · exact UInt64.lt_trans (h.numbered f hf hx) (hlater hopen)
      · rw [List.mem_singleton.mp hf]
        simpa only [hseq] using hlater hopen
    · rw [List.map_append, List.map_singleton]
      refine List.Nodup.append h.distinct (List.nodup_singleton _) ?_
      rw [List.disjoint_singleton]
      intro hold
      obtain ⟨f, hf, heq⟩ := List.mem_map.mp hold
      have hlt := hnew f hf
      rw [heq] at hlt
      exact UInt64.lt_irrefl _ hlt

theorem Inv.sendDatagram (h : Inv path direction w) {peerMax : Option Nat} {t : Tagged}
    (ht : Carries path direction w.emitted t) : Inv path direction (w.sendDatagram peerMax t) := by
  cases hsend : peerDatagramSend peerMax t.payload with
  | error e =>
      simp only [Flow.sendDatagram, hsend]
      exact { h with }
  | ok payload =>
      simp only [Flow.sendDatagram, hsend]
      simp only [peerDatagramSend, bind_eq_ok, pure_eq_ok] at hsend
      obtain ⟨_, _, _, _, _, _, rfl⟩ := hsend
      refine { h with datagrams := ?_ }
      intro t' ht'
      rcases List.mem_append.mp ht' with ht' | ht'
      · exact h.datagrams t' ht'
      · rw [List.mem_singleton.mp ht']
        exact ht

theorem Inv.toApplication (h : Inv path direction w) {t : Tagged} (ht : Carries path direction w.emitted t) :
    Inv path direction (w.toApplication t) := by
  rw [Flow.toApplication]
  split
  · exact { h with }
  · refine { h with delivered := ?_ }
    intro t' ht'
    rcases List.mem_append.mp ht' with ht' | ht'
    · exact h.delivered t' ht'
    · rw [List.mem_singleton.mp ht']
      exact ht

/-- The consumer's buffer holds every datagram, and so does that of the relay's pump. -/
theorem Inv.received (h : Inv path direction w) {t : Tagged} (ht : t ∈ w.socket) {size : Nat}
    (hsize : size = maxUdpDatagramBytes ∨ path = .directQuic ∧ direction = .toConsumer ∧ size = directTargetBuffer)
    (hbig : size = maxUdpDatagramBytes → ¬(path = .directQuic ∧ direction = .toConsumer)) :
    Carries path direction w.emitted ⟨t.emission, receiveInto size t.payload⟩ := by
  refine ⟨t.payload, h.socket t ht, ?_⟩
  rcases hsize with hsize | ⟨hpath, hdirection, hsize⟩
  · have hle := h.bounded t.payload (List.mem_of_getElem? (h.socket t ht))
    rw [carried, if_neg (hbig hsize), receiveInto, List.take_of_length_le (hsize ▸ hle)]
  · rw [carried, if_pos ⟨hpath, hdirection⟩, hsize]

theorem Inv.emit (h : Inv path direction w) {datagram : Bytes} (hw : w.emit datagram = some w') : Inv path direction w' := by
  rw [Flow.emit] at hw
  split at hw
  · exact nomatch hw
  · next hlen =>
    obtain rfl := Option.some.inj hw
    have hgrow : ∀ t, Carries path direction w.emitted t → Carries path direction (w.emitted ++ [datagram]) t := by
      rintro t ⟨d, hd, hp⟩
      exact ⟨d, getElem?_append_of_some hd, hp⟩
    refine { h with
      bounded := ?_
      socket := ?_
      queue := fun t ht => hgrow t (h.queue t ht)
      outbound := fun t ht => hgrow t (h.outbound t ht)
      frames := fun f hf => hgrow f.1 (h.frames f hf)
      datagrams := fun t ht => hgrow t (h.datagrams t ht)
      inbound := fun t ht => hgrow t (h.inbound t ht)
      delivered := fun t ht => hgrow t (h.delivered t ht) }
    · intro d hd
      rcases List.mem_append.mp hd with hd | hd
      · exact h.bounded d hd
      · rw [List.mem_singleton.mp hd]
        exact Nat.le_of_not_lt hlen
    · intro t ht
      rcases List.mem_append.mp ht with ht | ht
      · exact getElem?_append_of_some (h.socket t ht)
      · rw [List.mem_singleton.mp ht]
        exact List.getElem?_concat_length

theorem Inv.receive (h : Inv path direction w) {aead : Aead Key} {peerMax : Option Nat}
    (hw : w.receive aead path direction peerMax = some w') : Inv path direction w' := by
  rw [Flow.receive] at hw
  split at hw
  · exact nomatch hw
  · next t rest hsocket =>
    have ht : t ∈ w.socket := hsocket ▸ List.mem_cons_self
    have hrest : Inv path direction { w with socket := rest } :=
      { h with socket := fun t' ht' => h.socket t' (hsocket ▸ List.mem_cons_of_mem _ ht') }
    split at hw
    · obtain rfl := Option.some.inj hw
      have hcarries := h.received ht (.inl rfl) (fun _ hbad => nomatch hbad.2)
      split
      · refine { hrest with queue := ?_ }
        intro t' ht'
        rcases List.mem_append.mp ht' with ht' | ht'
        · exact h.queue t' ht'
        · rw [List.mem_singleton.mp ht']
          exact hcarries
      · exact hrest
    · obtain rfl := Option.some.inj hw
      exact hrest.sendPlain aead (h.received ht (.inl rfl) (fun _ hbad => nomatch hbad.1))
    · obtain rfl := Option.some.inj hw
      exact hrest.sendDatagram (h.received ht (.inr ⟨rfl, rfl, rfl⟩) (fun hbad => nomatch hbad))

theorem Inv.forward (h : Inv path direction w) {peerMax : Option Nat} (hw : w.forward path direction peerMax = some w') :
    Inv path direction w' := by
  rw [Flow.forward] at hw
  split at hw
  · exact nomatch hw
  · next t rest hqueue =>
    have ht : Carries path direction w.emitted t := h.queue t (hqueue ▸ List.mem_cons_self)
    have hrest : Inv path direction { w with queue := rest } :=
      { h with queue := fun t' ht' => h.queue t' (hqueue ▸ List.mem_cons_of_mem _ ht') }
    split at hw
    · obtain rfl := Option.some.inj hw
      refine { hrest with outbound := ?_ }
      intro t' ht'
      rcases List.mem_append.mp ht' with ht' | ht'
      · exact h.outbound t' ht'
      · rw [List.mem_singleton.mp ht']
        exact ht
    · obtain rfl := Option.some.inj hw
      exact hrest.sendDatagram ht
    · exact nomatch hw

theorem Inv.pump (h : Inv path direction w) {aead : Aead Key} (hw : w.pump aead path direction = some w') :
    Inv path direction w' := by
  rw [Flow.pump] at hw
  split at hw
  · exact nomatch hw
  · next t rest houtbound =>
    have ht : Carries path direction w.emitted t := h.outbound t (houtbound ▸ List.mem_cons_self)
    have hrest : Inv path direction { w with outbound := rest } :=
      { h with outbound := fun t' ht' => h.outbound t' (houtbound ▸ List.mem_cons_of_mem _ ht') }
    split at hw
    · obtain rfl := Option.some.inj hw
      exact hrest.sendPlain aead ht
    · exact nomatch hw
    · exact nomatch hw

/-- Opening a frame of the sealer gives what was sealed. -/
theorem Inv.opened [DecidableEq Key] (h : Inv path direction w) {f : Tagged × PeerRelayFrame} (hf : f ∈ w.frames)
    {payload : Bytes} {opener : PeerFrameOpener Key} (ho : w.opener.open (decrypt w.log) f.2 = (.ok payload, opener)) :
    payload = f.1.payload ∧ opener.key = w.sealer.key := by
  obtain ⟨-, -, -, -, hd, state, -, rfl⟩ := PeerFrameOpener.open_ok ho
  refine ⟨?_, h.key⟩
  obtain ⟨e, he, ⟨hkey, hnonce, -⟩, rfl⟩ := decrypt_sound hd
  obtain ⟨f', hf', rfl⟩ := h.logged e he (hkey.trans h.key)
  have hseq : f'.2.sequence = f.2.sequence :=
    be_uInt64_injective (List.append_inj hnonce (by simp)).2
  rw [List.inj_on_of_nodup_map h.distinct hf' hf hseq]
  rfl

theorem Inv.deliverFrame [DecidableEq Key] (h : Inv path direction w) {k : Nat}
    (hw : w.deliverFrame path direction k = some w') : Inv path direction w' := by
  rw [Flow.deliverFrame] at hw
  split at hw
  · exact nomatch hw
  · next t frame hget =>
    have hmem : (t, frame) ∈ w.frames := List.mem_of_getElem? hget
    split at hw
    · exact nomatch hw
    split at hw
    · next e opener ho =>
      obtain rfl := Option.some.inj hw
      exact { h with key := PeerFrameOpener.open_error ho ▸ h.key }
    · next payload opener ho =>
      obtain ⟨hpayload, hkey⟩ := h.opened hmem ho
      have hcarries : Carries .relay direction w.emitted ⟨t.emission, payload⟩ := hpayload ▸ h.frames _ hmem
      split at hw
      · obtain rfl := Option.some.inj hw
        refine { h with key := hkey, delivered := ?_ }
        intro t' ht'
        rcases List.mem_append.mp ht' with ht' | ht'
        · exact h.delivered t' ht'
        · rw [List.mem_singleton.mp ht']
          exact hcarries
      · obtain rfl := Option.some.inj hw
        refine { h with key := hkey, inbound := ?_ }
        intro t' ht'
        rcases List.mem_append.mp ht' with ht' | ht'
        · exact h.inbound t' ht'
        · rw [List.mem_singleton.mp ht']
          exact hcarries

theorem Inv.deliverDatagram (h : Inv path direction w) {k : Nat} (hw : w.deliverDatagram path direction k = some w') :
    Inv path direction w' := by
  rw [Flow.deliverDatagram] at hw
  split at hw
  · exact nomatch hw
  · next t hget =>
    split at hw
    · exact nomatch hw
    split at hw
    · obtain rfl := Option.some.inj hw
      exact { h with }
    · next payload hreceive =>
      simp only [peerDatagramReceive, bind_eq_ok, pure_eq_ok] at hreceive
      obtain ⟨_, _, rfl⟩ := hreceive
      have ht := h.datagrams t (List.mem_of_getElem? hget)
      split at hw
      · obtain rfl := Option.some.inj hw
        refine { h with delivered := ?_ }
        intro t' ht'
        rcases List.mem_append.mp ht' with ht' | ht'
        · exact h.delivered t' ht'
        · rw [List.mem_singleton.mp ht']
          exact ht
      · obtain rfl := Option.some.inj hw
        exact h.toApplication ht

theorem Inv.step [DecidableEq Key] (aead : Aead Key) (w : Flow Key) (a : Action Key) (w' : Flow Key) (h : Inv path direction w)
    (hs : Step aead path direction w a w') : Inv path direction w' := by
  rw [Step, Flow.next.eq_def] at hs
  split at hs
  · exact nomatch hs
  · cases a with
    | emit datagram => exact h.emit hs
    | lose =>
        obtain rfl := Option.some.inj hs
        exact { h with socket := fun t ht => h.socket t (List.mem_of_mem_tail ht) }
    | receive peerMax => exact h.receive hs
    | forward peerMax => exact h.forward hs
    | pump => exact h.pump hs
    | deliverFrame k => exact h.deliverFrame hs
    | deliverDatagram k => exact h.deliverDatagram hs
    | pass =>
        simp only [Flow.pass] at hs
        split at hs
        · next t rest hinbound =>
          obtain rfl := Option.some.inj hs
          have hrest : Inv path direction { w with inbound := rest } :=
            { h with inbound := fun t' ht' => h.inbound t' (hinbound ▸ List.mem_cons_of_mem _ ht') }
          exact hrest.toApplication (h.inbound t (hinbound ▸ List.mem_cons_self))
        · exact nomatch hs
    | stop =>
        obtain rfl := Option.some.inj hs
        exact { h with }
    | foreign other plaintext flags =>
        simp only [Flow.foreign] at hs
        split at hs
        · exact nomatch hs
        · next hkey =>
          obtain rfl := Option.some.inj hs
          refine { h with logged := ?_ }
          intro e he hek
          rcases List.mem_append.mp he with he | he
          · exact h.logged e he hek
          · exact absurd ((encryptions_key he).symm.trans hek) hkey

theorem inv_start {sealer : PeerFrameSealer Key} {opener : PeerFrameOpener Key} (hc : sealer.channelId ≠ 0)
    (hk : opener.key = sealer.key) : Inv path direction (Flow.start sealer opener) := by
  refine ⟨?_, ?_, ?_, ?_, ?_, ?_, ?_, ?_, hc, hk, ?_, ?_, List.nodup_nil⟩ <;> simp [Flow.start]

end Carried

section Whole

variable {path : UdpPath} {direction : Direction}

/-- A long datagram of the target over a direct connection arrives, cut. -/
theorem delivers_cut [DecidableEq Key] (aead : Aead Key) (sealer : PeerFrameSealer Key) (opener : PeerFrameOpener Key)
    {datagram : Bytes} (hle : datagram.length ≤ maxUdpDatagramBytes) :
    ∃ actions w, Run (Step aead .directQuic .toConsumer) (Flow.start sealer opener) actions w ∧
      w.emitted[0]? = some datagram ∧ ⟨0, receiveInto directTargetBuffer datagram⟩ ∈ w.delivered := by
  have hcut : (receiveInto directTargetBuffer datagram).length ≤ maxPeerDatagramBytes := List.length_take_le _ _
  have hsmall : ¬maxUdpDatagramBytes < (receiveInto directTargetBuffer datagram).length :=
    Nat.not_lt.mpr (hcut.trans (by decide))
  have hsend : peerDatagramSend (some maxPeerDatagramBytes) (receiveInto directTargetBuffer datagram) =
      .ok (receiveInto directTargetBuffer datagram) := by
    simp only [peerDatagramSend, okOr, require_of hcut, ok_bind]
    rfl
  have hreceive : peerDatagramReceive (receiveInto directTargetBuffer datagram) =
      .ok (receiveInto directTargetBuffer datagram) := by
    simp only [peerDatagramReceive, require_of hcut, ok_bind]
    rfl
  have hexec : exec (fun w a => w.next aead .directQuic .toConsumer a) (Flow.start sealer opener)
      [.emit datagram, .receive (some maxPeerDatagramBytes), .deliverDatagram 0] =
        some { Flow.start sealer opener with
          emitted := [datagram]
          datagrams := [⟨0, receiveInto directTargetBuffer datagram⟩]
          delivered := [⟨0, receiveInto directTargetBuffer datagram⟩] } := by
    simp [exec, Flow.next, Flow.start, Flow.emit, Flow.receive, Flow.sendDatagram, Flow.deliverDatagram, Flow.toApplication,
      hsend, hreceive, Nat.not_lt.mpr hle, hsmall]
  exact ⟨_, _, run_of_exec (fun _ _ _ h => h) hexec, rfl, List.mem_singleton_self _⟩

variable [DecidableEq Key] (aead : Aead Key) {sealer : PeerFrameSealer Key} {opener : PeerFrameOpener Key}

/-- Whatever is emitted, queued, lost, repeated and opened, what is delivered is one of the emitted
datagrams, whole but for the long datagrams of the target over a direct
connection; and exactly these can arrive in part. -/
theorem datagrams_arrive_whole_iff (path : UdpPath) (direction : Direction) (hc : sealer.channelId ≠ 0)
    (hk : opener.key = sealer.key) :
    (∀ actions w, Run (Step aead path direction) (Flow.start sealer opener) actions w → ∀ t ∈ w.delivered,
      ∃ datagram, w.emitted[t.emission]? = some datagram ∧ t.payload = carried path direction datagram) ∧
    ∀ datagram : Bytes, datagram.length ≤ maxUdpDatagramBytes →
      ((∀ actions w, Run (Step aead path direction) (Flow.start sealer opener) actions w → ∀ t ∈ w.delivered,
        w.emitted[t.emission]? = some datagram → t.payload = datagram) ↔
          ¬(path = .directQuic ∧ direction = .toConsumer ∧ maxPeerDatagramBytes < datagram.length)) := by
  have hruns : ∀ actions w, Run (Step aead path direction) (Flow.start sealer opener) actions w → Inv path direction w :=
    fun _ _ hrun => hrun.invariant (Inv.step aead) (inv_start hc hk)
  refine ⟨fun actions w hrun => (hruns actions w hrun).delivered, ?_⟩
  intro datagram hle
  rw [← carried_eq_iff]
  constructor
  · intro h
    by_cases hdirect : path = .directQuic ∧ direction = .toConsumer
    · obtain ⟨rfl, rfl⟩ := hdirect
      obtain ⟨actions, w, hrun, hemitted, hdelivered⟩ := delivers_cut aead sealer opener hle
      exact h actions w hrun _ hdelivered hemitted
    · rw [carried, if_neg hdirect]
  · intro hwhole actions w hrun t ht hemitted
    obtain ⟨datagram', hget, hpayload⟩ := (hruns actions w hrun).delivered t ht
    obtain rfl := Option.some.inj (hget.symm.trans hemitted)
    rw [hpayload, hwhole]

def sampleSealer : PeerFrameSealer Nat :=
  ⟨⟨Vector.replicate 32 66⟩, 1, Vector.replicate 32 102, 1, .datagram, noncePrefix .datagram .responder, 0, false, false⟩

def sampleOpener : PeerFrameOpener Nat :=
  ⟨⟨Vector.replicate 32 66⟩, 1, Vector.replicate 32 102, 1, .datagram, noncePrefix .datagram .responder,
    .datagram ⟨none, 0⟩, false⟩

theorem datagrams_arrive_whole_iff_sample : sampleSealer.channelId ≠ 0 ∧
    ∀ actions w, Run (Step tagAead .relay .toConsumer) (Flow.start sampleSealer sampleOpener) actions w → ∀ t ∈ w.delivered,
      ∃ datagram, w.emitted[t.emission]? = some datagram ∧ t.payload = datagram :=
  ⟨by decide, (datagrams_arrive_whole_iff tagAead .relay .toConsumer (by decide : sampleSealer.channelId ≠ 0)
    (rfl : sampleOpener.key = sampleSealer.key)).1⟩

/-- A datagram of 1025 bytes from the target arrives as 1024 bytes. -/
theorem datagram_cut : ¬∀ (path : UdpPath) (direction : Direction) (datagram : Bytes), datagram.length ≤ maxUdpDatagramBytes →
    ∀ actions w, Run (Step tagAead path direction) (Flow.start sampleSealer sampleOpener) actions w → ∀ t ∈ w.delivered,
      w.emitted[t.emission]? = some datagram → t.payload = datagram := by
  intro h
  have hlen : (List.replicate 1025 (0 : UInt8)).length = 1025 := List.length_replicate
  have hle : (List.replicate 1025 (0 : UInt8)).length ≤ maxUdpDatagramBytes := by
    rw [hlen]
    decide
  obtain ⟨actions, w, hrun, hemitted, hdelivered⟩ := delivers_cut tagAead sampleSealer sampleOpener hle
  have heq := congrArg List.length (h .directQuic .toConsumer _ hle actions w hrun _ hdelivered hemitted)
  rw [hlen, receiveInto, List.length_take, hlen] at heq
  exact absurd heq (by decide)

end Whole

end Rustgo.UdpPaths
