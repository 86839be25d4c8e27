import Rustgo.FrameDomains
import Rustgo.RendezvousMessage
import Rustgo.Tickets

namespace Rustgo.PeerTcp

open AeadTable OrderedChannel PeerCipher Rendezvous

variable {Key : Type}

def maxPeerTcpPlaintextBytes : Nat := 60 * 1024
def maxWireFrameBytes : Nat := 70 * 1024

inductive PeerTcpError
  | io
  | frameTooLarge
  | malformedFrame
  | crypto (error : PeerCryptoError)
  deriving DecidableEq

section Records

/-- What `write_frame` writes: the length of the encoded frame, then the frame. -/
def writeFrame (frame : PeerRelayFrame) : Except PeerTcpError Bytes :=
  let encoded := RendezvousFormat.wirePeerRelayFrame.write frame
  if maxWireFrameBytes < encoded.length then .error .frameTooLarge else .ok (be 4 encoded.length ++ encoded)

/-- The reader of a frame refuses channel zero and a wrong length. -/
def decodeFrame (encoded : Bytes) : Option PeerRelayFrame :=
  match RendezvousFormat.wirePeerRelayFrame.read encoded with
  | some (frame, _) =>
      if frame.channelId ≠ 0 ∧ frame.ciphertextLen.toNat = frame.ciphertext.bytes.length then some frame else none
  | none => none

/-- The length that `read_frame` has read. -/
def recordSize (taken : Bytes) : Nat := ofBe (taken.take 4)

/-- How many bytes `read_frame` takes, as far as it knows from those it has. -/
def wanted (taken : Bytes) : Nat := if taken.length < 4 then 4 else 4 + recordSize taken

end Records

section Calls

inductive Request
  | send (plaintext : Bytes)
  | shutdown
  deriving DecidableEq

def Request.plaintext : Request → Bytes
  | .send plaintext => plaintext
  | .shutdown => []

def Request.flags : Request → PeerRelayFlags
  | .send _ => PeerRelayFlags.RELIABLE
  | .shutdown => PeerRelayFlags.bitor PeerRelayFlags.RELIABLE PeerRelayFlags.FIN

/-- Where a call of `send` or `shutdown` stands. The sealer is locked within
one step, the writer from `writing` until the call returns. -/
inductive Sender
  | returned (result : Option (Except PeerTcpError Unit))
  | called (request : Request)
  | sealed (request : Request) (frame : PeerRelayFrame)
  | writing (request : Request) (frame : PeerRelayFrame) (rest : Bytes)
  | written (request : Request)
  deriving DecidableEq

/-- The number of the frame that the call has sealed and not yet written. -/
def Sender.ticket : Sender → Option Nat
  | .sealed _ frame => some frame.sequence.toNat
  | .writing _ frame _ => some frame.sequence.toNat
  | .returned _ | .called _ | .written _ => none

/-- Where a call of `receive` stands. The reader is locked while `reading`, the opener within one step. -/
inductive Receiver
  | returned (result : Option (Except PeerTcpError (Option Bytes)))
  | called
  | reading (taken : Bytes)
  | holding (number : Nat) (frame : PeerRelayFrame)
  deriving DecidableEq

/-- How many frames were read before the one that the call has read and not yet opened. -/
def Receiver.ticket : Receiver → Option Nat
  | .holding number _ => some number
  | .returned _ | .called | .reading _ => none

end Calls

/-- One direction of a connection: the calls at the sending endpoint, the bytes
its socket has taken, and the calls at the receiving endpoint. -/
structure Link (Key : Type) where
  channel : World Key
  senders : Nat → Sender
  writer : Option Nat
  wire : Bytes
  written : List PeerRelayFrame
  closed : Bool
  receivers : Nat → Receiver
  reader : Option Nat
  consumed : Nat
  read : List PeerRelayFrame
  opened : List (PeerRelayFrame × Except PeerCryptoError Bytes)
  broken : Bool

inductive Action (Key : Type)
  | call (i : Nat) (request : Request)
  | sealFrame (i : Nat)
  | lockWriter (i : Nat)
  | write (i n : Nat)
  | finish (i : Nat)
  | failWrite (i : Nat)
  | abandon (i : Nat)
  | receive (i : Nat)
  | lockReader (i : Nat)
  | read (i n : Nat)
  | parse (i : Nat)
  | failRead (i : Nat)
  | openFrame (i : Nat)
  | abandonReceive (i : Nat)
  | foreign (other : PeerFrameSealer Key) (plaintext : Bytes) (flags : PeerRelayFlags)

namespace Link

def start (sealer : PeerFrameSealer Key) (opener : PeerFrameOpener Key) : Link Key where
  channel := ⟨sealer, opener, [], [], []⟩
  senders _ := .returned none
  writer := none
  wire := []
  written := []
  closed := false
  receivers _ := .returned none
  reader := none
  consumed := 0
  read := []
  opened := []
  broken := false

variable (w : Link Key) (i : Nat)

def sender (phase : Sender) : Link Key := { w with senders := Function.update w.senders i phase }

def receiver (phase : Receiver) : Link Key := { w with receivers := Function.update w.receivers i phase }

def call (request : Request) : Option (Link Key) :=
  match w.senders i with
  | .returned _ =>
      if maxPeerTcpPlaintextBytes < request.plaintext.length then some (w.sender i (.returned (some (.error .frameTooLarge))))
      else some (w.sender i (.called request))
  | _ => none

def sealFrame (aead : Aead Key) : Option (Link Key) :=
  match w.senders i with
  | .called request =>
      let w' := { w with channel := w.channel.sealed aead request.plaintext request.flags }
      match (w.channel.sealer.seal aead request.plaintext request.flags).1 with
      | .ok frame => some (w'.sender i (.sealed request frame))
      | .error e => some (w'.sender i (.returned (some (.error (.crypto e)))))
  | _ => none

def lockWriter : Option (Link Key) :=
  match w.senders i, w.writer with
  | .sealed request frame, none => match writeFrame frame with
    | .ok record => some { w.sender i (.writing request frame record) with writer := some i }
    | .error e => some (w.sender i (.returned (some (.error e))))
  | _, _ => none

/-- The socket takes some of the bytes that are left. -/
def write (n : Nat) : Option (Link Key) :=
  match w.senders i with
  | .writing request frame rest =>
      if w.closed = true ∨ n = 0 ∨ rest.length < n then none
      else
        let w' := { w with wire := w.wire ++ rest.take n }
        if n = rest.length then some { w'.sender i (.written request) with written := w.written ++ [frame] }
        else some (w'.sender i (.writing request frame (rest.drop n)))
  | _ => none

/-- After its frame `shutdown` also closes the sending side of the socket. -/
def finish : Option (Link Key) :=
  match w.senders i with
  | .written request => some { w.sender i (.returned (some (.ok ()))) with
      writer := none
      closed := w.closed || request = .shutdown }
  | _ => none

/-- A socket that has failed takes no more bytes. -/
def failWrite : Option (Link Key) :=
  match w.senders i with
  | .writing _ _ _ | .written _ => some { w.sender i (.returned (some (.error .io))) with
      writer := none
      closed := true }
  | _ => none

/-- The future of a call is dropped, and with it the lock it holds. -/
def abandon : Option (Link Key) :=
  some { w.sender i (.returned none) with writer := if w.writer = some i then none else w.writer }

def receive : Option (Link Key) :=
  match w.receivers i with
  | .returned _ => some (w.receiver i .called)
  | _ => none

def lockReader : Option (Link Key) :=
  match w.receivers i, w.reader with
  | .called, none => some { w.receiver i (.reading []) with reader := some i }
  | _, _ => none

def readBytes (n : Nat) : Option (Link Key) :=
  match w.receivers i with
  | .reading taken =>
      if w.broken = true ∨ n = 0 ∨ wanted taken < taken.length + n ∨ w.wire.length < w.consumed + n ∨
        4 ≤ taken.length ∧ maxWireFrameBytes < recordSize taken then none
      else some { w.receiver i (.reading (taken ++ (w.wire.drop w.consumed).take n)) with consumed := w.consumed + n }
  | _ => none

def parse : Option (Link Key) :=
  match w.receivers i with
  | .reading taken =>
      if taken.length < 4 then none
      else if maxWireFrameBytes < recordSize taken then
        some { w.receiver i (.returned (some (.error .frameTooLarge))) with reader := none }
      else if taken.length < wanted taken then none
      else match decodeFrame (taken.drop 4) with
        | some frame => some { w.receiver i (.holding w.read.length frame) with
            reader := none
            read := w.read ++ [frame] }
        | none => some { w.receiver i (.returned (some (.error .malformedFrame))) with reader := none }
  | _ => none

def failRead : Option (Link Key) :=
  match w.receivers i with
  | .reading _ => some { w.receiver i (.returned (some (.error .io))) with
      reader := none
      broken := true }
  | _ => none

def openFrame [DecidableEq Key] : Option (Link Key) :=
  match w.receivers i with
  | .holding _ frame =>
      let result := (w.channel.opener.open (decrypt w.channel.log) frame).1
      let value := match result with
        | .ok plaintext => .ok (if hasFin frame.flags then none else some plaintext)
        | .error e => .error (.crypto e)
      some { w.receiver i (.returned (some value)) with
        channel := w.channel.delivered frame
        opened := w.opened ++ [(frame, result)] }
  | _ => none

def abandonReceive : Option (Link Key) :=
  some { w.receiver i (.returned none) with reader := if w.reader = some i then none else w.reader }

/-- Sealers of other domains feed the same cipher under other keys. -/
def foreign [DecidableEq Key] (aead : Aead Key) (other : PeerFrameSealer Key) (plaintext : Bytes) (flags : PeerRelayFlags) :
    Option (Link Key) :=
  if other.key = w.channel.sealer.key then none
  else some { w with channel := { w.channel with log := w.channel.log ++ encryptions aead other plaintext flags } }

def next [DecidableEq Key] (aead : Aead Key) : Action Key → Option (Link Key)
  | .call i request => w.call i request
  | .sealFrame i => w.sealFrame i aead
  | .lockWriter i => w.lockWriter i
  | .write i n => w.write i n
  | .finish i => w.finish i
  | .failWrite i => w.failWrite i
  | .abandon i => w.abandon i
  | .receive i => w.receive i
  | .lockReader i => w.lockReader i
  | .read i n => w.readBytes i n
  | .parse i => w.parse i
  | .failRead i => w.failRead i
  | .openFrame i => w.openFrame i
  | .abandonReceive i => w.abandonReceive i
  | .foreign other plaintext flags => w.foreign aead other plaintext flags

end Link

def Step [DecidableEq Key] (aead : Aead Key) (w : Link Key) (a : Action Key) (w' : Link Key) : Prop := w.next aead a = some w'

end Rustgo.PeerTcp
