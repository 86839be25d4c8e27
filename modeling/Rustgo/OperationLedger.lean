import Rustgo.Runs
import Rustgo.Sha256
import Rustgo.Tables

namespace Rustgo.Web

open Runs Tables

abbrev Digest := Vector UInt8 32

inductive OperationOutcome
  | pending
  | secret
  | response (status : UInt16) (body : Bytes)
  deriving DecidableEq

structure OperationRecord where
  key : Digest
  request : Digest
  outcome : OperationOutcome
  deriving DecidableEq

structure OperationLedger where
  records : List OperationRecord
  capacity : Nat

inductive OperationAdmission
  | started (key : Digest)
  | secretUnavailable
  | replay (status : UInt16) (body : Bytes)
  | inFlight
  | conflict
  | unavailable
  deriving DecidableEq

/-- A management request, as the ledger sees it. -/
structure OperationCall where
  session : Bytes
  endpoint : Bytes
  operationId : Bytes
  request : Bytes
  deriving DecidableEq

def OperationCall.key (call : OperationCall) : Digest :=
  Sha256.digest (call.session ++ [0] ++ call.endpoint ++ [0] ++ call.operationId)

def OperationRecord.isPending (record : OperationRecord) : Bool := record.outcome = .pending

/-- The answer to a request whose key is known. -/
def OperationRecord.answer (record : OperationRecord) (request : Digest) : OperationAdmission :=
  if record.request ≠ request then .conflict
  else
    match record.outcome with
    | .pending => .inFlight
    | .secret => .secretUnavailable
    | .response status body => .replay status body

namespace OperationLedger

def new (capacity : Nat) : OperationLedger := ⟨[], capacity⟩

def push (l : OperationLedger) (key request : Digest) : OperationLedger :=
  { l with records := l.records ++ [⟨key, request, .pending⟩] }

def begin (l : OperationLedger) (call : OperationCall) : OperationAdmission × OperationLedger :=
  let key := call.key
  let request := Sha256.digest call.request
  match l.records.find? (·.key = key) with
  | some record => (record.answer request, l)
  | none =>
      if l.records.length = l.capacity then
        match l.records.findIdx? (!·.isPending) with
        | some index => (.started key, { l with records := l.records.eraseIdx index }.push key request)
        | none => (.unavailable, l)
      else (.started key, l.push key request)

/-- Change the first record of a key. -/
def setOutcome (key : Digest) (outcome : OperationOutcome) : List OperationRecord → List OperationRecord
  | [] => []
  | record :: records =>
      if record.key = key then { record with outcome := outcome } :: records
      else record :: setOutcome key outcome records

def finish (l : OperationLedger) (key : Digest) (succeeded : Bool) : OperationLedger :=
  if succeeded then { l with records := setOutcome key .secret l.records }
  else { l with records := l.records.eraseP (·.key = key) }

def finishResponse (l : OperationLedger) (key : Digest) (status : UInt16) (body : Bytes) : OperationLedger :=
  { l with records := setOutcome key (.response status body) l.records }

end OperationLedger

/-- `create_client` and `issue_management_token` answer with a secret, `mutate_client` does not. -/
inductive OperationKind
  | secret
  | mutation
  deriving DecidableEq

/-- What the blocking task of a handler comes back with. -/
inductive TaskResult
  | succeeded (body : Bytes)
  | failed
  | panicked
  deriving DecidableEq

/-- A handler that was admitted. Its blocking task goes on when the handler itself is dropped. -/
structure Handler where
  kind : OperationKind
  running : Bool
  result : Option TaskResult
  deriving DecidableEq

structure Management where
  operations : OperationLedger
  handlers : Table Digest Handler

inductive ManagementEvent
  | begin (call : OperationCall) (kind : OperationKind)
  | execute (key : Digest) (result : TaskResult)
  | resume (key : Digest)
  /-- The request timed out, or its connection was closed. -/
  | drop (key : Digest)
  deriving DecidableEq

namespace Management

def start (capacity : Nat) : Management := ⟨.new capacity, ∅⟩

def begin (m : Management) (call : OperationCall) (kind : OperationKind) : Management :=
  match m.operations.begin call with
  | (.started key, operations) => ⟨operations, m.handlers.insert key ⟨kind, true, none⟩⟩
  | (_, operations) => { m with operations := operations }

/-- What a handler does with the ledger after its await. -/
def complete (l : OperationLedger) (key : Digest) : OperationKind → TaskResult → OperationLedger
  | .secret, .succeeded _ => l.finish key true
  | .mutation, .succeeded body => l.finishResponse key 200 body
  | _, .failed => l.finish key false
  | _, .panicked => l.finish key false

def next (m : Management) : ManagementEvent → Option Management
  | .begin call kind => some (m.begin call kind)
  | .execute key result =>
      match m.handlers.lookup key with
      | some ⟨kind, running, none⟩ => some { m with handlers := m.handlers.insert key ⟨kind, running, some result⟩ }
      | _ => none
  | .resume key =>
      match m.handlers.lookup key with
      | some ⟨kind, true, some result⟩ => some ⟨complete m.operations key kind result, m.handlers.erase key⟩
      | _ => none
  | .drop key =>
      match m.handlers.lookup key with
      | some ⟨kind, true, result⟩ => some { m with handlers := m.handlers.insert key ⟨kind, false, result⟩ }
      | _ => none

def Step (m : Management) (event : ManagementEvent) (m' : Management) : Prop := m.next event = some m'

/-- No handler is running, though the blocking task of a dropped one may be. -/
def Idle (m : Management) : Prop := ∀ key handler, m.handlers.lookup key = some handler → handler.running = false

end Management

end Rustgo.Web
