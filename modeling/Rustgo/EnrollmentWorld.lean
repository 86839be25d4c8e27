import Rustgo.EnrollmentAttempt
import Mathlib.Logic.Function.Basic
import Mathlib.Logic.Relation

namespace Rustgo.ClientEnrollment

open Durable
open Numerals (hexBytes)
open Protocol

/-- The files of a client. -/
structure Disk where
  metadata : Option PendingMetadata
  keyFiles : KeyPath → Option KeyFile
  /-- The requests whose temporary metadata file is there. -/
  metadataTemps : List String
  configTemp : Bool
  config : ClientSection

/-- A request by its id and its public key. -/
abbrev Registration := String × Bytes

def registration (request : EnrollmentRequest) : Registration := (request.requestId.str, request.publicKey.bytes)

/-- What the server knows of the requests of this client. -/
structure Server where
  bound : Option Bytes
  opened : List Registration
  accepted : List Registration

namespace Server

/-- The key of an open request is bound. -/
def bind (s : Server) (request : Registration) : Server where
  bound := some request.2
  opened := s.opened.filter (·.1 ≠ request.1)
  accepted := request :: s.accepted

/-- Somebody approves open requests. -/
inductive Approves : Server → Server → Prop
  | refl (s) : Approves s s
  | step {s t request} (h : Approves s t) (hopen : request ∈ t.opened) : Approves s (t.bind request)

theorem Approves.trans {s t u : Server} (hst : Approves s t) (htu : Approves t u) : Approves s u := by
  induction htu with
  | refl => exact hst
  | step _ hopen ih => exact ih.step hopen

end Server

/-- What the server does with a request. -/
inductive Verdict
  | pend (code : EnrollmentErrorCode)
  | reject (code : EnrollmentErrorCode)
  | accept (completion : EnrollmentCompletion)
  deriving DecidableEq

/-- A request that was accepted stays so. -/
def Server.receive (s : Server) (request : Registration) : Verdict → Server × Reply
  | .pend code =>
      if request ∈ s.accepted then (s, .rejected code)
      else ({ s with opened := request :: s.opened.filter (·.1 ≠ request.1) }, .rejected code)
  | .reject code => (s, .rejected code)
  | .accept completion => (s.bind request, .accepted completion)

/-- How an operation comes out. -/
inductive Choice
  | done
  | fails
  | random (bytes : Vector UInt8 16)
  | generated (key : PrivateKey)
  | authenticated (profile : Option ClientProfile)
  | found (exist : Bool)
  | certificate (fingerprint : Fingerprint)
  | unsent
  | answered (verdict : Verdict) (delivered : Bool)
  deriving DecidableEq

/-- A pinned certificate is the only one. -/
def Trust.accepts (fingerprint : Fingerprint) : Trust → Bool
  | .pinned expected => expected = fingerprint
  | .initialEnrollment | .caFile => true

structure World where
  disk : Disk
  server : Server
  sent : List EnrollmentRequest

def Disk.loadKey (d : Disk) (path : KeyPath) : Option PrivateKey :=
  match d.keyFiles path with
  | some (.valid key) => some key
  | _ => none

def Disk.setKey (d : Disk) (path : KeyPath) (file : Option KeyFile) : Disk :=
  { d with keyFiles := Function.update d.keyFiles path file }

@[simp] theorem Disk.keyFiles_setKey_self (d : Disk) (path : KeyPath) (file : Option KeyFile) :
    (d.setKey path file).keyFiles path = file := Function.update_self _ _ _

theorem Disk.keyFiles_setKey_of_ne (d : Disk) {path path' : KeyPath} (file : Option KeyFile) (h : path' ≠ path) :
    (d.setKey path file).keyFiles path' = d.keyFiles path' := Function.update_of_ne h _ _

/-- What becomes of the files, unless the operation cannot be done. Temporary files must be new. -/
def FileOp.apply (d : Disk) : FileOp → Option Disk
  | .createDirectory | .persistPublicKey _ | .writeMetadataTemp _ | .writeConfigTemp => some d
  | .createMetadataTemp id => if id ∈ d.metadataTemps then none else some { d with metadataTemps := id :: d.metadataTemps }
  | .installMetadata m => some { d with metadata := some m, metadataTemps := d.metadataTemps.erase m.requestId }
  | .replaceKey source target => (d.keyFiles source).map fun file => (d.setKey source none).setKey target (some file)
  | .removeMetadata => if d.metadata.isSome then some { d with metadata := none } else none
  | .createConfigTemp => if d.configTemp then none else some { d with configTemp := true }
  | .installConfig config => some { d with config, configTemp := false }

def requestIdOf (bytes : Vector UInt8 16) : String := String.ofList (hexBytes bytes.toList)

/-- An operation that can fail may fail without an effect. -/
def perform : (op : Op) → Choice → World → Option (op.Answer × World)
  | .metadataExists, .done, w => some (w.disk.metadata.isSome, w)
  | .keyExists path, .done, w => some ((w.disk.keyFiles path).isSome, w)
  | .readMetadata, .done, w => some (w.disk.metadata, w)
  | .readMetadata, .fails, w => some (none, w)
  | .loadPrivateFile path, .done, w => some (w.disk.loadKey path, w)
  | .loadPrivateFile _, .fails, w => some (none, w)
  | .readConfig, .done, w => some (some w.disk.config, w)
  | .readConfig, .fails, w => some (none, w)
  | .file op, .done, w =>
      match op.apply w.disk with
      | some disk => some (some (), { w with disk })
      | none => some (none, w)
  | .file _, .fails, w => some (none, w)
  | .persistPrivateKey id, .generated key, w =>
      if (w.disk.keyFiles (.candidate id)).isSome then some (none, w)
      else some (some key, { w with disk := w.disk.setKey (.candidate id) (some (.valid key)) })
  | .persistPrivateKey _, .fails, w => some (none, w)
  | .randomRequestId, .random bytes, w => some (some (requestIdOf bytes), w)
  | .randomRequestId, .fails, w => some (none, w)
  | .certificateAuthorityExists, .found exist, w => some (some exist, w)
  | .certificateAuthorityExists, .fails, w => some (none, w)
  | .controlClient _, .done, w => some (some (), w)
  | .controlClient _, .fails, w => some (none, w)
  | .authenticate _, .authenticated profile, w => some (some profile, w)
  | .authenticate _, .fails, w => some (none, w)
  | .openTls _ _, .done, w => some (some (), w)
  | .openTls _ _, .fails, w => some (none, w)
  | .connect trust _ _, .certificate fingerprint, w =>
      some (if trust.accepts fingerprint then some fingerprint else none, w)
  | .connect _ _ _, .fails, w => some (none, w)
  | .send _, .unsent, w => some (.lost, w)
  | .send request, .answered verdict delivered, w =>
      let (server, reply) := w.server.receive (registration request) verdict
      some (if delivered then reply else .lost, { w with server, sent := w.sent ++ [request] })
  | _, _, _ => none

theorem perform_file (op : FileOp) (w : World) : perform (.file op) .done w =
    match op.apply w.disk with
    | some disk => some (some (), { w with disk })
    | none => some (none, w) :=
  rfl

theorem perform_persistPrivateKey (id : String) (key : PrivateKey) (w : World) :
    perform (.persistPrivateKey id) (.generated key) w =
      if (w.disk.keyFiles (.candidate id)).isSome then some (none, w)
      else some (some key, { w with disk := w.disk.setKey (.candidate id) (some (.valid key)) }) :=
  rfl

end Rustgo.ClientEnrollment
