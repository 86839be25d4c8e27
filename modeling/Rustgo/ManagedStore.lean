import Rustgo.ManagedConfiguration
import Rustgo.Rows

namespace Rustgo.Managed

open Checks Rows

def MAX_SNAPSHOTS : Nat := 10000

/-- The largest integer of the database. -/
def i64Max : Nat := 2 ^ 63 - 1

/-- A row of `managed_snapshots`. The text columns hold the JSON of these values. -/
structure ManagedRow where
  identity : String
  name : String
  mappedName : Option String
  revision : Nat
  configuration : ManagedConfiguration
  appliedRevision : Option Nat
  results : Json

structure ManagedSnapshot where
  identity : String
  name : String
  revision : Nat
  configuration : ManagedConfiguration
  appliedRevision : Option Nat
  results : Json

def ManagedRow.snapshot (r : ManagedRow) : ManagedSnapshot :=
  ⟨r.identity, r.name, r.revision, r.configuration, r.appliedRevision, r.results⟩

abbrev ManagedStore := List ManagedRow

def validateIdentityName (identity name : String) : Except ManagedError Unit := do
  require (trimIsEmpty identity = false ∧ identity.utf8ByteSize ≤ 256) (.invalid "invalid stable identity")
  match validateClientName name with
  | .error e => throw (.invalid ("invalid configuration: " ++ e.message))
  | .ok () => pure ()

namespace ManagedStore

def readIdentity (s : ManagedStore) (identity : String) : Option ManagedRow := s.find? fun r => r.identity = identity

def readMappedName (s : ManagedStore) (name : String) : Option ManagedRow := s.find? fun r => r.mappedName = some name

def bindName (s : ManagedStore) (identity name : String) : ManagedStore :=
  let s := updateWhere (fun r => r.mappedName = some name ∧ r.identity ≠ identity) (fun r => { r with mappedName := none }) s
  updateWhere (fun r => r.identity = identity) (fun r => { r with name := name, mappedName := some name }) s

def inserted (identity name : String) (configuration : ManagedConfiguration) : ManagedRow where
  identity := identity
  name := name
  mappedName := none
  revision := 1
  configuration := configuration
  appliedRevision := none
  results := .array []

def reset (s : ManagedStore) (identity : String) : ManagedStore :=
  updateWhere (fun r => r.identity = identity) (fun r => { r with appliedRevision := none, results := .array [] }) s

/-- The row of an identity that is seen for the first time. -/
def importOnce (s : ManagedStore) (identity name : String) (configuration : ManagedConfiguration) :
    Except ManagedError ManagedStore :=
  match readIdentity s identity with
  | some _ => pure s
  | none => do
      require (s.length < MAX_SNAPSHOTS) (.invalid "managed snapshot capacity reached")
      pure (s ++ [inserted identity name configuration])

def refreshed (current : ManagedRow) (configuration : ManagedConfiguration) : ManagedConfiguration :=
  { current.configuration with p2pEnabled := configuration.p2pEnabled }

/-- A revision that the database cannot hold as an integer is not read back. -/
def refreshP2p (s : ManagedStore) (current : ManagedRow) (configuration : ManagedConfiguration) :
    Except ManagedError ManagedStore :=
  if current.configuration.p2pEnabled ≠ configuration.p2pEnabled then do
    let _ ← configurationJson (refreshed current configuration)
    require (current.revision + 1 ≤ i64Max) (.storage "Invalid column type Real at index: 2, name: revision")
    pure (updateWhere (fun r => r.identity = current.identity)
      (fun r => { r with configuration := refreshed current configuration, revision := r.revision + 1 }) s)
  else pure s

def sync (s : ManagedStore) (identity name : String) (configuration : ManagedConfiguration) :
    Except ManagedError (ManagedSnapshot × ManagedStore) := do
  validateIdentityName identity name
  let _ ← configurationJson configuration
  let s₁ ← importOnce s identity name configuration
  let s₂ := bindName s₁ identity name
  let current ← okOr (readIdentity s₂ identity) .notFound
  let s₃ ← refreshP2p s₂ current configuration
  let s₄ := reset s₃ identity
  let snapshot ← okOr (readIdentity s₄ identity) .notFound
  pure (snapshot.snapshot, s₄)

def replaceInner (s : ManagedStore) (old : Option ManagedRow) (newName : Option String) (expectedRevision : Nat)
    (configuration : ManagedConfiguration) : Except ManagedError (ManagedSnapshot × ManagedStore) := do
  let _ ← configurationJson configuration
  let old ← okOr old .notFound
  require (old.revision = expectedRevision) .conflict
  require (old.revision + 1 < 2 ^ 64 ∧ old.revision + 1 ≤ i64Max) (.storage "revision exhausted")
  let s := updateWhere (fun r => r.identity = old.identity)
    (fun r => { r with
      revision := old.revision + 1, configuration := configuration, appliedRevision := none, results := .array [] }) s
  let s := match newName with
    | some name => bindName s old.identity name
    | none => s
  let snapshot ← okOr (readIdentity s old.identity) .notFound
  pure (snapshot.snapshot, s)

def replaceForIdentity (s : ManagedStore) (identity name : String) (expectedRevision : Nat)
    (configuration : ManagedConfiguration) : Except ManagedError (ManagedSnapshot × ManagedStore) := do
  validateIdentityName identity name
  s.replaceInner (s.readIdentity identity) (some name) expectedRevision configuration

def replace (s : ManagedStore) (name : String) (expectedRevision : Nat) (configuration : ManagedConfiguration) :
    Except ManagedError (ManagedSnapshot × ManagedStore) :=
  s.replaceInner (s.readMappedName name) none expectedRevision configuration

def report (s : ManagedStore) (identity : String) (revision : Nat) (results : Json) : Except ManagedError ManagedStore := do
  let _ ← boundedJson results
  let snapshot ← okOr (readIdentity s identity) .notFound
  require (snapshot.revision = revision) .conflict
  validateReport snapshot.configuration results
  pure (updateWhere (fun r => r.identity = identity)
    (fun r => { r with appliedRevision := some revision, results := results }) s)

inductive Op
  | sync (identity name : String) (configuration : ManagedConfiguration)
  | replace (name : String) (expectedRevision : Nat) (configuration : ManagedConfiguration)
  | replaceForIdentity (identity name : String) (expectedRevision : Nat) (configuration : ManagedConfiguration)
  | report (identity : String) (revision : Nat) (results : Json)

/-- What the transaction of an operation leaves, if it gets to its commit. -/
def attempt (s : ManagedStore) : Op → Except ManagedError ManagedStore
  | .sync identity name configuration => Prod.snd <$> s.sync identity name configuration
  | .replace name expectedRevision configuration => Prod.snd <$> s.replace name expectedRevision configuration
  | .replaceForIdentity identity name expectedRevision configuration =>
      Prod.snd <$> s.replaceForIdentity identity name expectedRevision configuration
  | .report identity revision results => s.report identity revision results

/-- An operation is one transaction: an error drops it, which rolls it back. -/
def perform (s : ManagedStore) (op : Op) : Option ManagedError × ManagedStore :=
  match s.attempt op with
  | .ok s' => (none, s')
  | .error e => (some e, s)

def performAll (s : ManagedStore) (ops : List Op) : ManagedStore := ops.foldl (fun s op => (s.perform op).2) s

/-- The row that an edit would change and the revision that it is based on. -/
def edited (s : ManagedStore) : Op → Option (String × Nat)
  | .replace name expectedRevision _ => (s.readMappedName name).map fun r => (r.identity, expectedRevision)
  | .replaceForIdentity identity _ expectedRevision _ => some (identity, expectedRevision)
  | .sync .. => none
  | .report .. => none

/-- The edits that succeed, in order. -/
def edits : ManagedStore → List Op → List (String × Nat)
  | _, [] => []
  | s, op :: ops =>
      match s.perform op with
      | (none, s') => (s.edited op).toList ++ edits s' ops
      | (some _, s') => edits s' ops

end ManagedStore

end Rustgo.Managed
