import Rustgo.Checks
import Rustgo.Json
import Rustgo.ProtocolMessage

namespace Rustgo.Managed

open Checks Protocol
open String (utf8Len)

inductive TunnelProtocol
  | tcp
  | udp
  deriving DecidableEq

structure TunnelConfig where
  name : String
  protocol : TunnelProtocol
  localAddr : String
  remotePort : UInt32
  deriving DecidableEq

structure ExportConfig where
  name : String
  protocol : TunnelProtocol
  localAddr : String
  allowedPeers : List String
  deriving DecidableEq

structure ForwardConfig where
  name : String
  peer : String
  exportName : String
  listenAddr : String
  deriving DecidableEq

structure ManagedConfiguration where
  tunnels : List TunnelConfig
  exports : List ExportConfig
  forwards : List ForwardConfig
  p2pEnabled : Bool
  deriving DecidableEq

structure ValidationError where
  message : String
  deriving DecidableEq

inductive ManagedError
  | invalid (message : String)
  | conflict
  | notFound
  | storage (message : String)
  deriving DecidableEq

def MAX_TUNNELS : Nat := 64
def MAX_EXPORTS : Nat := 256
def MAX_FORWARDS : Nat := 256
def MAX_ALLOWED_PEERS_PER_EXPORT : Nat := 256
def MAX_TUNNEL_NAME_BYTES : Nat := 128
def MAX_JSON_BYTES : Nat := 65536

section Validation

/-- The Unicode property `White_Space`. -/
def isWhitespace (c : Char) : Bool :=
  let n := c.toNat
  (9 ≤ n ∧ n ≤ 13) ∨ n = 0x20 ∨ n = 0x85 ∨ n = 0xa0 ∨ n = 0x1680 ∨ (0x2000 ≤ n ∧ n ≤ 0x200a) ∨ n = 0x2028 ∨ n = 0x2029 ∨
    n = 0x202f ∨ n = 0x205f ∨ n = 0x3000

def trimIsEmpty (value : String) : Bool := value.toList.all isWhitespace

def requireNonEmpty (field value : String) : Except ValidationError Unit :=
  require (trimIsEmpty value = false) ⟨field ++ " must not be empty"⟩

def validateWireString (field value : String) (maximumBytes : Nat) : Except ValidationError Unit := do
  requireNonEmpty field value
  require (value.utf8ByteSize ≤ maximumBytes)
    ⟨field ++ " must be at most " ++ toString maximumBytes ++ " UTF-8 bytes"⟩

def validateClientName (value : String) : Except ValidationError Unit :=
  validateWireString "client name" value maxClientNameBytes

/-- What stands before and after the last `c`. -/
def rsplitOnce (c : Char) (cs : List Char) : Option (List Char × List Char) :=
  if c ∈ cs then
    let after := (cs.reverse.takeWhile (· ≠ c)).reverse
    some (cs.take (cs.length - after.length - 1), after)
  else none

def parseU32 (cs : List Char) : Option Nat :=
  let digits := match cs with
    | '+' :: rest => rest
    | _ => cs
  if digits ≠ [] ∧ digits.all Char.isDigit = true then
    let n := digits.foldl (fun n c => 10 * n + (c.toNat - 48)) 0
    if n < 2 ^ 32 then some n else none
  else none

def validateHostAddress (field value : String) : Except ValidationError Unit := do
  let (host, port) ← okOr (rsplitOnce ':' value.toList) ⟨field ++ " must include a host and port"⟩
  require (host ≠ [] ∧ (':' ∈ host → host.head? = some '[' ∧ host.getLast? = some ']'))
    ⟨field ++ " must contain a valid host"⟩
  let port ← okOr (parseU32 port) ⟨field ++ " has an invalid port"⟩
  require (1 ≤ port ∧ port ≤ 65535) ⟨field ++ " has an invalid port"⟩

def TunnelProtocol.debug : TunnelProtocol → String
  | .tcp => "Tcp"
  | .udp => "Udp"

def validateTunnels : List String → List (TunnelProtocol × UInt32) → List TunnelConfig → Except ValidationError Unit
  | _, _, [] => pure ()
  | names, remotePorts, tunnel :: tunnels => do
      validateWireString "tunnels.name" tunnel.name MAX_TUNNEL_NAME_BYTES
      validateHostAddress "tunnels.local_addr" tunnel.localAddr
      require (1 ≤ tunnel.remotePort.toNat ∧ tunnel.remotePort.toNat ≤ 65535)
        ⟨"tunnel `" ++ tunnel.name ++ "` has an invalid remote port"⟩
      require (tunnel.name ∉ names) ⟨"duplicate tunnel name `" ++ tunnel.name ++ "`"⟩
      require ((tunnel.protocol, tunnel.remotePort) ∉ remotePorts)
        ⟨"duplicate " ++ tunnel.protocol.debug ++ " remote port " ++ toString tunnel.remotePort.toNat⟩
      validateTunnels (tunnel.name :: names) ((tunnel.protocol, tunnel.remotePort) :: remotePorts) tunnels

def validateExports : List String → List ExportConfig → Except ValidationError Unit
  | _, [] => pure ()
  | names, item :: items => do
      validateWireString "exports.name" item.name MAX_TUNNEL_NAME_BYTES
      validateHostAddress "exports.local_addr" item.localAddr
      require (item.name ∉ names) ⟨"duplicate export name `" ++ item.name ++ "`"⟩
      require (item.allowedPeers.length ≤ MAX_ALLOWED_PEERS_PER_EXPORT)
        ⟨"export `" ++ item.name ++ "` allowed_peers must contain at most " ++
          toString MAX_ALLOWED_PEERS_PER_EXPORT ++ " entries"⟩
      item.allowedPeers.forM validateClientName
      validateExports (item.name :: names) items

def validateForwards (localName : Option String) : List String → List ForwardConfig → Except ValidationError Unit
  | _, [] => pure ()
  | names, forward :: forwards => do
      validateWireString "forwards.name" forward.name MAX_TUNNEL_NAME_BYTES
      validateClientName forward.peer
      validateWireString "forwards.export" forward.exportName MAX_TUNNEL_NAME_BYTES
      validateHostAddress "forwards.listen_addr" forward.listenAddr
      require (localName ≠ some forward.peer) ⟨"forward `" ++ forward.name ++ "` must not target the local client"⟩
      require (forward.name ∉ names) ⟨"duplicate forward name `" ++ forward.name ++ "`"⟩
      validateForwards localName (forward.name :: names) forwards

def validateManagedCollections (c : ManagedConfiguration) (localName : Option String) : Except ValidationError Unit := do
  require (c.tunnels.length ≤ MAX_TUNNELS) ⟨"tunnels must contain at most " ++ toString MAX_TUNNELS ++ " entries"⟩
  validateTunnels [] [] c.tunnels
  require (c.exports.length ≤ MAX_EXPORTS) ⟨"exports must contain at most " ++ toString MAX_EXPORTS ++ " entries"⟩
  require (c.forwards.length ≤ MAX_FORWARDS) ⟨"forwards must contain at most " ++ toString MAX_FORWARDS ++ " entries"⟩
  validateExports [] c.exports
  validateForwards localName [] c.forwards

end Validation

section Serialization

def TunnelProtocol.toJson : TunnelProtocol → Json
  | .tcp => .string "tcp"
  | .udp => .string "udp"

def TunnelConfig.toJson (item : TunnelConfig) : Json :=
  .object [("name", .string item.name), ("protocol", item.protocol.toJson), ("local_addr", .string item.localAddr),
    ("remote_port", .number (toString item.remotePort.toNat))]

def ExportConfig.toJson (item : ExportConfig) : Json :=
  .object [("name", .string item.name), ("protocol", item.protocol.toJson), ("local_addr", .string item.localAddr),
    ("allowed_peers", .array (item.allowedPeers.map .string))]

def ForwardConfig.toJson (item : ForwardConfig) : Json :=
  .object [("name", .string item.name), ("peer", .string item.peer), ("export", .string item.exportName),
    ("listen_addr", .string item.listenAddr)]

def ManagedConfiguration.toJson (c : ManagedConfiguration) : Json :=
  .object [("tunnels", .array (c.tunnels.map TunnelConfig.toJson)), ("exports", .array (c.exports.map ExportConfig.toJson)),
    ("forwards", .array (c.forwards.map ForwardConfig.toJson)), ("p2p_enabled", .bool c.p2pEnabled)]

end Serialization

namespace ManagedConfiguration

def validate (c : ManagedConfiguration) : Except ValidationError Unit := validateManagedCollections c none

/-- The kind and the name of every configured item. -/
def configured (c : ManagedConfiguration) : List (String × String) :=
  c.tunnels.map (fun item => ("tunnel", item.name)) ++ c.exports.map (fun item => ("export", item.name)) ++
    c.forwards.map fun item => ("forward", item.name)

end ManagedConfiguration

def boundedJson (value : Json) : Except ManagedError Json := do
  require (value.size ≤ MAX_JSON_BYTES) (.invalid "managed JSON exceeds 65536 bytes")
  pure value

def configurationJson (c : ManagedConfiguration) : Except ManagedError Json := do
  match c.validate with
  | .error e => throw (.invalid ("invalid configuration: " ++ e.message))
  | .ok () => boundedJson c.toJson

def invalidReport : ManagedError :=
  .invalid "report must contain each configured kind/name once with a valid state and bounded error"

/-- The checks of one item of a report, and the expected items that it leaves. -/
def validateReportItem (expected : List (String × String)) (item : Json) : Except ManagedError (List (String × String)) := do
  match item with
  | .object fields =>
      require (fields.all (fun field => field.1 = "kind" ∨ field.1 = "name" ∨ field.1 = "state" ∨ field.1 = "error") = true)
        invalidReport
      let kind ← okOr ((item.get "kind").bind Json.asStr) invalidReport
      let name ← okOr ((item.get "name").bind Json.asStr) invalidReport
      require ((kind, name) ∈ expected) invalidReport
      let state := (item.get "state").bind Json.asStr
      require (state = some "ready" ∨ state = some "failed" ∨ state = some "pending") invalidReport
      match item.get "error" with
      | none => pure ()
      | some .null => pure ()
      | some (.string error) => require (error.utf8ByteSize ≤ 2048) invalidReport
      | some _ => throw invalidReport
      pure (expected.erase (kind, name))
  | _ => throw invalidReport

def validateReportItems : List (String × String) → List Json → Except ManagedError Unit
  | _, [] => pure ()
  | expected, item :: items => do
      let expected ← validateReportItem expected item
      validateReportItems expected items

def validateReport (c : ManagedConfiguration) (results : Json) : Except ManagedError Unit := do
  let expected := c.configured.dedup
  match results with
  | .array items =>
      require (items.length = expected.length) invalidReport
      validateReportItems expected items
  | _ => throw invalidReport

end Rustgo.Managed
