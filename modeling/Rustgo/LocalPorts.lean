import Rustgo.OrchestrationState
import Rustgo.PeerBucket
import Rustgo.Postcard
import Mathlib.Data.Nat.ModEq

namespace Rustgo.Orchestration

open Postcard.Format (utf8)
open Rendezvous

/-- Arithmetic on unsigned 32-bit numbers, without a value where it would leave them. -/
def addU32 (a b : Nat) : Option Nat := if a + b < 2 ^ 32 then some (a + b) else none

def subU32 (a b : Nat) : Option Nat := if b ≤ a then some (a - b) else none

def remU32 (a b : Nat) : Option Nat := if b = 0 then none else some (a % b)

structure PortRange where
  start : UInt16
  stop : UInt16
  start_le_stop : start ≤ stop

structure P2pPorts where
  udpPortRange : PortRange
  tcpPortRange : PortRange

/-- The parts of a configuration that the ports are chosen from, and the address that the system routes from. -/
structure PortConfig where
  name : String
  p2p : Option P2pPorts
  localIp : Except IoError IpAddr

def PortRange.width (range : PortRange) : Option Nat := do
  addU32 (← subU32 range.stop.toNat range.start.toNat) 1

def u16TryFrom (port : Nat) : Except IoError UInt16 := if port < 2 ^ 16 then .ok (.ofNat port) else .error .invalid

def sessionMarker (id : SessionId) : UInt32 := .ofNat (ofBe (id.bytes.toList.take 4))

/-- Distinct names of two peers give the same session different ports. -/
def clientMarker (name : String) : UInt32 :=
  (utf8 name).foldl (fun hash byte => hash * 16777619 ^^^ byte.toUInt32) 2166136261

def P2pPorts.range (p2p : P2pPorts) : CandidateTransport → Except IoError PortRange
  | .quicUdp => .ok p2p.udpPortRange
  | .nativeTcp => .ok p2p.tcpPortRange
  | .relay => .error .invalid

def localSocket (config : PortConfig) (id : SessionId) (transport : CandidateTransport) : Option (Except IoError (IpAddr × UInt16)) :=
  match config.p2p with
  | none => some (.error .invalid)
  | some p2p =>
      match p2p.range transport with
      | .error error => some (.error error)
      | .ok range => do
          let width ← range.width
          let marker := sessionMarker id ^^^ clientMarker config.name
          let port ← addU32 range.start.toNat (← remU32 marker.toNat width)
          some (do pure (← config.localIp, ← u16TryFrom port))

/-- What the system does with a socket that is to be bound. -/
inductive BindOutcome
  | bound
  | addrInUse
  | failed

inductive BindError
  | io (error : IoError)
  | occupied
  deriving DecidableEq

/-- Tries the ports at these offsets, and lists those that it tried. -/
def bindOffsets (bind : IpAddr × UInt16 → BindOutcome) (start preferredOffset width : Nat) (ip : IpAddr) :
    List Nat → Option (Except BindError (IpAddr × UInt16) × List UInt16)
  | [] => some (.error .occupied, [])
  | offset :: offsets => do
      let port ← addU32 start (← remU32 (← addU32 preferredOffset offset) width)
      match u16TryFrom port with
      | .error error => some (.error (.io error), [])
      | .ok port =>
          match bind (ip, port) with
          | .bound => some (.ok (ip, port), [port])
          | .failed => some (.error (.io .system), [port])
          | .addrInUse => (bindOffsets bind start preferredOffset width ip offsets).map fun rest => (rest.1, port :: rest.2)

def bindQuicSocket (config : PortConfig) (id : SessionId) (role : PeerRole) (bind : IpAddr × UInt16 → BindOutcome) :
    Option (Except BindError (IpAddr × UInt16) × List UInt16) :=
  match config.p2p with
  | none => some (.error (.io .invalid), [])
  | some p2p => do
      let width ← p2p.udpPortRange.width
      let sum ← addU32 (sessionMarker id).toNat (if role = .responder then 1 else 0)
      let preferredOffset ← remU32 sum width
      match config.localIp with
      | .error error => some (.error (.io error), [])
      | .ok ip => bindOffsets bind p2p.udpPortRange.start.toNat preferredOffset width ip (List.range width)

namespace PortRange

variable (range : PortRange)

/-- The number of ports. -/
def size : Nat := range.stop.toNat - range.start.toNat + 1

theorem start_le : range.start.toNat ≤ range.stop.toNat := UInt16.le_iff_toNat_le.mp range.start_le_stop

theorem size_le : range.size ≤ 2 ^ 16 := by
  have hstop := range.stop.toNat_lt
  unfold size
  omega

theorem start_add_lt {offset : Nat} (h : offset < range.size) : range.start.toNat + offset ≤ range.stop.toNat := by
  have hle := range.start_le
  unfold size at h
  omega

theorem width_eq : range.width = some range.size := by
  have hsize := range.size_le
  unfold size at hsize
  simp only [width, subU32, if_pos range.start_le, Option.bind_eq_bind, Option.bind_some, addU32, size]
  exact if_pos (by omega)

instance : Membership UInt16 PortRange := ⟨fun range port => range.start ≤ port ∧ port ≤ range.stop⟩

theorem mem_iff {port : UInt16} : port ∈ range ↔ range.start.toNat ≤ port.toNat ∧ port.toNat ≤ range.stop.toNat := by
  rw [← UInt16.le_iff_toNat_le, ← UInt16.le_iff_toNat_le]
  exact Iff.rfl

/-- The port at an offset from the start. -/
def port (offset : Nat) : UInt16 := .ofNat (range.start.toNat + offset)

variable {range} {offset : Nat}

theorem toNat_port (h : offset < range.size) : (range.port offset).toNat = range.start.toNat + offset := by
  have hle := range.start_add_lt h
  have hstop := range.stop.toNat_lt
  rw [port, UInt16.toNat_ofNat', Nat.mod_eq_of_lt (by omega)]

theorem port_mem (h : offset < range.size) : range.port offset ∈ range := by
  have hle := range.start_add_lt h
  rw [mem_iff, toNat_port h]
  omega

theorem u16TryFrom_port (h : offset < range.size) : u16TryFrom (range.start.toNat + offset) = .ok (range.port offset) := by
  have hle := range.start_add_lt h
  have hstop := range.stop.toNat_lt
  exact if_pos (by omega)

theorem size_pos : 0 < range.size := Nat.succ_pos _

theorem remU32_size (a : Nat) : remU32 a range.size = some (a % range.size) := if_neg size_pos.ne'

theorem addU32_port (a : Nat) : addU32 range.start.toNat (a % range.size) = some (range.start.toNat + a % range.size) := by
  have hle := range.start_add_lt (Nat.mod_lt a size_pos)
  have hstop := range.stop.toNat_lt
  exact if_pos (by omega)

end PortRange

section Bind

variable {range : PortRange} {bind : IpAddr × UInt16 → BindOutcome} {preferredOffset : Nat} {ip : IpAddr}

/-- The port that is tried at an offset. -/
def PortRange.tried (range : PortRange) (preferredOffset offset : Nat) : UInt16 :=
  range.port ((preferredOffset + offset) % range.size)

/-- The ports are tried in order, up to one that is bound or fails. -/
theorem bindOffsets_cases (bind : IpAddr × UInt16 → BindOutcome) (ip : IpAddr) (offsets : List Nat)
    (hpreferred : preferredOffset < range.size) (hoffsets : ∀ offset ∈ offsets, offset < range.size) :
    ∃ result before after, bindOffsets bind range.start.toNat preferredOffset range.size ip offsets =
        some (result, before.map (range.tried preferredOffset)) ∧
      offsets = before ++ after ∧ (∀ address, result = .ok address → address.2 ∈ range) ∧ (result = .error .occupied → after = []) := by
  induction offsets with
  | nil => exact ⟨_, [], [], rfl, rfl, fun _ h => (by cases h), fun _ => rfl⟩
  | cons offset offsets ih =>
      rw [List.forall_mem_cons] at hoffsets
      have hsize := range.size_le
      have hsum : addU32 preferredOffset offset = some (preferredOffset + offset) := if_pos (by omega)
      have hlt : (preferredOffset + offset) % range.size < range.size := Nat.mod_lt _ PortRange.size_pos
      have hport := PortRange.port_mem hlt
      simp only [bindOffsets, hsum, PortRange.remU32_size, PortRange.addU32_port, PortRange.u16TryFrom_port hlt,
        Option.bind_eq_bind, Option.bind_some]
      cases bind (ip, range.port ((preferredOffset + offset) % range.size)) with
      | bound =>
          refine ⟨_, [offset], offsets, rfl, rfl, fun address h => ?_, fun h => by cases h⟩
          obtain rfl := Except.ok.inj h
          exact hport
      | failed => exact ⟨_, [offset], offsets, rfl, rfl, fun _ h => (by cases h), fun h => by cases h⟩
      | addrInUse =>
          obtain ⟨result, before, after, hrest, rfl, hok, hoccupied⟩ := ih hoffsets.2
          rw [hrest]
          exact ⟨result, offset :: before, after, rfl, rfl, hok, hoccupied⟩

theorem tried_injective {a b : Nat} (ha : a < range.size) (hb : b < range.size)
    (h : range.tried preferredOffset a = range.tried preferredOffset b) : a = b := by
  have htoNat := congrArg UInt16.toNat h
  rw [PortRange.tried, PortRange.tried, PortRange.toNat_port (Nat.mod_lt _ PortRange.size_pos),
    PortRange.toNat_port (Nat.mod_lt _ PortRange.size_pos)] at htoNat
  have hmod : Nat.ModEq range.size (preferredOffset + a) (preferredOffset + b) := Nat.add_left_cancel htoNat
  exact (Nat.ModEq.add_left_cancel' _ hmod).eq_of_lt_of_lt ha hb

theorem tried_surjective (hpreferred : preferredOffset < range.size) {port : UInt16} (h : port ∈ range) :
    ∃ offset < range.size, range.tried preferredOffset offset = port := by
  obtain ⟨hstart, hstop⟩ := range.mem_iff.mp h
  have hlt : port.toNat - range.start.toNat < range.size := by
    unfold PortRange.size
    omega
  refine ⟨(port.toNat - range.start.toNat + (range.size - preferredOffset)) % range.size, Nat.mod_lt _ PortRange.size_pos, ?_⟩
  have hmod : (preferredOffset + (port.toNat - range.start.toNat + (range.size - preferredOffset)) % range.size) % range.size =
      port.toNat - range.start.toNat := by
    rw [Nat.add_mod_mod, show preferredOffset + (port.toNat - range.start.toNat + (range.size - preferredOffset)) =
      port.toNat - range.start.toNat + range.size by omega, Nat.add_mod_right, Nat.mod_eq_of_lt hlt]
  rw [← UInt16.toNat_inj, PortRange.tried, hmod, PortRange.toNat_port hlt]
  omega

end Bind

/-- Nothing overflows, the ports are in their ranges, and all ports are tried once before none is found. -/
structure PortsSound (config : PortConfig) (id : SessionId) (role : PeerRole) : Prop where
  local_defined : ∀ transport, (localSocket config id transport).isSome = true
  local_mem : ∀ transport ip port p2p range, localSocket config id transport = some (.ok (ip, port)) → config.p2p = some p2p →
    p2p.range transport = .ok range → port ∈ range
  bind_sound : ∀ bind, ∃ result tried, bindQuicSocket config id role bind = some (result, tried) ∧ tried.Nodup ∧
    (∀ p2p, config.p2p = some p2p → (∀ port ∈ tried, port ∈ p2p.udpPortRange) ∧
      (∀ ip port, result = .ok (ip, port) → port ∈ p2p.udpPortRange) ∧
      (result = .error .occupied → ∀ port, port ∈ p2p.udpPortRange → port ∈ tried))

section Sound

variable {config : PortConfig} {id : SessionId} {role : PeerRole}

theorem localSocket_cases (config : PortConfig) (id : SessionId) (transport : CandidateTransport) :
    ∃ result, localSocket config id transport = some result ∧ ∀ ip port p2p range, result = .ok (ip, port) → config.p2p = some p2p →
      p2p.range transport = .ok range → port ∈ range := by
  cases hp2p : config.p2p with
  | none => exact ⟨.error .invalid, by simp only [localSocket, hp2p], fun _ _ _ _ h => by cases h⟩
  | some p2p =>
      cases hrange : p2p.range transport with
      | error error => exact ⟨.error error, by simp only [localSocket, hp2p, hrange], fun _ _ _ _ h => by cases h⟩
      | ok range =>
          have hlt : (sessionMarker id ^^^ clientMarker config.name).toNat % range.size < range.size := Nat.mod_lt _ PortRange.size_pos
          refine ⟨_, by simp only [localSocket, hp2p, hrange, PortRange.width_eq, PortRange.remU32_size, PortRange.addU32_port,
            Option.bind_eq_bind, Option.bind_some]; rfl, fun ip port p2p' range' hresult hp2p' hrange' => ?_⟩
          obtain rfl := Option.some.inj hp2p'
          obtain rfl := Except.ok.inj (hrange.symm.trans hrange')
          rw [PortRange.u16TryFrom_port hlt] at hresult
          cases hip : config.localIp with
          | error => rw [hip] at hresult; cases hresult
          | ok ip' =>
              rw [hip] at hresult
              obtain ⟨rfl, rfl⟩ := Prod.mk.inj (Except.ok.inj hresult)
              exact PortRange.port_mem hlt

theorem bindQuicSocket_cases {p2p : P2pPorts} {sum : Nat} (hp2p : config.p2p = some p2p)
    (hsum : addU32 (sessionMarker id).toNat (if role = .responder then 1 else 0) = some sum) (bind : IpAddr × UInt16 → BindOutcome) :
    ∃ result tried, bindQuicSocket config id role bind = some (result, tried) ∧ tried.Nodup ∧ (∀ port ∈ tried, port ∈ p2p.udpPortRange) ∧
      (∀ ip port, result = .ok (ip, port) → port ∈ p2p.udpPortRange) ∧
      (result = .error .occupied → ∀ port, port ∈ p2p.udpPortRange → port ∈ tried) := by
  have hpreferred : sum % p2p.udpPortRange.size < p2p.udpPortRange.size := Nat.mod_lt _ PortRange.size_pos
  simp only [bindQuicSocket, hp2p, PortRange.width_eq, hsum, PortRange.remU32_size, Option.bind_eq_bind, Option.bind_some]
  cases config.localIp with
  | error => exact ⟨_, [], rfl, List.nodup_nil, fun _ h => (by cases h), fun _ _ h => (by cases h), fun h => by cases h⟩
  | ok ip =>
      obtain ⟨result, before, after, hrun, hoffsets, hok, hoccupied⟩ := bindOffsets_cases bind ip
        (List.range p2p.udpPortRange.size) hpreferred fun _ => List.mem_range.mp
      have hbefore : ∀ offset ∈ before, offset < p2p.udpPortRange.size := fun offset hoffset =>
        List.mem_range.mp (hoffsets ▸ List.mem_append_left _ hoffset)
      refine ⟨result, _, hrun, ?_, fun port hport => ?_, fun ip port => hok (ip, port), fun h port hport => ?_⟩
      · refine List.Nodup.map_on (fun a ha b hb => tried_injective (hbefore a ha) (hbefore b hb)) ?_
        exact (hoffsets ▸ List.nodup_range).of_append_left
      · obtain ⟨offset, -, rfl⟩ := List.mem_map.mp hport
        exact PortRange.port_mem (Nat.mod_lt _ PortRange.size_pos)
      · obtain ⟨offset, hlt, rfl⟩ := tried_surjective hpreferred hport
        rw [hoccupied h, List.append_nil] at hoffsets
        exact List.mem_map_of_mem (hoffsets ▸ List.mem_range.mpr hlt)

/-- The one sum that leaves its type is that of a marker of ones and a responder. -/
theorem addU32_marker (id : SessionId) (role : PeerRole) :
    addU32 (sessionMarker id).toNat (if role = .responder then 1 else 0) = none ↔ sessionMarker id = 0xFFFFFFFF ∧ role = .responder := by
  have hlt := (sessionMarker id).toNat_lt
  have htop : sessionMarker id = 0xFFFFFFFF ↔ (sessionMarker id).toNat = 2 ^ 32 - 1 := by rw [← UInt32.toNat_inj]; rfl
  rw [htop, addU32]
  cases role <;> simp <;> omega

/-- The ports are sound but for a responder in a session whose id begins with four bytes of ones. -/
theorem ports_sound_iff (config : PortConfig) (id : SessionId) (role : PeerRole) :
    PortsSound config id role ↔ ¬(config.p2p.isSome = true ∧ sessionMarker id = 0xFFFFFFFF ∧ role = .responder) := by
  constructor
  · rintro h ⟨hp2p, htop⟩
    obtain ⟨p2p, hp2p⟩ := Option.isSome_iff_exists.mp hp2p
    obtain ⟨result, tried, hbind, -⟩ := h.bind_sound fun _ => .bound
    simp only [bindQuicSocket, hp2p, PortRange.width_eq, (addU32_marker id role).mpr htop, Option.bind_eq_bind, Option.bind_some,
      Option.bind_none] at hbind
    cases hbind
  · intro h
    refine ⟨fun transport => ?_, fun transport ip port p2p range hlocal => ?_, fun bind => ?_⟩
    · obtain ⟨result, hresult, -⟩ := localSocket_cases config id transport
      rw [hresult, Option.isSome_some]
    · obtain ⟨result, hresult, hmem⟩ := localSocket_cases config id transport
      exact hmem ip port p2p range (Option.some.inj (hresult.symm.trans hlocal))
    · cases hp2p : config.p2p with
      | none =>
          exact ⟨.error (.io .invalid), [], by simp only [bindQuicSocket, hp2p], List.nodup_nil, fun _ h => by cases h⟩
      | some p2p =>
          cases hsum : addU32 (sessionMarker id).toNat (if role = .responder then 1 else 0) with
          | none => exact absurd ⟨by rw [hp2p, Option.isSome_some], (addU32_marker id role).mp hsum⟩ h
          | some sum =>
              obtain ⟨result, tried, hbind, hnodup, hmem, hok, hoccupied⟩ := bindQuicSocket_cases hp2p hsum bind
              refine ⟨result, tried, hbind, hnodup, fun p2p' hp2p' => ?_⟩
              obtain rfl := Option.some.inj hp2p'
              exact ⟨hmem, hok, hoccupied⟩

theorem samplePorts_size : (#[127, 0, 0, 1] : Array UInt8).size = 4 := rfl

def samplePorts : PortConfig where
  name := "node"
  p2p := some ⟨⟨40000, 40009, by decide⟩, ⟨41000, 41009, by decide⟩⟩
  localIp := .ok (.v4 ⟨#[127, 0, 0, 1], samplePorts_size⟩)

/-- In a session whose id begins with four bytes of ones the responder's sum overflows. -/
theorem responder_port_overflows : ¬PortsSound samplePorts ⟨Vector.replicate 32 255⟩ .responder := fun h =>
  absurd (h.bind_sound fun _ => .bound) (by
    have hnone : bindQuicSocket samplePorts ⟨Vector.replicate 32 255⟩ .responder (fun _ => .bound) = none := by decide +kernel
    rw [hnone]
    rintro ⟨_, _, h, -⟩
    cases h)

end Sound

end Rustgo.Orchestration
