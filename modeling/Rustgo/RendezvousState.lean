import Rustgo.RendezvousMessage

namespace Rustgo.Rendezvous

open Checks

inductive RendezvousPhase
  | new
  | requested
  | accepted
  | closed
  deriving DecidableEq

structure RendezvousState where
  sessionId : SessionId
  phase : RendezvousPhase
  lastStep : UInt64
  generation : CandidateGeneration
  deriving DecidableEq

inductive StateError
  | replayedStep
  | generationMismatch (expected actual : CandidateGeneration)
  | sessionMismatch
  | expired
  | illegalTransition
  deriving DecidableEq

def checkedAdd (a b : UInt64) : Option UInt64 := if a.toNat + b.toNat < 2 ^ 64 then some (a + b) else none

def saturatingAdd (a b : UInt64) : UInt64 := (checkedAdd a b).getD (UInt64.ofNat (2 ^ 64 - 1))

theorem checkedAdd_eq_some {a b c : UInt64} (h : checkedAdd a b = some c) : c.toNat = a.toNat + b.toNat := by
  rw [checkedAdd] at h
  split at h
  · next hlt =>
    obtain rfl := Option.some.inj h
    rw [UInt64.toNat_add, Nat.mod_eq_of_lt hlt]
  · exact absurd h (by simp)

namespace RendezvousState

def new (sessionId : SessionId) : RendezvousState := ⟨sessionId, .new, 0, .INITIAL⟩

def acceptStep (s : RendezvousState) (step : UInt64) : Except StateError Unit :=
  require (s.lastStep < step) .replayedStep

def advanceStep (s : RendezvousState) (step : UInt64) : Except StateError RendezvousState := do
  s.acceptStep step
  pure { s with lastStep := step }

def advanceGeneration (s : RendezvousState) (generation : CandidateGeneration) :
    Except StateError RendezvousState := do
  let next ← okOr (checkedAdd s.generation.value 1) .illegalTransition
  require (generation.value = next) (.generationMismatch s.generation generation)
  pure { s with generation }

def acceptGeneration (s : RendezvousState) (generation : CandidateGeneration) : Except StateError Unit :=
  require (generation.value = s.generation.value) (.generationMismatch s.generation generation)

def request (s : RendezvousState) (step : UInt64) (generation : CandidateGeneration) :
    Except StateError RendezvousState := do
  require (s.phase = .new) .illegalTransition
  s.acceptStep step
  pure { s with phase := .requested, lastStep := step, generation }

def providerDecision (s : RendezvousState) (step : UInt64) (generation : CandidateGeneration) (accepted : Bool) :
    Except StateError RendezvousState := do
  require (s.phase = .requested) .illegalTransition
  s.acceptStep step
  s.acceptGeneration generation
  pure { s with lastStep := step, phase := if accepted then .accepted else .closed }

def acceptMetadata (s : RendezvousState) (sessionId : SessionId) (step : UInt64) (generation : CandidateGeneration)
    (expiresUnixSecs nowUnixSecs : UInt64) : Except StateError RendezvousState := do
  require (sessionId = s.sessionId) .sessionMismatch
  require (nowUnixSecs < expiresUnixSecs) .expired
  s.acceptGeneration generation
  s.advanceStep step

variable {s t : RendezvousState} {sessionId : SessionId} {step expires now : UInt64}
  {generation : CandidateGeneration} {accepted : Bool}

theorem generation_eq_of_value {g g' : CandidateGeneration} (h : g.value = g'.value) : g = g' := by
  cases g
  cases g'
  congr

theorem request_eq_ok (h : s.request step generation = .ok t) :
    s.phase = .new ∧ s.lastStep < step ∧ t = { s with phase := .requested, lastStep := step, generation } := by
  simp only [request, acceptStep, bind_eq_ok, require_eq_ok, pure_eq_ok, exists_const] at h
  exact ⟨h.1, h.2.1, h.2.2.symm⟩

theorem providerDecision_eq_ok (h : s.providerDecision step generation accepted = .ok t) :
    s.phase = .requested ∧ s.lastStep < step ∧ generation = s.generation ∧
      t = { s with lastStep := step, phase := if accepted then .accepted else .closed } := by
  simp only [providerDecision, acceptStep, acceptGeneration, bind_eq_ok, require_eq_ok, pure_eq_ok,
    exists_const] at h
  exact ⟨h.1, h.2.1, generation_eq_of_value h.2.2.1, h.2.2.2.symm⟩

theorem advanceGeneration_eq_ok (h : s.advanceGeneration generation = .ok t) :
    generation.value.toNat = s.generation.value.toNat + 1 ∧ t = { s with generation } := by
  simp only [advanceGeneration, bind_eq_ok, okOr_eq_ok, require_eq_ok, pure_eq_ok, exists_const] at h
  obtain ⟨next, hnext, hg, ht⟩ := h
  exact ⟨by rw [hg, checkedAdd_eq_some hnext]; rfl, ht.symm⟩

theorem acceptMetadata_eq_ok :
    s.acceptMetadata sessionId step generation expires now = .ok t ↔
      sessionId = s.sessionId ∧ now < expires ∧ generation = s.generation ∧ s.lastStep < step ∧
        t = { s with lastStep := step } := by
  simp only [acceptMetadata, advanceStep, acceptStep, acceptGeneration, bind_eq_ok, require_eq_ok, pure_eq_ok,
    exists_const]
  constructor
  · rintro ⟨hid, hexp, hgen, hstep, ht⟩
    exact ⟨hid, hexp, generation_eq_of_value hgen, hstep, ht.symm⟩
  · rintro ⟨hid, hexp, hgen, hstep, ht⟩
    exact ⟨hid, hexp, congrArg _ hgen, hstep, ht.symm⟩

end RendezvousState

end Rustgo.Rendezvous
