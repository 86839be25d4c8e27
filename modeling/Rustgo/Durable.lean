import Rustgo.Runs

namespace Rustgo.Durable

open Runs

/-- A program that performs durable operations one after the other. -/
inductive Prog (Op : Type) (Ans : Op → Type) (ε α : Type)
  | ret (value : α)
  | fail (error : ε)
  | act (op : Op) (next : Ans op → Prog Op Ans ε α)

namespace Prog

variable {Op : Type} {Ans : Op → Type} {ε α β : Type}

def bind : Prog Op Ans ε α → (α → Prog Op Ans ε β) → Prog Op Ans ε β
  | ret value, f => f value
  | fail error, _ => fail error
  | act op next, f => act op fun answer => (next answer).bind f

instance : Monad (Prog Op Ans ε) where
  pure := ret
  bind := bind

def perform (op : Op) : Prog Op Ans ε (Ans op) := act op ret

def ofExcept : Except ε α → Prog Op Ans ε α
  | .ok value => ret value
  | .error error => fail error

/-- The value of an operation that may fail. -/
def okOr (value : Option α) (error : ε) : Prog Op Ans ε α :=
  match value with
  | some value => ret value
  | none => fail error

def require (c : Prop) [Decidable c] (error : ε) : Prog Op Ans ε Unit := if c then ret () else fail error

end Prog

variable {Op : Type} {Ans : Op → Type} {χ σ ε α β : Type}

/-- What a device does, which of its choices are considered, what others may do to its state between two operations,
and what has to hold whenever an operation is due. -/
structure Contract (Op : Type) (Ans : Op → Type) (χ σ : Type) where
  perform : (op : Op) → χ → σ → Option (Ans op × σ)
  allowed : (op : Op) → χ → σ → Prop
  rely : σ → σ → Prop
  guard : Op → σ → Prop
  rely_refl : ∀ s, rely s s
  rely_trans : ∀ {s t u}, rely s t → rely t u → rely s u

namespace Contract

variable (D : Contract Op Ans χ σ)

/-- Every operation of the program is due under its guard, and the program ends as the two postconditions say. -/
def wp : Prog Op Ans ε α → (α → σ → Prop) → (ε → σ → Prop) → σ → Prop
  | .ret value, Q, _, s => ∀ t, D.rely s t → Q value t
  | .fail error, _, E, s => ∀ t, D.rely s t → E error t
  | .act op next, Q, E, s => ∀ t, D.rely s t → D.guard op t ∧
      ∀ choice answer u, D.perform op choice t = some (answer, u) → D.allowed op choice t → wp (next answer) Q E u

variable {D} {Q : α → σ → Prop} {E : ε → σ → Prop} {s t : σ}

/-- What others do in between keeps every judgement. -/
theorem wp_stable {p : Prog Op Ans ε α} (h : D.wp p Q E s) (hst : D.rely s t) : D.wp p Q E t := by
  cases p with
  | ret => exact fun u htu => h u (D.rely_trans hst htu)
  | fail => exact fun u htu => h u (D.rely_trans hst htu)
  | act => exact fun u htu => h u (D.rely_trans hst htu)

theorem wp_mono {p : Prog Op Ans ε α} {Q' : α → σ → Prop} {E' : ε → σ → Prop} (h : D.wp p Q E s)
    (hQ : ∀ value t, Q value t → Q' value t) (hE : ∀ error t, E error t → E' error t) : D.wp p Q' E' s := by
  induction p generalizing s with
  | ret value => exact fun t hst => hQ value t (h t hst)
  | fail error => exact fun t hst => hE error t (h t hst)
  | act op next ih =>
      intro t hst
      obtain ⟨hguard, hnext⟩ := h t hst
      exact ⟨hguard, fun choice answer u hperform hallowed => ih answer (hnext choice answer u hperform hallowed)⟩

theorem wp_bind {p : Prog Op Ans ε α} {f : α → Prog Op Ans ε β} {Q : β → σ → Prop} :
    D.wp (p >>= f) Q E s ↔ D.wp p (fun value => D.wp (f value) Q E) E s := by
  induction p generalizing s with
  | ret value => exact ⟨fun h t hst => wp_stable h hst, fun h => h s (D.rely_refl s)⟩
  | fail error => exact Iff.rfl
  | act op next ih =>
      constructor
      · intro h t hst
        obtain ⟨hguard, hnext⟩ := h t hst
        exact ⟨hguard, fun choice answer u hperform hallowed => (ih answer).mp (hnext choice answer u hperform hallowed)⟩
      · intro h t hst
        obtain ⟨hguard, hnext⟩ := h t hst
        exact ⟨hguard, fun choice answer u hperform hallowed => (ih answer).mpr (hnext choice answer u hperform hallowed)⟩

theorem wp_pure {value : α} : D.wp (pure value : Prog Op Ans ε α) Q E s ↔ ∀ t, D.rely s t → Q value t := Iff.rfl

theorem wp_fail {error : ε} : D.wp (.fail error : Prog Op Ans ε α) Q E s ↔ ∀ t, D.rely s t → E error t := Iff.rfl

theorem wp_perform_bind {op : Op} {next : Ans op → Prog Op Ans ε α} : D.wp (Prog.perform op >>= next) Q E s ↔
    ∀ t, D.rely s t → D.guard op t ∧
      ∀ choice answer u, D.perform op choice t = some (answer, u) → D.allowed op choice t → D.wp (next answer) Q E u := Iff.rfl

theorem wp_okOr {value : Option α} {error : ε} {next : α → Prog Op Ans ε β} {Q : β → σ → Prop}
    (hsome : ∀ a, value = some a → D.wp (next a) Q E s) (hnone : value = none → ∀ t, D.rely s t → E error t) :
    D.wp (Prog.okOr value error >>= next) Q E s := by
  cases value with
  | none => exact hnone rfl
  | some a => exact hsome a rfl

theorem wp_require_last {c : Prop} [Decidable c] {error : ε} {Q : Unit → σ → Prop} (hpos : c → ∀ t, D.rely s t → Q () t)
    (hneg : ¬c → ∀ t, D.rely s t → E error t) : D.wp (Prog.require c error) Q E s := by
  rw [Prog.require]
  split
  · next hc => exact hpos hc
  · next hc => exact hneg hc

theorem wp_require {c : Prop} [Decidable c] {error : ε} {next : Unit → Prog Op Ans ε α} (hpos : c → D.wp (next ()) Q E s)
    (hneg : ¬c → ∀ t, D.rely s t → E error t) : D.wp (Prog.require c error >>= next) Q E s :=
  wp_bind.mpr (wp_require_last (fun hc _ hst => wp_stable (hpos hc) hst) hneg)

theorem wp_ofExcept {value : Except ε α} {next : α → Prog Op Ans ε β} {Q : β → σ → Prop}
    (hok : ∀ a, value = .ok a → D.wp (next a) Q E s) (herror : ∀ error, value = .error error → ∀ t, D.rely s t → E error t) :
    D.wp (Prog.ofExcept value >>= next) Q E s := by
  cases value with
  | ok a => exact hok a rfl
  | error error => exact herror error rfl

/-- How the program can end when nothing interrupts it. -/
inductive Returns (D : Contract Op Ans χ σ) : σ → Prog Op Ans ε α → Except ε α → σ → Prop
  | ret {s t value} (h : D.rely s t) : Returns D s (.ret value) (.ok value) t
  | fail {s t error} (h : D.rely s t) : Returns D s (.fail error) (.error error) t
  | act {s t u v op next choice answer result} (h : D.rely s t) (hperform : D.perform op choice t = some (answer, u))
      (hallowed : D.allowed op choice t) (hnext : Returns D u (next answer) result v) : Returns D s (.act op next) result v

/-- What the postconditions say of a result. -/
def Ends (Q : α → σ → Prop) (E : ε → σ → Prop) (t : σ) : Except ε α → Prop
  | .ok value => Q value t
  | .error error => E error t

theorem wp_returns {p : Prog Op Ans ε α} {result : Except ε α} (h : D.wp p Q E s) (hreturns : D.Returns s p result t) :
    Ends Q E t result := by
  induction hreturns with
  | ret hrely => exact h _ hrely
  | fail hrely => exact h _ hrely
  | act hrely hperform hallowed _ ih => exact ih ((h _ hrely).2 _ _ _ hperform hallowed)

/-- Runs a program on given choices. -/
def run (perform : (op : Op) → χ → σ → Option (Ans op × σ)) : Prog Op Ans ε α → List χ → σ → Option (Except ε α × σ)
  | .ret value, [], s => some (.ok value, s)
  | .fail error, [], s => some (.error error, s)
  | .act op next, choice :: choices, s => (perform op choice s).bind fun result => run perform (next result.1) choices result.2
  | _, _, _ => none

theorem returns_of_run {p : Prog Op Ans ε α} {choices : List χ} {result : Except ε α}
    (hallowed : ∀ choice ∈ choices, ∀ op s, D.allowed op choice s) (h : run D.perform p choices s = some (result, t)) :
    D.Returns s p result t := by
  induction p generalizing s choices with
  | ret value =>
      cases choices with
      | nil =>
          obtain ⟨rfl, rfl⟩ := Prod.mk.inj (Option.some.inj h)
          exact .ret (D.rely_refl s)
      | cons => cases h
  | fail error =>
      cases choices with
      | nil =>
          obtain ⟨rfl, rfl⟩ := Prod.mk.inj (Option.some.inj h)
          exact .fail (D.rely_refl s)
      | cons => cases h
  | act op next ih =>
      cases choices with
      | nil => cases h
      | cons choice choices =>
          obtain ⟨⟨answer, u⟩, hu, h⟩ := Option.bind_eq_some_iff.mp h
          rw [List.forall_mem_cons] at hallowed
          exact .act (D.rely_refl s) hu (hallowed.1 op s) (ih answer hallowed.2 h)

/-- The end of a run can be tested. -/
theorem returns_of_run_any {p : Prog Op Ans ε α} {choices : List χ} {P : Except ε α × σ → Prop} [DecidablePred P]
    (hallowed : ∀ choice ∈ choices, ∀ op s, D.allowed op choice s) (h : (run D.perform p choices s).any (P ·) = true) :
    ∃ result t, D.Returns s p result t ∧ P (result, t) := by
  obtain ⟨⟨result, t⟩, ht, hp⟩ := Option.any_eq_true _ _ |>.mp h
  exact ⟨result, t, returns_of_run hallowed ht, of_decide_eq_true hp⟩

/-- An outcome of every operation is enabled. -/
def Live (D : Contract Op Ans χ σ) : Prop := ∀ op s, ∃ choice answer t, D.perform op choice s = some (answer, t) ∧ D.allowed op choice s

theorem Live.returns (h : D.Live) (p : Prog Op Ans ε α) (s : σ) : ∃ result t, D.Returns s p result t := by
  induction p generalizing s with
  | ret value => exact ⟨_, s, .ret (D.rely_refl s)⟩
  | fail error => exact ⟨_, s, .fail (D.rely_refl s)⟩
  | act op next ih =>
      obtain ⟨choice, answer, t, hperform, hallowed⟩ := h op s
      obtain ⟨result, u, hreturns⟩ := ih answer t
      exact ⟨result, u, .act (D.rely_refl s) hperform hallowed hreturns⟩

end Contract

/-- A device on which one program after the other is run, until it ends or is interrupted. -/
structure System (Op : Type) (Ans : Op → Type) (χ σ ε α ρ ι : Type) where
  perform : (op : Op) → χ → σ → Option (Ans op × σ)
  program : ρ → Prog Op Ans ε α
  interfere : ι → σ → Option σ

inductive Event (χ ρ ι : Type)
  | begin (request : ρ)
  | act (choice : χ)
  | finish
  | crash
  | interfere (cause : ι)

namespace System

variable {ρ ι : Type} (S : System Op Ans χ σ ε α ρ ι)

abbrev State (_ : System Op Ans χ σ ε α ρ ι) : Type := σ × Option (Prog Op Ans ε α)

def next : S.State → Event χ ρ ι → Option S.State
  | (s, none), .begin request => some (s, some (S.program request))
  | (s, some (.act op next)), .act choice => (S.perform op choice s).map fun result => (result.2, some (next result.1))
  | (s, some (.ret _)), .finish | (s, some (.fail _)), .finish => some (s, none)
  | (s, some _), .crash => some (s, none)
  | (s, running), .interfere cause => (S.interfere cause s).map (·, running)
  | _, _ => none

def Step (x : S.State) (event : Event χ ρ ι) (y : S.State) : Prop := S.next x event = some y

/-- Which outcomes are considered, and when a program is interrupted. -/
def Allowed (allowed : Op → χ → σ → Prop) (crashes : σ → Prop) (x : S.State) : Event χ ρ ι → Prop
  | .act choice => ∀ op next, x.2 = some (.act op next) → allowed op choice x.1
  | .crash => crashes x.1
  | _ => True

variable {S} {D : Contract Op Ans χ σ} {I crashes : σ → Prop}

/-- Between two programs the invariant holds, and during a program it holds at the end. -/
def Holds (D : Contract Op Ans χ σ) (I : σ → Prop) (x : S.State) : Prop :=
  match x.2 with
  | none => I x.1
  | some p => D.wp p (fun _ => I) (fun _ => I) x.1

theorem Holds.step (hperform : S.perform = D.perform) (hinterfere : ∀ cause s t, S.interfere cause s = some t → D.rely s t)
    (hstable : ∀ s t, I s → D.rely s t → I t) (hprogram : ∀ request s, I s → D.wp (S.program request) (fun _ => I) (fun _ => I) s)
    (hcrash : ∀ op s, D.guard op s → crashes s → I s) {x y : S.State} {event : Event χ ρ ι} (h : Holds D I x)
    (hstep : S.Step x event y) (hallowed : S.Allowed D.allowed crashes x event) : Holds D I y := by
  unfold Step next at hstep
  split at hstep
  case h_1 s request =>
      obtain rfl := Option.some.inj hstep
      exact hprogram request s h
  case h_2 s op next choice =>
      obtain ⟨⟨answer, t⟩, ht, rfl⟩ := Option.map_eq_some_iff.mp hstep
      rw [hperform] at ht
      exact (h s (D.rely_refl s)).2 choice answer t ht (hallowed op next rfl)
  case h_3 s value =>
      obtain rfl := Option.some.inj hstep
      exact h s (D.rely_refl s)
  case h_4 s error =>
      obtain rfl := Option.some.inj hstep
      exact h s (D.rely_refl s)
  case h_5 s p =>
      obtain rfl := Option.some.inj hstep
      cases p with
      | ret => exact h s (D.rely_refl s)
      | fail => exact h s (D.rely_refl s)
      | act op next => exact hcrash op s (h s (D.rely_refl s)).1 hallowed
  case h_6 s running cause =>
      obtain ⟨t, ht, rfl⟩ := Option.map_eq_some_iff.mp hstep
      cases running with
      | none => exact hstable s t h (hinterfere cause s t ht)
      | some p => exact D.wp_stable h (hinterfere cause s t ht)
  · cases hstep

theorem Holds.run (hperform : S.perform = D.perform) (hinterfere : ∀ cause s t, S.interfere cause s = some t → D.rely s t)
    (hstable : ∀ s t, I s → D.rely s t → I t) (hprogram : ∀ request s, I s → D.wp (S.program request) (fun _ => I) (fun _ => I) s)
    (hcrash : ∀ op s, D.guard op s → crashes s → I s) {x y : S.State} {events : List (Event χ ρ ι)} (h : Holds D I x)
    (hrun : Run (Restricted S.Step (S.Allowed D.allowed crashes)) x events y) : Holds D I y :=
  hrun.invariant (fun _ _ _ hx hstep => hx.step hperform hinterfere hstable hprogram hcrash hstep.1 hstep.2) h

end System

end Rustgo.Durable
