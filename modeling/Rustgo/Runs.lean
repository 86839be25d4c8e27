import Mathlib.Data.List.Induction
import Mathlib.Order.WellFounded

namespace Rustgo.Runs

variable {S L : Type} {Step : S → L → S → Prop}

/-- The labels of a finite execution, in order. -/
inductive Run (Step : S → L → S → Prop) : S → List L → S → Prop
  | refl (s) : Run Step s [] s
  | snoc {s t u} {labels} {l} : Run Step s labels t → Step t l u → Run Step s (labels ++ [l]) u

theorem Run.invariant {P : S → Prop} (hstep : ∀ s l t, P s → Step s l t → P t)
    {s t : S} {labels : List L} (h : Run Step s labels t) (hs : P s) : P t := by
  induction h with
  | refl => exact hs
  | snoc _ hl ih => exact hstep _ _ _ ih hl

theorem Run.trans {s t u : S} {xs ys : List L} (hx : Run Step s xs t) (hy : Run Step t ys u) :
    Run Step s (xs ++ ys) u := by
  induction hy with
  | refl => simpa using hx
  | snoc _ hl ih => simpa only [← List.append_assoc] using Run.snoc ih hl

theorem Run.imp {Step' : S → L → S → Prop} {s t : S} {labels : List L} (h : Run Step s labels t)
    (himp : ∀ s l t, Step s l t → Step' s l t) : Run Step' s labels t := by
  induction h with
  | refl => exact .refl s
  | snoc _ hl ih => exact ih.snoc (himp _ _ _ hl)

theorem Run.snoc_iff {s u : S} {labels : List L} {l : L} :
    Run Step s (labels ++ [l]) u ↔ ∃ t, Run Step s labels t ∧ Step t l u := by
  constructor
  · intro h
    generalize hlabels : labels ++ [l] = whole at h
    cases h with
    | refl => simp at hlabels
    | snoc h hl =>
        obtain ⟨rfl, hlast⟩ := List.append_inj' hlabels rfl
        obtain rfl := List.singleton_inj.mp hlast
        exact ⟨_, h, hl⟩
  · rintro ⟨t, h, hl⟩
    exact h.snoc hl

/-- Steps that go down an order without infinite descent come to a last state, whatever labels they are given. -/
theorem Run.exists_last {α : Type} [LT α] [WellFoundedLT α] (measure : S → α) (Last : S → L → Prop) (inputs : Nat → L)
    (hstep : ∀ s n, Last s (inputs n) ∨ ∃ t, Step s (inputs n) t ∧ measure t < measure s) (s : S) :
    ∃ n t, Run Step s ((List.range n).map inputs) t ∧ Last t (inputs n) := by
  have hlast : ∀ a s k, measure s = a → ∃ n t, Run Step s ((List.range' k n).map inputs) t ∧ Last t (inputs (k + n)) := by
    intro a
    induction a using WellFoundedLT.induction with
    | ind a ih =>
        rintro s k rfl
        obtain hs | ⟨t, ht, hlt⟩ := hstep s k
        · exact ⟨0, s, .refl s, hs⟩
        · obtain ⟨n, u, hrun, hu⟩ := ih (measure t) hlt t (k + 1) rfl
          refine ⟨n + 1, u, ?_, by rwa [Nat.add_assoc, Nat.add_comm 1 n] at hu⟩
          rw [List.range'_succ, List.map_cons]
          exact ((Run.refl s).snoc ht).trans hrun
  obtain ⟨n, t, hrun, ht⟩ := hlast _ s 0 rfl
  rw [Nat.zero_add] at ht
  exact ⟨n, t, List.range_eq_range' ▸ hrun, ht⟩

/-- Runs a partial transition function over the labels. -/
def exec (next : S → L → Option S) : S → List L → Option S
  | s, [] => some s
  | s, l :: labels => (next s l).bind fun t => exec next t labels

theorem exec_append (next : S → L → Option S) (s : S) (xs ys : List L) :
    exec next s (xs ++ ys) = (exec next s xs).bind fun t => exec next t ys := by
  induction xs generalizing s with
  | nil => rfl
  | cons l xs ih =>
      rw [List.cons_append, exec, exec, Option.bind_assoc]
      exact Option.bind_congr fun t _ => ih t

theorem run_of_exec {next : S → L → Option S} (hnext : ∀ s l t, next s l = some t → Step s l t) {s t : S}
    {labels : List L} (h : exec next s labels = some t) : Run Step s labels t := by
  induction labels generalizing s with
  | nil =>
      obtain rfl := Option.some.inj h
      exact .refl s
  | cons l labels ih =>
      obtain ⟨u, hu, hrest⟩ := Option.bind_eq_some_iff.mp h
      exact (Run.snoc (.refl s) (hnext s l u hu)).trans (ih hrest)

theorem exec_of_run {next : S → L → Option S} (hnext : ∀ s l t, Step s l t → next s l = some t) {s t : S}
    {labels : List L} (h : Run Step s labels t) : exec next s labels = some t := by
  induction h with
  | refl => rfl
  | snoc _ hl ih => rw [exec_append, ih, Option.bind_some, exec, hnext _ _ _ hl, Option.bind_some, exec]

/-- The last state of an execution can be tested. -/
theorem run_of_exec_any {next : S → L → Option S} (hnext : ∀ s l t, next s l = some t → Step s l t) {s : S}
    {labels : List L} {P : S → Prop} [DecidablePred P] (h : (exec next s labels).any (P ·) = true) :
    ∃ t, Run Step s labels t ∧ P t := by
  obtain ⟨t, ht, hp⟩ := Option.any_eq_true _ _ |>.mp h
  exact ⟨t, run_of_exec hnext ht, of_decide_eq_true hp⟩

section Restricted

variable {allowed : S → L → Prop}

/-- The steps from states in which they are allowed. -/
def Restricted (Step : S → L → S → Prop) (allowed : S → L → Prop) (s : S) (l : L) (t : S) : Prop :=
  Step s l t ∧ allowed s l

def restrict (next : S → L → Option S) (allowed : S → L → Prop) [∀ s l, Decidable (allowed s l)] (s : S) (l : L) :
    Option S := if allowed s l then next s l else none

theorem restricted_of_restrict [∀ s l, Decidable (allowed s l)] {next : S → L → Option S}
    (hnext : ∀ s l t, next s l = some t → Step s l t) (s : S) (l : L) (t : S)
    (h : restrict next allowed s l = some t) : Restricted Step allowed s l t := by
  rw [restrict] at h
  split at h
  · next ha => exact ⟨hnext s l t h, ha⟩
  · exact nomatch h

end Restricted

section Guarded

variable {α : Type} {allowed : List α → α → Prop}

/-- Logs in which every event was allowed after the events before it. -/
inductive Guarded (allowed : List α → α → Prop) : List α → Prop
  | nil : Guarded allowed []
  | snoc {log event} (h : Guarded allowed log) (ha : allowed log event) : Guarded allowed (log ++ [event])

theorem Guarded.of_split {log before after : List α} {event : α} (h : Guarded allowed log)
    (hlog : log = before ++ event :: after) : allowed before event := by
  induction h generalizing after with
  | nil => simp at hlog
  | @snoc log last _ ha ih =>
      induction after using List.reverseRecOn with
      | nil =>
          obtain ⟨rfl, hlast⟩ := List.append_inj' hlog rfl
          obtain rfl := List.singleton_inj.mp hlast
          exact ha
      | append_singleton after last' _ =>
          rw [← List.cons_append, ← List.append_assoc] at hlog
          exact ih (List.append_inj' hlog rfl).1

end Guarded

end Rustgo.Runs
