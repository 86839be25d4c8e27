import Rustgo.Runs
import Mathlib.Data.List.Nodup

namespace Rustgo.SweepQueue

open Runs

variable {K : Type} [DecidableEq K] {batch : Nat} {ks ks' : List K} {k x : K} {label : Option (List K)}

/-- The queue after looking at its first `count` keys: a stale one is dropped,
any other goes to the back. -/
def sweepKeys (stale : K → Bool) (count : Nat) (ks : List K) : List K :=
  ks.drop count ++ (ks.take count).filter (!stale ·)

section SweepKeys

omit [DecidableEq K]

variable {stale stale' : K → Bool} {count : Nat}

theorem sweepKeys_cons_stale (h : stale k = true) : sweepKeys stale (count + 1) (k :: ks) = sweepKeys stale count ks := by
  simp [sweepKeys, h]

theorem sweepKeys_cons_fresh (h : stale k = false) (hc : count ≤ ks.length) :
    sweepKeys stale (count + 1) (k :: ks) = sweepKeys stale count (ks ++ [k]) := by
  simp [sweepKeys, h, List.drop_append_of_le_length hc, List.take_append_of_le_length hc]

theorem sweepKeys_congr (h : ∀ k ∈ ks.take count, stale k = stale' k) :
    sweepKeys stale count ks = sweepKeys stale' count ks := by
  rw [sweepKeys, sweepKeys]
  congr 1
  refine List.filter_congr fun k hk => ?_
  rw [h k hk]

theorem sweepKeys_min (stale : K → Bool) (count : Nat) (ks : List K) :
    sweepKeys stale (min count ks.length) ks = sweepKeys stale count ks := by
  rcases Nat.le_total count ks.length with h | h
  · rw [Nat.min_eq_left h]
  · rw [Nat.min_eq_right h, sweepKeys, sweepKeys, List.drop_of_length_le h, List.take_of_length_le h, List.drop_length,
      List.take_length]

theorem mem_sweepKeys : k ∈ sweepKeys stale count ks ↔ k ∈ ks.drop count ∨ k ∈ ks.take count ∧ stale k = false := by
  simp [sweepKeys]

theorem mem_of_mem_sweepKeys (h : k ∈ sweepKeys stale count ks) : k ∈ ks := by
  rcases mem_sweepKeys.mp h with h | h
  · exact List.mem_of_mem_drop h
  · exact List.mem_of_mem_take h.1

end SweepKeys

/-- What can happen to a queue that is swept `batch` keys at a time. -/
inductive Change (batch : Nat) : List K → Option (List K) → List K → Prop
  | keep (ks : List K) : Change batch ks none ks
  | push (ks : List K) (k : K) (hk : k ∉ ks) : Change batch ks none (ks ++ [k])
  | drop (ks : List K) (k : K) : Change batch ks none (ks.erase k)
  | clear (ks : List K) : Change batch ks none []
  | sweep (ks : List K) (stale : K → Bool) :
      Change batch ks (some (ks.take batch)) (sweepKeys stale batch ks)

/-- What a queue gains with a step that is no sweep, and with one that is. -/
def advance (batch : Nat) (label : Option (List K)) : Nat := if label.isSome then batch else 0

theorem Change.nodup (h : Change batch ks label ks') (hd : ks.Nodup) : ks'.Nodup := by
  cases h with
  | keep => exact hd
  | push k hk =>
      exact List.nodup_append.mpr ⟨hd, List.nodup_singleton k, fun a ha b hb hab =>
        hk (List.mem_singleton.mp hb ▸ hab ▸ ha)⟩
  | drop => exact hd.erase _
  | clear => exact List.nodup_nil
  | sweep stale =>
      rw [← List.take_append_drop batch ks] at hd
      obtain ⟨htake, hdrop, hdisjoint⟩ := List.nodup_append.mp hd
      refine List.nodup_append.mpr ⟨hdrop, htake.filter _, fun a ha b hb hab => ?_⟩
      exact hdisjoint b (List.mem_of_mem_filter hb) a ha hab.symm

theorem idxOf_erase_le (h : x ≠ k) : (ks.erase x).idxOf k ≤ ks.idxOf k := by
  induction ks with
  | nil => exact Nat.le_refl _
  | cons y ks ih =>
      by_cases hy : y = x
      · subst hy
        rw [List.erase_cons_head, List.idxOf_cons_ne _ h]
        exact Nat.le_succ _
      · rw [List.erase_cons_tail (by simpa using hy)]
        by_cases hyk : y = k
        · rw [hyk, List.idxOf_cons_self]
          exact Nat.zero_le _
        · rw [List.idxOf_cons_ne _ hyk, List.idxOf_cons_ne _ hyk]
          exact Nat.succ_le_succ ih

theorem idxOf_sweep (stale : K → Bool) (hk : k ∈ ks) (hmiss : k ∉ ks.take batch) :
    (sweepKeys stale batch ks).idxOf k + batch = ks.idxOf k := by
  have hdrop : k ∈ ks.drop batch := by
    rw [← List.take_append_drop batch ks, List.mem_append] at hk
    exact hk.resolve_left hmiss
  have hlength : (ks.take batch).length = batch := by
    have hpos := List.length_pos_of_mem hdrop
    rw [List.length_drop] at hpos
    rw [List.length_take]
    omega
  have hsplit : ks.idxOf k = batch + (ks.drop batch).idxOf k := by
    conv_lhs => rw [← List.take_append_drop batch ks]
    rw [List.idxOf_append_of_notMem hmiss, hlength]
  rw [sweepKeys, List.idxOf_append_of_mem hdrop, hsplit, Nat.add_comm]

/-- A key that stays in the queue moves to the front by `batch` with every
sweep that does not look at it. -/
theorem Change.idxOf_le (h : Change batch ks label ks') (hd : ks.Nodup) (hk : k ∈ ks) (hk' : k ∈ ks')
    (hmiss : ∀ seen, label = some seen → k ∉ seen) :
    ks'.idxOf k + advance batch label ≤ ks.idxOf k := by
  cases h with
  | keep => exact Nat.le_refl _
  | push y hy => exact Nat.le_of_eq (List.idxOf_append_of_mem hk)
  | drop y =>
      have hyk : y ≠ k := fun hy => (hd.mem_erase_iff.mp hk').1 hy.symm
      exact idxOf_erase_le hyk
  | clear => exact absurd hk' List.not_mem_nil
  | sweep stale => exact Nat.le_of_eq (idxOf_sweep stale hk (hmiss _ rfl))

def sweeps (labels : List (Option (List K))) : Nat := labels.countP (·.isSome)

omit [DecidableEq K] in
theorem sweeps_cons (label : Option (List K)) (labels : List (Option (List K))) :
    sweeps (label :: labels) = sweeps labels + if label.isSome then 1 else 0 :=
  List.countP_cons

/-- The key is in the queue before and after the change. -/
def Staying (batch : Nat) (k : K) (ks : List K) (label : Option (List K)) (ks' : List K) : Prop :=
  Change batch ks label ks' ∧ k ∈ ks ∧ k ∈ ks'

omit [DecidableEq K] in
theorem sweeps_snoc (labels : List (Option (List K))) :
    batch * sweeps (labels ++ [label]) = batch * sweeps labels + advance batch label := by
  cases label with
  | none => simp [sweeps, advance]
  | some seen => simp [sweeps, advance, Nat.mul_add]

theorem idxOf_run {labels : List (Option (List K))} (h : Run (Staying batch k) ks labels ks') (hd : ks.Nodup)
    (hmiss : ∀ seen, some seen ∈ labels → k ∉ seen) :
    ks'.Nodup ∧ ks'.idxOf k + batch * sweeps labels ≤ ks.idxOf k := by
  induction h with
  | refl => exact ⟨hd, by simp [sweeps]⟩
  | snoc _ hstep ih =>
      obtain ⟨hchange, hbefore, hafter⟩ := hstep
      obtain ⟨hd', hle⟩ := ih fun seen hs => hmiss seen (List.mem_append_left _ hs)
      have hl := hchange.idxOf_le hd' hbefore hafter fun seen hs =>
        hmiss seen (List.mem_append_right _ (List.mem_singleton.mpr hs.symm))
      refine ⟨hchange.nodup hd', ?_⟩
      rw [sweeps_snoc]
      omega

/-- Sweeps that together look at as many keys as there are in the queue look
at every key that stays in it. -/
theorem exists_seen {labels : List (Option (List K))} (h : Run (Staying batch k) ks labels ks') (hd : ks.Nodup)
    (hk : k ∈ ks) (hall : ks.length ≤ batch * sweeps labels) : ∃ seen, some seen ∈ labels ∧ k ∈ seen := by
  by_contra hnone
  have hmiss : ∀ seen, some seen ∈ labels → k ∉ seen := fun seen hs hseen => hnone ⟨seen, hs, hseen⟩
  have hle := (idxOf_run h hd hmiss).2
  have hlt := List.idxOf_lt_length_of_mem hk
  omega

section System

variable {S Op : Type} {perform : S → Op → S} {inspections : S → Op → Option (List K)} {Holds : S → List K → Prop}
  {s : S} {ops : List Op}

/-- The system moves its keys as a queue that is swept `batch` at a time. -/
structure Swept (perform : S → Op → S) (inspections : S → Op → Option (List K)) (Holds : S → List K → Prop)
    (batch : Nat) (ops : List Op) : Prop where
  nodup : ∀ s ks, Holds s ks → ks.Nodup
  change : ∀ s ks op, op ∈ ops → Holds s ks →
    ∃ ks', Holds (perform s op) ks' ∧ Change batch ks (inspections s op) ks'

/-- The inspections made while the operations are performed in order. -/
def inspected (perform : S → Op → S) (inspections : S → Op → Option (List K)) : S → List Op → List (Option (List K))
  | _, [] => []
  | s, op :: ops => inspections s op :: inspected perform inspections (perform s op) ops

omit [DecidableEq K] in
theorem inspected_append (s : S) (xs ys : List Op) :
    inspected perform inspections s (xs ++ ys) =
      inspected perform inspections s xs ++ inspected perform inspections (xs.foldl perform s) ys := by
  induction xs generalizing s with
  | nil => rfl
  | cons op xs ih => simp [inspected, ih]

omit [DecidableEq K] in
theorem exists_of_mem_inspected {seen : List K} (h : some seen ∈ inspected perform inspections s ops) :
    ∃ done op, done ++ [op] <+: ops ∧ inspections (done.foldl perform s) op = some seen := by
  induction ops generalizing s with
  | nil => simp [inspected] at h
  | cons op ops ih =>
      rcases List.mem_cons.mp h with h | h
      · exact ⟨[], op, ⟨ops, rfl⟩, h.symm⟩
      · obtain ⟨done, last, hprefix, hlast⟩ := ih h
        exact ⟨op :: done, last, List.cons_prefix_cons.mpr ⟨rfl, hprefix⟩, hlast⟩

theorem Swept.run (h : Swept perform inspections Holds batch ops) (hs : Holds s ks)
    (hstay : ∀ done, done <+: ops → ∀ ks, Holds (done.foldl perform s) ks → k ∈ ks) {done : List Op}
    (hd : done <+: ops) :
    ∃ ks', Holds (done.foldl perform s) ks' ∧ Run (Staying batch k) ks (inspected perform inspections s done) ks' := by
  induction done using List.reverseRecOn with
  | nil => exact ⟨ks, hs, .refl ks⟩
  | append_singleton done op ih =>
      have hprefix : done <+: ops := (List.prefix_append done [op]).trans hd
      have hop : op ∈ ops := hd.subset (List.mem_append_right done (List.mem_singleton_self op))
      obtain ⟨ks₁, hs₁, hrun⟩ := ih hprefix
      obtain ⟨ks₂, hs₂, hchange⟩ := h.change _ _ _ hop hs₁
      have hs₂' : Holds ((done ++ [op]).foldl perform s) ks₂ := by
        rw [List.foldl_append]
        exact hs₂
      refine ⟨ks₂, hs₂', ?_⟩
      rw [inspected_append]
      exact .snoc hrun ⟨hchange, hstay done hprefix ks₁ hs₁, hstay _ hd ks₂ hs₂'⟩

/-- A key that stays while the sweeps go once through the whole queue is
inspected by one of them. -/
theorem Swept.exists_inspection (h : Swept perform inspections Holds batch ops) (hs : Holds s ks)
    (hstay : ∀ done, done <+: ops → ∀ ks, Holds (done.foldl perform s) ks → k ∈ ks)
    (hall : ks.length ≤ batch * sweeps (inspected perform inspections s ops)) :
    ∃ done op seen, done ++ [op] <+: ops ∧ inspections (done.foldl perform s) op = some seen ∧ k ∈ seen := by
  obtain ⟨ks', -, hrun⟩ := h.run hs hstay List.prefix_rfl
  obtain ⟨seen, hseen, hk⟩ := exists_seen hrun (h.nodup s ks hs) (hstay [] List.nil_prefix ks hs) hall
  obtain ⟨done, op, hprefix, hop⟩ := exists_of_mem_inspected hseen
  exact ⟨done, op, seen, hprefix, hop, hk⟩

end System

end Rustgo.SweepQueue
