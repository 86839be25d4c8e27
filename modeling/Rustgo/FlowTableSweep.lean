import Rustgo.FlowTableInvariant

namespace Rustgo.Udp

open Tables SweepQueue

/-- So many sweeps of the batch inspect as many sessions as there can be. -/
theorem capacity_le_of_minimumSweepBatch {capacity idleTimeout sweepInterval minimum : Nat}
    (h : minimumSweepBatch capacity idleTimeout sweepInterval = some minimum) :
    capacity ≤ minimum * max (idleTimeout / sweepInterval) 1 := by
  rw [minimumSweepBatch] at h
  split at h
  · cases h
  · dsimp only at h
    split at h
    · obtain rfl := Option.some.inj h
      generalize hn : max (idleTimeout / sweepInterval) 1 = n
      have hpos : 0 < n := hn ▸ Nat.lt_of_lt_of_le Nat.zero_lt_one (Nat.le_max_right _ _)
      have hlt := Nat.lt_div_mul_add hpos (a := capacity + n - 1)
      omega
    · cases h

namespace FlowTable

variable {t : FlowTable} {ks : List UInt64} {id : UInt64} {ops : List Op} {idleTimeout batch : Nat}

def Op.isSweep : Op → Bool
  | .sweepExpired .. => true
  | _ => false

def PresentThroughout (t : FlowTable) (ops : List Op) (id : UInt64) : Prop :=
  ∀ done, done <+: ops → id ∈ (t.performAll done).byId

def InspectedDuring (t : FlowTable) (ops : List Op) (id : UInt64) : Prop :=
  ∃ done op seen, done ++ [op] <+: ops ∧ (t.performAll done).inspections op = some seen ∧ id ∈ seen

theorem sweeps_inspected (t : FlowTable) (ops : List Op) :
    sweeps (inspected (fun t op => (t.perform op).2) inspections t ops) = ops.countP Op.isSweep := by
  induction ops generalizing t with
  | nil => rfl
  | cons op ops ih =>
      have hop : (t.inspections op).isSome = op.isSweep := by cases op <;> rfl
      rw [inspected, sweeps_cons, List.countP_cons, ih, hop]

theorem swept (hops : ops.all (·.sweepsBy idleTimeout batch) = true) :
    Swept (fun t op => (t.perform op).2) inspections Holds batch ops where
  nodup _ _ h := h.threaded.nodup
  change t ks op hop h := by
    obtain ⟨ks', hholds, -, -, hchange⟩ := h.perform op
    exact ⟨ks', hholds, hchange idleTimeout batch (List.all_eq_true.mp hops op hop)⟩

/-- A session that stays through enough sweeps is inspected by one of them. -/
theorem Holds.inspectedDuring (h : t.Holds ks) (hops : ops.all (·.sweepsBy idleTimeout batch) = true)
    (hn : t.capacity ≤ batch * ops.countP Op.isSweep) (hid : t.PresentThroughout ops id) :
    t.InspectedDuring ops id := by
  apply (swept hops).exists_inspection h
  · intro done hdone ks' hholds
    exact (hholds.threaded.mem id).mpr (hid done hdone)
  · rw [sweeps_inspected, h.threaded.length_eq]
    exact h.bounded.trans hn

/-- A sweep removes a session that it inspects and that was idle. -/
theorem Holds.removed_of_inspected (h : t.Holds ks) {now idle maximum : Nat} {seen : List UInt64} {entry : FlowEntry}
    (hseen : t.inspections (.sweepExpired now idle maximum) = some seen) (hid : id ∈ seen)
    (hentry : t.byId.lookup id = some entry) (hidle : idle ≤ now - entry.lastActivity) :
    id ∉ (t.perform (.sweepExpired now idle maximum)).2.byId := by
  obtain ⟨out, t', hout, hvisits, hholds, -, -⟩ := h.sweepExpired now idle maximum
  obtain rfl := Option.some.inj (hvisits.symm.trans hseen)
  have hstale : t.stale now idle id = true := by simpa [stale, isExpired, hentry] using hidle
  have hdrop : id ∉ ks.drop maximum := by
    intro hmem
    have hnodup := h.threaded.nodup
    rw [← List.take_append_drop maximum ks] at hnodup
    exact (List.nodup_append.mp hnodup).2.2 id hid id hmem rfl
  intro hmem
  have hmem' : id ∈ t'.byId := by simpa [FlowTable.perform, hout] using hmem
  rcases mem_sweepKeys.mp ((hholds.threaded.mem id).mpr hmem') with hmem | hmem
  · exact hdrop hmem
  · simp [hstale] at hmem

/-- A sweep keeps a session that has been active within the idle timeout. -/
theorem Holds.kept_of_active (h : t.Holds ks) {now idle maximum : Nat} {entry : FlowEntry}
    (hentry : t.byId.lookup id = some entry) (hactive : now - entry.lastActivity < idle) :
    id ∈ (t.perform (.sweepExpired now idle maximum)).2.byId := by
  obtain ⟨out, t', hout, -, hholds, -, -⟩ := h.sweepExpired now idle maximum
  have hfresh : t.stale now idle id = false := by simpa [stale, isExpired, hentry] using hactive
  have hmem : id ∈ ks := (h.threaded.mem id).mpr (Finmap.mem_of_lookup_eq_some hentry)
  have hkept : id ∈ sweepKeys (t.stale now idle) maximum ks := by
    rw [← List.take_append_drop maximum ks, List.mem_append] at hmem
    rcases hmem with hmem | hmem
    · exact mem_sweepKeys.mpr (.inr ⟨hmem, hfresh⟩)
    · exact mem_sweepKeys.mpr (.inl hmem)
  have hperform : (t.perform (.sweepExpired now idle maximum)).2 = t' := by simp [FlowTable.perform, hout]
  rw [hperform]
  exact (hholds.threaded.mem id).mp hkept

/-- A session that every sweep finds idle does not stay through enough of
them. -/
theorem Holds.removedDuring (h : t.Holds ks) (hops : ops.all (·.sweepsBy idleTimeout batch) = true)
    (hn : t.capacity ≤ batch * ops.countP Op.isSweep)
    (hidle : ∀ done now entry, done ++ [.sweepExpired now idleTimeout batch] <+: ops →
      (t.performAll done).byId.lookup id = some entry → idleTimeout ≤ now - entry.lastActivity) :
    ∃ done, done <+: ops ∧ id ∉ (t.performAll done).byId := by
  by_contra hstay
  have hpresent : t.PresentThroughout ops id := fun done hdone => by_contra fun hid => hstay ⟨done, hdone, hid⟩
  obtain ⟨done, op, seen, hprefix, hseen, hid⟩ := h.inspectedDuring hops hn hpresent
  have hdone : done <+: ops := (List.prefix_append done [op]).trans hprefix
  obtain ⟨ks', hholds, -⟩ := (swept hops).run h (k := id)
    (fun done hd ks' hk => (hk.threaded.mem id).mpr (hpresent done hd)) hdone
  obtain ⟨entry, hentry⟩ := Finmap.mem_iff.mp (hpresent done hdone)
  have hop : op ∈ ops := hprefix.subset (List.mem_append_right done (List.mem_singleton_self op))
  have hby := List.all_eq_true.mp hops op hop
  cases op with
  | sweepExpired now idle maximum =>
      obtain ⟨rfl, rfl⟩ : idle = idleTimeout ∧ maximum = batch := by simpa [Op.sweepsBy] using hby
      have hremoved := Holds.removed_of_inspected hholds hseen hid hentry (hidle done now entry hprefix hentry)
      have hafter := hpresent _ hprefix
      rw [performAll, List.foldl_append] at hafter
      exact hremoved hafter
  | sessionFor => cases hseen
  | remove => cases hseen
  | validateReply => cases hseen
  | recordTraffic => cases hseen
  | clear => cases hseen

/-- What the sweeps among the operations do for one session: if it stays it is
inspected, if it is found idle it does not stay, and if it is found active a
sweep keeps it. -/
structure SweptInTime (t : FlowTable) (idleTimeout batch : Nat) (ops : List Op) (id : UInt64) : Prop where
  inspected : t.PresentThroughout ops id → t.InspectedDuring ops id
  removed : (∀ done now entry, done ++ [.sweepExpired now idleTimeout batch] <+: ops →
    (t.performAll done).byId.lookup id = some entry → idleTimeout ≤ now - entry.lastActivity) →
    ∃ done, done <+: ops ∧ id ∉ (t.performAll done).byId
  kept : ∀ now entry, t.byId.lookup id = some entry → now - entry.lastActivity < idleTimeout →
    id ∈ (t.perform (.sweepExpired now idleTimeout batch)).2.byId

theorem Holds.sweptInTime (h : t.Holds ks) (hops : ops.all (·.sweepsBy idleTimeout batch) = true)
    (hn : t.capacity ≤ batch * ops.countP Op.isSweep) (id : UInt64) : t.SweptInTime idleTimeout batch ops id where
  inspected := h.inspectedDuring hops hn
  removed := h.removedDuring hops hn
  kept _ _ hentry hactive := h.kept_of_active hentry hactive

end FlowTable

end Rustgo.Udp
