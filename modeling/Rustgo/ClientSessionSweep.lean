import Rustgo.ClientSessionTable
import Rustgo.FlowTableSweep

namespace Rustgo.Udp

open Tables LinkedTable SweepQueue Protocol

namespace ClientSessionTable

variable {t t' : ClientSessionTable} {ks : List UInt64} {id x : UInt64} {session : ClientSession}
  {now idleTimeout : Nat} {touches : Nat → List Touch}

/-- The table holds the sessions `ks`, in the order in which they are swept. -/
def Holds (t : ClientSessionTable) (ks : List UInt64) : Prop :=
  Threaded ClientSession.links t.sessions t.sweepHead t.sweepTail ks

theorem holds_new : new.Holds [] := threaded_empty

theorem Holds.modify (h : t.Holds ks) (id : UInt64) {f : ClientSession → ClientSession}
    (hp : ∀ s, (f s).previous = s.previous) (hn : ∀ s, (f s).next = s.next) :
    ({ t with sessions := LinkedTable.modify t.sessions id f } : ClientSessionTable).Holds ks :=
  Threaded.modify hp hn h

theorem Holds.touch (h : t.Holds ks) (c : Touch) : (t.touch c).Holds ks := by
  apply h.modify
  · intro s
    split <;> rfl
  · intro s
    split <;> rfl

theorem Holds.touchAll (h : t.Holds ks) (cs : List Touch) : (t.touchAll cs).Holds ks := by
  induction cs generalizing t with
  | nil => exact h
  | cons c cs ih => exact ih (h.touch c)

theorem len_touchAll (t : ClientSessionTable) (cs : List Touch) : len (t.touchAll cs).sessions = len t.sessions := by
  induction cs generalizing t with
  | nil => rfl
  | cons c cs ih => exact (ih (t.touch c)).trans len_modify

theorem insert_eq (h : t.Holds ks) (hid : t.sessions.lookup id = none) (session : ClientSession) :
    (t.insert id session).1 = true ∧ (t.insert id session).2.Holds (ks ++ [id]) ∧
      len (t.insert id session).2.sessions = len t.sessions + 1 := by
  have hnot : id ∉ t.sessions := Finmap.lookup_eq_none.mp hid
  have hlen : ∀ s : ClientSession, len (t.sessions.insert id s) = len t.sessions + 1 := by
    intro s
    rw [len_eq_total, total_insert hnot, ← len_eq_total, Nat.add_comm]
  have hpush := h.push hnot (v := (session.setPrevious t.sweepTail).setNext none) rfl rfl
  rw [insert, hid]
  dsimp only
  cases htail : t.sweepTail with
  | none =>
      have hks : ks = [] := List.getLast?_eq_none_iff.mp (h.tail_eq ▸ htail)
      have hhead : t.sweepHead = none := by rw [h.head_eq, hks, List.head?_nil]
      rw [htail, hhead] at hpush
      exact ⟨rfl, hpush, hlen _⟩
  | some previous =>
      have hmem := (h.mem previous).mp (List.mem_of_getLast? (h.tail_eq ▸ htail))
      obtain ⟨last, hlast⟩ := Finmap.mem_iff.mp hmem
      have hne : id ≠ previous := fun heq => hnot (heq ▸ hmem)
      obtain ⟨first, hfirst⟩ : ∃ first, t.sweepHead = some first := by
        cases ks with
        | nil => simp [h.tail_eq] at htail
        | cons first ks => exact ⟨first, h.head_eq⟩
      rw [htail, hfirst] at hpush
      dsimp only
      rw [hlast, insert_modify hne, hfirst]
      exact ⟨rfl, hpush, len_modify.trans (hlen _)⟩

theorem remove_of_lookup_none (h : t.sessions.lookup id = none) : t.remove id = (false, t) := by
  rw [remove, h]

theorem remove_fst_of_lookup (h : t.sessions.lookup id = some session) : (t.remove id).1 = true := by
  rw [remove, h]

theorem len_remove_le (t : ClientSessionTable) (id : UInt64) : len (t.remove id).2.sessions ≤ len t.sessions := by
  rw [remove]
  cases hid : t.sessions.lookup id with
  | none => exact Nat.le_refl _
  | some session =>
      simp only [len_modify?]
      rw [len_eq_total, len_eq_total, total_erase hid]
      exact Nat.le_add_left _ _

theorem Holds.remove (h : t.Holds ks) (id : UInt64) : (t.remove id).2.Holds (ks.erase id) := by
  cases hid : t.sessions.lookup id with
  | none =>
      have hnot : id ∉ ks := fun hmem => Finmap.lookup_eq_none.mp hid ((h.mem id).mp hmem)
      rw [remove_of_lookup_none hid, List.erase_of_not_mem hnot]
      exact h
  | some session =>
      have hunlink := Threaded.unlink h hid
      rw [ClientSessionTable.remove, hid]
      obtain ⟨lease, external, lastActivity, previous, next⟩ := session
      cases previous <;> cases next <;> exact hunlink

/-- The first session of the sweep order goes to its end. -/
theorem Holds.rotate (h : t.Holds (id :: ks)) :
    ∃ t', t.rotateSweepHead id = (true, t') ∧ t'.Holds (ks ++ [id]) ∧ len t'.sessions = len t.sessions := by
  have hhead : t.sweepHead = some id := h.head_eq
  cases ks with
  | nil =>
      have htail : t.sweepTail = some id := h.tail_eq
      exact ⟨t, by simp [rotateSweepHead, hhead, htail], h, rfl⟩
  | cons next ks =>
      obtain ⟨tail, htail, hne, ⟨first, hfirst, hnext⟩, ⟨second, hsecond⟩, ⟨last, hlast⟩, ⟨moved, hmoved⟩⟩ :=
        h.rotate_lookups
      have hnext' : first.next = some next := hnext
      have hlast' : (LinkedTable.modify t.sessions next (ClientSession.setPrevious none)).lookup tail = some last := hlast
      have hmoved' : (LinkedTable.modify (LinkedTable.modify t.sessions next (ClientSession.setPrevious none)) tail
          (ClientSession.setNext (some id))).lookup id = some moved := hmoved
      have hrotate : t.rotateSweepHead id =
          (true,
            { sessions :=
                LinkedTable.modify
                  (LinkedTable.modify (LinkedTable.modify t.sessions next (ClientSession.setPrevious none)) tail
                    (ClientSession.setNext (some id)))
                  id fun session => (session.setPrevious (some tail)).setNext none
              sweepHead := some next
              sweepTail := some id }) := by
        simp [rotateSweepHead, hhead, htail, hne, hfirst, hnext', hsecond, hlast', hmoved']
      refine ⟨_, hrotate, Threaded.rotate h htail, ?_⟩
      rw [len_modify, len_modify, len_modify]

/-- What was read of a session when it was inspected shows that it was idle. -/
def staleAt (now idleTimeout : Nat) (visits : List (UInt64 × Option Nat)) (id : UInt64) : Bool :=
  visits.any fun visit => visit.1 = id && visit.2.any (idleTimeout ≤ now - ·)

theorem isExpired_eq (t : ClientSessionTable) (id : UInt64) :
    t.isExpired id now idleTimeout =
      ((t.sessions.lookup id).map ClientSession.lastActivity).any (idleTimeout ≤ now - ·) := by
  rw [isExpired]
  cases t.sessions.lookup id <;> rfl

theorem staleAt_of_notMem {visits : List (UInt64 × Option Nat)} (now idleTimeout : Nat)
    (h : id ∉ visits.map Prod.fst) : staleAt now idleTimeout visits id = false := by
  rw [staleAt, List.any_eq_false]
  intro visit hvisit
  have hne : visit.1 ≠ id := fun heq => h (heq ▸ List.mem_map_of_mem hvisit)
  simp [hne]

theorem staleAt_cons_of_ne {visit : UInt64 × Option Nat} {visits : List (UInt64 × Option Nat)} (h : x ≠ visit.1) :
    staleAt now idleTimeout (visit :: visits) x = staleAt now idleTimeout visits x := by
  simp [staleAt, Ne.symm h]

theorem staleAt_cons_self {visits : List (UInt64 × Option Nat)} {last : Option Nat} (h : id ∉ visits.map Prod.fst) :
    staleAt now idleTimeout ((id, last) :: visits) id = last.any (idleTimeout ≤ now - ·) := by
  have hrest := staleAt_of_notMem now idleTimeout h
  rw [staleAt] at hrest
  simp only [staleAt, List.any_cons, hrest, Bool.or_false, decide_true, Bool.true_and]

/-- A sweep looks at the first sessions of the order, removes those that were
idle when they were inspected and moves the others to the end. -/
theorem Holds.sweepLoop (h : t.Holds ks) (now idleTimeout : Nat) (touches : Nat → List Touch) {count : Nat}
    (hc : count ≤ ks.length) (expired : Nat) :
    (sweepVisits now idleTimeout touches count t).map Prod.fst = ks.take count ∧
      (∀ visit ∈ sweepVisits now idleTimeout touches count t, ∃ last, visit.2 = some last) ∧
      (sweepLoop now idleTimeout touches count t expired).2.Holds
        (sweepKeys (staleAt now idleTimeout (sweepVisits now idleTimeout touches count t)) count ks) ∧
      len (sweepLoop now idleTimeout touches count t expired).2.sessions ≤ len t.sessions := by
  induction count generalizing t ks expired with
  | zero =>
      refine ⟨rfl, fun visit hvisit => absurd hvisit List.not_mem_nil, ?_, Nat.le_refl _⟩
      simpa [sweepKeys, ClientSessionTable.sweepLoop] using h
  | succ count ih =>
      cases ks with
      | nil => simp at hc
      | cons id ks =>
          have hid : id ∉ ks := (List.nodup_cons.mp h.nodup).1
          have hc' : count ≤ ks.length := Nat.le_of_succ_le_succ hc
          have htouched := h.touchAll (touches count)
          have hlen := len_touchAll t (touches count)
          rw [ClientSessionTable.sweepLoop, ClientSessionTable.sweepVisits]
          generalize t.touchAll (touches count) = t₁ at htouched hlen
          have hhead : t₁.sweepHead = some id := htouched.head_eq
          simp only [hhead]
          have hnot : ∀ ys : List UInt64, ys.take count = ks.take count → id ∉ ys.take count := fun ys hys hmem =>
            hid (List.mem_of_mem_take (hys ▸ hmem))
          obtain ⟨first, hfirst, -, -⟩ := htouched.segment.1
          cases he : t₁.isExpired id now idleTimeout with
          | true =>
              have hr : t₁.remove id = (true, (t₁.remove id).2) := Prod.ext (remove_fst_of_lookup hfirst) rfl
              have hremoved := htouched.remove id
              rw [List.erase_cons_head] at hremoved
              obtain ⟨hvisits, hread, hholds, hle⟩ := ih hremoved hc' (expired + 1)
              have hseen := hvisits ▸ hnot ks rfl
              simp only [if_true]
              rw [hr]
              refine ⟨?_, List.forall_mem_cons.mpr ⟨⟨first.lastActivity, by rw [hfirst, Option.map_some]⟩, hread⟩, ?_, ?_⟩
              · simp [hvisits]
              · rw [sweepKeys_cons_stale]
                · rw [sweepKeys_congr fun x hx => staleAt_cons_of_ne fun hxid : x = id =>
                    hid (hxid ▸ List.mem_of_mem_take hx)]
                  exact hholds
                · rw [staleAt_cons_self hseen, ← isExpired_eq, he]
              · exact hle.trans ((len_remove_le t₁ id).trans (Nat.le_of_eq hlen))
          | false =>
              obtain ⟨t₂, hr, hrotated, hlen₂⟩ := htouched.rotate
              have hc'' : count ≤ (ks ++ [id]).length := by
                rw [List.length_append]
                omega
              have htake : (ks ++ [id]).take count = ks.take count := List.take_append_of_le_length hc'
              obtain ⟨hvisits, hread, hholds, hle⟩ := ih hrotated hc'' expired
              have hseen := hvisits ▸ hnot _ htake
              simp only [Bool.false_eq_true, if_false, hr]
              refine ⟨?_, List.forall_mem_cons.mpr ⟨⟨first.lastActivity, by rw [hfirst, Option.map_some]⟩, hread⟩, ?_, ?_⟩
              · simp [hvisits, htake]
              · rw [sweepKeys_cons_fresh _ hc']
                · rw [sweepKeys_congr fun x hx => staleAt_cons_of_ne fun hxid : x = id =>
                    hid (hxid ▸ List.mem_of_mem_take (htake ▸ hx))]
                  exact hholds
                · rw [staleAt_cons_self hseen, ← isExpired_eq, he]
              · exact hle.trans (Nat.le_of_eq (hlen₂.trans hlen))

theorem Holds.sweepExpired (h : t.Holds ks) (now idleTimeout maximum : Nat) (touches : Nat → List Touch) :
    (sweepVisits now idleTimeout touches (min maximum (len t.sessions)) t).map Prod.fst = ks.take maximum ∧
      (∀ visit ∈ sweepVisits now idleTimeout touches (min maximum (len t.sessions)) t, ∃ last, visit.2 = some last) ∧
      (t.sweepExpired now idleTimeout maximum touches).2.Holds
        (sweepKeys (staleAt now idleTimeout (sweepVisits now idleTimeout touches (min maximum (len t.sessions)) t))
          maximum ks) ∧
      len (t.sweepExpired now idleTimeout maximum touches).2.sessions ≤ len t.sessions := by
  have hmin : min maximum (len t.sessions) = min maximum ks.length := by rw [h.length_eq]
  obtain ⟨hvisits, hread, hholds, hlen⟩ := h.sweepLoop now idleTimeout touches
    (Nat.min_le_right maximum ks.length) 0
  rw [ClientSessionTable.sweepExpired, hmin]
  rw [sweepKeys_min] at hholds
  refine ⟨?_, hread, hholds, hlen⟩
  rw [hvisits, List.take_eq_take_min.symm]

end ClientSessionTable

namespace LocalRelay

open ClientSessionTable

variable {limits : NegotiatedUdpLimits} {r : LocalRelay} {ks : List UInt64} {id : UInt64} {ops : List Op}

/-- The relay holds the sessions `ks` and no more than it has negotiated. -/
structure Holds (limits : NegotiatedUdpLimits) (r : LocalRelay) (ks : List UInt64) : Prop where
  sessions : r.sessions.Holds ks
  bounded : len r.sessions.sessions ≤ limits.maxSessions

theorem holds_new (limits : NegotiatedUdpLimits) : Holds limits new [] where
  sessions := ClientSessionTable.holds_new
  bounded := Nat.zero_le _

/-- Delivering a datagram may take out the session whose local task is gone. -/
theorem Holds.deliver (h : Holds limits r ks) (id : UInt64) (external : SocketAddr) (now : Nat) (queue : QueueResult) :
    Holds limits (r.deliver id external now queue) ks ∨ Holds limits (r.deliver id external now queue) (ks.erase id) := by
  rw [LocalRelay.deliver]
  cases r.sessions.sessions.lookup id with
  | none => exact .inl h
  | some session =>
      dsimp only
      split
      · exact .inl h
      · have htouched := h.sessions.modify id (f := ClientSession.touch now) (fun _ => rfl) fun _ => rfl
        have hlen : len (LinkedTable.modify r.sessions.sessions id (ClientSession.touch now)) ≤ limits.maxSessions := by
          rw [len_modify]
          exact h.bounded
        cases queue with
        | closed => exact .inr ⟨htouched.remove id, (len_remove_le _ id).trans hlen⟩
        | queued => exact .inl ⟨htouched, hlen⟩
        | full => exact .inl ⟨htouched, hlen⟩

theorem Holds.remove (h : Holds limits r ks) (id : UInt64) :
    Holds limits { r with sessions := (r.sessions.remove id).2 } (ks.erase id) :=
  ⟨h.sessions.remove id, (len_remove_le _ id).trans h.bounded⟩

theorem Holds.receive (h : Holds limits r ks) (id : UInt64) (external : SocketAddr) (now localTasks : Nat)
    (queue : QueueResult) :
    ∃ ks', Holds limits (receive limits r id external now localTasks queue).2 ks' ∧
      Change limits.sweepBatch ks none ks' := by
  rw [LocalRelay.receive]
  split
  · exact ⟨ks, h, .keep ks⟩
  · cases hid : r.sessions.sessions.lookup id with
    | some session =>
        rcases h.deliver id external now queue with h' | h'
        · exact ⟨ks, h', .keep ks⟩
        · exact ⟨ks.erase id, h', .drop ks id⟩
    | none =>
        dsimp only
        split
        · exact ⟨ks, h, .keep ks⟩
        · next hroom =>
          split
          · exact ⟨ks, h, .keep ks⟩
          · have hnot : id ∉ ks := fun hmem => Finmap.lookup_eq_none.mp hid ((h.sessions.mem id).mp hmem)
            obtain ⟨hfst, hholds, hlen⟩ := insert_eq h.sessions hid
              ⟨UInt64.ofNat (r.nextLocalLease + 1), external, now, none, none⟩
            generalize r.sessions.insert id ⟨UInt64.ofNat (r.nextLocalLease + 1), external, now, none, none⟩ = result
              at hfst hholds hlen
            obtain ⟨inserted, sessions⟩ := result
            obtain rfl : inserted = true := hfst
            have hnew : Holds limits ⟨sessions, r.nextLocalLease + 1⟩ (ks ++ [id]) := ⟨hholds, by
              rw [hlen]
              omega⟩
            rcases hnew.deliver id external now queue with h' | h'
            · exact ⟨ks ++ [id], h', .push ks id hnot⟩
            · rw [List.erase_append_right _ hnot, List.erase_cons_head, List.append_nil] at h'
              exact ⟨ks, h', .keep ks⟩

/-- The ids that an event inspects. -/
def inspectedIds (limits : NegotiatedUdpLimits) (r : LocalRelay) (op : Op) : Option (List UInt64) :=
  (r.inspections limits op).map (·.map Prod.fst)

theorem Holds.perform (h : Holds limits r ks) (op : Op) :
    ∃ ks', Holds limits (r.perform limits op).2 ks' ∧ Change limits.sweepBatch ks (inspectedIds limits r op) ks' := by
  cases op with
  | datagram id external now localTasks queue => exact h.receive id external now localTasks queue
  | retired id =>
      rw [LocalRelay.perform]
      split
      · exact ⟨ks, h, .keep ks⟩
      · exact ⟨ks.erase id, h.remove id, .drop ks id⟩
  | finished id lease =>
      rw [LocalRelay.perform, removeIfLease]
      cases r.sessions.sessions.lookup id with
      | none => exact ⟨ks, h, .keep ks⟩
      | some session =>
          dsimp only
          split
          · exact ⟨ks.erase id, h.remove id, .drop ks id⟩
          · exact ⟨ks, h, .keep ks⟩
  | activity c => exact ⟨ks, ⟨h.sessions.touch c, len_modify.trans_le h.bounded⟩, .keep ks⟩
  | sweep now touches =>
      obtain ⟨hvisits, -, hholds, hlen⟩ := h.sessions.sweepExpired now limits.idleTimeout limits.sweepBatch touches
      refine ⟨_, ⟨hholds, hlen.trans h.bounded⟩, ?_⟩
      rw [inspectedIds, inspections, Option.map_some, hvisits]
      exact .sweep ks _
  | clear => exact ⟨[], ⟨ClientSessionTable.holds_new, Nat.zero_le _⟩, .clear ks⟩

def Op.isSweep : Op → Bool
  | .sweep .. => true
  | _ => false

def PresentThroughout (limits : NegotiatedUdpLimits) (r : LocalRelay) (ops : List Op) (id : UInt64) : Prop :=
  ∀ done, done <+: ops → id ∈ (r.performAll limits done).sessions.sessions

/-- One of the sweeps inspects the session, and reads this activity of it. -/
def InspectedDuring (limits : NegotiatedUdpLimits) (r : LocalRelay) (ops : List Op) (id : UInt64) : Prop :=
  ∃ done op seen last, done ++ [op] <+: ops ∧ (r.performAll limits done).inspections limits op = some seen ∧
    (id, some last) ∈ seen

theorem sweeps_inspected (r : LocalRelay) (ops : List Op) :
    sweeps (inspected (fun r op => (r.perform limits op).2) (inspectedIds limits) r ops) = ops.countP Op.isSweep := by
  induction ops generalizing r with
  | nil => rfl
  | cons op ops ih =>
      have hop : (inspectedIds limits r op).isSome = op.isSweep := by cases op <;> rfl
      rw [inspected, sweeps_cons, List.countP_cons, ih, hop]

theorem swept (limits : NegotiatedUdpLimits) (ops : List Op) :
    Swept (fun r op => (r.perform limits op).2) (inspectedIds limits) (Holds limits) limits.sweepBatch ops where
  nodup _ _ h := h.sessions.nodup
  change _ _ op _ h := h.perform op

theorem Holds.inspectedDuring (h : Holds limits r ks) (hn : limits.maxSessions ≤ limits.sweepBatch * ops.countP Op.isSweep)
    (hid : r.PresentThroughout limits ops id) : r.InspectedDuring limits ops id := by
  have hstay : ∀ done, done <+: ops → ∀ ks, Holds limits (r.performAll limits done) ks → id ∈ ks :=
    fun done hdone ks' hholds => (hholds.sessions.mem id).mpr (hid done hdone)
  obtain ⟨done, op, ids, hprefix, hids, hmem⟩ := (swept limits ops).exists_inspection h hstay (by
    rw [sweeps_inspected, h.sessions.length_eq]
    exact h.bounded.trans hn)
  obtain ⟨ks', hholds, -⟩ := (swept limits ops).run h hstay ((List.prefix_append done [op]).trans hprefix)
  obtain ⟨seen, hseen, rfl⟩ := Option.map_eq_some_iff.mp hids
  obtain ⟨visit, hvisit, rfl⟩ := List.mem_map.mp hmem
  cases op with
  | sweep now touches =>
      have hread := (hholds.sessions.sweepExpired now limits.idleTimeout limits.sweepBatch touches).2.1
      obtain rfl := Option.some.inj hseen
      obtain ⟨last, hlast⟩ := hread visit hvisit
      exact ⟨done, .sweep now touches, _, last, hprefix, rfl, hlast ▸ hvisit⟩
  | datagram => cases hseen
  | retired => cases hseen
  | finished => cases hseen
  | activity => cases hseen
  | clear => cases hseen

theorem Holds.mem_sweep_iff (h : Holds limits r ks) {now : Nat} {touches : Nat → List Touch} {seen : List (UInt64 × Option Nat)}
    (hseen : r.inspections limits (.sweep now touches) = some seen) (hid : id ∈ r.sessions.sessions) :
    id ∈ (r.perform limits (.sweep now touches)).2.sessions.sessions ↔ staleAt now limits.idleTimeout seen id = false := by
  obtain ⟨hvisits, -, hholds, -⟩ := h.sessions.sweepExpired now limits.idleTimeout limits.sweepBatch touches
  obtain rfl := Option.some.inj hseen
  rw [LocalRelay.perform, ← hholds.mem, mem_sweepKeys]
  have hmem : id ∈ ks := (h.sessions.mem id).mpr hid
  have hnodup := h.sessions.nodup
  rw [← List.take_append_drop limits.sweepBatch ks] at hmem hnodup
  constructor
  · rintro (hdrop | ⟨-, hfresh⟩)
    · apply staleAt_of_notMem
      rw [hvisits]
      exact fun htake => (List.nodup_append.mp hnodup).2.2 id htake id hdrop rfl
    · exact hfresh
  · intro hfresh
    rcases List.mem_append.mp hmem with htake | hdrop
    · exact .inr ⟨htake, hfresh⟩
    · exact .inl hdrop

theorem Holds.removedDuring (h : Holds limits r ks) (hn : limits.maxSessions ≤ limits.sweepBatch * ops.countP Op.isSweep)
    (hidle : ∀ done now touches seen last, done ++ [.sweep now touches] <+: ops →
      (r.performAll limits done).inspections limits (.sweep now touches) = some seen → (id, some last) ∈ seen →
      limits.idleTimeout ≤ now - last) :
    ∃ done, done <+: ops ∧ id ∉ (r.performAll limits done).sessions.sessions := by
  by_contra hstay
  have hpresent : r.PresentThroughout limits ops id := fun done hdone => by_contra fun hid => hstay ⟨done, hdone, hid⟩
  obtain ⟨done, op, seen, last, hprefix, hseen, hid⟩ := h.inspectedDuring hn hpresent
  have hdone : done <+: ops := (List.prefix_append done [op]).trans hprefix
  obtain ⟨ks', hholds, -⟩ := (swept limits ops).run h (k := id)
    (fun done hd ks' hk => (hk.sessions.mem id).mpr (hpresent done hd)) hdone
  cases op with
  | sweep now touches =>
      have hafter := hpresent _ hprefix
      rw [performAll, List.foldl_append] at hafter
      have hfresh := (Holds.mem_sweep_iff hholds hseen (hpresent done hdone)).mp hafter
      have hstale : staleAt now limits.idleTimeout seen id = true :=
        List.any_eq_true.mpr ⟨_, hid, by simpa using hidle done now touches seen last hprefix hseen hid⟩
      simp [hstale] at hfresh
  | datagram => cases hseen
  | retired => cases hseen
  | finished => cases hseen
  | activity => cases hseen
  | clear => cases hseen

theorem exists_holds_performAll (limits : NegotiatedUdpLimits) (ops : List Op) :
    ∃ ks, Holds limits (new.performAll limits ops) ks := by
  induction ops using List.reverseRecOn with
  | nil => exact ⟨[], holds_new limits⟩
  | append_singleton ops op ih =>
      obtain ⟨ks, hholds⟩ := ih
      obtain ⟨ks', hholds', -⟩ := hholds.perform op
      rw [performAll, List.foldl_append]
      exact ⟨ks', hholds'⟩

/-- What the sweeps among the events do for one session: if it stays it is
inspected, if it is found idle it does not stay, and if it is found active a
sweep keeps it. -/
structure SweptInTime (limits : NegotiatedUdpLimits) (r : LocalRelay) (ops : List Op) (id : UInt64) : Prop where
  inspected : r.PresentThroughout limits ops id → r.InspectedDuring limits ops id
  removed : (∀ done now touches seen last, done ++ [.sweep now touches] <+: ops →
    (r.performAll limits done).inspections limits (.sweep now touches) = some seen → (id, some last) ∈ seen →
    limits.idleTimeout ≤ now - last) → ∃ done, done <+: ops ∧ id ∉ (r.performAll limits done).sessions.sessions
  kept : ∀ now touches seen, id ∈ r.sessions.sessions → r.inspections limits (.sweep now touches) = some seen →
    (∀ last, (id, some last) ∈ seen → now - last < limits.idleTimeout) →
    id ∈ (r.perform limits (.sweep now touches)).2.sessions.sessions

theorem Holds.sweptInTime (h : Holds limits r ks) (hn : limits.maxSessions ≤ limits.sweepBatch * ops.countP Op.isSweep)
    (id : UInt64) : r.SweptInTime limits ops id where
  inspected := h.inspectedDuring hn
  removed := h.removedDuring hn
  kept now touches seen hid hseen hactive := by
    refine (h.mem_sweep_iff hseen hid).mpr (List.any_eq_false.mpr fun visit hvisit => ?_)
    obtain ⟨x, last⟩ := visit
    by_cases hx : x = id
    · cases last with
      | none => simp
      | some last =>
          subst hx
          simpa using hactive last hvisit
    · simp [hx]

end LocalRelay

theorem effectiveSweepBatch_covers {limits : UdpRuntimeLimits} {capacity batch sweeps : Nat}
    (h : limits.effectiveSweepBatch capacity = .ok batch)
    (hn : max (limits.idleTimeout / limits.sweepInterval) 1 ≤ sweeps) : capacity ≤ batch * sweeps := by
  rw [UdpRuntimeLimits.effectiveSweepBatch] at h
  cases hm : minimumSweepBatch capacity limits.idleTimeout limits.sweepInterval with
  | none => simp [hm] at h
  | some minimum =>
      obtain rfl : max limits.sweepBatch minimum = batch := by simpa [hm] using h
      exact (capacity_le_of_minimumSweepBatch hm).trans (Nat.mul_le_mul (Nat.le_max_right _ _) hn)

theorem NegotiatedUdpLimits.tryFrom_covers {request : OpenUdpChannel} {limits : NegotiatedUdpLimits} {sweeps : Nat}
    (h : NegotiatedUdpLimits.tryFrom request = .ok limits)
    (hn : max (limits.idleTimeout / limits.sweepInterval) 1 ≤ sweeps) :
    limits.maxSessions ≤ limits.sweepBatch * sweeps := by
  rw [NegotiatedUdpLimits.tryFrom] at h
  split at h
  · cases h
  · dsimp only at h
    split at h
    · cases h
    · next batch hm =>
      obtain rfl := Except.ok.inj h
      exact (capacity_le_of_minimumSweepBatch hm).trans (Nat.mul_le_mul (Nat.le_refl _) hn)

/-- At the server as at the client, as many sweeps as fit into the idle
timeout go through all sessions. -/
theorem sweeps_go_through_all_sessions :
    (∀ (limits : UdpRuntimeLimits) (capacity batch : Nat) (observeTraffic : Bool) (history ops : List FlowTable.Op)
      (id : UInt64), limits.effectiveSweepBatch capacity = .ok batch →
      ops.all (·.sweepsBy limits.idleTimeout batch) = true →
      max (limits.idleTimeout / limits.sweepInterval) 1 ≤ ops.countP FlowTable.Op.isSweep →
      ((FlowTable.new capacity observeTraffic).performAll history).SweptInTime limits.idleTimeout batch ops id) ∧
      ∀ (request : OpenUdpChannel) (limits : NegotiatedUdpLimits) (history ops : List LocalRelay.Op) (id : UInt64),
        NegotiatedUdpLimits.tryFrom request = .ok limits →
        max (limits.idleTimeout / limits.sweepInterval) 1 ≤ ops.countP LocalRelay.Op.isSweep →
        (LocalRelay.new.performAll limits history).SweptInTime limits ops id := by
  constructor
  · intro limits capacity batch observeTraffic history ops id hb hops hn
    obtain ⟨ks, hholds, hcap⟩ := FlowTable.holds_performAll capacity observeTraffic history
    refine hholds.sweptInTime hops ?_ id
    rw [hcap]
    exact effectiveSweepBatch_covers hb hn
  · intro request limits history ops id hlimits hn
    obtain ⟨ks, hholds⟩ := LocalRelay.exists_holds_performAll limits history
    exact hholds.sweptInTime (NegotiatedUdpLimits.tryFrom_covers hlimits hn) id

def localhost (port : UInt16) : SocketAddr := .v4 #v[127, 0, 0, 1] port

def twoSessions : OpenUdpChannel where
  tunnelId := 1
  channelId := 1
  bindingToken := ⟨[], by decide⟩
  maxSessions := 2
  idleTimeoutMillis := 2000
  maxPayloadBytes := 1200
  queueCapacity := 8

theorem sweeps_go_through_two_sessions :
    ((FlowTable.new 2 false).performAll
        [.sessionFor ⟨localhost 10000, localhost 7000⟩ 0 fun _ => some 7,
          .sessionFor ⟨localhost 10001, localhost 7000⟩ 1 fun _ => some 8]).SweptInTime 2 1
      [.sweepExpired 3 2 1, .remove 7, .sweepExpired 4 2 1] 8 ∧
      ∃ limits, NegotiatedUdpLimits.tryFrom twoSessions = .ok limits ∧
        (LocalRelay.new.performAll limits [.datagram 7 (localhost 10000) 0 0 .queued]).SweptInTime limits
          [.sweep (3 * 10 ^ 9) (fun _ => []), .sweep (4 * 10 ^ 9) fun _ => []] 7 :=
  ⟨sweeps_go_through_all_sessions.1 ⟨8, 2, 1, 1⟩ 2 1 false _ _ 8 (by decide) (by decide) (by decide),
    _, rfl, sweeps_go_through_all_sessions.2 twoSessions _ _ _ 7 rfl (by decide)⟩

end Rustgo.Udp
