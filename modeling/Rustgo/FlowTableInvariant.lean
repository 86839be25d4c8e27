import Rustgo.FlowTable
import Rustgo.SweepQueue

namespace Rustgo.Udp.FlowTable

open Tables LinkedTable SweepQueue

variable {t t' : FlowTable} {ks : List UInt64} {id x : UInt64} {entry : FlowEntry} {now idleTimeout : Nat}

/-- A session without its place in the sweep order. -/
def flowOf (t : FlowTable) (id : UInt64) : Option FlowEntry :=
  (t.byId.lookup id).map fun entry => { entry with previous := none, next := none }

def keyOf (t : FlowTable) (id : UInt64) : Option FlowKey := (t.flowOf id).map FlowEntry.key

theorem keyOf_eq (t : FlowTable) (id : UInt64) : t.keyOf id = (t.byId.lookup id).map FlowEntry.key := by
  rw [keyOf, flowOf, Option.map_map]
  rfl

theorem keyOf_of_lookup (h : t.byId.lookup id = some entry) : t.keyOf id = some entry.key := by
  rw [keyOf_eq, h, Option.map_some]

/-- The table holds the sessions `ks`, in the order in which they are swept. -/
structure Holds (t : FlowTable) (ks : List UInt64) : Prop where
  threaded : Threaded FlowEntry.links t.byId t.sweepHead t.sweepTail ks
  flows : ∀ key id, t.byFlow.lookup key = some id ↔ t.keyOf id = some key
  bounded : len t.byId ≤ t.capacity

theorem holds_new (capacity : Nat) (observeTraffic : Bool) : (new capacity observeTraffic).Holds [] where
  threaded := threaded_empty
  flows key id := by simp [new, keyOf_eq]
  bounded := Nat.zero_le _

theorem holds_clear (t : FlowTable) : t.clear.Holds [] where
  threaded := threaded_empty
  flows key id := by simp [clear, keyOf_eq]
  bounded := Nat.zero_le _

theorem mem_iff_isSome : id ∈ t.byId ↔ (t.byId.lookup id).isSome := Finmap.lookup_isSome.symm

/-- A change to one entry that keeps its links and its key. -/
theorem Holds.modify (h : t.Holds ks) {f : FlowEntry → FlowEntry} (hp : ∀ e, (f e).previous = e.previous)
    (hn : ∀ e, (f e).next = e.next) (hk : ∀ e, (f e).key = e.key) :
    ({ t with byId := LinkedTable.modify t.byId id f } : FlowTable).Holds ks where
  threaded := h.threaded.modify hp hn
  flows key x := by
    rw [keyOf_eq, map_lookup_modify hk, ← keyOf_eq]
    exact h.flows key x
  bounded := by
    rw [len_modify]
    exact h.bounded

theorem Holds.touch (h : t.Holds ks) (id : UInt64) (now : Nat) :
    ({ t with byId := LinkedTable.modify t.byId id (FlowEntry.touch now) } : FlowTable).Holds ks :=
  h.modify (f := FlowEntry.touch now) (fun _ => rfl) (fun _ => rfl) fun _ => rfl

section Insert

variable {key : FlowKey} {draw : Nat → Option UInt64}

theorem drawSessionId_unused {i attempts : Nat} (h : t.drawSessionId draw i attempts = .ok id) : t.byId.lookup id = none := by
  induction attempts generalizing i with
  | zero => simp [drawSessionId] at h
  | succ attempts ih =>
      rw [drawSessionId] at h
      cases hd : draw i with
      | none => simp [hd] at h
      | some drawn =>
          simp only [hd] at h
          split at h
          · next hunused =>
            obtain rfl := Except.ok.inj h
            exact hunused.2
          · exact ih h

theorem drawSessionId_error {i attempts : Nat} {e : FlowError} (h : t.drawSessionId draw i attempts = .error e) :
    e = .entropyUnavailable := by
  induction attempts generalizing i with
  | zero => exact (Except.error.inj h).symm
  | succ attempts ih =>
      rw [drawSessionId] at h
      cases hd : draw i with
      | none =>
          simp only [hd] at h
          exact (Except.error.inj h).symm
      | some drawn =>
          simp only [hd] at h
          split at h
          · cases h
          · exact ih h

/-- The table with a new session at the end of the sweep order. -/
def inserted (t : FlowTable) (key : FlowKey) (id : UInt64) (now : Nat) : FlowTable :=
  { t with
    byFlow := t.byFlow.insert key id
    byId :=
      modify?
        (t.byId.insert id
          { key := key, lastActivity := now, previous := t.sweepTail, next := none,
            observedTraffic := if t.observeTraffic then some .zero else none })
        t.sweepTail (FlowEntry.setNext (some id))
    sweepHead := t.sweepHead.or (some id)
    sweepTail := some id }

theorem flowOf_inserted_of_ne (h : x ≠ id) : (t.inserted key id now).flowOf x = t.flowOf x := by
  refine (map_lookup_modify? (f := FlowEntry.setNext (some id)) fun _ => rfl).trans ?_
  rw [Finmap.lookup_insert_of_ne _ h]
  rfl

theorem keyOf_inserted_of_ne (h : x ≠ id) : (t.inserted key id now).keyOf x = t.keyOf x := by
  rw [keyOf, keyOf, flowOf_inserted_of_ne h]

theorem keyOf_inserted : (t.inserted key id now).keyOf id = some key := by
  rw [keyOf_eq]
  refine (map_lookup_modify? (f := FlowEntry.setNext (some id)) fun _ => rfl).trans ?_
  rw [Finmap.lookup_insert, Option.map_some]

theorem Holds.inserted (h : t.Holds ks) (hid : t.byId.lookup id = none) (hkey : t.byFlow.lookup key = none)
    (hc : len t.byId < t.capacity) : (t.inserted key id now).Holds (ks ++ [id]) where
  threaded := h.threaded.push (Finmap.lookup_eq_none.mp hid) rfl rfl
  flows key' x := by
    by_cases hx : x = id
    · rw [hx, keyOf_inserted]
      by_cases hk : key' = key
      · rw [hk, FlowTable.inserted, Finmap.lookup_insert]
        exact ⟨fun _ => rfl, fun _ => rfl⟩
      · have hnone : t.byFlow.lookup key' ≠ some id := by
          intro hsome
          have hlookup := (h.flows key' id).mp hsome
          simp [keyOf_eq, hid] at hlookup
        rw [FlowTable.inserted, Finmap.lookup_insert_of_ne _ hk]
        exact ⟨fun hsome => absurd hsome hnone, fun hsome => absurd (Option.some.inj hsome).symm hk⟩
    · rw [keyOf_inserted_of_ne hx, ← h.flows]
      by_cases hk : key' = key
      · rw [hk, hkey, FlowTable.inserted, Finmap.lookup_insert]
        exact ⟨fun hsome => absurd (Option.some.inj hsome).symm hx, fun hsome => absurd hsome (by simp)⟩
      · rw [FlowTable.inserted, Finmap.lookup_insert_of_ne _ hk]
  bounded := by
    have hlen : len (t.inserted key id now).byId = len t.byId + 1 := by
      rw [FlowTable.inserted, len_modify?, len_eq_total, total_insert (Finmap.lookup_eq_none.mp hid), ← len_eq_total,
        Nat.add_comm]
    rw [hlen]
    exact hc

/-- The last session of the sweep order is in the table. -/
theorem Holds.lookup_tail (h : t.Holds ks) (htail : t.sweepTail = some id) : ∃ e, t.byId.lookup id = some e := by
  rw [h.threaded.tail_eq] at htail
  have hmem := (h.threaded.mem id).mp (List.mem_of_getLast? htail)
  exact Option.isSome_iff_exists.mp (mem_iff_isSome.mp hmem)

theorem sessionFor_new (h : t.Holds ks) (hkey : t.byFlow.lookup key = none) (hc : len t.byId < t.capacity)
    (hid : t.allocateSessionId draw = .ok id) :
    t.sessionFor key now draw = (.ok (id, true), t.inserted key id now) := by
  have hunused := drawSessionId_unused hid
  rw [sessionFor, hkey]
  simp only [Nat.not_le.mpr hc, if_false, hid]
  cases htail : t.sweepTail with
  | none =>
      have hhead : t.sweepHead = none := by
        rw [h.threaded.tail_eq, List.getLast?_eq_none_iff] at htail
        rw [h.threaded.head_eq, htail, List.head?_nil]
      simp [inserted, htail, hhead]
  | some previous =>
      obtain ⟨e, he⟩ := h.lookup_tail htail
      have hne : previous ≠ id := fun hp => by simp [hp ▸ he] at hunused
      have hhead : ∃ first, t.sweepHead = some first := by
        cases ks with
        | nil => simp [h.threaded.tail_eq] at htail
        | cons first ks => exact ⟨first, h.threaded.head_eq⟩
      obtain ⟨first, hfirst⟩ := hhead
      simp [inserted, htail, hfirst, Finmap.lookup_insert_of_ne _ hne, he]

/-- What a public datagram does to the table: nothing, a newer activity, or a
new session. -/
theorem sessionFor_cases (h : t.Holds ks) (key : FlowKey) (now : Nat) (draw : Nat → Option UInt64) :
    (∃ e, t.sessionFor key now draw = (.error e, t) ∧ e ≠ .inconsistent) ∨
      (∃ id, t.sessionFor key now draw =
        (.ok (id, false), { t with byId := LinkedTable.modify t.byId id (FlowEntry.touch now) })) ∨
      ∃ id, t.byId.lookup id = none ∧ t.byFlow.lookup key = none ∧ len t.byId < t.capacity ∧
        t.sessionFor key now draw = (.ok (id, true), t.inserted key id now) := by
  cases hkey : t.byFlow.lookup key with
  | some id =>
      have hid := (h.flows key id).mp hkey
      rw [keyOf_eq] at hid
      obtain ⟨e, he, -⟩ := Option.map_eq_some_iff.mp hid
      exact .inr (.inl ⟨id, by simp [sessionFor, hkey, he]⟩)
  | none =>
      by_cases hc : t.capacity ≤ len t.byId
      · exact .inl ⟨.capacity, by simp [sessionFor, hkey, hc], by decide⟩
      · cases hid : t.allocateSessionId draw with
        | error e =>
            have he := drawSessionId_error hid
            exact .inl ⟨e, by simp [sessionFor, hkey, hc, hid], by simp [he]⟩
        | ok id =>
            have hc' := Nat.lt_of_not_le hc
            exact .inr (.inr ⟨id, drawSessionId_unused hid, rfl, hc', sessionFor_new h hkey hc' hid⟩)

end Insert

section Sweep

theorem remove_of_lookup_none (h : t.byId.lookup id = none) : t.remove id = (false, t) := by
  rw [remove, h]

theorem remove_fst_of_lookup (h : t.byId.lookup id = some entry) : (t.remove id).1 = true := by
  rw [remove, h]

theorem capacity_remove : (t.remove id).2.capacity = t.capacity := by
  rw [remove]
  cases t.byId.lookup id <;> rfl

/-- Removing a session keeps everything but the links of the others. -/
theorem flowOf_remove_of_ne (h : x ≠ id) : (t.remove id).2.flowOf x = t.flowOf x := by
  rw [remove]
  cases t.byId.lookup id with
  | none => rfl
  | some entry =>
      refine (map_lookup_modify? (f := FlowEntry.setPrevious entry.previous) fun _ => rfl).trans ?_
      refine (map_lookup_modify? (f := FlowEntry.setNext entry.next) fun _ => rfl).trans ?_
      rw [Finmap.lookup_erase_ne h]
      rfl

theorem lookup_remove_self (id : UInt64) (hd : t.Holds ks) : (t.remove id).2.byId.lookup id = none := by
  cases h : t.byId.lookup id with
  | none => rw [remove_of_lookup_none h, h]
  | some entry =>
      have hnot : id ∉ ks.erase id := hd.threaded.nodup.not_mem_erase
      have hthreaded := hd.threaded.unlink h
      rw [remove, h]
      exact Finmap.lookup_eq_none.mpr fun hmem => hnot ((hthreaded.mem id).mpr hmem)

theorem threaded_remove (h : Threaded FlowEntry.links t.byId t.sweepHead t.sweepTail ks)
    (hid : t.byId.lookup id = some entry) :
    Threaded FlowEntry.links (t.remove id).2.byId (t.remove id).2.sweepHead (t.remove id).2.sweepTail (ks.erase id) := by
  have hunlink := h.unlink hid
  rw [remove, hid]
  obtain ⟨key, lastActivity, previous, next, observedTraffic⟩ := entry
  cases previous <;> cases next <;> exact hunlink

theorem Holds.remove (h : t.Holds ks) (hid : t.byId.lookup id = some entry) : (t.remove id).2.Holds (ks.erase id) := by
  have hself := lookup_remove_self id h
  have hflow : t.byFlow.lookup entry.key = some id := (h.flows _ _).mpr (keyOf_of_lookup hid)
  have hbyFlow : (t.remove id).2.byFlow = t.byFlow.erase entry.key := by rw [FlowTable.remove, hid]
  constructor
  · exact threaded_remove h.threaded hid
  · intro key x
    rw [hbyFlow]
    by_cases hx : x = id
    · rw [hx, keyOf_eq, hself, Option.map_none]
      refine ⟨fun hsome => absurd hsome ?_, fun hsome => absurd hsome (by simp)⟩
      by_cases hk : key = entry.key
      · rw [hk, Finmap.lookup_erase]
        simp
      · rw [Finmap.lookup_erase_ne hk, h.flows, keyOf_of_lookup hid]
        exact fun hsome => hk (Option.some.inj hsome).symm
    · rw [keyOf, flowOf_remove_of_ne hx, ← keyOf]
      by_cases hk : key = entry.key
      · rw [hk, Finmap.lookup_erase]
        refine ⟨fun hsome => absurd hsome (by simp), fun hsome => absurd ?_ hx⟩
        exact (Option.some.inj (hflow.symm.trans ((h.flows _ _).mpr hsome))).symm
      · rw [Finmap.lookup_erase_ne hk]
        exact h.flows key x
  · have hlen : len (t.remove id).2.byId ≤ len t.byId := by
      rw [FlowTable.remove, hid]
      simp only [len_modify?]
      rw [len_eq_total, len_eq_total, total_erase hid]
      exact Nat.le_add_left _ _
    rw [capacity_remove]
    exact hlen.trans h.bounded

theorem Holds.remove_any (h : t.Holds ks) (id : UInt64) : (t.remove id).2.Holds (ks.erase id) := by
  cases hid : t.byId.lookup id with
  | some entry => exact h.remove hid
  | none =>
      have hnot : id ∉ ks := fun hmem => Finmap.lookup_eq_none.mp hid ((h.threaded.mem id).mp hmem)
      rw [remove_of_lookup_none hid, List.erase_of_not_mem hnot]
      exact h

/-- The table with the first session of the sweep order moved behind the last. -/
def rotated (t : FlowTable) (id next tail : UInt64) : FlowTable :=
  { t with
    byId :=
      LinkedTable.modify
        (LinkedTable.modify (LinkedTable.modify t.byId next (FlowEntry.setPrevious none)) tail
          (FlowEntry.setNext (some id)))
        id fun entry => (entry.setPrevious (some tail)).setNext none
    sweepHead := some next
    sweepTail := some id }

theorem flowOf_rotated (t : FlowTable) (id next tail x : UInt64) : (t.rotated id next tail).flowOf x = t.flowOf x := by
  rw [flowOf, flowOf, rotated, map_lookup_modify, map_lookup_modify, map_lookup_modify]
  all_goals exact fun _ => rfl

/-- The first session of the sweep order goes to its end. -/
theorem Holds.rotate (h : t.Holds (id :: ks)) :
    ∃ t', t.rotateSweepHead id = (.ok (), t') ∧ t'.Holds (ks ++ [id]) ∧ t'.capacity = t.capacity ∧
      ∀ x, t'.flowOf x = t.flowOf x := by
  have hhead : t.sweepHead = some id := h.threaded.head_eq
  cases ks with
  | nil =>
      have htail : t.sweepTail = some id := h.threaded.tail_eq
      exact ⟨t, by simp [rotateSweepHead, hhead, htail], h, rfl, fun x => rfl⟩
  | cons next ks =>
      obtain ⟨tail, htail, hne, ⟨first, hfirst, hnext⟩, ⟨second, hsecond⟩, ⟨last, hlast⟩, ⟨moved, hmoved⟩⟩ :=
        h.threaded.rotate_lookups
      have hnext' : first.next = some next := hnext
      have hlast' : (LinkedTable.modify t.byId next (FlowEntry.setPrevious none)).lookup tail = some last := hlast
      have hmoved' : (LinkedTable.modify (LinkedTable.modify t.byId next (FlowEntry.setPrevious none)) tail
          (FlowEntry.setNext (some id))).lookup id = some moved := hmoved
      have hrotate : t.rotateSweepHead id = (.ok (), t.rotated id next tail) := by
        simp [rotateSweepHead, rotated, hhead, htail, hne, hfirst, hnext', hsecond, hlast', hmoved']
      have hflow := flowOf_rotated t id next tail
      refine ⟨_, hrotate, ⟨h.threaded.rotate htail, fun key x => ?_, ?_⟩, rfl, hflow⟩
      · rw [keyOf, hflow, ← keyOf]
        exact h.flows key x
      · rw [rotated, len_modify, len_modify, len_modify]
        exact h.bounded

theorem isExpired_congr (h : t'.flowOf id = t.flowOf id) : t'.isExpired id now idleTimeout = t.isExpired id now idleTimeout := by
  have hexpired : ∀ u : FlowTable, u.isExpired id now idleTimeout =
      ((u.flowOf id).map fun entry => decide (idleTimeout ≤ now - entry.lastActivity)).getD false := by
    intro u
    rw [isExpired, flowOf]
    cases u.byId.lookup id <;> rfl
  rw [hexpired, hexpired, h]

def stale (t : FlowTable) (now idleTimeout : Nat) (id : UInt64) : Bool := t.isExpired id now idleTimeout

theorem sweepLoop_stale (hhead : t.sweepHead = some id) (he : t.stale now idleTimeout id = true)
    (hid : t.byId.lookup id = some entry) (count : Nat) (expired : List ExpiredFlow) :
    sweepLoop now idleTimeout (count + 1) t expired =
      sweepLoop now idleTimeout count (t.remove id).2 (expired ++ [⟨id, t.observedTraffic id⟩]) := by
  have hr : t.remove id = (true, (t.remove id).2) := Prod.ext (remove_fst_of_lookup hid) rfl
  rw [stale] at he
  rw [sweepLoop, hhead]
  simp only [he, if_true]
  rw [hr]

theorem sweepLoop_fresh (hhead : t.sweepHead = some id) (he : t.stale now idleTimeout id = false)
    (hr : t.rotateSweepHead id = (.ok (), t')) (count : Nat) (expired : List ExpiredFlow) :
    sweepLoop now idleTimeout (count + 1) t expired = sweepLoop now idleTimeout count t' expired := by
  rw [stale] at he
  rw [sweepLoop, hhead]
  simp [he, hr]

theorem sweepVisits_stale (hhead : t.sweepHead = some id) (he : t.stale now idleTimeout id = true) (count : Nat) :
    sweepVisits now idleTimeout (count + 1) t = id :: sweepVisits now idleTimeout count (t.remove id).2 := by
  rw [stale] at he
  rw [sweepVisits, hhead]
  simp only [he, if_true]

theorem sweepVisits_fresh (hhead : t.sweepHead = some id) (he : t.stale now idleTimeout id = false)
    (hr : t.rotateSweepHead id = (.ok (), t')) (count : Nat) :
    sweepVisits now idleTimeout (count + 1) t = id :: sweepVisits now idleTimeout count t' := by
  rw [stale] at he
  rw [sweepVisits, hhead]
  simp [he, hr]

/-- A sweep looks at the first sessions of the order, removes those that were
idle and moves the others to the end. -/
theorem Holds.sweepLoop (h : t.Holds ks) {count : Nat} (hc : count ≤ ks.length) (expired : List ExpiredFlow) :
    ∃ out t', sweepLoop now idleTimeout count t expired = (.ok out, t') ∧
      sweepVisits now idleTimeout count t = ks.take count ∧
      t'.Holds (sweepKeys (t.stale now idleTimeout) count ks) ∧ t'.capacity = t.capacity ∧
      ∀ x ∈ sweepKeys (t.stale now idleTimeout) count ks, t'.flowOf x = t.flowOf x := by
  induction count generalizing t ks expired with
  | zero => exact ⟨expired, t, rfl, rfl, by simpa [sweepKeys] using h, rfl, fun x _ => rfl⟩
  | succ count ih =>
      cases ks with
      | nil => simp at hc
      | cons id ks =>
          have hhead : t.sweepHead = some id := h.threaded.head_eq
          have hid : id ∉ ks := (List.nodup_cons.mp h.threaded.nodup).1
          have hc' : count ≤ ks.length := Nat.le_of_succ_le_succ hc
          cases he : t.stale now idleTimeout id with
          | true =>
              obtain ⟨entry, hentry, -, -⟩ := h.threaded.segment.1
              have hremoved := h.remove hentry
              rw [List.erase_cons_head] at hremoved
              have hflow : ∀ x ∈ ks, (t.remove id).2.flowOf x = t.flowOf x := fun x hx =>
                flowOf_remove_of_ne fun hxid => hid (hxid ▸ hx)
              have hkeys : sweepKeys ((t.remove id).2.stale now idleTimeout) count ks =
                  sweepKeys (t.stale now idleTimeout) count ks :=
                sweepKeys_congr fun x hx => isExpired_congr (hflow x (List.mem_of_mem_take hx))
              obtain ⟨out, t', hout, hvisits, hholds, hcap, hall⟩ :=
                ih hremoved hc' (expired ++ [⟨id, t.observedTraffic id⟩])
              rw [hkeys] at hholds hall
              rw [sweepKeys_cons_stale he, sweepLoop_stale hhead he hentry]
              refine ⟨out, t', hout, ?_, hholds, hcap.trans capacity_remove, fun x hx => ?_⟩
              · rw [sweepVisits_stale hhead he, hvisits, List.take_succ_cons]
              · exact (hall x hx).trans (hflow x (mem_of_mem_sweepKeys hx))
          | false =>
              obtain ⟨t₁, hrotate, hrotated, hcap₁, hflow⟩ := h.rotate
              have hkeys : sweepKeys (t₁.stale now idleTimeout) count (ks ++ [id]) =
                  sweepKeys (t.stale now idleTimeout) count (ks ++ [id]) :=
                sweepKeys_congr fun x _ => isExpired_congr (hflow x)
              have hc'' : count ≤ (ks ++ [id]).length := by
                rw [List.length_append]
                omega
              obtain ⟨out, t', hout, hvisits, hholds, hcap, hall⟩ := ih hrotated hc'' expired
              rw [hkeys] at hholds hall
              rw [sweepKeys_cons_fresh he hc', sweepLoop_fresh hhead he hrotate]
              refine ⟨out, t', hout, ?_, hholds, hcap.trans hcap₁, fun x hx => (hall x hx).trans (hflow x)⟩
              rw [sweepVisits_fresh hhead he hrotate, hvisits, List.take_succ_cons, List.take_append_of_le_length hc']

theorem Holds.sweepExpired (h : t.Holds ks) (now idleTimeout maximum : Nat) :
    ∃ out t', t.sweepExpired now idleTimeout maximum = (.ok out, t') ∧
      t.inspections (.sweepExpired now idleTimeout maximum) = some (ks.take maximum) ∧
      t'.Holds (sweepKeys (t.stale now idleTimeout) maximum ks) ∧ t'.capacity = t.capacity ∧
      ∀ x ∈ sweepKeys (t.stale now idleTimeout) maximum ks, t'.flowOf x = t.flowOf x := by
  have hmin : min maximum (len t.byId) = min maximum ks.length := by rw [h.threaded.length_eq]
  obtain ⟨out, t', hout, hvisits, hrest⟩ := h.sweepLoop (Nat.min_le_right maximum ks.length) []
  rw [sweepKeys_min] at hrest
  refine ⟨out, t', ?_, ?_, hrest⟩
  · rw [FlowTable.sweepExpired, hmin, hout]
  · rw [inspections, hmin, hvisits, List.take_eq_take_min.symm]

end Sweep

section Runs

/-- The sweeps of the relay all have its idle timeout and its batch. -/
def Op.sweepsBy (idleTimeout batch : Nat) : Op → Bool
  | .sweepExpired _ idle maximum => idle = idleTimeout ∧ maximum = batch
  | _ => true

/-- Every operation keeps the table in order and moves its sessions as a
swept queue. -/
theorem Holds.perform (h : t.Holds ks) (op : Op) :
    ∃ ks', (t.perform op).2.Holds ks' ∧ (t.perform op).2.capacity = t.capacity ∧
      (t.perform op).1 ≠ some .inconsistent ∧
      ∀ idle batch, op.sweepsBy idle batch = true → Change batch ks (t.inspections op) ks' := by
  cases op with
  | sessionFor key now draw =>
      rcases sessionFor_cases h key now draw with
        ⟨e, hs, he⟩ | ⟨id, hs⟩ | ⟨id, hid, hkey, hc, hs⟩
      · refine ⟨ks, ?_, ?_, ?_, fun _ _ _ => .keep ks⟩
        · simpa [FlowTable.perform, hs] using h
        · simp [FlowTable.perform, hs]
        · simpa [FlowTable.perform, hs] using he
      · refine ⟨ks, ?_, ?_, ?_, fun _ _ _ => .keep ks⟩
        · simpa [FlowTable.perform, hs] using h.touch id now
        · simp [FlowTable.perform, hs]
        · simp [FlowTable.perform, hs]
      · refine ⟨ks ++ [id], ?_, ?_, ?_, fun _ _ _ => .push ks id ?_⟩
        · simpa [FlowTable.perform, hs] using h.inserted hid hkey hc
        · simp [FlowTable.perform, hs, FlowTable.inserted]
        · simp [FlowTable.perform, hs]
        · exact fun hmem => Finmap.lookup_eq_none.mp hid ((h.threaded.mem id).mp hmem)
  | remove id => exact ⟨ks.erase id, h.remove_any id, capacity_remove, by simp [FlowTable.perform], fun _ _ _ => .drop ks id⟩
  | validateReply id recipient destination now =>
      refine ⟨ks, ?_, ?_, by simp [FlowTable.perform], fun _ _ _ => .keep ks⟩
      · rw [FlowTable.perform, validateReply]
        cases t.byId.lookup id with
        | none => exact h
        | some entry =>
            dsimp only
            split
            · exact h
            · exact h.touch id now
      · rw [FlowTable.perform, validateReply]
        cases t.byId.lookup id with
        | none => rfl
        | some entry =>
            dsimp only
            split <;> rfl
  | recordTraffic id f =>
      exact ⟨ks, h.modify (fun _ => rfl) (fun _ => rfl) (fun _ => rfl), rfl, by simp [FlowTable.perform],
        fun _ _ _ => .keep ks⟩
  | sweepExpired now idleTimeout maximum =>
      obtain ⟨out, t', hout, hvisits, hholds, hcap, -⟩ := h.sweepExpired now idleTimeout maximum
      refine ⟨sweepKeys (t.stale now idleTimeout) maximum ks, ?_, ?_, ?_, fun idle batch hb => ?_⟩
      · simpa [FlowTable.perform, hout] using hholds
      · simpa [FlowTable.perform, hout] using hcap
      · simp [FlowTable.perform, hout]
      · obtain ⟨-, rfl⟩ : idleTimeout = idle ∧ maximum = batch := by simpa [Op.sweepsBy] using hb
        rw [hvisits]
        exact .sweep ks _
  | clear => exact ⟨[], holds_clear t, rfl, by simp [FlowTable.perform], fun _ _ _ => .clear ks⟩

def performAll (t : FlowTable) (ops : List Op) : FlowTable := ops.foldl (fun t op => (t.perform op).2) t

theorem holds_performAll (capacity : Nat) (observeTraffic : Bool) (ops : List Op) :
    ∃ ks, ((new capacity observeTraffic).performAll ops).Holds ks ∧
      ((new capacity observeTraffic).performAll ops).capacity = capacity := by
  induction ops using List.reverseRecOn with
  | nil => exact ⟨[], holds_new capacity observeTraffic, rfl⟩
  | append_singleton ops op ih =>
      obtain ⟨ks, hholds, hcap⟩ := ih
      obtain ⟨ks', hholds', hcap', -⟩ := hholds.perform op
      rw [performAll, List.foldl_append]
      exact ⟨ks', hholds', hcap'.trans hcap⟩

/-- The sessions met by following the links from the head of the sweep order. -/
def sweepOrder (t : FlowTable) : List UInt64 := walk FlowEntry.links t.byId (len t.byId + 1) t.sweepHead

/-- The two maps are inverse to each other, and the list from the head goes
through every live session once. -/
structure Consistent (t : FlowTable) : Prop where
  inverse : ∀ key id, t.byFlow.lookup key = some id ↔ ∃ entry, t.byId.lookup id = some entry ∧ entry.key = key
  once : t.sweepOrder.Nodup
  live : ∀ id, id ∈ t.sweepOrder ↔ id ∈ t.byId
  linked : ∀ before id after, t.sweepOrder = before ++ id :: after →
    ∃ entry, t.byId.lookup id = some entry ∧ entry.previous = before.getLast? ∧ entry.next = after.head?
  cursor : ∀ id, t.sweepHead = some id → id ∈ t.byId
  tail : t.sweepTail = t.sweepOrder.getLast?
  bounded : len t.byId ≤ t.capacity

theorem Holds.sweepOrder_eq (h : t.Holds ks) : t.sweepOrder = ks := h.threaded.walk_eq (Nat.le_succ _)

theorem Holds.consistent (h : t.Holds ks) : t.Consistent := by
  have horder := h.sweepOrder_eq
  constructor
  · intro key id
    rw [h.flows, keyOf_eq, Option.map_eq_some_iff]
  · rw [horder]
    exact h.threaded.nodup
  · rw [horder]
    exact h.threaded.mem
  · intro before id after hsplit
    have hsegment := h.threaded.segment
    rw [← horder, hsplit] at hsegment
    obtain ⟨entry, hentry, hp, hn⟩ := hsegment.lookup
    rw [Option.or_none] at hp hn
    exact ⟨entry, hentry, hp, hn⟩
  · intro id hid
    rw [h.threaded.head_eq] at hid
    exact (h.threaded.mem id).mp (List.mem_of_mem_head? hid)
  · rw [horder]
    exact h.threaded.tail_eq
  · exact h.bounded

/-- Whatever operations a table has been through, it is consistent, and the
next one does not find it otherwise. -/
theorem flow_table_stays_consistent (capacity : Nat) (observeTraffic : Bool) (ops : List Op) :
    ((new capacity observeTraffic).performAll ops).Consistent ∧
      ((new capacity observeTraffic).performAll ops).capacity = capacity ∧
      ∀ op, (((new capacity observeTraffic).performAll ops).perform op).1 ≠ some .inconsistent := by
  obtain ⟨ks, hholds, hcap⟩ := holds_performAll capacity observeTraffic ops
  refine ⟨hholds.consistent, hcap, fun op => ?_⟩
  obtain ⟨ks', -, -, hok, -⟩ := hholds.perform op
  exact hok

end Runs

end Rustgo.Udp.FlowTable
