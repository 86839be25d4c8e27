import Rustgo.OperationLedger

namespace Rustgo.Web

open Runs Tables

section Records

variable {records : List OperationRecord} {record : OperationRecord} {key : Digest} {outcome : OperationOutcome}

theorem setOutcome_eq_map (h : (records.map OperationRecord.key).Nodup) (key : Digest) (outcome : OperationOutcome) :
    OperationLedger.setOutcome key outcome records =
      records.map fun r => if r.key = key then { r with outcome := outcome } else r := by
  induction records with
  | nil => rfl
  | cons r records ih =>
      obtain ⟨hnot, hrest⟩ := List.nodup_cons.mp h
      rw [OperationLedger.setOutcome, List.map_cons]
      split
      · next hkey =>
        have hsame : records.map (fun r => if r.key = key then { r with outcome := outcome } else r) = records := by
          refine (List.map_congr_left fun x hx => if_neg fun hxkey => hnot ?_).trans (List.map_id _)
          rw [hkey, ← hxkey]
          exact List.mem_map_of_mem hx
        rw [hsame]
      · rw [ih hrest]

theorem keys_setOutcome (h : (records.map OperationRecord.key).Nodup) (key : Digest) (outcome : OperationOutcome) :
    (OperationLedger.setOutcome key outcome records).map OperationRecord.key = records.map OperationRecord.key := by
  rw [setOutcome_eq_map h, List.map_map]
  refine List.map_congr_left fun r _ => ?_
  dsimp only [Function.comp_apply]
  split <;> rfl

theorem mem_setOutcome_of_ne (h : (records.map OperationRecord.key).Nodup) (hkey : record.key ≠ key) :
    record ∈ OperationLedger.setOutcome key outcome records ↔ record ∈ records := by
  rw [setOutcome_eq_map h, List.mem_map]
  constructor
  · rintro ⟨r, hr, rfl⟩
    split at hkey
    · next hrkey => exact absurd hrkey hkey
    · next hne =>
      rw [if_neg hne]
      exact hr
  · exact fun hr => ⟨record, hr, if_neg hkey⟩

theorem setOutcome_mem (h : (records.map OperationRecord.key).Nodup) (hr : record ∈ records) (outcome : OperationOutcome) :
    { record with outcome := outcome } ∈ OperationLedger.setOutcome record.key outcome records := by
  rw [setOutcome_eq_map h]
  exact List.mem_map.mpr ⟨record, hr, if_pos rfl⟩

theorem outcome_of_mem_setOutcome (h : (records.map OperationRecord.key).Nodup)
    (hr : record ∈ OperationLedger.setOutcome key outcome records) (hkey : record.key = key) : record.outcome = outcome := by
  rw [setOutcome_eq_map h] at hr
  obtain ⟨r, -, rfl⟩ := List.mem_map.mp hr
  by_cases hrkey : r.key = key
  · rw [if_pos hrkey]
  · rw [if_neg hrkey] at hkey
    exact absurd hkey hrkey

theorem mem_eraseP_key (h : (records.map OperationRecord.key).Nodup) :
    record ∈ records.eraseP (·.key = key) ↔ record ∈ records ∧ record.key ≠ key := by
  induction records with
  | nil => simp
  | cons r records ih =>
      obtain ⟨hnot, hrest⟩ := List.nodup_cons.mp h
      by_cases hkey : r.key = key
      · rw [List.eraseP_cons_of_pos (by simpa using hkey), List.mem_cons]
        constructor
        · intro hmem
          refine ⟨.inr hmem, fun hsame => hnot ?_⟩
          rw [hkey, ← hsame]
          exact List.mem_map_of_mem hmem
        · rintro ⟨rfl | hmem, hne⟩
          · exact absurd hkey hne
          · exact hmem
      · rw [List.eraseP_cons_of_neg (by simpa using hkey), List.mem_cons, List.mem_cons, ih hrest]
        constructor
        · rintro (rfl | ⟨hmem, hne⟩)
          · exact ⟨.inl rfl, hkey⟩
          · exact ⟨.inr hmem, hne⟩
        · rintro ⟨rfl | hmem, hne⟩
          · exact .inl rfl
          · exact .inr ⟨hmem, hne⟩

theorem eq_of_key_eq (h : (records.map OperationRecord.key).Nodup) {r r' : OperationRecord} (hr : r ∈ records)
    (hr' : r' ∈ records) (hkey : r.key = r'.key) : r = r' := List.inj_on_of_nodup_map h hr hr' hkey

end Records

section Begin

variable {l : OperationLedger}

/-- The records that `begin` leaves before it adds one: all of them, or all but a finished one. -/
structure Spares (l : OperationLedger) (rest : List OperationRecord) : Prop where
  sublist : rest.Sublist l.records
  pending : ∀ r ∈ l.records, r.outcome = .pending → r ∈ rest
  full : ∀ r ∈ l.records, r ∉ rest → l.records.length = l.capacity
  room : rest.length < l.capacity

theorem begin_cases (hbound : l.records.length ≤ l.capacity) (call : OperationCall) :
    (∃ r ∈ l.records, r.key = call.key ∧ l.begin call = (r.answer (Sha256.digest call.request), l)) ∨
      (∀ r ∈ l.records, r.key ≠ call.key) ∧
        (l.begin call = (.unavailable, l) ∨
          ∃ rest, Spares l rest ∧
            l.begin call =
              (.started call.key, { l with records := rest ++ [⟨call.key, Sha256.digest call.request, .pending⟩] })) := by
  rw [OperationLedger.begin]
  cases hfind : l.records.find? (·.key = call.key) with
  | some r => exact .inl ⟨r, List.mem_of_find?_eq_some hfind, by simpa using List.find?_some hfind, rfl⟩
  | none =>
      refine .inr ⟨fun r hr hkey => ?_, ?_⟩
      · exact absurd hkey (by simpa using List.find?_eq_none.mp hfind r hr)
      · dsimp only
        split
        · next hfull =>
          cases hidx : l.records.findIdx? (!·.isPending) with
          | none => exact .inl rfl
          | some index =>
              obtain ⟨hlt, hfinished, -⟩ := List.findIdx?_eq_some_iff_getElem.mp hidx
              refine .inr ⟨l.records.eraseIdx index, ⟨List.eraseIdx_sublist _ _, ?_, fun _ _ _ => hfull, ?_⟩, rfl⟩
              · intro r hr hpending
                obtain ⟨i, hi, rfl⟩ := List.getElem_of_mem hr
                refine List.mem_eraseIdx_iff_getElem.mpr ⟨i, hi, fun heq => ?_, rfl⟩
                subst heq
                simp [OperationRecord.isPending, hpending] at hfinished
              · rw [List.length_eraseIdx_of_lt hlt]
                omega
        · next hroom =>
          exact .inr ⟨l.records, ⟨List.Sublist.refl _, fun r hr _ => hr, fun r hr hnot => absurd hr hnot,
            Nat.lt_of_le_of_ne hbound hroom⟩, rfl⟩

end Begin

namespace Management

variable {m m' : Management} {key : Digest} {event : ManagementEvent} {events : List ManagementEvent} {capacity : Nat}

abbrev records (m : Management) : List OperationRecord := m.operations.records

/-- A record is pending exactly while there is a handler of its key, or a dropped one. -/
structure Accounted (m : Management) : Prop where
  nodup : (m.records.map OperationRecord.key).Nodup
  bounded : m.records.length ≤ m.operations.capacity
  pending : ∀ r ∈ m.records, r.outcome = .pending → r.key ∈ m.handlers
  working : ∀ key ∈ m.handlers, ∃ r ∈ m.records, r.key = key ∧ r.outcome = .pending

theorem accounted_start (capacity : Nat) : (start capacity).Accounted where
  nodup := List.nodup_nil
  bounded := Nat.zero_le _
  pending r hr := absurd hr List.not_mem_nil
  working key hkey := absurd hkey Finmap.notMem_empty

theorem complete_eq (l : OperationLedger) (key : Digest) (kind : OperationKind) (result : TaskResult) :
    (∃ outcome, outcome ≠ .pending ∧
        complete l key kind result = { l with records := OperationLedger.setOutcome key outcome l.records }) ∨
      complete l key kind result = { l with records := l.records.eraseP (·.key = key) } := by
  cases result with
  | succeeded body =>
      cases kind with
      | secret => exact .inl ⟨.secret, by simp, rfl⟩
      | mutation => exact .inl ⟨.response 200 body, by simp, rfl⟩
  | failed => cases kind <;> exact .inr rfl
  | panicked => cases kind <;> exact .inr rfl

/-- After its handler has completed, a key has no pending record, and the others are as before. -/
theorem complete_records (h : m.Accounted) (key : Digest) (kind : OperationKind) (result : TaskResult) :
    ((complete m.operations key kind result).records.map OperationRecord.key).Nodup ∧
      (complete m.operations key kind result).records.length ≤ m.operations.capacity ∧
      (complete m.operations key kind result).capacity = m.operations.capacity ∧
      (∀ r ∈ (complete m.operations key kind result).records, r.key = key → r.outcome ≠ .pending) ∧
      ∀ r, r.key ≠ key → (r ∈ (complete m.operations key kind result).records ↔ r ∈ m.records) := by
  rcases complete_eq m.operations key kind result with ⟨outcome, houtcome, heq⟩ | heq
  · rw [heq]
    refine ⟨?_, ?_, rfl, ?_, fun r hr => mem_setOutcome_of_ne h.nodup hr⟩
    · rw [keys_setOutcome h.nodup]
      exact h.nodup
    · rw [setOutcome_eq_map h.nodup, List.length_map]
      exact h.bounded
    · intro r hr hkey
      rw [outcome_of_mem_setOutcome h.nodup hr hkey]
      exact houtcome
  · rw [heq]
    refine ⟨?_, ?_, rfl, ?_, fun r hr => (mem_eraseP_key h.nodup).trans (and_iff_left hr)⟩
    · exact h.nodup.sublist (List.eraseP_sublist.map _)
    · exact (List.length_eraseP_le).trans h.bounded
    · intro r hr hkey
      exact absurd hkey ((mem_eraseP_key h.nodup).mp hr).2

theorem Accounted.begin (h : m.Accounted) (call : OperationCall) (kind : OperationKind) : (m.begin call kind).Accounted := by
  rw [Management.begin]
  rcases begin_cases h.bounded call with ⟨r, hr, hkey, heq⟩ | ⟨hfresh, heq | ⟨rest, hrest, heq⟩⟩
  · have hanswer : ∀ started, r.answer (Sha256.digest call.request) ≠ .started started := by
      intro started
      rw [OperationRecord.answer]
      split
      · simp
      · cases r.outcome <;> simp
    rw [heq]
    split
    · next started _ hstarted => exact absurd (congrArg Prod.fst hstarted) (hanswer started)
    · next hsame =>
      cases hsame
      exact h
  · rw [heq]
    exact h
  · rw [heq]
    constructor
    · have hkeys : call.key ∉ rest.map OperationRecord.key := by
        intro hmem
        obtain ⟨r, hr, hkey⟩ := List.mem_map.mp hmem
        exact hfresh r (hrest.sublist.subset hr) hkey
      rw [records, List.map_append, List.map_singleton]
      refine (h.nodup.sublist (hrest.sublist.map _)).append (List.nodup_singleton _) ?_
      exact List.disjoint_singleton.mpr hkeys
    · rw [records, List.length_append, List.length_singleton]
      exact hrest.room
    · intro r hr hpending
      rcases List.mem_append.mp hr with hold | hnew
      · exact Finmap.mem_insert.mpr (.inr (h.pending r (hrest.sublist.subset hold) hpending))
      · obtain rfl := List.mem_singleton.mp hnew
        exact Finmap.mem_insert.mpr (.inl rfl)
    · intro key hkey
      rcases Finmap.mem_insert.mp hkey with rfl | hold
      · exact ⟨_, List.mem_append_right _ (List.mem_singleton.mpr rfl), rfl, rfl⟩
      · obtain ⟨r, hr, hrkey, hpending⟩ := h.working key hold
        exact ⟨r, List.mem_append_left _ (hrest.pending r hr hpending), hrkey, hpending⟩

/-- A change to the handlers only. -/
theorem Accounted.handlers (h : m.Accounted) {handlers : Table Digest Handler}
    (hsame : ∀ key, key ∈ handlers ↔ key ∈ m.handlers) : ({ m with handlers := handlers } : Management).Accounted where
  nodup := h.nodup
  bounded := h.bounded
  pending r hr hpending := (hsame r.key).mpr (h.pending r hr hpending)
  working key hkey := h.working key ((hsame key).mp hkey)

theorem mem_insert_of_mem {handlers : Table Digest Handler} {handler : Handler} (h : key ∈ handlers) (x : Digest) :
    x ∈ handlers.insert key handler ↔ x ∈ handlers := by
  rw [Finmap.mem_insert]
  constructor
  · rintro (rfl | hx)
    · exact h
    · exact hx
  · exact .inr

theorem Accounted.complete (h : m.Accounted) (key : Digest) (kind : OperationKind) (result : TaskResult) :
    (⟨complete m.operations key kind result, m.handlers.erase key⟩ : Management).Accounted := by
  obtain ⟨hnodup, hlen, hcap, hdone, hothers⟩ := complete_records h key kind result
  constructor
  · exact hnodup
  · rw [hcap]
    exact hlen
  · intro r hr hpending
    have hne : r.key ≠ key := fun hkey => hdone r hr hkey hpending
    exact Finmap.mem_erase.mpr ⟨hne, h.pending r ((hothers r hne).mp hr) hpending⟩
  · intro x hx
    obtain ⟨hne, hx⟩ := Finmap.mem_erase.mp hx
    obtain ⟨r, hr, hrkey, hpending⟩ := h.working x hx
    exact ⟨r, (hothers r (hrkey ▸ hne)).mpr hr, hrkey, hpending⟩

/-- What each event does. -/
theorem step_cases (h : Step m event m') :
    (∃ call kind, event = .begin call kind ∧ m' = m.begin call kind) ∨
      (∃ key kind running result, event = .execute key result ∧ m.handlers.lookup key = some ⟨kind, running, none⟩ ∧
        m' = { m with handlers := m.handlers.insert key ⟨kind, running, some result⟩ }) ∨
      (∃ key kind result, event = .resume key ∧ m.handlers.lookup key = some ⟨kind, true, some result⟩ ∧
        m' = ⟨complete m.operations key kind result, m.handlers.erase key⟩) ∨
      ∃ key kind result, event = .drop key ∧ m.handlers.lookup key = some ⟨kind, true, result⟩ ∧
        m' = { m with handlers := m.handlers.insert key ⟨kind, false, result⟩ } := by
  unfold Step next at h
  cases event with
  | begin call kind => exact .inl ⟨call, kind, rfl, (Option.some.inj h).symm⟩
  | execute key result =>
      dsimp only at h
      split at h
      · next kind running hlookup =>
        exact .inr (.inl ⟨key, kind, running, result, rfl, hlookup, (Option.some.inj h).symm⟩)
      · cases h
  | resume key =>
      dsimp only at h
      split at h
      · next kind result hlookup =>
        exact .inr (.inr (.inl ⟨key, kind, result, rfl, hlookup, (Option.some.inj h).symm⟩))
      · cases h
  | drop key =>
      dsimp only at h
      split at h
      · next kind result hlookup =>
        exact .inr (.inr (.inr ⟨key, kind, result, rfl, hlookup, (Option.some.inj h).symm⟩))
      · cases h

theorem Accounted.step (h : m.Accounted) (hstep : Step m event m') : m'.Accounted := by
  rcases step_cases hstep with ⟨call, kind, -, rfl⟩ | ⟨key, kind, running, result, -, hlookup, rfl⟩ |
    ⟨key, kind, result, -, -, rfl⟩ | ⟨key, kind, result, -, hlookup, rfl⟩
  · exact h.begin call kind
  · exact h.handlers (mem_insert_of_mem (Finmap.mem_of_lookup_eq_some hlookup))
  · exact h.complete key kind result
  · exact h.handlers (mem_insert_of_mem (Finmap.mem_of_lookup_eq_some hlookup))

theorem accounted_of_run (h : Run Step (start capacity) events m) : m.Accounted :=
  h.invariant (fun _ _ _ hm hstep => hm.step hstep) (accounted_start capacity)

/-- What the ledger makes of the requests, with or without dropped handlers. -/
structure Recorded (m : Management) : Prop where
  unique : (m.records.map OperationRecord.key).Nodup
  bounded : m.records.length ≤ m.operations.capacity
  /-- A pending record goes only when its own handler completes. -/
  pending : ∀ event m', Step m event m' → ∀ r ∈ m.records, r.outcome = .pending → r ∈ m'.records ∨ event = .resume r.key
  /-- An operation is executed only while its record is pending. -/
  executing : ∀ key result m', Step m (.execute key result) m' → ∃ r ∈ m.records, r.key = key ∧ r.outcome = .pending
  /-- The success of an operation is stored in the record that it was admitted with. -/
  stored : ∀ key kind body m', Step m (.resume key) m' → m.handlers.lookup key = some ⟨kind, true, some (.succeeded body)⟩ →
    ∃ r ∈ m.records, r.key = key ∧
      { r with outcome := if kind = .secret then .secret else .response 200 body } ∈ m'.records
  /-- A stored outcome goes only when room is made for another operation. -/
  kept : ∀ event m', Step m event m' → ∀ r ∈ m.records, r.outcome ≠ .pending → r ∈ m'.records ∨
    m.records.length = m.operations.capacity ∧ ∃ call kind, event = .begin call kind ∧ call.key ≠ r.key
  /-- A repeat is answered from the record and starts nothing. -/
  repeated : ∀ r ∈ m.records, r.outcome ≠ .pending → ∀ call : OperationCall, call.key = r.key →
    m.operations.begin call =
      (if r.request ≠ Sha256.digest call.request then .conflict
        else if r.outcome = .secret then .secretUnavailable else r.answer r.request, m.operations)

/-- Only a pending record can be changed by the completion of a handler. -/
theorem Accounted.pending_of_mem (h : m.Accounted) {r : OperationRecord} (hr : r ∈ m.records) (hkey : r.key ∈ m.handlers) :
    r.outcome = .pending := by
  obtain ⟨r', hr', hsame, hpending⟩ := h.working r.key hkey
  rw [eq_of_key_eq h.nodup hr hr' hsame.symm]
  exact hpending

theorem Accounted.stored (h : m.Accounted) {kind : OperationKind} {body : Bytes} (hstep : Step m (.resume key) m')
    (hlookup : m.handlers.lookup key = some ⟨kind, true, some (.succeeded body)⟩) :
    ∃ r ∈ m.records, r.key = key ∧
      { r with outcome := if kind = .secret then .secret else .response 200 body } ∈ m'.records := by
  obtain ⟨r, hr, hrkey, -⟩ := h.working key (Finmap.mem_of_lookup_eq_some hlookup)
  have hm' : m' = ⟨Management.complete m.operations key kind (.succeeded body), m.handlers.erase key⟩ := by
    simpa [Step, next, hlookup] using hstep.symm
  refine ⟨r, hr, hrkey, ?_⟩
  rw [hm', ← hrkey]
  cases kind with
  | secret => exact setOutcome_mem h.nodup hr _
  | mutation => exact setOutcome_mem h.nodup hr _

/-- What an event leaves of the records: all, except for the key of a completed handler
and a finished record that makes room for a new one. -/
theorem Accounted.keeps (h : m.Accounted) (hstep : Step m event m') {r : OperationRecord} (hr : r ∈ m.records) :
    r ∈ m'.records ∨ event = .resume r.key ∨
      r.outcome ≠ .pending ∧ m.records.length = m.operations.capacity ∧ ∃ call kind, event = .begin call kind ∧ call.key ≠ r.key := by
  rcases step_cases hstep with ⟨call, kind, rfl, rfl⟩ | ⟨key, kind, running, result, -, -, rfl⟩ |
    ⟨key, kind, result, rfl, -, rfl⟩ | ⟨key, kind, result, -, -, rfl⟩
  · rw [Management.begin]
    rcases begin_cases h.bounded call with ⟨r', hr', hkey, heq⟩ | ⟨hfresh, heq | ⟨rest, hrest, heq⟩⟩
    · left
      rw [heq]
      split
      · next hstarted =>
        obtain rfl := congrArg Prod.snd hstarted
        exact hr
      · next hsame =>
        obtain rfl := congrArg Prod.snd hsame
        exact hr
    · rw [heq]
      exact .inl hr
    · rw [heq]
      by_cases hin : r ∈ rest
      · exact .inl (List.mem_append_left _ hin)
      · exact .inr (.inr ⟨fun hpending => hin (hrest.pending r hr hpending), hrest.full r hr hin, call, kind, rfl,
          fun hkey => hfresh r hr hkey.symm⟩)
  · exact .inl hr
  · by_cases hkey : r.key = key
    · exact .inr (.inl (by rw [hkey]))
    · exact .inl (((complete_records h key kind result).2.2.2.2 r hkey).mpr hr)
  · exact .inl hr

theorem Accounted.recorded (h : m.Accounted) : m.Recorded where
  unique := h.nodup
  bounded := h.bounded
  pending event m' hstep r hr hpending := by
    rcases h.keeps hstep hr with hin | hresume | ⟨hdone, -⟩
    · exact .inl hin
    · exact .inr hresume
    · exact absurd hpending hdone
  executing key result m' hstep := by
    rcases step_cases hstep with ⟨_, _, hevent, -⟩ | ⟨key', _, _, _, hevent, hlookup, -⟩ | ⟨_, _, _, hevent, -⟩ |
      ⟨_, _, _, hevent, -⟩
    · cases hevent
    · cases hevent
      exact h.working key (Finmap.mem_of_lookup_eq_some hlookup)
    · cases hevent
    · cases hevent
  stored key kind body m' hstep hlookup := h.stored hstep hlookup
  kept event m' hstep r hr hdone := by
    rcases h.keeps hstep hr with hin | rfl | ⟨-, hfull, hbegin⟩
    · exact .inl hin
    · have hhandler : r.key ∈ m.handlers := by
        rcases step_cases hstep with ⟨_, _, hevent, -⟩ | ⟨_, _, _, _, hevent, -⟩ | ⟨_, _, _, hevent, hlookup, -⟩ |
          ⟨_, _, _, hevent, -⟩
        · cases hevent
        · cases hevent
        · cases hevent
          exact Finmap.mem_of_lookup_eq_some hlookup
        · cases hevent
      exact absurd (h.pending_of_mem hr hhandler) hdone
    · exact .inr ⟨hfull, hbegin⟩
  repeated r hr hdone call hkey := by
    rcases begin_cases h.bounded call with ⟨r', hr', hkey', heq⟩ | ⟨hfresh, -⟩
    · obtain rfl := eq_of_key_eq h.nodup hr' hr (hkey'.trans hkey)
      rw [heq, OperationRecord.answer, OperationRecord.answer]
      cases hout : r'.outcome with
      | pending => exact absurd hout hdone
      | secret => simp
      | response status body =>
          by_cases hrequest : r'.request = Sha256.digest call.request
          · simp [hrequest]
          · simp [hrequest]
    · exact absurd hkey.symm (hfresh r hr)

/-- A handler of the key was dropped. -/
def Dropped (m : Management) (key : Digest) : Prop :=
  ∃ handler, m.handlers.lookup key = some handler ∧ handler.running = false

theorem dropped_insert {handlers : Table Digest Handler} {kind : OperationKind} {running : Bool} {result : Option TaskResult}
    {l l' : OperationLedger} {x : Digest} :
    Dropped ⟨l', handlers.insert x ⟨kind, running, result⟩⟩ key ↔
      key = x ∧ running = false ∨ key ≠ x ∧ Dropped ⟨l, handlers⟩ key := by
  by_cases hx : key = x
  · subst hx
    simp [Dropped]
  · simp [Dropped, hx, Finmap.lookup_insert_of_ne]

theorem Accounted.dropped_begin (h : m.Accounted) (call : OperationCall) (kind : OperationKind) (key : Digest) :
    (m.begin call kind).Dropped key ↔ m.Dropped key := by
  rw [Management.begin]
  split
  · next started operations hstarted =>
    rcases begin_cases h.bounded call with ⟨r, -, -, heq⟩ | ⟨hfresh, heq | ⟨rest, -, heq⟩⟩
    · rw [heq, Prod.mk.injEq, OperationRecord.answer] at hstarted
      split at hstarted
      · cases hstarted.1
      · cases hout : r.outcome <;> simp [hout] at hstarted
    · rw [heq] at hstarted
      cases hstarted
    · rw [heq] at hstarted
      cases hstarted
      rw [dropped_insert (l := m.operations)]
      have hnew : ¬m.Dropped call.key := by
        rintro ⟨handler, hlookup, -⟩
        obtain ⟨r, hr, hrkey, -⟩ := h.working call.key (Finmap.mem_of_lookup_eq_some hlookup)
        exact hfresh r hr hrkey
      constructor
      · rintro (⟨-, hfalse⟩ | ⟨-, hdropped⟩)
        · cases hfalse
        · exact hdropped
      · intro hdropped
        exact .inr ⟨fun hkey => hnew (hkey ▸ hdropped), hdropped⟩
  · exact Iff.rfl

theorem Accounted.dropped_step (h : m.Accounted) (hstep : Step m event m') (key : Digest) :
    m'.Dropped key ↔ m.Dropped key ∨ event = .drop key := by
  rcases step_cases hstep with ⟨call, kind, rfl, rfl⟩ | ⟨x, kind, running, result, rfl, hlookup, rfl⟩ |
    ⟨x, kind, result, rfl, hlookup, rfl⟩ | ⟨x, kind, result, rfl, hlookup, rfl⟩
  · simpa using h.dropped_begin call kind key
  · rw [dropped_insert (l := m.operations)]
    by_cases hkey : key = x
    · subst hkey
      simp [Dropped, hlookup]
    · simp [hkey]
  · by_cases hkey : key = x
    · subst hkey
      simp [Dropped, hlookup]
    · simp [Dropped, Finmap.lookup_erase_ne hkey]
  · rw [dropped_insert (l := m.operations)]
    by_cases hkey : key = x
    · subst hkey
      simp
    · simp [hkey, eq_comm]

/-- The handlers that do not run any more are those that were dropped. -/
theorem dropped_iff (h : Run Step (start capacity) events m) (key : Digest) : m.Dropped key ↔ .drop key ∈ events := by
  induction h with
  | refl => simp [start, Dropped]
  | snoc hbefore hstep ih =>
      rw [(accounted_of_run hbefore).dropped_step hstep key, ih, List.mem_append, List.mem_singleton]
      simp [eq_comm]

/-- Operations are recorded, kept and repeated as they should, and once no handler is
running no record is pending, exactly if no handler was dropped before it could complete. -/
theorem operations_settled_iff (capacity : Nat) (events : List ManagementEvent) (m : Management)
    (h : Run Step (start capacity) events m) :
    m.Recorded ∧ (m.Idle → ((∀ r ∈ m.records, r.outcome ≠ .pending) ↔ ∀ key, .drop key ∉ events)) := by
  have hm := accounted_of_run h
  refine ⟨hm.recorded, fun hidle => ⟨fun hsettled key hdrop => ?_, fun hnone r hr hpending => ?_⟩⟩
  · obtain ⟨handler, hlookup, -⟩ := (dropped_iff h key).mpr hdrop
    obtain ⟨r, hr, -, hpending⟩ := hm.working key (Finmap.mem_of_lookup_eq_some hlookup)
    exact hsettled r hr hpending
  · obtain ⟨handler, hlookup⟩ := Finmap.mem_iff.mp (hm.pending r hr hpending)
    exact hnone r.key ((dropped_iff h r.key).mp ⟨handler, hlookup, hidle r.key handler hlookup⟩)

theorem step_of_next (m : Management) (event : ManagementEvent) (m' : Management) (h : m.next event = some m') :
    Step m event m' := h

section Sample

def disableCall : OperationCall := ⟨[1], [2], [3], [4]⟩

/-- A client is disabled, and the same request is repeated. -/
def repeated : List ManagementEvent :=
  [.begin disableCall .mutation, .execute disableCall.key (.succeeded [5]), .resume disableCall.key, .begin disableCall .mutation]

theorem operations_settled_iff_sample :
    ∃ m : Management, (m.records.map OperationRecord.outcome = [.response 200 [5]]) ∧
      m.Recorded ∧ (m.Idle → ((∀ r ∈ m.records, r.outcome ≠ .pending) ↔ ∀ key, .drop key ∉ repeated)) := by
  obtain ⟨m, hrun, hm⟩ := run_of_exec_any (P := fun m => m.records.map OperationRecord.outcome = [.response 200 [5]])
    step_of_next (show (exec next (start 2) repeated).any _ = true by decide +kernel)
  exact ⟨m, hm, operations_settled_iff 2 repeated m hrun⟩

/-- The request times out while the store is being changed. -/
def timedOut : List ManagementEvent :=
  [.begin disableCall .mutation, .drop disableCall.key, .execute disableCall.key (.succeeded [5])]

theorem abandoned_operation_stays_pending :
    ¬∀ (capacity : Nat) (events : List ManagementEvent) (m : Management), Run Step (start capacity) events m →
      m.Idle → ∀ r ∈ m.records, r.outcome ≠ .pending := by
  intro hclaim
  obtain ⟨m, hrun, hpending⟩ := run_of_exec_any
    (P := fun m => m.records.any (·.isPending) ∧ m.handlers = (∅ : Table Digest Handler).insert disableCall.key
      ⟨.mutation, false, some (.succeeded [5])⟩)
    step_of_next (show (exec next (start 2) timedOut).any _ = true by decide +kernel)
  obtain ⟨hpending, hhandlers⟩ := hpending
  obtain ⟨r, hr, hrpending⟩ := List.any_eq_true.mp hpending
  refine hclaim 2 timedOut m hrun (fun key handler hlookup => ?_) r hr (by simpa [OperationRecord.isPending] using hrpending)
  rw [hhandlers] at hlookup
  by_cases hkey : key = disableCall.key
  · rw [hkey, Finmap.lookup_insert] at hlookup
    rw [← Option.some.inj hlookup]
  · simp [Finmap.lookup_insert_of_ne _ hkey] at hlookup

end Sample

end Management

end Rustgo.Web
