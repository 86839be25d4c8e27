import Rustgo.LocalTasks

namespace Rustgo.Udp

open Tables LinkedTable SocketAddr Protocol Runs

namespace ClientSessionTable

variable {t t' u : ClientSessionTable} {ks : List UInt64} {id x lease : UInt64} {cs ds : List UInt64}

theorem leaseOf_modify {f : ClientSession → ClientSession} (hf : ∀ s, (f s).lease = s.lease) :
    ({ t with sessions := LinkedTable.modify t.sessions id f } : ClientSessionTable).leaseOf x = t.leaseOf x :=
  map_lookup_modify hf

theorem leaseOf_touch (t : ClientSessionTable) (c : Touch) (x : UInt64) : (t.touch c).leaseOf x = t.leaseOf x := by
  refine leaseOf_modify fun s => ?_
  split <;> rfl

theorem leaseOf_touchAll (t : ClientSessionTable) (cs : List Touch) (x : UInt64) :
    (t.touchAll cs).leaseOf x = t.leaseOf x := by
  induction cs generalizing t with
  | nil => rfl
  | cons c cs ih => exact (ih (t.touch c)).trans (leaseOf_touch t c x)

theorem leaseOf_eq_none : t.leaseOf id = none ↔ id ∉ t.sessions := by
  rw [leaseOf, Option.map_eq_none_iff, Finmap.lookup_eq_none]

theorem leaseOf_remove_of_ne (h : x ≠ id) : (t.remove id).2.leaseOf x = t.leaseOf x := by
  rw [remove]
  cases t.sessions.lookup id with
  | none => rfl
  | some session =>
      refine (map_lookup_modify? (f := ClientSession.setPrevious session.previous) fun _ => rfl).trans ?_
      refine (map_lookup_modify? (f := ClientSession.setNext session.next) fun _ => rfl).trans ?_
      rw [Finmap.lookup_erase_ne h]
      rfl

theorem leaseOf_remove_self (h : t.Holds ks) (id : UInt64) : (t.remove id).2.leaseOf id = none := by
  refine leaseOf_eq_none.mpr fun hmem => ?_
  exact h.nodup.not_mem_erase (((h.remove id).mem id).mpr hmem)

theorem leaseOf_rotate (t : ClientSessionTable) (id x : UInt64) : (t.rotateSweepHead id).2.leaseOf x = t.leaseOf x := by
  rw [rotateSweepHead]
  split
  · rfl
  · split
    · rfl
    · split
      · rfl
      · rfl
      · split
        · rfl
        · dsimp only
          split
          · exact leaseOf_modify fun _ => rfl
          · split
            · simp only [leaseOf]
              rw [map_lookup_modify, map_lookup_modify]
              all_goals exact fun _ => rfl
            · simp only [leaseOf]
              rw [map_lookup_modify, map_lookup_modify, map_lookup_modify]
              all_goals exact fun _ => rfl

/-- A session stays with its lease, or leaves and has its token among `cancels`. -/
def Leaves (t t' : ClientSessionTable) (cancels : List UInt64) : Prop :=
  ∀ id, t'.leaseOf id = t.leaseOf id ∨ t'.leaseOf id = none ∧ ∀ lease, t.leaseOf id = some lease → lease ∈ cancels

theorem leaves_of_eq (h : ∀ id, t'.leaseOf id = t.leaseOf id) : t.Leaves t' cs := fun id => .inl (h id)

theorem Leaves.mono (h : t.Leaves t' cs) (hsub : cs ⊆ ds) : t.Leaves t' ds := fun id =>
  (h id).imp_right fun hout => ⟨hout.1, fun lease hlease => hsub (hout.2 lease hlease)⟩

theorem Leaves.trans (h : t.Leaves t' cs) (h' : t'.Leaves u ds) : t.Leaves u (cs ++ ds) := by
  intro id
  rcases h id with hsame | ⟨hnone, hcs⟩
  · rcases h' id with hsame' | ⟨hnone', hds⟩
    · exact .inl (hsame'.trans hsame)
    · refine .inr ⟨hnone', fun lease hlease => List.mem_append_right _ (hds lease ?_)⟩
      rw [hsame, hlease]
  · have hgone : u.leaseOf id = none := by
      rcases h' id with hsame' | ⟨hnone', -⟩
      · rw [hsame', hnone]
      · exact hnone'
    exact .inr ⟨hgone, fun lease hlease => List.mem_append_left _ (hcs lease hlease)⟩

theorem Holds.leaves_remove (h : t.Holds ks) (id : UInt64) : t.Leaves (t.remove id).2 (t.removeCancels id) := by
  intro x
  by_cases hx : x = id
  · rw [hx]
    exact .inr ⟨leaseOf_remove_self h id, fun lease hlease => by simp [removeCancels, hlease]⟩
  · exact .inl (leaseOf_remove_of_ne hx)

theorem Holds.leaves_sweepLoop (h : t.Holds ks) (now idleTimeout : Nat) (touches : Nat → List Touch) {count : Nat}
    (hc : count ≤ ks.length) (expired : Nat) :
    t.Leaves (ClientSessionTable.sweepLoop now idleTimeout touches count t expired).2 (sweepCancels now idleTimeout touches count t) := by
  induction count generalizing t ks expired with
  | zero => exact leaves_of_eq fun _ => rfl
  | succ count ih =>
      cases ks with
      | nil => simp at hc
      | cons id ks =>
          have hc' : count ≤ ks.length := Nat.le_of_succ_le_succ hc
          have htouched := h.touchAll (touches count)
          have hsame : t.Leaves (t.touchAll (touches count)) [] := leaves_of_eq (leaseOf_touchAll t (touches count))
          rw [ClientSessionTable.sweepLoop, sweepCancels]
          generalize t.touchAll (touches count) = t₁ at htouched hsame
          have hhead : t₁.sweepHead = some id := htouched.head_eq
          simp only [hhead]
          cases he : t₁.isExpired id now idleTimeout with
          | true =>
              obtain ⟨first, hfirst, -, -⟩ := htouched.segment.1
              have hr : t₁.remove id = (true, (t₁.remove id).2) := Prod.ext (remove_fst_of_lookup hfirst) rfl
              have hremoved := htouched.remove id
              rw [List.erase_cons_head] at hremoved
              simp only [if_true]
              rw [hr]
              exact hsame.trans ((htouched.leaves_remove id).trans (ih hremoved hc' (expired + 1)))
          | false =>
              obtain ⟨t₂, hr, hrotated, -⟩ := htouched.rotate
              have hc'' : count ≤ (ks ++ [id]).length := by
                rw [List.length_append]
                omega
              have hmoved : t₁.Leaves t₂ [] := leaves_of_eq fun x => by rw [← leaseOf_rotate t₁ id x, hr]
              simp only [Bool.false_eq_true, if_false, hr]
              exact hsame.trans (hmoved.trans (ih hrotated hc'' expired))

theorem Holds.leaves_sweepExpired (h : t.Holds ks) (now idleTimeout maximum : Nat) (touches : Nat → List Touch) :
    t.Leaves (t.sweepExpired now idleTimeout maximum touches).2
      (sweepCancels now idleTimeout touches (min maximum (len t.sessions)) t) := by
  have hmin : min maximum (len t.sessions) ≤ ks.length := h.length_eq ▸ Nat.min_le_right _ _
  exact h.leaves_sweepLoop now idleTimeout touches hmin 0

theorem Holds.leaseOf_insert (h : t.Holds ks) (hid : t.sessions.lookup id = none) (session : ClientSession) (x : UInt64) :
    (t.insert id session).2.leaseOf x = if x = id then some session.lease else t.leaseOf x := by
  have hlease : ∀ (m : Table UInt64 ClientSession) (v : ClientSession), v.lease = session.lease →
      (∀ y, (m.lookup y).map ClientSession.lease = t.leaseOf y) →
      ((m.insert id v).lookup x).map ClientSession.lease = if x = id then some session.lease else t.leaseOf x := by
    intro m v hv hm
    split
    · next hx => rw [hx, Finmap.lookup_insert, Option.map_some, hv]
    · next hx => rw [Finmap.lookup_insert_of_ne _ hx, hm]
  rw [insert, hid]
  dsimp only
  cases htail : t.sweepTail with
  | none => exact hlease _ _ rfl fun _ => rfl
  | some previous =>
      obtain ⟨last, hlast⟩ := Finmap.mem_iff.mp ((h.mem previous).mp (List.mem_of_getLast? (h.tail_eq ▸ htail)))
      simp only [hlast]
      exact hlease _ _ rfl fun y => map_lookup_modify fun _ => rfl

theorem Holds.sweepOrder_eq (h : t.Holds ks) : t.sweepOrder = ks := h.walk_eq (Nat.le_succ _)

theorem Holds.consistent (h : t.Holds ks) : t.Consistent := by
  have horder := h.sweepOrder_eq
  constructor
  · rw [horder]
    exact h.nodup
  · rw [horder]
    exact h.mem
  · intro before id after hsplit
    have hsegment := h.segment
    rw [← horder, hsplit] at hsegment
    obtain ⟨session, hsession, hp, hn⟩ := hsegment.lookup
    rw [Option.or_none] at hp hn
    exact ⟨session, hsession, hp, hn⟩
  · rw [horder]
    exact h.head_eq
  · rw [horder]
    exact h.tail_eq

end ClientSessionTable

namespace RelayLoop

open ClientSessionTable

variable {config : RelayConfig} {limits : NegotiatedUdpLimits} {s t u : RelayLoop} {ks : List UInt64} {id lease : UInt64}

/-- What holds between the steps of the loop. -/
structure Ordered (limits : NegotiatedUdpLimits) (s : RelayLoop) : Prop where
  holds : ∃ ks, s.relay.Holds limits ks
  created : ∀ id lease, s.leaseOf id = some lease → (id, lease) ∈ s.spawned
  leases : ∀ task ∈ s.spawned, task.2.toNat ≤ s.relay.nextLocalLease
  once : (s.spawned.map Prod.snd).Nodup
  tasks : ∀ task ∈ s.localTasks, task ∈ s.spawned
  left : ∀ task ∈ s.spawned, s.leaseOf task.1 = some task.2 ∨ task.2 ∈ s.cancelled

theorem ordered_start (limits : NegotiatedUdpLimits) : start.Ordered limits where
  holds := ⟨[], LocalRelay.holds_new limits⟩
  created id lease h := by cases h
  leases task htask := absurd htask List.not_mem_nil
  once := List.nodup_nil
  tasks task htask := absurd htask List.not_mem_nil
  left task htask := absurd htask List.not_mem_nil

/-- A change that creates no session. -/
structure Loses (limits : NegotiatedUdpLimits) (s t : RelayLoop) : Prop where
  holds : ∀ ks, s.relay.Holds limits ks → ∃ ks', t.relay.Holds limits ks'
  counter : t.relay.nextLocalLease = s.relay.nextLocalLease
  spawned : t.spawned = s.spawned
  tasks : t.localTasks ⊆ s.localTasks
  cancelled : s.cancelled ⊆ t.cancelled
  leaves : s.relay.sessions.Leaves t.relay.sessions t.cancelled

theorem Loses.refl (limits : NegotiatedUdpLimits) (s : RelayLoop) : Loses limits s s :=
  ⟨fun ks h => ⟨ks, h⟩, rfl, rfl, List.Subset.refl _, List.Subset.refl _, leaves_of_eq fun _ => rfl⟩

theorem Loses.trans (h : Loses limits s t) (h' : Loses limits t u) : Loses limits s u where
  holds ks hks := by
    obtain ⟨ks', hks'⟩ := h.holds ks hks
    exact h'.holds ks' hks'
  counter := h'.counter.trans h.counter
  spawned := h'.spawned.trans h.spawned
  tasks := List.Subset.trans h'.tasks h.tasks
  cancelled := List.Subset.trans h.cancelled h'.cancelled
  leaves := (h.leaves.trans h'.leaves).mono (List.append_subset.mpr ⟨h'.cancelled, List.Subset.refl _⟩)

theorem Loses.ordered (h : Loses limits s t) (hs : s.Ordered limits) : t.Ordered limits where
  holds := by
    obtain ⟨ks, hks⟩ := hs.holds
    exact h.holds ks hks
  created id lease hlease := by
    rw [h.spawned]
    rcases h.leaves id with hsame | ⟨hnone, -⟩
    · exact hs.created id lease (hsame.symm.trans hlease)
    · exact absurd (hnone.symm.trans hlease) (by simp)
  leases := by
    rw [h.spawned, h.counter]
    exact hs.leases
  once := by
    rw [h.spawned]
    exact hs.once
  tasks task htask := by
    rw [h.spawned]
    exact hs.tasks task (h.tasks htask)
  left task htask := by
    rw [h.spawned] at htask
    rcases hs.left task htask with hin | hout
    · rcases h.leaves task.1 with hsame | ⟨-, hcancels⟩
      · exact .inl (hsame.trans hin)
      · exact .inr (hcancels task.2 hin)
    · exact .inr (h.cancelled hout)

theorem Ordered.loses_finish (hs : s.Ordered limits) : Loses limits s s.finish where
  holds _ _ := ⟨[], ClientSessionTable.holds_new, Nat.zero_le _⟩
  counter := rfl
  spawned := rfl
  tasks := List.Subset.refl _
  cancelled := List.subset_append_left _ _
  leaves id := .inr ⟨rfl, fun lease hlease =>
    List.mem_append_right _ (List.mem_map_of_mem (f := Prod.snd) (hs.created id lease hlease))⟩

theorem loses_fail (limits : NegotiatedUdpLimits) (s : RelayLoop) : Loses limits s s.fail :=
  ⟨fun ks h => ⟨ks, h⟩, rfl, rfl, List.nil_subset _, List.Subset.refl _, leaves_of_eq fun _ => rfl⟩

theorem Ordered.loses_remove (hs : s.Ordered limits) (id : UInt64) : Loses limits s (s.remove id) where
  holds ks hks := ⟨ks.erase id, hks.remove id⟩
  counter := rfl
  spawned := rfl
  tasks := List.Subset.refl _
  cancelled := List.subset_append_left _ _
  leaves := by
    obtain ⟨ks, hks⟩ := hs.holds
    exact (hks.sessions.leaves_remove id).mono (List.subset_append_right _ _)

theorem Ordered.loses_sweep (hs : s.Ordered limits) (now : Nat) (touches : Nat → List Touch) :
    Loses limits s (s.sweepExpired limits now touches) where
  holds ks hks := by
    obtain ⟨-, -, hholds, hlen⟩ := hks.sessions.sweepExpired now limits.idleTimeout limits.sweepBatch touches
    exact ⟨_, hholds, hlen.trans hks.bounded⟩
  counter := rfl
  spawned := rfl
  tasks := List.Subset.refl _
  cancelled := List.subset_append_left _ _
  leaves := by
    obtain ⟨ks, hks⟩ := hs.holds
    exact (hks.sessions.leaves_sweepExpired now limits.idleTimeout limits.sweepBatch touches).mono
      (List.subset_append_right _ _)

theorem loses_touch (limits : NegotiatedUdpLimits) (s : RelayLoop) (c : Touch) : Loses limits s (s.touch c) where
  holds ks hks := ⟨ks, hks.sessions.touch c, len_modify.trans_le hks.bounded⟩
  counter := rfl
  spawned := rfl
  tasks := List.Subset.refl _
  cancelled := List.Subset.refl _
  leaves := leaves_of_eq (leaseOf_touch s.relay.sessions c)

theorem Ordered.loses_deliver (hs : s.Ordered limits) (id : UInt64) (external : SocketAddr) (now : Nat)
    (queue : QueueResult) : Loses limits s (s.deliver id external now queue) := by
  rw [deliver]
  split
  · exact .refl limits s
  · split
    · exact .refl limits s
    · have htouched : Loses limits s { s with relay := { s.relay with
          sessions := { s.relay.sessions with
            sessions := modify s.relay.sessions.sessions id (ClientSession.touch now) } } } :=
        ⟨fun ks hks => ⟨ks, hks.sessions.modify id (f := ClientSession.touch now) (fun _ => rfl) fun _ => rfl,
            len_modify.trans_le hks.bounded⟩,
          rfl, rfl, List.Subset.refl _, List.Subset.refl _,
          leaves_of_eq fun _ => leaseOf_modify (f := ClientSession.touch now) fun _ => rfl⟩
      cases queue with
      | queued => exact htouched
      | full => exact htouched
      | closed => exact htouched.trans ((htouched.ordered hs).loses_remove id)

/-- The creation of a session together with its task. -/
structure Spawns (limits : NegotiatedUdpLimits) (s t : RelayLoop) (id lease : UInt64) : Prop where
  holds : ∃ ks, t.relay.Holds limits ks
  unused : s.leaseOf id = none
  fresh : s.relay.nextLocalLease < lease.toNat
  counter : t.relay.nextLocalLease = lease.toNat
  spawned : t.spawned = s.spawned ++ [(id, lease)]
  tasks : t.localTasks = s.localTasks ++ [(id, lease)]
  cancelled : t.cancelled = s.cancelled
  leaseOf : ∀ x, t.leaseOf x = if x = id then some lease else s.leaseOf x

theorem Spawns.ordered (h : Spawns limits s t id lease) (hs : s.Ordered limits) : t.Ordered limits where
  holds := h.holds
  created x own hown := by
    rw [h.spawned, List.mem_append, List.mem_singleton]
    rw [h.leaseOf] at hown
    split at hown
    · next hx =>
      obtain rfl := Option.some.inj hown
      exact .inr (by rw [hx])
    · exact .inl (hs.created x own hown)
  leases task htask := by
    rw [h.spawned, List.mem_append, List.mem_singleton] at htask
    rw [h.counter]
    rcases htask with hold | rfl
    · exact (hs.leases task hold).trans h.fresh.le
    · exact Nat.le_refl _
  once := by
    rw [h.spawned, List.map_append, List.map_singleton]
    refine hs.once.append (List.nodup_singleton _) ?_
    rw [List.disjoint_singleton]
    intro hmem
    obtain ⟨task, htask, heq⟩ := List.mem_map.mp hmem
    have hle := hs.leases task htask
    rw [heq] at hle
    exact absurd h.fresh (Nat.not_lt.mpr hle)
  tasks task htask := by
    rw [h.tasks, List.mem_append] at htask
    rw [h.spawned, List.mem_append]
    exact htask.imp_left (hs.tasks task)
  left task htask := by
    rw [h.spawned, List.mem_append, List.mem_singleton] at htask
    rw [h.leaseOf, h.cancelled]
    rcases htask with hold | rfl
    · refine (hs.left task hold).imp_left fun hin => ?_
      have hne : task.1 ≠ id := by
        rintro rfl
        rw [h.unused] at hin
        cases hin
      rw [if_neg hne, hin]
    · exact .inl (if_pos rfl)

/-- What a step does: it may create one session, and then sessions may leave. -/
def Moves (limits : NegotiatedUdpLimits) (s t : RelayLoop) : Prop :=
  Loses limits s t ∨ ∃ u id lease, Spawns limits s u id lease ∧ Loses limits u t

theorem Moves.ordered (h : Moves limits s t) (hs : s.Ordered limits) : t.Ordered limits := by
  rcases h with hloses | ⟨u, id, lease, hspawns, hloses⟩
  · exact hloses.ordered hs
  · exact hloses.ordered (hspawns.ordered hs)

/-- A session that is not there any more has its token cancelled. -/
theorem Moves.cancelled (h : Moves limits s t) (hin : s.leaseOf id = some lease) (hout : t.leaseOf id ≠ some lease) :
    lease ∈ t.cancelled := by
  have hgone : ∀ u : RelayLoop, u.leaseOf id = some lease → Loses limits u t → lease ∈ t.cancelled := by
    intro u hu hloses
    rcases hloses.leaves id with hsame | ⟨-, hcancels⟩
    · exact absurd (hsame.trans hu) hout
    · exact hcancels lease hu
  rcases h with hloses | ⟨u, x, own, hspawns, hloses⟩
  · exact hgone s hin hloses
  · refine hgone u ?_ hloses
    rw [hspawns.leaseOf, if_neg, hin]
    rintro rfl
    rw [hspawns.unused] at hin
    cases hin

theorem Ordered.moves_spawn (hs : s.Ordered limits) (hid : s.relay.sessions.sessions.lookup id = none)
    (hroom : len s.relay.sessions.sessions < limits.maxSessions) (external : SocketAddr) (now : Nat) (queue : QueueResult) :
    Moves limits s (s.spawn id external now queue) := by
  rw [spawn]
  split
  · exact .inl (loses_fail limits s)
  · next hlease =>
    obtain ⟨ks, hks⟩ := hs.holds
    have hlt : s.relay.nextLocalLease + 1 < 2 ^ 64 := Nat.lt_of_not_le hlease
    have hnat : (UInt64.ofNat (s.relay.nextLocalLease + 1)).toNat = s.relay.nextLocalLease + 1 :=
      UInt64.toNat_ofNat_of_lt' hlt
    generalize UInt64.ofNat (s.relay.nextLocalLease + 1) = lease at hnat
    obtain ⟨hfst, hholds, hlen⟩ := insert_eq hks.sessions hid ⟨lease, external, now, none, none⟩
    dsimp only
    have hlookup := hks.sessions.leaseOf_insert hid ⟨lease, external, now, none, none⟩
    generalize s.relay.sessions.insert id ⟨lease, external, now, none, none⟩ = result
      at hfst hholds hlen hlookup ⊢
    obtain ⟨inserted, sessions⟩ := result
    obtain rfl : inserted = true := hfst
    have hspawns : Spawns limits s
        { s with
          relay := ⟨sessions, s.relay.nextLocalLease + 1⟩
          localTasks := s.localTasks ++ [(id, lease)]
          spawned := s.spawned ++ [(id, lease)] } id lease :=
      { holds := ⟨ks ++ [id], hholds, by rw [hlen]; exact hroom⟩
        unused := by rw [leaseOf, ClientSessionTable.leaseOf, hid, Option.map_none]
        fresh := by rw [hnat]; exact Nat.lt_succ_self _
        counter := hnat.symm
        spawned := rfl
        tasks := rfl
        cancelled := rfl
        leaseOf := hlookup }
    rw [if_pos rfl]
    exact .inr ⟨_, id, lease, hspawns, (hspawns.ordered hs).loses_deliver id external now queue⟩

theorem Ordered.moves_datagram (hs : s.Ordered limits) (id : UInt64) (external : SocketAddr) (now : Nat)
    (queue : QueueResult) : Moves limits s (s.datagram limits id external now queue) := by
  rw [datagram]
  cases hid : s.relay.sessions.sessions.lookup id with
  | some session => exact .inl (hs.loses_deliver id external now queue)
  | none =>
      dsimp only
      split
      · exact .inl (.refl limits s)
      · next hroom => exact hs.moves_spawn hid (Nat.lt_of_not_le fun hfull => hroom (.inl hfull)) external now queue

theorem Ordered.moves_receive (hs : s.Ordered config.limits) (frame : Frame) (now : Nat) (queue : QueueResult) :
    Moves config.limits s (s.receive config frame now queue) := by
  rw [receive]
  split
  · exact .inl hs.loses_finish
  · split
    · split
      · exact .inl hs.loses_finish
      · split
        · exact .inl (.refl _ s)
        · exact hs.moves_datagram _ _ now queue
    · split
      · exact .inl hs.loses_finish
      · exact .inl (hs.loses_remove _)
    · exact .inl hs.loses_finish

theorem loses_erase (limits : NegotiatedUdpLimits) (s : RelayLoop) (task : UInt64 × UInt64) :
    Loses limits s { s with localTasks := s.localTasks.erase task } :=
  ⟨fun ks h => ⟨ks, h⟩, rfl, rfl, List.erase_subset, List.Subset.refl _, leaves_of_eq fun _ => rfl⟩

theorem Ordered.loses_removeIfLease (hs : s.Ordered limits) (id lease : UInt64) :
    Loses limits s (s.removeIfLease id lease) := by
  rw [removeIfLease]
  split
  · exact hs.loses_remove id
  · exact .refl limits s

theorem Ordered.moves (hs : s.Ordered config.limits) {event : LoopEvent} (h : Step config s event t) :
    Moves config.limits s t := by
  unfold Step next at h
  split at h
  · obtain rfl := Option.some.inj h
    exact .inl hs.loses_finish
  · obtain rfl := Option.some.inj h
    exact .inl hs.loses_finish
  · obtain rfl := Option.some.inj h
    exact .inl hs.loses_finish
  · obtain rfl := Option.some.inj h
    exact .inl (hs.loses_sweep _ _)
  · next task _ =>
    obtain rfl := Option.some.inj (Option.ite_none_right_eq_some.mp h).2
    have herase := loses_erase config.limits s task
    exact .inl (herase.trans ((herase.ordered hs).loses_removeIfLease task.1 task.2))
  · obtain rfl := Option.some.inj (Option.ite_none_right_eq_some.mp h).2
    exact .inl (loses_fail _ s)
  · obtain rfl := Option.some.inj h
    exact hs.moves_receive _ _ _
  · obtain rfl := Option.some.inj h
    exact .inl (loses_touch _ s _)
  · obtain rfl := Option.some.inj (Option.ite_none_right_eq_some.mp h).2
    exact .inl (loses_erase _ s _)
  · cases h

theorem ordered_of_run {events : List LoopEvent} (h : Run (Step config) start events s) : s.Ordered config.limits :=
  h.invariant (fun _ _ _ hs hstep => (hs.moves hstep).ordered hs) (ordered_start config.limits)

/-- A task that completes takes out the session that it was created with, or none. -/
theorem joined_removes {task : UInt64 × UInt64} (h : Step config s (.joined task) t)
    (hin : s.leaseOf id = some lease) (hout : t.leaseOf id ≠ some lease) : (id, lease) = task := by
  have hrunning : s.phase = .running := by
    cases hphase : s.phase with
    | running => rfl
    | cleaned => simp [Step, next, hphase] at h
    | returned => simp [Step, next, hphase] at h
  simp only [Step, next, hrunning] at h
  obtain rfl := Option.some.inj (Option.ite_none_right_eq_some.mp h).2
  rw [removeIfLease] at hout
  split at hout
  · next howner =>
    have hid : id = task.1 := by
      by_contra hne
      exact hout ((leaseOf_remove_of_ne hne).trans hin)
    have hlease : lease = task.2 := by
      rw [hid] at hin
      exact Option.some.inj (hin.symm.trans howner)
    rw [hid, hlease]
  · exact absurd hin hout

/-- The sessions of the loop and its local tasks go together. -/
structure InStep (config : RelayConfig) (s : RelayLoop) : Prop where
  consistent : s.relay.sessions.Consistent
  insertable : ∀ id session, id ∉ s.relay.sessions.sessions → (s.relay.sessions.insert id session).1 = true
  bounded : len s.relay.sessions.sessions ≤ config.limits.maxSessions
  /-- A lease is given to one session and its task. -/
  once : (s.spawned.map Prod.snd).Nodup
  created : ∀ id lease, s.leaseOf id = some lease → (id, lease) ∈ s.spawned
  completed : ∀ task t, Step config s (.joined task) t →
    ∀ id lease, s.leaseOf id = some lease → t.leaseOf id ≠ some lease → (id, lease) = task
  leaving : ∀ event t, Step config s event t →
    ∀ id lease, s.leaseOf id = some lease → t.leaseOf id ≠ some lease → lease ∈ t.cancelled
  left : ∀ task ∈ s.spawned, s.leaseOf task.1 = some task.2 ∨ task.2 ∈ s.cancelled

/-- Whatever arrives, completes or expires, the sessions are in order, a completed task
takes out no session but its own, and a session that leaves is cancelled. -/
theorem sessions_and_tasks_in_step (config : RelayConfig) (events : List LoopEvent) (s : RelayLoop)
    (h : Run (Step config) start events s) : s.InStep config := by
  have hs := ordered_of_run h
  obtain ⟨ks, hks⟩ := hs.holds
  constructor
  · exact hks.sessions.consistent
  · intro id session hid
    exact (insert_eq hks.sessions (Finmap.lookup_eq_none.mpr hid) session).1
  · exact hks.bounded
  · exact hs.once
  · exact hs.created
  · intro task t hstep id lease hin hout
    exact joined_removes hstep hin hout
  · intro event t hstep id lease hin hout
    exact (hs.moves hstep).cancelled hin hout
  · exact hs.left

theorem step_of_next (s : RelayLoop) (event : LoopEvent) (t : RelayLoop) (h : s.next config event = some t) :
    Step config s event t := h

section Sample

def twoLocalSessions : RelayConfig where
  protocolVersion := ⟨1, 0⟩
  tunnelId := 1
  limits := ⟨2, 60, 1200, 8, 8, 1, 2⟩

theorem datagramFor_size : (#[192, 0, 2, 1] : Array UInt8).size = 4 := rfl

def datagramFor (sessionId : UInt64) : Frame :=
  ⟨⟨1, 0⟩, 0, .udpDatagram ⟨1, sessionId, .v4 ⟨#[192, 0, 2, 1], datagramFor_size⟩ 5000, ⟨[1], by decide⟩⟩⟩

/-- The server retires a session and uses its id again while the first task still runs. -/
def reusedId : List LoopEvent :=
  [.frame (datagramFor 7) 1 .queued, .frame ⟨⟨1, 0⟩, 0, .udpSessionRetired ⟨1, 7⟩⟩ 2 .queued,
    .frame (datagramFor 7) 3 .queued, .joined (7, 1)]

theorem sessions_and_tasks_in_step_sample :
    ∃ s : RelayLoop, (s.leaseOf 7 = some 2 ∧ s.cancelled = [1] ∧ s.localTasks = [(7, 2)]) ∧ s.InStep twoLocalSessions := by
  obtain ⟨s, hrun, hs⟩ := run_of_exec_any
    (P := fun s => s.leaseOf 7 = some 2 ∧ s.cancelled = [1] ∧ s.localTasks = [(7, 2)]) step_of_next
    (show (exec (next twoLocalSessions) start reusedId).any _ = true by decide +kernel)
  exact ⟨s, hs, sessions_and_tasks_in_step twoLocalSessions reusedId s hrun⟩

end Sample

end RelayLoop

end Rustgo.Udp
