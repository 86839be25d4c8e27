import Rustgo.HistoryQueueAccounts
import Rustgo.Runs

namespace Rustgo.HistoryQueue

open Checks History Runs

namespace Shared

variable {s t : Shared} {held : List QueuedBatch} {batch : QueuedBatch}

/-- Every batch counted as dropped had been accepted or was refused. -/
def Counted (s : Shared) : Prop := s.droppedBatches = (s.dropped.length + s.refused) % 2 ^ 64

/-- Batches have left the queue and were counted as dropped. -/
structure Evicts (s t : Shared) (evicted : List QueuedBatch) : Prop where
  batches : s.queue.batches = evicted ++ t.queue.batches
  left : t.left = s.left ++ evicted
  dropped : t.dropped = s.dropped ++ evicted
  closed : t.queue.closed = s.queue.closed

theorem Counted.count {count ownedBytes : Nat} (h : s.Counted) (dropped : List QueuedBatch) (refused : Nat)
    (hcount : dropped.length + refused = s.dropped.length + s.refused + count) :
    Counted { s.countDropped count ownedBytes with dropped := dropped, refused := refused } := by
  rw [Counted] at h
  change (s.droppedBatches + count) % 2 ^ 64 = (dropped.length + refused) % 2 ^ 64
  rw [hcount, h, Nat.mod_add_mod]

theorem evict_evicts {later : List QueuedBatch} (hbalanced : s.queue.Balanced held) (hcounted : s.Counted)
    (hbatches : s.queue.batches = batch :: later) :
    Evicts s (s.evict batch) [batch] ∧ (s.evict batch).queue.Balanced held ∧ (s.evict batch).queue.batches = later ∧
      (s.evict batch).Counted := by
  obtain ⟨hbalanced', hlater⟩ := hbalanced.evict hbatches
  have hlater' : (s.evict batch).queue.batches = later := hlater
  have hcounted' : (s.evict batch).Counted := by
    refine hcounted.count (s.dropped ++ [batch]) s.refused ?_
    rw [List.length_append, List.length_singleton]
    omega
  exact ⟨⟨by rw [hlater', hbatches]; rfl, rfl, rfl, rfl⟩, hbalanced', hlater', hcounted'⟩

theorem Evicts.trans {u : Shared} {xs ys : List QueuedBatch} (h : Evicts s t xs) (h' : Evicts t u ys) :
    Evicts s u (xs ++ ys) :=
  ⟨by rw [h.batches, h'.batches, List.append_assoc], by rw [h'.left, h.left, List.append_assoc],
    by rw [h'.dropped, h.dropped, List.append_assoc], h'.closed.trans h.closed⟩

theorem makeRoom_evicts (batch : QueuedBatch) (queued : List QueuedBatch) (hbalanced : s.queue.Balanced held) (hcounted : s.Counted)
    (hbatches : s.queue.batches = queued) : ∃ evicted, Evicts s (s.makeRoom batch queued).2 evicted ∧
      (s.makeRoom batch queued).2.queue.Balanced held ∧ (s.makeRoom batch queued).2.Counted ∧
      ((s.makeRoom batch queued).1 = true → (s.makeRoom batch queued).2.queue.full batch = false) := by
  induction queued generalizing s with
  | nil => exact ⟨[], ⟨rfl, (List.append_nil _).symm, (List.append_nil _).symm, rfl⟩, hbalanced, hcounted, by simp [makeRoom]⟩
  | cons oldest later ih =>
      cases hfull : s.queue.full batch with
      | false =>
          rw [makeRoom, hfull]
          exact ⟨[], ⟨rfl, (List.append_nil _).symm, (List.append_nil _).symm, rfl⟩, hbalanced, hcounted, fun _ => hfull⟩
      | true =>
          rw [makeRoom, hfull, if_pos rfl]
          obtain ⟨hevicts, hbalanced', hlater, hcounted'⟩ := evict_evicts hbalanced hcounted hbatches
          obtain ⟨evicted, hrest, hroom⟩ := ih hbalanced' hcounted' hlater
          exact ⟨[oldest] ++ evicted, hevicts.trans hrest, hroom⟩

/-- A batch that is accepted stands at the back of the queue. -/
theorem pushBatch_cases (batch : QueuedBatch) (hbalanced : s.queue.Balanced held) (hcounted : s.Counted)
    (hopen : s.queue.closed = false) :
    (∃ u evicted, s.pushBatch batch = (.error .batchMemoryTooLarge, u.refuse batch) ∧ Evicts s u evicted ∧
        u.queue.Balanced held ∧ u.Counted) ∨
      ∃ u evicted, s.pushBatch batch = (.ok (), { u with queue := u.queue.enqueue batch }) ∧ Evicts s u evicted ∧
        (u.queue.enqueue batch).Balanced held ∧ (u.queue.enqueue batch).batches = u.queue.batches ++ [batch] ∧ u.Counted := by
  rw [pushBatch, if_neg (by simp [hopen])]
  obtain ⟨evicted, hevicts, hbalanced', hcounted', hroom⟩ := makeRoom_evicts batch _ hbalanced hcounted rfl
  rcases hmake : s.makeRoom batch s.queue.batches with ⟨_ | _, u⟩ <;> rw [hmake] at hevicts hbalanced' hcounted' hroom
  · exact .inl ⟨u, evicted, rfl, hevicts, hbalanced', hcounted'⟩
  · obtain ⟨henqueued, hbatches⟩ := hbalanced'.enqueue (hroom rfl)
    exact .inr ⟨u, evicted, rfl, hevicts, henqueued, hbatches, hcounted'⟩

theorem refuse_counted (h : s.Counted) : (s.refuse batch).Counted := h.count s.dropped (s.refused + 1) (by omega)

theorem discard_evicts (hbalanced : s.queue.Balanced held) (hcounted : s.Counted) (hclosed : s.queue.closed = true) :
    Evicts s s.discardBatchesWhenClosed s.queue.batches ∧ s.discardBatchesWhenClosed.queue.Balanced held ∧
      s.discardBatchesWhenClosed.Counted ∧ s.discardBatchesWhenClosed.queue.commands = [] := by
  obtain ⟨hqueued, hcontrols, hpending, hbytes, hcapacity, hmemory, hcontrolCapacity, hexact⟩ := hbalanced
  have hsum : (s.queue.batches.map QueuedBatch.ownedBytes).foldl saturatingAdd 0 = bytes s.queue.batches := by
    rw [foldl_saturatingAdd (by omega), Nat.zero_add]
  rw [discardBatchesWhenClosed, if_neg (by simp [hclosed]), hsum]
  refine ⟨⟨(List.append_nil _).symm, rfl, rfl, rfl⟩, ?_, hcounted.count (s.dropped ++ s.queue.batches) s.refused ?_, rfl⟩
  · constructor
    case queued | controls => rfl
    case pending =>
      change s.queue.pendingBatches - s.queue.batches.length = 0 + held.length
      omega
    case bytes =>
      change s.queue.pendingBatchBytes - bytes s.queue.batches = 0 + bytes held
      omega
    case capacity => exact (Nat.sub_le _ _).trans hcapacity
    case memory => exact (Nat.sub_le _ _).trans hmemory
    case controlCapacity => exact Nat.zero_le _
    case exact =>
      have hcount : s.queue.batches.length ≤ s.queue.pendingBatches := by omega
      have hsize : bytes s.queue.batches ≤ s.queue.pendingBatchBytes := by omega
      simp [QueueState.forget, hexact, hcount, hsize]
  · rw [List.length_append]
    omega

end Shared

namespace Stage

def held : Stage → List QueuedBatch
  | .retry batch _ | .abandon batch _ | .drain batch => [batch]
  | .release batches _ | .persist batches => batches
  | _ => []

/-- The batch that has left the accounting and is yet to be counted as dropped. -/
def recording : Stage → Option QueuedBatch
  | .record batch _ => some batch
  | _ => none

/-- The batches whose transaction has committed. -/
def written : Stage → List QueuedBatch
  | .release batches _ => batches
  | _ => []

/-- The worker has seen that the queue is closed. -/
def closes : Stage → Bool
  | .closing | .failing | .discarding | .returned => true
  | .abandon _ last | .record _ last => last
  | _ => false

/-- The worker has given up what it held for retry. -/
def emptied : Stage → Bool
  | .failing | .discarding | .returned => true
  | _ => false

end Stage

namespace System

variable {s t : System} {l : Label} {labels : List Label}

/-- The accepted batches that the worker has taken and not let go. -/
def held (s : System) : List QueuedBatch := s.stage.held ++ s.retryBatches.map Prod.fst

structure Placed (s : System) : Prop where
  written : ∀ batch ∈ s.stage.written, batch ∈ s.persisted
  closed : s.stage.closes = true → s.shared.queue.closed = true
  emptied : s.stage.emptied = true → s.retryBatches = []
  cleared : s.stage = .returned → s.shared.queue.commands = []

/-- Every accepted batch is in the queue, held by the worker, or has left the
accounting once, written or dropped. -/
structure Ledger (s : System) : Prop extends Placed s where
  balanced : s.shared.queue.Balanced s.held
  counted : s.shared.Counted
  fresh : ∀ batch ∈ s.accepted, batch.batch < s.published
  nodup : s.accepted.Nodup
  whole : (s.shared.queue.batches ++ s.held ++ s.shared.left).Perm s.accepted
  settled : ∀ batch ∈ s.shared.left,
    batch ∈ s.persisted ∨ batch ∈ s.shared.dropped ∨ s.stage.recording = some batch

/-- The two states have settled the same batches. -/
structure SameBooks (s t : System) : Prop where
  left : t.shared.left = s.shared.left
  dropped : t.shared.dropped = s.shared.dropped
  droppedBatches : t.shared.droppedBatches = s.shared.droppedBatches
  refused : t.shared.refused = s.shared.refused
  accepted : t.accepted = s.accepted
  published : t.published = s.published
  persisted : s.persisted ⊆ t.persisted

/-- Batches change hands between the queue and the worker. -/
theorem Ledger.move (h : s.Ledger) (hbooks : SameBooks s t) (hplaced : t.Placed) (hrecording : s.stage.recording = none)
    (hbalanced : t.shared.queue.Balanced t.held)
    (hhands : (t.shared.queue.batches ++ t.held).Perm (s.shared.queue.batches ++ s.held)) : t.Ledger := by
  refine ⟨hplaced, hbalanced, ?_, ?_, ?_, ?_, ?_⟩
  · rw [Shared.Counted, hbooks.droppedBatches, hbooks.dropped, hbooks.refused]
    exact h.counted
  · rw [hbooks.accepted, hbooks.published]
    exact h.fresh
  · rw [hbooks.accepted]
    exact h.nodup
  · rw [hbooks.accepted, hbooks.left]
    exact (hhands.append_right _).trans h.whole
  · rw [hbooks.left, hbooks.dropped]
    intro batch hbatch
    obtain hpersisted | hdropped | hrecord := h.settled batch hbatch
    · exact .inl (hbooks.persisted hpersisted)
    · exact .inr (.inl hdropped)
    · cases hrecording.symm.trans hrecord

/-- A turn of the worker that leaves the queue as it is. -/
theorem Ledger.turn (h : s.Ledger) (hbooks : SameBooks s t) (hplaced : t.Placed) (hrecording : s.stage.recording = none)
    (hqueue : t.shared.queue = s.shared.queue) (hheld : t.held.Perm s.held) : t.Ledger := by
  refine h.move hbooks hplaced hrecording ?_ ?_
  · rw [hqueue]
    exact h.balanced.perm hheld.symm
  · rw [hqueue]
    exact hheld.append_left _

/-- Going on without touching the queue or the batches. -/
theorem Ledger.goto {stage : Stage} (h : s.Ledger) (hheld : stage.held = s.stage.held) (hrecording : s.stage.recording = none)
    (hplaced : (s.goto stage).Placed) : (s.goto stage).Ledger := by
  refine h.turn ⟨rfl, rfl, rfl, rfl, rfl, rfl, List.Subset.refl _⟩ hplaced hrecording rfl ?_
  rw [held, held, ← hheld]
  exact .refl _

/-- Stages that promise nothing. -/
theorem Placed.of_plain (hwritten : s.stage.written = []) (hcloses : s.stage.closes = false) (hemptied : s.stage.emptied = false) :
    s.Placed := by
  constructor
  case written =>
    rw [hwritten]
    rintro _ ⟨⟩
  case closed =>
    rw [hcloses]
    rintro ⟨⟩
  case emptied =>
    rw [hemptied]
    rintro ⟨⟩
  case cleared =>
    intro hstage
    rw [hstage] at hcloses
    cases hcloses

theorem Ledger.fail (h : s.Ledger) (hheld : s.stage.held = []) (hrecording : s.stage.recording = none) : s.fail.Ledger := by
  refine h.turn ⟨rfl, rfl, rfl, rfl, rfl, rfl, List.Subset.refl _⟩ (.of_plain rfl rfl rfl) hrecording rfl ?_
  rw [held, held, hheld]
  exact .refl _

/-- The worker lets a batch go, to be counted or because it was written. -/
theorem Ledger.release {batch : QueuedBatch} {stage : Stage} (h : s.Ledger) (hheld : s.stage.held = batch :: stage.held)
    (hrecording : s.stage.recording = none) (hsettled : batch ∈ s.persisted ∨ stage.recording = some batch)
    (hplaced : Placed { s with shared := s.shared.releaseOwnedBatch batch, stage := stage }) :
    Ledger { s with shared := s.shared.releaseOwnedBatch batch, stage := stage } := by
  have hheld' : s.held = batch :: (stage.held ++ s.retryBatches.map Prod.fst) := by rw [held, hheld, List.cons_append]
  refine ⟨hplaced, ?_, h.counted, h.fresh, h.nodup, ?_, ?_⟩
  · exact (hheld' ▸ h.balanced).release
  · have hwhole := h.whole
    rw [hheld'] at hwhole
    refine .trans ?_ hwhole
    change (s.shared.queue.batches ++ (stage.held ++ s.retryBatches.map Prod.fst) ++ (s.shared.left ++ [batch])).Perm _
    rw [← List.append_assoc]
    refine List.perm_append_comm.trans ?_
    rw [List.singleton_append, ← List.cons_append]
    exact (List.perm_middle.symm).append_right _
  · intro other hother
    obtain hother | hother := List.mem_append.mp hother
    · obtain hpersisted | hdropped | hrecord := h.settled other hother
      · exact .inl hpersisted
      · exact .inr (.inl hdropped)
      · cases hrecording.symm.trans hrecord
    · obtain rfl := List.mem_singleton.mp hother
      exact hsettled.imp_right .inr

theorem Ledger.record {batch : QueuedBatch} {stage : Stage} (h : s.Ledger) (hheld : stage.held = s.stage.held)
    (hrecording : s.stage.recording = some batch)
    (hplaced : Placed { s with shared := s.shared.recordDroppedBatch batch, stage := stage }) :
    Ledger { s with shared := s.shared.recordDroppedBatch batch, stage := stage } := by
  have hheld' : held { s with shared := s.shared.recordDroppedBatch batch, stage := stage } = s.held := by
    rw [held, held, ← hheld]
  refine ⟨hplaced, ?_, ?_, h.fresh, h.nodup, ?_, ?_⟩
  · rw [hheld']
    exact h.balanced
  · refine h.counted.count (s.shared.dropped ++ [batch]) s.shared.refused ?_
    rw [List.length_append, List.length_singleton]
    omega
  · rw [hheld']
    exact h.whole
  · intro other hother
    obtain hpersisted | hdropped | hrecord := h.settled other hother
    · exact .inl hpersisted
    · exact .inr (.inl (List.mem_append_left _ hdropped))
    · obtain rfl := Option.some.inj (hrecording.symm.trans hrecord)
      exact .inr (.inl (List.mem_append_right _ (List.mem_singleton.mpr rfl)))

/-- The queue has changed hands, and the worker goes to a plain stage. -/
theorem Ledger.exchange {queue : QueueState} {stage : Stage} (h : s.Ledger) (hrecording : s.stage.recording = none)
    (hplaced : ((s.withQueue queue).goto stage).Placed) (hbalanced : queue.Balanced (stage.held ++ s.retryBatches.map Prod.fst))
    (hhands : (queue.batches ++ stage.held).Perm (s.shared.queue.batches ++ s.stage.held)) :
    ((s.withQueue queue).goto stage).Ledger := by
  refine h.move ⟨rfl, rfl, rfl, rfl, rfl, rfl, List.Subset.refl _⟩ hplaced hrecording hbalanced ?_
  change (queue.batches ++ (stage.held ++ _)).Perm (_ ++ (s.stage.held ++ _))
  rw [← List.append_assoc, ← List.append_assoc]
  exact hhands.append_right _

theorem Ledger.take {taken : Option Command × QueueState} (h : s.Ledger) (hstage : s.stage = .taking)
    (htaken : taken = s.shared.queue.pop ∨ taken = s.shared.queue.popControl) : (s.take taken).Ledger := by
  have hrecording : s.stage.recording = none := by rw [hstage]; rfl
  have hheld : s.held = s.retryBatches.map Prod.fst := by rw [held, hstage]; rfl
  have hsame : ((s.withQueue s.shared.queue).goto .top).Ledger :=
    h.goto (by rw [hstage]; rfl) hrecording (.of_plain rfl rfl rfl)
  have hbalanced := h.balanced
  rw [hheld] at hbalanced
  have hfront {command : Command} {rest : List Command} (hcommands : s.shared.queue.commands = command :: rest) :
      (s.take (some command, s.shared.queue.take command rest)).Ledger := by
    cases command with
    | batch batch =>
        refine h.exchange hrecording (.of_plain rfl rfl rfl) (hbalanced.take_batch hcommands) ?_
        rw [QueueState.batches_take, QueueState.batches_cons hcommands, hstage]
        exact List.perm_append_comm.trans (by simp [Stage.held])
    | query | maintain | checkpoint =>
        obtain ⟨htake, hbatches⟩ := hbalanced.take_control hcommands rfl
        refine h.exchange hrecording (.of_plain rfl rfl rfl) htake ?_
        rw [hbatches, hstage]
        exact .refl _
  obtain rfl | rfl := htaken
  · rw [QueueState.pop]
    split
    · exact hsame
    · next hcommands => exact hfront hcommands
  · rw [QueueState.popControl]
    split
    · exact hsame
    · next hcommands =>
      split
      · exact hsame
      · exact hfront hcommands

theorem Ledger.discard (h : s.Ledger) (hstage : s.stage = .discarding) :
    Ledger { s with shared := s.shared.discardBatchesWhenClosed, stage := .returned } := by
  have hclosed : s.shared.queue.closed = true := h.closed (by rw [hstage]; rfl)
  obtain ⟨hevicts, hbalanced, hcounted, hcommands⟩ := Shared.discard_evicts h.balanced h.counted hclosed
  have hretry : s.retryBatches = [] := h.emptied (by rw [hstage]; rfl)
  have hheld : s.held = [] := by rw [held, hstage, hretry]; rfl
  have hheld' : held { s with shared := s.shared.discardBatchesWhenClosed, stage := .returned } = [] := by
    rw [held, hretry]
    rfl
  rw [hheld] at hbalanced
  refine ⟨⟨by rintro _ ⟨⟩, fun _ => hevicts.closed.trans hclosed, fun _ => hretry, fun _ => hcommands⟩, ?_, hcounted, h.fresh,
    h.nodup, ?_, ?_⟩
  · rw [hheld']
    exact hbalanced
  · have hwhole := h.whole
    have hnone : s.shared.discardBatchesWhenClosed.queue.batches = [] := by rw [QueueState.batches, hcommands]; rfl
    rw [hheld']
    change (s.shared.discardBatchesWhenClosed.queue.batches ++ [] ++ s.shared.discardBatchesWhenClosed.left).Perm s.accepted
    rw [hnone, hevicts.left, List.append_nil, List.nil_append]
    rw [hheld, List.append_nil] at hwhole
    exact List.perm_append_comm.trans hwhole
  · change ∀ batch ∈ s.shared.discardBatchesWhenClosed.left,
      batch ∈ s.persisted ∨ batch ∈ s.shared.discardBatchesWhenClosed.dropped ∨ none = some batch
    rw [hevicts.left, hevicts.dropped]
    intro batch hbatch
    obtain hleft | hqueued := List.mem_append.mp hbatch
    · obtain hpersisted | hdropped | hrecord := h.settled batch hleft
      · exact .inl hpersisted
      · exact .inr (.inl (List.mem_append_left _ hdropped))
      · rw [hstage] at hrecord
        cases hrecord
    · exact .inr (.inl (List.mem_append_right _ hqueued))

theorem work_ledger {outcome : Outcome} (h : s.Ledger) (hstep : s.work outcome = some t) : t.Ledger := by
  have hclosed := h.closed
  have hemptied := h.emptied
  have hwritten := h.written
  obtain ⟨shared, stage, retryBatches, connected, maximum, published, accepted, persisted⟩ := s
  cases stage with
  | top =>
      cases outcome with
      | go =>
          obtain rfl := Option.some.inj hstep
          refine h.goto (by split_ifs <;> rfl) rfl ?_
          split_ifs with hc
          · exact ⟨by rintro _ ⟨⟩, fun _ => hc, by rintro ⟨⟩, by rintro ⟨⟩⟩
          · exact .of_plain rfl rfl rfl
          · exact .of_plain rfl rfl rfl
      | _ => cases hstep
  | closing =>
      cases outcome with
      | go =>
          cases retryBatches with
          | nil =>
              obtain rfl := Option.some.inj hstep
              exact h.goto rfl rfl ⟨by rintro _ ⟨⟩, fun _ => hclosed rfl, fun _ => rfl, by rintro ⟨⟩⟩
          | cons entry rest =>
              obtain rfl := Option.some.inj hstep
              exact h.turn ⟨rfl, rfl, rfl, rfl, rfl, rfl, List.Subset.refl _⟩
                ⟨by rintro _ ⟨⟩, fun _ => hclosed rfl, by rintro ⟨⟩, by rintro ⟨⟩⟩ rfl rfl (.refl _)
      | _ => cases hstep
  | failing =>
      cases outcome with
      | go =>
          obtain rfl := Option.some.inj hstep
          obtain ⟨hbalanced, hbatches⟩ := h.balanced.failPendingControls
          refine h.exchange rfl ⟨by rintro _ ⟨⟩, fun _ => hclosed rfl, fun _ => hemptied rfl, by rintro ⟨⟩⟩ hbalanced ?_
          rw [hbatches]
          exact .refl _
      | _ => cases hstep
  | discarding =>
      cases outcome with
      | go =>
          obtain rfl := Option.some.inj hstep
          exact h.discard rfl
      | _ => cases hstep
  | returned => cases outcome <;> cases hstep
  | unconnected =>
      cases outcome with
      | go =>
          obtain rfl := Option.some.inj hstep
          split
          · obtain ⟨hbalanced, hbatches⟩ := h.balanced.failPendingControls
            refine h.exchange rfl (.of_plain rfl rfl rfl) hbalanced ?_
            rw [hbatches]
            exact .refl _
          · exact h.goto rfl rfl (.of_plain rfl rfl rfl)
      | _ => cases hstep
  | opening =>
      cases outcome with
      | again =>
          obtain rfl := Option.some.inj hstep
          exact h.goto rfl rfl (.of_plain rfl rfl rfl)
      | ok =>
          obtain rfl := Option.some.inj hstep
          exact h.turn ⟨rfl, rfl, rfl, rfl, rfl, rfl, List.Subset.refl _⟩ (.of_plain rfl rfl rfl) rfl rfl (.refl _)
      | fail committed =>
          obtain rfl := Option.some.inj hstep
          exact h.fail rfl rfl
      | _ => cases hstep
  | retrying =>
      cases outcome with
      | go =>
          cases retryBatches with
          | nil =>
              obtain rfl := Option.some.inj hstep
              exact h.goto rfl rfl (.of_plain rfl rfl rfl)
          | cons entry rest =>
              obtain rfl := Option.some.inj hstep
              exact h.turn ⟨rfl, rfl, rfl, rfl, rfl, rfl, List.Subset.refl _⟩ (.of_plain rfl rfl rfl) rfl rfl (.refl _)
      | _ => cases hstep
  | retry batch attempts =>
      cases outcome with
      | ok =>
          obtain rfl := Option.some.inj hstep
          refine h.turn ⟨rfl, rfl, rfl, rfl, rfl, rfl, List.subset_append_left _ _⟩ ⟨?_, by rintro ⟨⟩, by rintro ⟨⟩, by rintro ⟨⟩⟩
            rfl rfl (.refl _)
          exact fun _ hmem => List.mem_append_right _ hmem
      | fail committed =>
          obtain rfl := Option.some.inj hstep
          rw [retryFailed]
          split
          · exact h.turn ⟨rfl, rfl, rfl, rfl, rfl, rfl, List.subset_append_left _ _⟩ (.of_plain rfl rfl rfl) rfl rfl (.refl _)
          · exact h.turn ⟨rfl, rfl, rfl, rfl, rfl, rfl, List.subset_append_left _ _⟩ (.of_plain rfl rfl rfl) rfl rfl (.refl _)
      | _ => cases hstep
  | release batches retried =>
      cases outcome with
      | go =>
          cases batches with
          | nil =>
              obtain rfl := Option.some.inj hstep
              exact h.goto (by split <;> rfl) rfl (by split <;> exact .of_plain rfl rfl rfl)
          | cons batch rest =>
              obtain rfl := Option.some.inj hstep
              refine h.release rfl rfl (.inl (hwritten batch List.mem_cons_self)) ⟨?_, by rintro ⟨⟩, by rintro ⟨⟩, by rintro ⟨⟩⟩
              exact fun other hmem => hwritten other (List.mem_cons_of_mem _ hmem)
      | _ => cases batches <;> cases hstep
  | abandon batch last =>
      cases outcome with
      | go =>
          obtain rfl := Option.some.inj hstep
          exact h.release rfl rfl (.inr rfl) ⟨by rintro _ ⟨⟩, hclosed, by rintro ⟨⟩, by rintro ⟨⟩⟩
      | _ => cases hstep
  | record batch last =>
      cases outcome with
      | go =>
          obtain rfl := Option.some.inj hstep
          refine h.record (by split <;> rfl) rfl ?_
          cases last with
          | true => exact ⟨by rintro _ ⟨⟩, fun _ => hclosed rfl, by rintro ⟨⟩, by rintro ⟨⟩⟩
          | false => exact .of_plain rfl rfl rfl
      | _ => cases hstep
  | background =>
      cases outcome with
      | ok | again =>
          obtain rfl := Option.some.inj hstep
          exact h.goto rfl rfl (.of_plain rfl rfl rfl)
      | fail committed =>
          obtain rfl := Option.some.inj hstep
          exact h.fail rfl rfl
      | _ => cases hstep
  | taking =>
      cases outcome with
      | take controls =>
          obtain rfl := Option.some.inj hstep
          exact h.take rfl (by cases controls <;> simp)
      | _ => cases hstep
  | drain batch =>
      cases outcome with
      | go =>
          obtain rfl := Option.some.inj hstep
          obtain ⟨hbalanced, hbatches, -⟩ := QueueState.Balanced.drain [batch]
            (([batch].map QueuedBatch.ownedBytes).foldl saturatingAdd 0) h.balanced
          refine h.exchange rfl (.of_plain rfl rfl rfl) hbalanced ?_
          exact List.perm_append_comm.trans (hbatches ▸ List.perm_append_comm)
      | _ => cases hstep
  | persist batches =>
      cases outcome with
      | ok =>
          obtain rfl := Option.some.inj hstep
          refine h.turn ⟨rfl, rfl, rfl, rfl, rfl, rfl, List.subset_append_left _ _⟩ ⟨?_, by rintro ⟨⟩, by rintro ⟨⟩, by rintro ⟨⟩⟩
            rfl rfl (.refl _)
          exact fun _ hmem => List.mem_append_right _ hmem
      | fail committed =>
          obtain rfl := Option.some.inj hstep
          refine h.turn ⟨rfl, rfl, rfl, rfl, rfl, rfl, List.subset_append_left _ _⟩ (.of_plain rfl rfl rfl) rfl rfl ?_
          have hmap : (batches.map fun batch => (batch, 1)).map Prod.fst = batches := by
            rw [List.map_map]
            exact List.map_id' _
          change (List.map Prod.fst (retryBatches ++ batches.map fun batch => (batch, 1))).Perm (batches ++ retryBatches.map Prod.fst)
          rw [List.map_append, hmap]
          exact List.perm_append_comm
      | _ => cases hstep
  | serve command =>
      cases outcome with
      | ok =>
          obtain rfl := Option.some.inj hstep
          exact h.goto rfl rfl (.of_plain rfl rfl rfl)
      | fail committed =>
          obtain rfl := Option.some.inj hstep
          exact h.fail rfl rfl
      | _ => cases hstep

/-- While the queue is open, the stage promises nothing about it. -/
theorem Placed.of_open (h : s.Placed) (hopen : s.shared.queue.closed = false) (shared : Shared) (published : Nat)
    (accepted : List QueuedBatch) : Placed { s with shared := shared, published := published, accepted := accepted } := by
  have hcloses : s.stage.closes = false := by
    cases hstage : s.stage.closes with
    | false => rfl
    | true => cases hopen.symm.trans (h.closed hstage)
  refine ⟨h.written, ?_, h.emptied, ?_⟩
  · intro hstage
    cases hcloses.symm.trans hstage
  · intro hstage
    have hstage : s.stage = .returned := hstage
    rw [hstage] at hcloses
    cases hcloses

theorem Ledger.settled_evicts {u : Shared} {evicted : List QueuedBatch} (h : s.Ledger) (hevicts : Shared.Evicts s.shared u evicted) :
    ∀ batch ∈ u.left, batch ∈ s.persisted ∨ batch ∈ u.dropped ∨ s.stage.recording = some batch := by
  rw [hevicts.left, hevicts.dropped]
  intro batch hbatch
  obtain hleft | hevicted := List.mem_append.mp hbatch
  · obtain hpersisted | hdropped | hrecord := h.settled batch hleft
    · exact .inl hpersisted
    · exact .inr (.inl (List.mem_append_left _ hdropped))
    · exact .inr (.inr hrecord)
  · exact .inr (.inl (List.mem_append_right _ hevicted))

theorem Ledger.whole_evicts {u : Shared} {evicted : List QueuedBatch} (h : s.Ledger) (hevicts : Shared.Evicts s.shared u evicted) :
    (u.queue.batches ++ s.held ++ u.left).Perm s.accepted := by
  refine .trans ?_ h.whole
  rw [hevicts.batches, hevicts.left, ← List.append_assoc, List.append_assoc evicted, List.append_assoc evicted]
  exact List.perm_append_comm

theorem Ledger.fresh_succ (h : s.Ledger) : ∀ batch ∈ s.accepted, batch.batch < s.published + 1 :=
  fun batch hbatch => Nat.lt_succ_of_lt (h.fresh batch hbatch)

/-- A refused batch, too large for the queue or for the database, is counted and forgotten. -/
theorem Ledger.refuse {u : Shared} {evicted : List QueuedBatch} (h : s.Ledger) (hplaced : Placed { s with shared := u })
    (hevicts : Shared.Evicts s.shared u evicted) (hbalanced : u.queue.Balanced s.held) (hcounted : u.Counted)
    (batch : QueuedBatch) : Ledger { s with shared := u.refuse batch, published := s.published + 1 } :=
  have hsettled := h.settled_evicts hevicts
  have hwhole := h.whole_evicts hevicts
  ⟨⟨hplaced.written, hplaced.closed, hplaced.emptied, hplaced.cleared⟩, hbalanced, Shared.refuse_counted hcounted, h.fresh_succ,
    h.nodup, hwhole, hsettled⟩

theorem pushBatch_ledger (ownedBytes : Nat) (h : s.Ledger) : (s.pushBatch ownedBytes).Ledger := by
  cases hclosed : s.shared.queue.closed with
  | true =>
      have hpush : s.pushBatch ownedBytes = { s with published := s.published + 1 } := by
        simp [pushBatch, Shared.pushBatch, hclosed]
      rw [hpush]
      exact ⟨⟨h.written, h.closed, h.emptied, h.cleared⟩, h.balanced, h.counted, h.fresh_succ, h.nodup, h.whole, h.settled⟩
  | false =>
      have hplaced (shared) (published) (accepted) := h.toPlaced.of_open hclosed shared published accepted
      obtain ⟨u, evicted, hpush, hevicts, hbalanced, hcounted⟩ | ⟨u, evicted, hpush, hevicts, hbalanced, hbatches, hcounted⟩ :=
        Shared.pushBatch_cases ⟨s.published, ownedBytes⟩ h.balanced h.counted hclosed
      · rw [pushBatch, hpush]
        exact h.refuse (hplaced u s.published s.accepted) hevicts hbalanced hcounted _
      · have hsettled := h.settled_evicts hevicts
        rw [pushBatch, hpush]
        refine ⟨hplaced _ _ _, hbalanced, hcounted, ?_, ?_, ?_, ?_⟩
        · intro batch hbatch
          obtain hbatch | hbatch := List.mem_append.mp hbatch
          · exact h.fresh_succ batch hbatch
          · obtain rfl := List.mem_singleton.mp hbatch
            exact Nat.lt_succ_self _
        · refine List.nodup_append.mpr ⟨h.nodup, List.nodup_singleton _, fun batch hbatch other hother => ?_⟩
          obtain rfl := List.mem_singleton.mp hother
          rintro rfl
          exact absurd (h.fresh _ hbatch) (Nat.lt_irrefl _)
        · change ((u.queue.enqueue _).batches ++ s.held ++ u.left).Perm (s.accepted ++ [_])
          rw [hbatches, List.append_assoc, List.append_assoc]
          refine (List.perm_append_comm.append_left _).trans ?_
          rw [← List.append_assoc, ← List.append_assoc]
          exact (h.whole_evicts hevicts).append_right _
        · exact hsettled

theorem tryPublish_ledger (ownedBytes : Nat) (h : s.Ledger) : (s.tryPublish ownedBytes).Ledger := by
  rw [tryPublish]
  split
  · exact h.refuse h.toPlaced ⟨rfl, (List.append_nil _).symm, (List.append_nil _).symm, rfl⟩ h.balanced h.counted _
  · exact pushBatch_ledger ownedBytes h

/-- The queue has changed behind the worker's back, with its batches in place. -/
theorem Ledger.withQueue {queue : QueueState} (h : s.Ledger) (hplaced : (s.withQueue queue).Placed)
    (hbalanced : queue.Balanced s.held) (hbatches : queue.batches = s.shared.queue.batches) : (s.withQueue queue).Ledger := by
  refine ⟨hplaced, hbalanced, h.counted, h.fresh, h.nodup, ?_, h.settled⟩
  change (queue.batches ++ s.held ++ s.shared.left).Perm s.accepted
  rw [hbatches]
  exact h.whole

theorem step_ledger (h : s.Ledger) (hstep : Step s l t) : t.Ledger := by
  cases l with
  | tryPublish ownedBytes =>
      obtain rfl := Option.some.inj hstep
      exact tryPublish_ledger ownedBytes h
  | pushBatch ownedBytes =>
      obtain rfl := Option.some.inj hstep
      exact pushBatch_ledger ownedBytes h
  | pushControl command =>
      simp only [Step, next] at hstep
      split at hstep
      · cases hstep
      · next hcommand =>
        cases hpush : s.shared.queue.pushControl command with
        | error e =>
            rw [hpush] at hstep
            obtain rfl := Option.some.inj hstep
            exact h
        | ok queue =>
            rw [hpush] at hstep
            obtain rfl := Option.some.inj hstep
            obtain ⟨hbalanced, hbatches⟩ := h.balanced.pushControl (by simpa using hcommand) hpush
            exact h.withQueue (h.toPlaced.of_open (QueueState.open_of_pushControl hpush) _ _ _) hbalanced hbatches
  | close =>
      obtain rfl := Option.some.inj hstep
      obtain ⟨hbalanced, hbatches⟩ := h.balanced.close
      exact h.withQueue ⟨h.written, fun _ => rfl, h.emptied, h.cleared⟩ hbalanced hbatches
  | work outcome => exact work_ledger h hstep

theorem new_ledger (maximumDatabaseBytes : Nat) : (new maximumDatabaseBytes).Ledger :=
  ⟨.of_plain rfl rfl rfl, QueueState.new_balanced, rfl, by rintro _ ⟨⟩, List.nodup_nil, .refl _, by rintro _ ⟨⟩⟩

/-- The counters, the limits and what has become of every accepted batch. -/
structure Accounted (s : System) : Prop where
  queuedBatches : s.shared.queue.queuedBatches = s.shared.queue.commands.countP Command.isBatch
  pendingControls : s.shared.queue.pendingControls = s.shared.queue.commands.countP (!·.isBatch)
  pendingBatches : s.shared.queue.pendingBatches = (s.shared.queue.batches ++ s.held).length
  pendingBatchBytes : s.shared.queue.pendingBatchBytes = bytes (s.shared.queue.batches ++ s.held)
  capacity : s.shared.queue.pendingBatches ≤ HISTORY_BATCH_QUEUE_CAPACITY
  memory : s.shared.queue.pendingBatchBytes ≤ MAX_HISTORY_QUEUE_BYTES
  controlCapacity : s.shared.queue.pendingControls ≤ HISTORY_CONTROL_QUEUE_CAPACITY
  exact : s.shared.queue.exact = true
  whole : (s.shared.queue.batches ++ s.held ++ s.shared.left).Perm s.accepted
  once : (s.shared.queue.batches ++ s.held ++ s.shared.left).Nodup
  droppedBatches : s.shared.droppedBatches = (s.shared.dropped.length + s.shared.refused) % 2 ^ 64

/-- Nothing is pending any more, and no accepted batch is lost silently. -/
structure WoundUp (s : System) : Prop where
  queuedBatches : s.shared.queue.queuedBatches = 0
  pendingBatches : s.shared.queue.pendingBatches = 0
  pendingControls : s.shared.queue.pendingControls = 0
  pendingBatchBytes : s.shared.queue.pendingBatchBytes = 0
  settled : ∀ batch ∈ s.accepted, batch ∈ s.persisted ∨ batch ∈ s.shared.dropped

theorem countP_isBatch (commands : List Command) : commands.countP Command.isBatch = (commands.filterMap Command.batch?).length := by
  induction commands with
  | nil => rfl
  | cons command commands ih =>
      cases hcommand : command.isBatch with
      | true =>
          obtain ⟨batch, hbatch⟩ := Option.isSome_iff_exists.mp hcommand
          rw [List.countP_cons_of_pos hcommand, List.filterMap_cons_some hbatch, ih, List.length_cons]
      | false =>
          rw [List.countP_cons_of_neg (by simp [hcommand]), List.filterMap_cons_none (batch?_of_not_isBatch hcommand), ih]

theorem Ledger.accounted (h : s.Ledger) : s.Accounted := by
  have hbalanced := h.balanced
  constructor
  case queuedBatches => rw [countP_isBatch, hbalanced.queued, QueueState.batches]
  case pendingControls => exact hbalanced.controls
  case pendingBatches => rw [List.length_append, hbalanced.pending]
  case pendingBatchBytes => rw [bytes_append, hbalanced.bytes]
  case capacity => exact hbalanced.capacity
  case memory => exact hbalanced.memory
  case controlCapacity => exact hbalanced.controlCapacity
  case exact => exact hbalanced.exact
  case whole => exact h.whole
  case once => exact h.whole.nodup_iff.mpr h.nodup
  case droppedBatches => exact h.counted

theorem Ledger.woundUp (h : s.Ledger) (hstage : s.stage = .returned) : s.WoundUp := by
  have hcommands := h.cleared hstage
  have hheld : s.held = [] := by rw [held, hstage, h.emptied (by rw [hstage]; rfl)]; rfl
  have hbatches : s.shared.queue.batches = [] := by rw [QueueState.batches, hcommands]; rfl
  have hbalanced := h.balanced
  have hwhole := h.whole
  rw [hheld] at hbalanced
  rw [hheld, hbatches] at hwhole
  constructor
  case queuedBatches => rw [hbalanced.queued, hbatches]; rfl
  case pendingBatches => rw [hbalanced.pending, hbatches]; rfl
  case pendingControls => rw [hbalanced.controls, hcommands]; rfl
  case pendingBatchBytes => rw [hbalanced.bytes, hbatches]; rfl
  case settled =>
    intro batch hbatch
    obtain hpersisted | hdropped | hrecord := h.settled batch (hwhole.mem_iff.mpr hbatch)
    · exact .inl hpersisted
    · exact .inr hdropped
    · rw [hstage] at hrecord
      cases hrecord

/-- Whatever the publishers, the control handles and the database do, the
counters are exact and no accepted batch leaves them twice. -/
theorem queue_accounted {maximumDatabaseBytes : Nat} (hrun : Run Step (new maximumDatabaseBytes) labels s) :
    s.Accounted ∧ (s.stage = .returned → s.WoundUp) :=
  have h : s.Ledger := hrun.invariant (P := Ledger) (fun _ _ _ => step_ledger) (new_ledger maximumDatabaseBytes)
  ⟨h.accounted, h.woundUp⟩

/-- Four batches: the first is evicted by the second, which is written; the
write of the third fails, and the fourth is queued when the queue is closed. -/
def sampleShutdown : List Label :=
  [.pushBatch 67108860, .pushBatch 10, .pushControl .query, .work .go, .work .go, .work .ok, .work .go, .work .ok,
    .work (.take false), .work .go, .work .ok, .work .go, .work .go, .pushBatch 7, .work .go, .work .go, .work .ok,
    .work (.take false), .work .ok, .work .go, .work .go, .work .ok, .work (.take false), .work .go, .work (.fail false),
    .pushBatch 5, .close, .work .go, .work .go, .work .go, .work .go, .work .go, .work .go, .work .go]

theorem queue_accounted_shutdown : ∃ s, Run Step (new 1000000000) sampleShutdown s ∧ s.stage = .returned ∧
    s.persisted = [⟨1, 10⟩] ∧ s.shared.dropped.length = 3 ∧ s.Accounted ∧ s.WoundUp := by
  obtain ⟨s, hrun, hstage, hpersisted, hdropped⟩ := run_of_exec_any
    (P := fun s : System => s.stage = .returned ∧ s.persisted = [⟨1, 10⟩] ∧ s.shared.dropped.length = 3)
    (fun _ _ _ h => h) (show (exec next (new 1000000000) sampleShutdown).any _ = true by decide +kernel)
  obtain ⟨haccounted, hwound⟩ := queue_accounted hrun
  exact ⟨s, hrun, hstage, hpersisted, hdropped, haccounted, hwound hstage⟩

end System

end Rustgo.HistoryQueue
