import Mathlib.Algebra.BigOperators.Group.List.Basic
import Mathlib.Data.List.Perm.Basic
import Rustgo.HistoryQueue

namespace Rustgo.HistoryQueue

open Checks History

theorem bytes_append (xs ys : List QueuedBatch) : bytes (xs ++ ys) = bytes xs + bytes ys := by
  rw [bytes, List.map_append, List.sum_append, ← bytes, ← bytes]

theorem bytes_cons (x : QueuedBatch) (xs : List QueuedBatch) : bytes (x :: xs) = x.ownedBytes + bytes xs := rfl

theorem bytes_perm {xs ys : List QueuedBatch} (h : xs.Perm ys) : bytes xs = bytes ys := (h.map _).sum_eq

theorem foldl_saturatingAdd {xs : List QueuedBatch} {start : Nat} (h : start + bytes xs ≤ MAX_HISTORY_QUEUE_BYTES) :
    (xs.map QueuedBatch.ownedBytes).foldl saturatingAdd start = start + bytes xs := by
  induction xs generalizing start with
  | nil => rfl
  | cons x xs ih =>
      rw [bytes_cons, MAX_HISTORY_QUEUE_BYTES] at h
      have hstart : saturatingAdd start x.ownedBytes = start + x.ownedBytes := by
        rw [saturatingAdd]
        omega
      rw [List.map_cons, List.foldl_cons, hstart, ih, bytes_cons, Nat.add_assoc]
      rw [MAX_HISTORY_QUEUE_BYTES]
      omega

@[simp] theorem isBatch_batch (batch : QueuedBatch) : (Command.batch batch).isBatch = true := rfl

theorem batch?_of_not_isBatch {command : Command} (h : command.isBatch = false) : command.batch? = none := by
  rwa [Command.isBatch, Option.isSome_eq_false_iff, Option.isNone_iff_eq_none] at h

namespace QueueState

variable {q t : QueueState} {held : List QueuedBatch} {batch : QueuedBatch} {command : Command} {rest : List Command}

/-- The counters say what the queue and the worker hold, within the limits. -/
structure Balanced (q : QueueState) (held : List QueuedBatch) : Prop where
  queued : q.queuedBatches = q.batches.length
  controls : q.pendingControls = q.commands.countP (!·.isBatch)
  pending : q.pendingBatches = q.batches.length + held.length
  bytes : q.pendingBatchBytes = HistoryQueue.bytes q.batches + HistoryQueue.bytes held
  capacity : q.pendingBatches ≤ HISTORY_BATCH_QUEUE_CAPACITY
  memory : q.pendingBatchBytes ≤ MAX_HISTORY_QUEUE_BYTES
  controlCapacity : q.pendingControls ≤ HISTORY_CONTROL_QUEUE_CAPACITY
  exact : q.exact = true

theorem Balanced.perm {held' : List QueuedBatch} (h : q.Balanced held) (hperm : held.Perm held') : q.Balanced held' := by
  obtain ⟨hqueued, hcontrols, hpending, hbytes, hcapacity, hmemory, hcontrolCapacity, hexact⟩ := h
  rw [hperm.length_eq] at hpending
  rw [bytes_perm hperm] at hbytes
  exact ⟨hqueued, hcontrols, hpending, hbytes, hcapacity, hmemory, hcontrolCapacity, hexact⟩

theorem new_balanced : new.Balanced [] :=
  ⟨rfl, rfl, rfl, rfl, Nat.zero_le _, Nat.zero_le _, Nat.zero_le _, rfl⟩

theorem batches_cons (h : q.commands = .batch batch :: rest) : q.batches = batch :: rest.filterMap Command.batch? := by
  rw [batches, h]
  rfl

theorem batches_take : (q.take command rest).batches = rest.filterMap Command.batch? := by
  rw [take]
  split <;> rfl

theorem Balanced.take_batch (h : q.Balanced held) (hcommands : q.commands = .batch batch :: rest) :
    (q.take (.batch batch) rest).Balanced (batch :: held) := by
  have hbatches := batches_cons hcommands
  have htaken : (q.take (.batch batch) rest).batches = rest.filterMap Command.batch? := batches_take
  obtain ⟨hqueued, hcontrols, hpending, hbytes, hcapacity, hmemory, hcontrolCapacity, hexact⟩ := h
  rw [hbatches] at hqueued hpending hbytes
  rw [hcommands] at hcontrols
  constructor
  case queued => rw [htaken]; exact congrArg (· - 1) hqueued
  case controls => exact hcontrols
  case pending =>
    rw [htaken]
    exact hpending.trans (by simp only [List.length_cons]; omega)
  case bytes =>
    rw [htaken]
    exact hbytes.trans (by rw [bytes_cons, bytes_cons]; omega)
  case capacity => exact hcapacity
  case memory => exact hmemory
  case controlCapacity => exact hcontrolCapacity
  case exact =>
    have hle : 1 ≤ q.queuedBatches := by
      rw [hqueued]
      exact Nat.le_add_left _ _
    simp [take, hexact, hle]

theorem Balanced.take_control (h : q.Balanced held) (hcommands : q.commands = command :: rest) (hcommand : command.isBatch = false) :
    (q.take command rest).Balanced held ∧ (q.take command rest).batches = q.batches := by
  have hbatches : (q.take command rest).batches = q.batches := by
    rw [batches_take, batches, hcommands, List.filterMap_cons_none (batch?_of_not_isBatch hcommand)]
  refine ⟨?_, hbatches⟩
  obtain ⟨hqueued, hcontrols, hpending, hbytes, hcapacity, hmemory, hcontrolCapacity, hexact⟩ := h
  rw [hcommands, List.countP_cons_of_pos (by simp [hcommand])] at hcontrols
  constructor
  case queued => rw [hbatches, ← hqueued, take, hcommand]; rfl
  case controls => rw [take, hcommand]; exact congrArg (· - 1) hcontrols
  case pending => rw [hbatches, ← hpending, take, hcommand]; rfl
  case bytes => rw [hbatches, ← hbytes, take, hcommand]; rfl
  case capacity => rw [take, hcommand]; exact hcapacity
  case memory => rw [take, hcommand]; exact hmemory
  case controlCapacity => rw [take, hcommand]; exact (Nat.sub_le _ _).trans hcontrolCapacity
  case exact =>
    have hle : 1 ≤ q.pendingControls := by omega
    simp [take, hcommand, hexact, hle]

theorem Balanced.release (h : q.Balanced (batch :: held)) : (q.releaseOwnedBatch batch).Balanced held := by
  obtain ⟨hqueued, hcontrols, hpending, hbytes, hcapacity, hmemory, hcontrolCapacity, hexact⟩ := h
  rw [List.length_cons] at hpending
  rw [bytes_cons] at hbytes
  constructor
  case queued => exact hqueued
  case controls => exact hcontrols
  case pending =>
    change q.pendingBatches - 1 = q.batches.length + held.length
    omega
  case bytes =>
    change q.pendingBatchBytes - batch.ownedBytes = HistoryQueue.bytes q.batches + HistoryQueue.bytes held
    omega
  case capacity => exact (Nat.sub_le _ _).trans hcapacity
  case memory => exact (Nat.sub_le _ _).trans hmemory
  case controlCapacity => exact hcontrolCapacity
  case exact =>
    have hcount : 1 ≤ q.pendingBatches := by omega
    have hsize : batch.ownedBytes ≤ q.pendingBatchBytes := by omega
    simp [releaseOwnedBatch, forget, hexact, hcount, hsize]

theorem eraseP_batches (commands : List Command) :
    (commands.eraseP Command.isBatch).filterMap Command.batch? = (commands.filterMap Command.batch?).tail ∧
      (commands.eraseP Command.isBatch).countP (!·.isBatch) = commands.countP (!·.isBatch) := by
  induction commands with
  | nil => exact ⟨rfl, rfl⟩
  | cons command commands ih =>
      cases hcommand : command.isBatch with
      | true =>
          obtain ⟨batch, hbatch⟩ := Option.isSome_iff_exists.mp hcommand
          rw [List.eraseP_cons_of_pos hcommand, List.filterMap_cons_some hbatch, List.countP_cons_of_neg (by simp [hcommand])]
          exact ⟨rfl, rfl⟩
      | false =>
          rw [List.eraseP_cons_of_neg (by simp [hcommand]), List.filterMap_cons_none (batch?_of_not_isBatch hcommand),
            List.filterMap_cons_none (batch?_of_not_isBatch hcommand), List.countP_cons_of_pos (by simp [hcommand]),
            List.countP_cons_of_pos (by simp [hcommand]), ih.1, ih.2]
          exact ⟨rfl, rfl⟩

theorem Balanced.evict {later : List QueuedBatch} (h : q.Balanced held) (hbatches : q.batches = batch :: later) :
    (q.evict batch).Balanced held ∧ (q.evict batch).batches = later := by
  have hlater : (q.evict batch).batches = later := by
    change (q.commands.eraseP Command.isBatch).filterMap Command.batch? = later
    rw [(eraseP_batches q.commands).1, ← batches, hbatches, List.tail_cons]
  refine ⟨?_, hlater⟩
  obtain ⟨hqueued, hcontrols, hpending, hbytes, hcapacity, hmemory, hcontrolCapacity, hexact⟩ := h
  rw [hbatches, List.length_cons] at hqueued hpending
  rw [hbatches, bytes_cons] at hbytes
  constructor
  case queued =>
    change q.queuedBatches - 1 = _
    rw [hlater]
    omega
  case controls => exact hcontrols.trans (eraseP_batches q.commands).2.symm
  case pending =>
    change q.pendingBatches - 1 = _
    rw [hlater]
    omega
  case bytes =>
    change q.pendingBatchBytes - batch.ownedBytes = _
    rw [hlater]
    omega
  case capacity => exact (Nat.sub_le _ _).trans hcapacity
  case memory => exact (Nat.sub_le _ _).trans hmemory
  case controlCapacity => exact hcontrolCapacity
  case exact =>
    have hcount : 1 ≤ q.queuedBatches := by omega
    have hcount' : 1 ≤ q.pendingBatches := by omega
    have hsize : batch.ownedBytes ≤ q.pendingBatchBytes := by omega
    simp [QueueState.evict, take, forget, hexact, hcount, hcount', hsize]

theorem Balanced.enqueue (h : q.Balanced held) (hfull : q.full batch = false) :
    (q.enqueue batch).Balanced held ∧ (q.enqueue batch).batches = q.batches ++ [batch] := by
  have hbatches : (q.enqueue batch).batches = q.batches ++ [batch] := List.filterMap_append
  refine ⟨?_, hbatches⟩
  obtain ⟨hqueued, hcontrols, hpending, hbytes, hcapacity, hmemory, hcontrolCapacity, hexact⟩ := h
  simp only [full, Bool.or_eq_false_iff, decide_eq_false_iff_not, not_le, not_lt] at hfull
  obtain ⟨hroom, hfits⟩ := hfull
  have hsum : saturatingAdd q.pendingBatchBytes batch.ownedBytes = q.pendingBatchBytes + batch.ownedBytes := by
    rw [saturatingAdd, MAX_HISTORY_QUEUE_BYTES] at hfits
    rw [saturatingAdd]
    omega
  constructor
  case queued =>
    rw [hbatches, List.length_append, ← hqueued]
    rfl
  case controls =>
    change q.pendingControls = (q.commands ++ [Command.batch batch]).countP _
    rw [List.countP_append, hcontrols]
    rfl
  case pending =>
    change q.pendingBatches + 1 = _
    rw [hbatches, List.length_append, List.length_singleton]
    omega
  case bytes =>
    change saturatingAdd q.pendingBatchBytes batch.ownedBytes = _
    rw [hbatches, bytes_append, hsum, bytes_cons]
    change _ = _ + (batch.ownedBytes + 0) + _
    omega
  case capacity => exact hroom
  case memory => exact hfits
  case controlCapacity => exact hcontrolCapacity
  case exact => exact hexact

theorem Balanced.pushControl (h : q.Balanced held) (hcommand : command.isBatch = false) (ht : q.pushControl command = .ok t) :
    t.Balanced held ∧ t.batches = q.batches := by
  simp only [QueueState.pushControl, bind_eq_ok, require_eq_ok, pure_eq_ok] at ht
  obtain ⟨_, -, _, hroom, rfl⟩ := ht
  have hbatches : (q.commands ++ [command]).filterMap Command.batch? = q.batches := by
    rw [List.filterMap_append, List.filterMap_cons_none (batch?_of_not_isBatch hcommand), List.filterMap_nil, List.append_nil,
      batches]
  refine ⟨?_, hbatches⟩
  obtain ⟨hqueued, hcontrols, hpending, hbytes, hcapacity, hmemory, -, hexact⟩ := h
  rw [← hbatches] at hqueued hpending hbytes
  refine ⟨hqueued, ?_, hpending, hbytes, hcapacity, hmemory, hroom, hexact⟩
  rw [List.countP_append, ← hcontrols, List.countP_singleton, hcommand]
  rfl

theorem open_of_pushControl (ht : q.pushControl command = .ok t) : q.closed = false := by
  simp only [QueueState.pushControl, bind_eq_ok, require_eq_ok, pure_eq_ok] at ht
  obtain ⟨_, hopen, -⟩ := ht
  exact hopen

theorem Balanced.failPendingControls (h : q.Balanced held) :
    q.failPendingControls.Balanced held ∧ q.failPendingControls.batches = q.batches := by
  have hbatches : (q.commands.filter Command.isBatch).filterMap Command.batch? = q.batches := by
    rw [List.filterMap_filter, batches]
    refine List.filterMap_congr fun command _ => ?_
    cases command <;> rfl
  refine ⟨?_, hbatches⟩
  obtain ⟨hqueued, hcontrols, hpending, hbytes, hcapacity, hmemory, -, hexact⟩ := h
  rw [← hbatches] at hqueued hpending hbytes
  refine ⟨hqueued, ?_, hpending, hbytes, hcapacity, hmemory, Nat.zero_le _, hexact⟩
  refine (List.countP_eq_zero.mpr fun command hmem => ?_).symm
  simp [(List.mem_filter.mp hmem).2]

theorem Balanced.close (h : q.Balanced held) : q.close.Balanced held ∧ q.close.batches = q.batches :=
  ⟨⟨h.queued, h.controls, h.pending, h.bytes, h.capacity, h.memory, h.controlCapacity, h.exact⟩, rfl⟩

/-- Whatever joins a transaction is taken from the front of the queue. -/
theorem Balanced.drain (batches : List QueuedBatch) (transactionBytes : Nat) (h : q.Balanced (batches ++ held)) :
    (q.drain batches transactionBytes q.commands).2.Balanced ((q.drain batches transactionBytes q.commands).1 ++ held) ∧
      batches ++ q.batches = (q.drain batches transactionBytes q.commands).1 ++ (q.drain batches transactionBytes q.commands).2.batches ∧
      (q.drain batches transactionBytes q.commands).2.closed = q.closed := by
  generalize hcommands : q.commands = commands
  induction commands generalizing q batches transactionBytes with
  | nil => exact ⟨h, rfl, rfl⟩
  | cons command rest ih =>
      cases command with
      | batch next =>
          rw [QueueState.drain]
          split
          · have htaken : (q.take (.batch next) rest).Balanced ((batches ++ [next]) ++ held) :=
              (h.take_batch hcommands).perm (by simpa using List.perm_middle.symm)
            obtain ⟨hbalanced, hbatches, hclosed⟩ := ih _ _ htaken rfl
            refine ⟨hbalanced, ?_, hclosed⟩
            rw [← hbatches, batches_cons hcommands, batches_take, List.append_assoc, List.singleton_append]
          · exact ⟨h, rfl, rfl⟩
      | query | maintain | checkpoint => exact ⟨h, rfl, rfl⟩

end QueueState

end Rustgo.HistoryQueue
