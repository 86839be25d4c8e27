import Mathlib.Data.List.Sort

namespace Rustgo

/-- A queue that serves its least item first. Equal items are kept apart. -/
structure MinHeap (α : Type) [LinearOrder α] where
  items : List α
  sorted : items.Pairwise (· ≤ ·)

namespace MinHeap

variable {α : Type} [LinearOrder α] {h : MinHeap α} {a b : α}

def empty : MinHeap α := ⟨[], .nil⟩

def push (h : MinHeap α) (a : α) : MinHeap α :=
  ⟨h.items.orderedInsert (· ≤ ·) a, List.Pairwise.orderedInsert a _ h.sorted⟩

def peek (h : MinHeap α) : Option α := h.items.head?

def pop (h : MinHeap α) : MinHeap α := ⟨h.items.tail, h.sorted.tail⟩

/-- How many items are served before `a`. -/
def ahead (h : MinHeap α) (a : α) : Nat := h.items.countP (· < a)

@[simp] theorem items_empty : (empty : MinHeap α).items = [] := rfl

theorem push_perm (h : MinHeap α) (a : α) : (h.push a).items.Perm (a :: h.items) :=
  List.perm_orderedInsert _ _ _

@[simp] theorem mem_push : b ∈ (h.push a).items ↔ b = a ∨ b ∈ h.items := by
  rw [(h.push_perm a).mem_iff, List.mem_cons]

theorem nodup_push (ha : a ∉ h.items) (hn : h.items.Nodup) : (h.push a).items.Nodup :=
  (h.push_perm a).nodup_iff.mpr (List.nodup_cons.mpr ⟨ha, hn⟩)

theorem items_of_peek (hp : h.peek = some a) : h.items = a :: h.pop.items := by
  obtain ⟨rest, hr⟩ := List.head?_eq_some_iff.mp hp
  simp only [pop, hr, List.tail_cons]

theorem items_of_peek_none (hp : h.peek = none) : h.items = [] := List.head?_eq_none_iff.mp hp

theorem peek_le (hp : h.peek = some a) (hb : b ∈ h.items) : a ≤ b := by
  have hs := h.sorted
  rw [items_of_peek hp] at hs hb
  rcases List.mem_cons.mp hb with rfl | hb
  · exact le_rfl
  · exact (List.pairwise_cons.mp hs).1 b hb

theorem ahead_pop (hp : h.peek = some b) (hlt : b < a) : h.ahead a = h.pop.ahead a + 1 := by
  rw [ahead, items_of_peek hp, List.countP_cons_of_pos (by simpa using hlt)]
  rfl

theorem ahead_peek (hp : h.peek = some a) : h.ahead a = 0 := by
  apply List.countP_eq_zero.mpr
  intro b hb
  simpa using peek_le hp hb

theorem ahead_push (hlt : b < a) : (h.push b).ahead a = h.ahead a + 1 := by
  rw [ahead, (h.push_perm b).countP_eq, List.countP_cons_of_pos (by simpa using hlt)]
  rfl

end MinHeap

end Rustgo
