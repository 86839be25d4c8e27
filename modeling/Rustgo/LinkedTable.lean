import Rustgo.Tables

namespace Rustgo.LinkedTable

open Tables

/-- How the values of a table hold the keys of their neighbours in a list. -/
structure Links (K V : Type) where
  previous : V → Option K
  next : V → Option K
  setPrevious : Option K → V → V
  setNext : Option K → V → V
  previous_setPrevious : ∀ p v, previous (setPrevious p v) = p
  next_setPrevious : ∀ p v, next (setPrevious p v) = next v
  previous_setNext : ∀ n v, previous (setNext n v) = previous v
  next_setNext : ∀ n v, next (setNext n v) = n

variable {K V : Type} [DecidableEq K] (L : Links K V) {m m' : Table K V} {k x : K} {ks xs ys : List K}
  {p n : Option K}

section Modify

/-- Change the value at a key, if there is one. -/
def modify (m : Table K V) (k : K) (f : V → V) : Table K V :=
  match m.lookup k with
  | some v => m.insert k (f v)
  | none => m

def modify? (m : Table K V) (k : Option K) (f : V → V) : Table K V :=
  match k with
  | some k => modify m k f
  | none => m

@[simp] theorem modify?_some (m : Table K V) (k : K) (f : V → V) : modify? m (some k) f = modify m k f := rfl

@[simp] theorem modify?_none (m : Table K V) (f : V → V) : modify? m none f = m := rfl

variable {f : V → V}

theorem lookup_modify_self : (modify m k f).lookup k = (m.lookup k).map f := by
  rw [modify]
  cases h : m.lookup k with
  | none => simp [h]
  | some v => simp

theorem lookup_modify_of_ne (h : x ≠ k) : (modify m k f).lookup x = m.lookup x := by
  rw [modify]
  cases m.lookup k with
  | none => rfl
  | some v => exact Finmap.lookup_insert_of_ne _ h

theorem map_lookup_modify {α : Type} {g : V → α} (hg : ∀ v, g (f v) = g v) :
    ((modify m k f).lookup x).map g = (m.lookup x).map g := by
  by_cases h : x = k
  · rw [h, lookup_modify_self, Option.map_map]
    exact congrArg (Option.map · _) (funext hg)
  · rw [lookup_modify_of_ne h]

theorem map_lookup_modify? {α : Type} {g : V → α} (hg : ∀ v, g (f v) = g v) :
    ((modify? m p f).lookup x).map g = (m.lookup x).map g := by
  cases p with
  | none => rfl
  | some k => exact map_lookup_modify hg

theorem mem_modify : x ∈ modify m k f ↔ x ∈ m := by
  rw [← Finmap.lookup_isSome, ← Finmap.lookup_isSome]
  by_cases h : x = k
  · rw [h, lookup_modify_self, Option.isSome_map]
  · rw [lookup_modify_of_ne h]

theorem exists_lookup_modify {v : V} (h : m.lookup x = some v) (k : K) (f : V → V) :
    ∃ w, (modify m k f).lookup x = some w :=
  Finmap.mem_iff.mp (mem_modify.mpr (Finmap.mem_of_lookup_eq_some h))

theorem mem_modify? : x ∈ modify? m p f ↔ x ∈ m := by
  cases p with
  | none => rfl
  | some k => exact mem_modify

theorem len_modify : len (modify m k f) = len m := by
  rw [modify]
  cases h : m.lookup k with
  | none => rfl
  | some v =>
      have := total_replace (f := fun _ _ => 1) (w := f v) h
      simp only [len_eq_total]
      omega

theorem len_modify? : len (modify? m p f) = len m := by
  cases p with
  | none => rfl
  | some k => exact len_modify

theorem lookup_modify?_of_ne (h : p ≠ some x) : (modify? m p f).lookup x = m.lookup x := by
  cases p with
  | none => rfl
  | some k => exact lookup_modify_of_ne (fun hx => h (hx ▸ rfl))

theorem insert_modify {v : V} (h : k ≠ x) : (modify m x f).insert k v = modify (m.insert k v) x f := by
  apply Finmap.ext_lookup
  intro y
  by_cases hyk : y = k
  · rw [hyk, Finmap.lookup_insert, lookup_modify_of_ne h, Finmap.lookup_insert]
  · rw [Finmap.lookup_insert_of_ne _ hyk]
    by_cases hyx : y = x
    · rw [hyx, lookup_modify_self, lookup_modify_self, Finmap.lookup_insert_of_ne _ (Ne.symm h)]
    · rw [lookup_modify_of_ne hyx, lookup_modify_of_ne hyx, Finmap.lookup_insert_of_ne _ hyk]

end Modify

section Segments

/-- The keys are linked in this order, between a left and a right neighbour. -/
def Segment (m : Table K V) : Option K → List K → Option K → Prop
  | _, [], _ => True
  | p, k :: ks, n =>
      (∃ v, m.lookup k = some v ∧ L.previous v = p ∧ L.next v = ks.head?.or n) ∧ Segment m (some k) ks n

variable {L}

theorem Segment.congr (h : ∀ k ∈ ks, m'.lookup k = m.lookup k) (hs : Segment L m p ks n) :
    Segment L m' p ks n := by
  induction ks generalizing p with
  | nil => trivial
  | cons k ks ih =>
      obtain ⟨⟨v, hv, hp, hn⟩, hrest⟩ := hs
      refine ⟨⟨v, ?_, hp, hn⟩, ih (fun x hx => h x (List.mem_cons_of_mem k hx)) hrest⟩
      rw [h k List.mem_cons_self, hv]

theorem segment_append :
    Segment L m p (xs ++ ys) n ↔
      Segment L m p xs (ys.head?.or n) ∧ Segment L m (xs.getLast?.or p) ys n := by
  induction xs generalizing p with
  | nil => simp [Segment]
  | cons k xs ih =>
      have hlast : (xs.getLast?.or (some k)) = ((k :: xs).getLast?.or p) := by
        rw [List.getLast?_cons]
        cases xs.getLast? with
        | none => rfl
        | some x => rfl
      have hhead : (xs ++ ys).head?.or n = xs.head?.or (ys.head?.or n) := by
        cases xs with
        | nil => simp
        | cons x xs => simp
      simp only [List.cons_append, Segment, ih, hlast, hhead, and_assoc]

theorem Segment.setPrevious (h : Segment L m p (k :: ks) n) (hk : k ∉ ks) (q : Option K) :
    Segment L (modify m k (L.setPrevious q)) q (k :: ks) n := by
  obtain ⟨⟨v, hv, _, hn⟩, hrest⟩ := h
  refine ⟨⟨L.setPrevious q v, ?_, L.previous_setPrevious q v, ?_⟩, hrest.congr fun x hx => ?_⟩
  · rw [lookup_modify_self, hv, Option.map_some]
  · rw [L.next_setPrevious, hn]
  · exact lookup_modify_of_ne fun hxk => hk (hxk ▸ hx)

theorem Segment.setNext (h : Segment L m p (ks ++ [k]) n) (hk : k ∉ ks) (q : Option K) :
    Segment L (modify m k (L.setNext q)) p (ks ++ [k]) q := by
  obtain ⟨hks, ⟨v, hv, hp, _⟩, _⟩ := segment_append.mp h
  refine segment_append.mpr ⟨?_, ⟨L.setNext q v, ?_, ?_, ?_⟩, trivial⟩
  · exact hks.congr fun x hx => lookup_modify_of_ne fun hxk => hk (hxk ▸ hx)
  · rw [lookup_modify_self, hv, Option.map_some]
  · rw [L.previous_setNext, hp]
  · simp [L.next_setNext]

/-- Give a segment another left neighbour. -/
theorem Segment.modify_head (h : Segment L m p ks n) (hd : ks.Nodup) (q : Option K) :
    Segment L (modify? m ks.head? (L.setPrevious q)) q ks n := by
  cases ks with
  | nil => trivial
  | cons k ks => exact h.setPrevious (List.nodup_cons.mp hd).1 q

/-- Give a segment another right neighbour. -/
theorem Segment.modify_last (h : Segment L m p ks n) (hd : ks.Nodup) (q : Option K) :
    Segment L (modify? m ks.getLast? (L.setNext q)) p ks q := by
  induction ks using List.reverseRecOn with
  | nil => trivial
  | append_singleton ks k _ =>
      rw [List.getLast?_concat]
      have hk : k ∉ ks := fun hk => (List.nodup_append.mp hd).2.2 k hk k (List.mem_singleton_self k) rfl
      exact h.setNext hk q

theorem Segment.lookup (h : Segment L m p (xs ++ k :: ys) n) :
    ∃ v, m.lookup k = some v ∧ L.previous v = xs.getLast?.or p ∧ L.next v = ys.head?.or n :=
  (segment_append.mp h).2.1

/-- A change that keeps the links keeps every segment. -/
theorem Segment.modify {f : V → V} (hp : ∀ v, L.previous (f v) = L.previous v)
    (hn : ∀ v, L.next (f v) = L.next v) (h : Segment L m p ks n) : Segment L (modify m x f) p ks n := by
  induction ks generalizing p with
  | nil => trivial
  | cons k ks ih =>
      obtain ⟨⟨v, hv, hvp, hvn⟩, hrest⟩ := h
      refine ⟨?_, ih hrest⟩
      by_cases hx : k = x
      · refine ⟨f v, ?_, (hp v).trans hvp, (hn v).trans hvn⟩
        rw [hx, lookup_modify_self, ← hx, hv, Option.map_some]
      · refine ⟨v, ?_, hvp, hvn⟩
        rw [lookup_modify_of_ne hx, hv]

end Segments

section Threaded

/-- The list from `head` to `tail` goes through every key of the table once. -/
structure Threaded (m : Table K V) (head tail : Option K) (ks : List K) : Prop where
  nodup : ks.Nodup
  mem : ∀ k, k ∈ ks ↔ k ∈ m
  head_eq : head = ks.head?
  tail_eq : tail = ks.getLast?
  segment : Segment L m none ks none

variable {L} {head tail : Option K}

theorem threaded_empty : Threaded L (∅ : Table K V) none none [] where
  nodup := List.nodup_nil
  mem _ := ⟨fun h => absurd h List.not_mem_nil, fun h => absurd h Finmap.notMem_empty⟩
  head_eq := rfl
  tail_eq := rfl
  segment := trivial

theorem Threaded.length_eq (h : Threaded L m head tail ks) : ks.length = len m := by
  have hkeys : ks.toFinset = m.keys := by
    ext k
    rw [List.mem_toFinset, h.mem, Finmap.mem_keys]
  have hcard : m.keys.card = len m := Multiset.card_map _ _
  rw [← List.toFinset_card_of_nodup h.nodup, hkeys, hcard]

theorem Threaded.getLast?_ne (h : Threaded L m head tail ks) (hk : k ∉ m) : ks.getLast? ≠ some k :=
  fun hlast => hk ((h.mem k).mp (List.mem_of_getLast? hlast))

/-- A new key is linked behind the last one. -/
theorem Threaded.push (h : Threaded L m head tail ks) (hk : k ∉ m) {v : V} (hp : L.previous v = tail)
    (hn : L.next v = none) :
    Threaded L (modify? (m.insert k v) tail (L.setNext (some k))) (head.or (some k)) (some k) (ks ++ [k]) := by
  have hks : k ∉ ks := fun hmem => hk ((h.mem k).mp hmem)
  have hsegment : Segment L (m.insert k v) none ks none :=
    h.segment.congr fun x hx => Finmap.lookup_insert_of_ne _ fun hxk => hks (hxk ▸ hx)
  constructor
  · exact List.nodup_append.mpr ⟨h.nodup, List.nodup_singleton k, fun a ha b hb hab =>
      hks (List.mem_singleton.mp hb ▸ hab ▸ ha)⟩
  · intro x
    rw [mem_modify?, Finmap.mem_insert, List.mem_append, List.mem_singleton, h.mem, or_comm]
  · rw [h.head_eq, List.head?_append]
    rfl
  · rw [List.getLast?_concat]
  · rw [segment_append, h.tail_eq]
    refine ⟨hsegment.modify_last h.nodup (some k), ⟨v, ?_, ?_, ?_⟩, trivial⟩
    · rw [lookup_modify?_of_ne (h.getLast?_ne hk), Finmap.lookup_insert]
    · rw [hp, h.tail_eq, Option.or_none]
    · rw [hn]
      rfl

theorem Threaded.split (h : Threaded L m head tail ks) {v : V} (hv : m.lookup k = some v) :
    ∃ xs ys, ks = xs ++ k :: ys ∧ k ∉ xs ∧ k ∉ ys ∧ L.previous v = xs.getLast? ∧ L.next v = ys.head? := by
  have hmem : k ∈ ks := (h.mem k).mpr (Finmap.mem_of_lookup_eq_some hv)
  obtain ⟨xs, ys, rfl⟩ := List.append_of_mem hmem
  obtain ⟨-, hcons, hdisjoint⟩ := List.nodup_append.mp h.nodup
  obtain ⟨w, hw, hp, hn⟩ := h.segment.lookup
  obtain rfl : w = v := Option.some.inj (hw.symm.trans hv)
  refine ⟨xs, ys, rfl, ?_, (List.nodup_cons.mp hcons).1, ?_, ?_⟩
  · exact fun hk => hdisjoint k hk k List.mem_cons_self rfl
  · rw [hp, Option.or_none]
  · rw [hn, Option.or_none]

theorem segment_unlink (h : Segment L m none (xs ++ k :: ys) none) (hd : (xs ++ k :: ys).Nodup) :
    Segment L (modify? (modify? (m.erase k) xs.getLast? (L.setNext ys.head?)) ys.head? (L.setPrevious xs.getLast?))
      none (xs ++ ys) none := by
  obtain ⟨hxs, hcons, hdisjoint⟩ := List.nodup_append.mp hd
  obtain ⟨hkys, hys⟩ := List.nodup_cons.mp hcons
  have hkxs : k ∉ xs := fun hk => hdisjoint k hk k List.mem_cons_self rfl
  have hxy : ∀ a ∈ xs, a ∉ ys := fun a ha hay => hdisjoint a ha a (List.mem_cons_of_mem k hay) rfl
  obtain ⟨hleft, -, hright⟩ := segment_append.mp h
  have hleft' : Segment L (m.erase k) none xs (some k) :=
    hleft.congr fun x hx => Finmap.lookup_erase_ne fun hxk => hkxs (hxk ▸ hx)
  have hright' : Segment L (m.erase k) (some k) ys none :=
    hright.congr fun x hx => Finmap.lookup_erase_ne fun hxk => hkys (hxk ▸ hx)
  rw [segment_append, Option.or_none, Option.or_none]
  constructor
  · refine (hleft'.modify_last hxs ys.head?).congr fun x hx => lookup_modify?_of_ne fun hy => ?_
    exact hxy x hx (List.mem_of_mem_head? hy)
  · refine Segment.modify_head (hright'.congr fun x hx => lookup_modify?_of_ne fun hy => ?_) hys _
    exact hxy x (List.mem_of_getLast? hy) hx

/-- A key is taken out by linking its two neighbours. -/
theorem Threaded.unlink (h : Threaded L m head tail ks) {v : V} (hv : m.lookup k = some v) :
    Threaded L
      (modify? (modify? (m.erase k) (L.previous v) (L.setNext (L.next v))) (L.next v)
        (L.setPrevious (L.previous v)))
      (match L.previous v with | some _ => head | none => L.next v)
      (match L.next v with | some _ => tail | none => L.previous v) (ks.erase k) := by
  obtain ⟨xs, ys, rfl, hxs, hys, hp, hn⟩ := h.split hv
  rw [hp, hn, List.erase_append_right _ hxs, List.erase_cons_head]
  constructor
  · exact h.nodup.sublist (List.Sublist.append_left (List.sublist_cons_self k ys) xs)
  · intro x
    rw [mem_modify?, mem_modify?, Finmap.mem_erase, ← h.mem]
    simp only [List.mem_append, List.mem_cons]
    constructor
    · rintro (hx | hx)
      · exact ⟨fun hxk => hxs (hxk ▸ hx), .inl hx⟩
      · exact ⟨fun hxk => hys (hxk ▸ hx), .inr (.inr hx)⟩
    · rintro ⟨hxk, hx | hx | hx⟩
      · exact .inl hx
      · exact absurd hx hxk
      · exact .inr hx
  · rw [h.head_eq]
    cases xs with
    | nil => simp
    | cons x xs => simp [List.getLast?_cons]
  · rw [h.tail_eq]
    cases ys with
    | nil => simp
    | cons y ys => simp [List.getLast?_append, List.getLast?_cons]
  · exact segment_unlink h.segment h.nodup

/-- The first key of several is moved behind the last one. -/
theorem Threaded.rotate (h : Threaded L m head tail (k :: x :: ys)) {t : K} (ht : tail = some t) :
    Threaded L
      (modify (modify (modify m x (L.setPrevious none)) t (L.setNext (some k))) k
        (fun v => L.setNext none (L.setPrevious (some t) v)))
      (some x) (some k) (x :: ys ++ [k]) := by
  obtain ⟨hk, hd⟩ := List.nodup_cons.mp h.nodup
  have hlast : (x :: ys).getLast? = some t := by
    rw [← ht, h.tail_eq, List.getLast?_cons_cons]
  have htk : k ≠ t := fun hkt => hk (hkt ▸ List.mem_of_getLast? hlast)
  have hxk : k ≠ x := fun hkx => hk (hkx ▸ List.mem_cons_self)
  obtain ⟨⟨v, hv, -, -⟩, hrest⟩ := h.segment
  constructor
  · exact List.nodup_append.mpr ⟨hd, List.nodup_singleton k, fun a ha b hb hab =>
      hk (List.mem_singleton.mp hb ▸ hab ▸ ha)⟩
  · intro y
    rw [mem_modify, mem_modify, mem_modify, ← h.mem]
    simp only [List.mem_append, List.mem_cons, List.not_mem_nil, or_false]
    tauto
  · rfl
  · rw [List.getLast?_concat]
  · have hmoved := (hrest.modify_head hd none).modify_last hd (some k)
    rw [hlast] at hmoved
    rw [segment_append, hlast]
    refine ⟨hmoved.congr fun y hy => ?_, ⟨L.setNext none (L.setPrevious (some t) v), ?_, ?_, ?_⟩, trivial⟩
    · exact lookup_modify_of_ne fun hyk => hk (hyk ▸ hy)
    · rw [lookup_modify_self, lookup_modify_of_ne htk, lookup_modify_of_ne hxk, hv, Option.map_some]
    · rw [L.previous_setNext, L.previous_setPrevious, Option.some_or]
    · rw [L.next_setNext]
      rfl

/-- What is found on the way when the first key of several is moved. -/
theorem Threaded.rotate_lookups (h : Threaded L m head tail (k :: x :: ys)) :
    ∃ t, tail = some t ∧ t ≠ k ∧ (∃ v, m.lookup k = some v ∧ L.next v = some x) ∧ (∃ v, m.lookup x = some v) ∧
      (∃ v, (LinkedTable.modify m x (L.setPrevious none)).lookup t = some v) ∧
      ∃ v, (LinkedTable.modify (LinkedTable.modify m x (L.setPrevious none)) t (L.setNext (some k))).lookup k = some v := by
  have htail : tail = some ((x :: ys).getLast?.getD k) := by rw [h.tail_eq, List.getLast?_cons]
  generalize (x :: ys).getLast?.getD k = t at htail
  have hlast : (x :: ys).getLast? = some t := by rw [← htail, h.tail_eq, List.getLast?_cons_cons]
  have hk : k ∉ x :: ys := (List.nodup_cons.mp h.nodup).1
  obtain ⟨⟨v, hv, -, hnext⟩, ⟨w, hw, -, -⟩, -⟩ := h.segment
  obtain ⟨u, hu⟩ := Finmap.mem_iff.mp ((h.mem t).mp (List.mem_cons_of_mem k (List.mem_of_getLast? hlast)))
  obtain ⟨v₁, hv₁⟩ := exists_lookup_modify hv x (L.setPrevious none)
  refine ⟨t, htail, fun ht => hk (ht ▸ List.mem_of_getLast? hlast), ⟨v, hv, hnext⟩, ⟨w, hw⟩, ?_, ?_⟩
  · exact exists_lookup_modify hu x (L.setPrevious none)
  · exact exists_lookup_modify hv₁ t (L.setNext (some k))

/-- A change that keeps the links keeps the list. -/
theorem Threaded.modify {f : V → V} (hp : ∀ v, L.previous (f v) = L.previous v)
    (hn : ∀ v, L.next (f v) = L.next v) (h : Threaded L m head tail ks) :
    Threaded L (LinkedTable.modify m k f) head tail ks where
  nodup := h.nodup
  mem x := by rw [mem_modify, h.mem]
  head_eq := h.head_eq
  tail_eq := h.tail_eq
  segment := h.segment.modify hp hn

end Threaded

section Walk

/-- The keys met from a starting point by following the links, at most `fuel` of them. -/
def walk (m : Table K V) : Nat → Option K → List K
  | 0, _ => []
  | _ + 1, none => []
  | fuel + 1, some k =>
      match m.lookup k with
      | some v => k :: walk m fuel (L.next v)
      | none => [k]

variable {L}

@[simp] theorem walk_none (fuel : Nat) : walk L m fuel none = [] := by
  cases fuel <;> rfl

theorem Segment.walk_eq (h : Segment L m p ks none) {fuel : Nat} (hf : ks.length ≤ fuel) :
    walk L m fuel ks.head? = ks := by
  induction ks generalizing p fuel with
  | nil => exact walk_none fuel
  | cons k ks ih =>
      obtain ⟨⟨v, hv, -, hn⟩, hrest⟩ := h
      cases fuel with
      | zero => simp at hf
      | succ fuel =>
          rw [Option.or_none] at hn
          rw [List.head?_cons, walk]
          simp only [hv, hn, ih hrest (Nat.le_of_succ_le_succ hf)]

theorem Threaded.walk_eq {head tail : Option K} (h : Threaded L m head tail ks) {fuel : Nat} (hf : len m ≤ fuel) :
    walk L m fuel head = ks := by
  rw [h.head_eq]
  exact h.segment.walk_eq (h.length_eq ▸ hf)

end Walk

end Rustgo.LinkedTable
