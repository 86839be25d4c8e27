import Mathlib.Data.List.Dedup
import Rustgo.ManagedStore

namespace Rustgo.Managed

open Checks Rows

section Reports

/-- The kind and the name that an item of a report names. -/
def reportedItem (item : Json) : Option (String × String) := do
  let kind ← (item.get "kind").bind Json.asStr
  let name ← (item.get "name").bind Json.asStr
  pure (kind, name)

def reportedItems : Json → Option (List (String × String))
  | .array items => items.mapM reportedItem
  | _ => none

/-- The results list every configured item once. -/
def Covers (results : Json) (c : ManagedConfiguration) : Prop :=
  ∃ items, reportedItems results = some items ∧ items.Nodup ∧ ∀ p, p ∈ items ↔ p ∈ c.configured

theorem validateReportItem_eq_ok {expected rest : List (String × String)} {item : Json}
    (h : validateReportItem expected item = .ok rest) :
    ∃ p ∈ expected, reportedItem item = some p ∧ rest = expected.erase p := by
  unfold validateReportItem at h
  split at h
  · next fields =>
    simp only [bind_eq_ok, okOr_eq_ok, require_eq_ok, Option.bind_eq_some_iff] at h
    obtain ⟨-, -, kind, ⟨jkind, hkind, hkindStr⟩, name, ⟨jname, hname, hnameStr⟩, -, hmem, -, -, h⟩ := h
    refine ⟨(kind, name), hmem, ?_, ?_⟩
    · simp [reportedItem, hkind, hkindStr, hname, hnameStr]
    · split at h
      · exact (pure_eq_ok.mp h).symm
      · exact (pure_eq_ok.mp h).symm
      · simp only [bind_eq_ok, require_eq_ok, pure_eq_ok] at h
        obtain ⟨-, -, hrest⟩ := h
        exact hrest.symm
      · cases h
  · cases h

theorem validateReportItems_eq_ok {expected : List (String × String)} {items : List Json}
    (h : validateReportItems expected items = .ok ()) (hlen : items.length = expected.length) :
    ∃ reported, items.mapM reportedItem = some reported ∧ reported.Perm expected := by
  induction items generalizing expected with
  | nil =>
      obtain rfl := List.length_eq_zero_iff.mp hlen.symm
      exact ⟨[], rfl, .refl _⟩
  | cons item items ih =>
      rw [validateReportItems, bind_eq_ok] at h
      obtain ⟨rest, hitem, hrest⟩ := h
      obtain ⟨p, hp, hreported, rfl⟩ := validateReportItem_eq_ok hitem
      have hlen' : items.length = (expected.erase p).length := by
        rw [List.length_erase_of_mem hp, ← hlen, List.length_cons, Nat.add_sub_cancel]
      obtain ⟨reported, hmap, hperm⟩ := ih hrest hlen'
      refine ⟨p :: reported, by simp [List.mapM_cons, hreported, hmap], ?_⟩
      exact (hperm.cons p).trans (List.perm_cons_erase hp).symm

theorem covers_of_validateReport {c : ManagedConfiguration} {results : Json} (h : validateReport c results = .ok ()) :
    Covers results c := by
  unfold validateReport at h
  split at h
  · next items =>
    simp only [bind_eq_ok, require_eq_ok] at h
    obtain ⟨-, hlen, hitems⟩ := h
    obtain ⟨reported, hmap, hperm⟩ := validateReportItems_eq_ok hitems hlen
    refine ⟨reported, hmap, hperm.nodup_iff.mpr (List.nodup_dedup _), fun p => ?_⟩
    rw [hperm.mem_iff, List.mem_dedup]
  · cases h

end Reports

namespace ManagedStore

variable {s s' : ManagedStore} {r r' : ManagedRow} {identity name : String} {c : ManagedConfiguration} {e : ManagedError}

/-- What was applied was reported on the present configuration. -/
def Applied (r : ManagedRow) : Prop :=
  r.appliedRevision = none ∨ r.appliedRevision = some r.revision ∧ Covers r.results r.configuration

structure Consistent (s : ManagedStore) : Prop where
  identities : Keyed ManagedRow.identity s
  mapped : ∀ r ∈ s, ∀ r' ∈ s, ∀ name, r.mappedName = some name → r'.mappedName = some name → r = r'
  named : ∀ r ∈ s, ∀ name, r.mappedName = some name → r.name = name
  applied : ∀ r ∈ s, Applied r

theorem consistent_nil : Consistent [] where
  identities := keyed_nil
  mapped r hr := absurd hr List.not_mem_nil
  named r hr := absurd hr List.not_mem_nil
  applied r hr := absurd hr List.not_mem_nil

/-- A row as another one may find it later. -/
def Later (r r' : ManagedRow) : Prop :=
  r'.identity = r.identity ∧ (r.revision < r'.revision ∨ r'.revision = r.revision ∧ r'.configuration = r.configuration)

theorem Later.refl (r : ManagedRow) : Later r r := ⟨rfl, .inr ⟨rfl, rfl⟩⟩

theorem Later.trans {r'' : ManagedRow} (h : Later r r') (h' : Later r' r'') : Later r r'' := by
  refine ⟨h'.1.trans h.1, ?_⟩
  rcases h.2 with hlt | ⟨hrev, hconf⟩
  · rcases h'.2 with hlt' | ⟨hrev', -⟩
    · exact .inl (hlt.trans hlt')
    · exact .inl (hrev' ▸ hlt)
  · rcases h'.2 with hlt' | ⟨hrev', hconf'⟩
    · exact .inl (hrev ▸ hlt')
    · exact .inr ⟨hrev'.trans hrev, hconf'.trans hconf⟩

/-- Every row is still there, with its revision and configuration or with a later revision. -/
def Advances (s s' : ManagedStore) : Prop := ∀ r ∈ s, ∃ r' ∈ s', Later r r'

theorem Advances.refl (s : ManagedStore) : Advances s s := fun r hr => ⟨r, hr, Later.refl r⟩

theorem Advances.trans {s'' : ManagedStore} (h : Advances s s') (h' : Advances s' s'') : Advances s s'' := by
  intro r hr
  obtain ⟨r', hr', hlater⟩ := h r hr
  obtain ⟨r'', hr'', hlater'⟩ := h' r' hr'
  exact ⟨r'', hr'', hlater.trans hlater'⟩

theorem advances_updateWhere {p : ManagedRow → Bool} {f : ManagedRow → ManagedRow} (h : ∀ r ∈ s, p r = true → Later r (f r)) :
    Advances s (updateWhere p f s) := by
  intro r hr
  cases hp : p r with
  | true => exact ⟨f r, mem_updateWhere.mpr (.inl ⟨r, hr, hp, rfl⟩), h r hr hp⟩
  | false => exact ⟨r, mem_updateWhere.mpr (.inr ⟨hr, hp⟩), Later.refl r⟩

/-- An update that leaves the names alone. -/
theorem Consistent.updateWhere (h : Consistent s) {p : ManagedRow → Bool} {f : ManagedRow → ManagedRow}
    (hid : ∀ r, (f r).identity = r.identity) (hmapped : ∀ r, (f r).mappedName = r.mappedName)
    (hname : ∀ r, (f r).name = r.name) (happlied : ∀ r ∈ s, p r = true → Applied (f r)) : Consistent (updateWhere p f s) := by
  have hold : ∀ x ∈ Rows.updateWhere p f s, ∃ r ∈ s, x.identity = r.identity ∧ x.mappedName = r.mappedName ∧
      x.name = r.name ∧ Applied x := by
    intro x hx
    rcases mem_updateWhere.mp hx with ⟨r, hr, hp, rfl⟩ | ⟨hr, -⟩
    · exact ⟨r, hr, hid r, hmapped r, hname r, happlied r hr hp⟩
    · exact ⟨x, hr, rfl, rfl, rfl, h.applied x hr⟩
  have hkeys := h.identities.updateWhere (p := p) hid
  refine ⟨hkeys, fun x hx x' hx' name hm hm' => ?_, fun x hx name hm => ?_, fun x hx => ?_⟩
  · obtain ⟨r, hr, hrid, hrm, -, -⟩ := hold x hx
    obtain ⟨r', hr', hrid', hrm', -, -⟩ := hold x' hx'
    have hsame := h.mapped r hr r' hr' name (hrm.symm.trans hm) (hrm'.symm.trans hm')
    exact hkeys.eq_of_key_eq hx hx' (by rw [hrid, hrid', hsame])
  · obtain ⟨r, hr, -, hrm, hrn, -⟩ := hold x hx
    exact hrn.trans (h.named r hr name (hrm.symm.trans hm))
  · obtain ⟨r, hr, -, -, -, happ⟩ := hold x hx
    exact happ

theorem Consistent.insert (h : Consistent s) (hnew : ∀ r ∈ s, r.identity ≠ identity) (name : String)
    (c : ManagedConfiguration) : Consistent (s ++ [inserted identity name c]) where
  identities := h.identities.insert hnew
  mapped r hr r' hr' name hm hm' := by
    rcases List.mem_append.mp hr with hr | hr
    · rcases List.mem_append.mp hr' with hr' | hr'
      · exact h.mapped r hr r' hr' name hm hm'
      · obtain rfl := List.mem_singleton.mp hr'
        cases hm'
    · obtain rfl := List.mem_singleton.mp hr
      cases hm
  named r hr name hm := by
    rcases List.mem_append.mp hr with hr | hr
    · exact h.named r hr name hm
    · obtain rfl := List.mem_singleton.mp hr
      cases hm
  applied r hr := by
    rcases List.mem_append.mp hr with hr | hr
    · exact h.applied r hr
    · obtain rfl := List.mem_singleton.mp hr
      exact .inl rfl

theorem mem_bindName {x : ManagedRow} : x ∈ bindName s identity name ↔
    (∃ r ∈ s, r.identity = identity ∧ x = { r with name := name, mappedName := some name }) ∨
      (∃ r ∈ s, r.identity ≠ identity ∧ r.mappedName = some name ∧ x = { r with mappedName := none }) ∨
      x ∈ s ∧ x.identity ≠ identity ∧ x.mappedName ≠ some name := by
  simp only [bindName, mem_updateWhere, decide_eq_true_eq, decide_eq_false_iff_not]
  constructor
  · rintro (⟨r, ⟨r₀, hr₀, ⟨hm, hne⟩, rfl⟩ | ⟨hr, hnot⟩, hid, rfl⟩ | ⟨⟨r₀, hr₀, ⟨hm, hne⟩, rfl⟩ | ⟨hx, hnot⟩, hid⟩)
    · exact absurd hid hne
    · exact .inl ⟨r, hr, hid, rfl⟩
    · exact .inr (.inl ⟨r₀, hr₀, hne, hm, rfl⟩)
    · exact .inr (.inr ⟨hx, hid, fun hm => hnot ⟨hm, hid⟩⟩)
  · rintro (⟨r, hr, hid, rfl⟩ | ⟨r, hr, hid, hm, rfl⟩ | ⟨hx, hid, hm⟩)
    · exact .inl ⟨r, .inr ⟨hr, fun hboth => hboth.2 hid⟩, hid, rfl⟩
    · exact .inr ⟨.inl ⟨r, hr, ⟨hm, hid⟩, rfl⟩, hid⟩
    · exact .inr ⟨.inr ⟨hx, fun hboth => hm hboth.1⟩, hid⟩

theorem map_identity_bindName (s : ManagedStore) (identity name : String) :
    (bindName s identity name).map ManagedRow.identity = s.map ManagedRow.identity := by
  rw [bindName]
  refine (map_updateWhere (f := fun r : ManagedRow => { r with name := name, mappedName := some name }) fun _ => rfl).trans ?_
  exact map_updateWhere (f := fun r : ManagedRow => { r with mappedName := none }) fun _ => rfl

/-- Only the row of the identity has the name, whoever had it before. -/
theorem Consistent.bindName (h : Consistent s) (identity name : String) : Consistent (bindName s identity name) := by
  have hkeys : Keyed ManagedRow.identity (ManagedStore.bindName s identity name) := by
    rw [Keyed, map_identity_bindName]
    exact h.identities
  have hothers : ∀ x ∈ ManagedStore.bindName s identity name, ∀ n, x.mappedName = some n →
      x.identity = identity ∧ n = name ∧ x.name = n ∨ x ∈ s ∧ n ≠ name := by
    intro x hx n hm
    rcases mem_bindName.mp hx with ⟨r, hr, hid, rfl⟩ | ⟨r, hr, hid, hmr, rfl⟩ | ⟨hx, hid, hmx⟩
    · obtain rfl := Option.some.inj hm
      exact .inl ⟨hid, rfl, rfl⟩
    · cases hm
    · exact .inr ⟨hx, fun hn => hmx (hn ▸ hm)⟩
  refine ⟨hkeys, fun x hx x' hx' n hm hm' => ?_, fun x hx n hm => ?_, fun x hx => ?_⟩
  · rcases hothers x hx n hm with ⟨hid, hn, -⟩ | ⟨hxs, hn⟩
    · rcases hothers x' hx' n hm' with ⟨hid', -, -⟩ | ⟨-, hn'⟩
      · exact hkeys.eq_of_key_eq hx hx' (hid.trans hid'.symm)
      · exact absurd hn hn'
    · rcases hothers x' hx' n hm' with ⟨-, hn', -⟩ | ⟨hxs', -⟩
      · exact absurd hn' hn
      · exact h.mapped x hxs x' hxs' n hm hm'
  · rcases hothers x hx n hm with ⟨-, -, hname⟩ | ⟨hxs, -⟩
    · exact hname
    · exact h.named x hxs n hm
  · rcases mem_bindName.mp hx with ⟨r, hr, -, rfl⟩ | ⟨r, hr, -, -, rfl⟩ | ⟨hxs, -, -⟩
    · exact h.applied r hr
    · exact h.applied r hr
    · exact h.applied x hxs

theorem advances_bindName (s : ManagedStore) (identity name : String) : Advances s (bindName s identity name) := by
  have hunmapped : Advances s (updateWhere (fun r => r.mappedName = some name ∧ r.identity ≠ identity)
      (fun r => { r with mappedName := none }) s) :=
    advances_updateWhere (f := fun r : ManagedRow => { r with mappedName := none }) fun _ _ _ => ⟨rfl, .inr ⟨rfl, rfl⟩⟩
  refine hunmapped.trans ?_
  exact advances_updateWhere (f := fun r : ManagedRow => { r with name := name, mappedName := some name })
    fun _ _ _ => ⟨rfl, .inr ⟨rfl, rfl⟩⟩

theorem readIdentity_eq_some (h : Keyed ManagedRow.identity s) :
    readIdentity s identity = some r ↔ r ∈ s ∧ r.identity = identity := h.find?_eq_some

/-- The table stays consistent and every row moves forward. -/
def Keeps (s s' : ManagedStore) : Prop := Consistent s → Consistent s' ∧ Advances s s'

theorem Keeps.refl (s : ManagedStore) : Keeps s s := fun h => ⟨h, Advances.refl s⟩

theorem Keeps.trans {s'' : ManagedStore} (h : Keeps s s') (h' : Keeps s' s'') : Keeps s s'' := by
  intro hs
  obtain ⟨hs', hadv⟩ := h hs
  obtain ⟨hs'', hadv'⟩ := h' hs'
  exact ⟨hs'', hadv.trans hadv'⟩

theorem keeps_bindName (s : ManagedStore) (identity name : String) : Keeps s (bindName s identity name) :=
  fun h => ⟨h.bindName identity name, advances_bindName s identity name⟩

theorem keeps_importOnce (h : importOnce s identity name c = .ok s') : Keeps s s' := by
  intro hs
  cases hread : readIdentity s identity with
  | some r =>
      obtain rfl : s = s' := by simpa [importOnce, hread, pure_eq_ok] using h
      exact ⟨hs, Advances.refl s⟩
  | none =>
      have hnew : ∀ r ∈ s, r.identity ≠ identity := by simpa [readIdentity] using hread
      obtain ⟨-, rfl⟩ : s.length < MAX_SNAPSHOTS ∧ s ++ [inserted identity name c] = s' := by
        simpa only [importOnce, hread, bind_eq_ok, require_eq_ok, pure_eq_ok, exists_const] using h
      exact ⟨hs.insert hnew name c, fun r hr => ⟨r, List.mem_append_left _ hr, Later.refl r⟩⟩

/-- A refreshed switch raises the revision, and what was applied before it is forgotten with it. -/
theorem keeps_reset_refreshP2p {current : ManagedRow} (hid : current.identity = identity)
    (h : refreshP2p s current c = .ok s') : Keeps s (reset s' identity) := by
  intro hs
  unfold refreshP2p at h
  split at h
  · simp only [bind_eq_ok, require_eq_ok, pure_eq_ok] at h
    obtain ⟨-, -, -, -, rfl⟩ := h
    rw [reset, hid, updateWhere_updateWhere
      (f := fun r : ManagedRow => { r with configuration := refreshed current c, revision := r.revision + 1 }) fun _ => rfl]
    refine ⟨hs.updateWhere (fun _ => rfl) (fun _ => rfl) (fun _ => rfl) fun r _ _ => .inl rfl, ?_⟩
    exact advances_updateWhere fun r _ _ => ⟨rfl, .inl (Nat.lt_succ_self r.revision)⟩
  · obtain rfl := pure_eq_ok.mp h
    refine ⟨hs.updateWhere (fun _ => rfl) (fun _ => rfl) (fun _ => rfl) fun r _ _ => .inl rfl, ?_⟩
    exact advances_updateWhere fun r _ _ => ⟨rfl, .inr ⟨rfl, rfl⟩⟩

theorem keeps_sync {snapshot : ManagedSnapshot} (h : s.sync identity name c = .ok (snapshot, s')) : Keeps s s' := by
  simp only [sync, bind_eq_ok, okOr_eq_ok, pure_eq_ok] at h
  obtain ⟨-, -, -, -, s₁, h₁, current, hcurrent, s₃, h₃, _, -, heq⟩ := h
  obtain rfl := (Prod.mk.inj heq).2
  have hid : current.identity = identity := by simpa using List.find?_some hcurrent
  exact ((keeps_importOnce h₁).trans (keeps_bindName s₁ identity name)).trans (keeps_reset_refreshP2p hid h₃)

/-- The row that an edit leaves for the one that it found. -/
def edit (r : ManagedRow) (c : ManagedConfiguration) : ManagedRow → ManagedRow := fun r' =>
  { r' with revision := r.revision + 1, configuration := c, appliedRevision := none, results := .array [] }

theorem replaceInner_eq_ok {old : Option ManagedRow} {newName : Option String} {expected : Nat} {snapshot : ManagedSnapshot}
    (h : s.replaceInner old newName expected c = .ok (snapshot, s')) :
    ∃ r, old = some r ∧ r.revision = expected ∧
      (s' = updateWhere (fun r' => r'.identity = r.identity) (edit r c) s ∨
        ∃ name, s' = bindName (updateWhere (fun r' => r'.identity = r.identity) (edit r c) s) r.identity name) := by
  simp only [replaceInner, bind_eq_ok, okOr_eq_ok, require_eq_ok, pure_eq_ok] at h
  obtain ⟨-, -, r, rfl, -, hrev, -, -, _, -, heq⟩ := h
  refine ⟨r, rfl, hrev, ?_⟩
  cases newName with
  | none => exact .inl (Prod.mk.inj heq).2.symm
  | some name => exact .inr ⟨name, (Prod.mk.inj heq).2.symm⟩

theorem keeps_edit (hr : r ∈ s) : Keeps s (updateWhere (fun r' => r'.identity = r.identity) (edit r c) s) := by
  intro hs
  refine ⟨hs.updateWhere (fun _ => rfl) (fun _ => rfl) (fun _ => rfl) fun _ _ _ => .inl rfl, ?_⟩
  refine advances_updateWhere fun r' hr' hid => ⟨rfl, .inl ?_⟩
  obtain rfl := hs.identities.eq_of_key_eq hr' hr (of_decide_eq_true hid)
  exact Nat.lt_succ_self r'.revision

/-- An edit finds the row at the revision that it expects and leaves it at the next one. -/
theorem replaceInner_edits (hs : Consistent s) (hr : r ∈ s) {newName : Option String} {expected : Nat}
    {snapshot : ManagedSnapshot} (h : s.replaceInner (some r) newName expected c = .ok (snapshot, s')) :
    Consistent s' ∧ Advances s s' ∧ r.revision = expected ∧
      ∃ r' ∈ s', r'.identity = r.identity ∧ r'.revision = expected + 1 := by
  obtain ⟨r₁, hold, hrev, hs'⟩ := replaceInner_eq_ok h
  obtain rfl := Option.some.inj hold
  have hmem : edit r c r ∈ updateWhere (fun r' => r'.identity = r.identity) (edit r c) s :=
    mem_updateWhere.mpr (.inl ⟨r, hr, decide_eq_true rfl, rfl⟩)
  have hedit := keeps_edit (c := c) hr
  rcases hs' with rfl | ⟨name, rfl⟩
  · exact ⟨(hedit hs).1, (hedit hs).2, hrev, edit r c r, hmem, rfl, congrArg (· + 1) hrev⟩
  · obtain ⟨hs', hadv⟩ := (hedit.trans (keeps_bindName _ r.identity name)) hs
    refine ⟨hs', hadv, hrev, _, mem_bindName.mpr (.inl ⟨_, hmem, rfl, rfl⟩), rfl, congrArg (· + 1) hrev⟩

theorem keeps_report {revision : Nat} {results : Json} (h : s.report identity revision results = .ok s') : Keeps s s' := by
  intro hs
  simp only [report, bind_eq_ok, okOr_eq_ok, require_eq_ok, pure_eq_ok] at h
  obtain ⟨-, -, r, hread, -, hrev, _, hvalid, rfl⟩ := h
  obtain ⟨hr, hid⟩ := (readIdentity_eq_some hs.identities).mp hread
  refine ⟨hs.updateWhere (fun _ => rfl) (fun _ => rfl) (fun _ => rfl) fun r' hr' hid' => ?_, ?_⟩
  · obtain rfl := hs.identities.eq_of_key_eq hr' hr ((of_decide_eq_true hid').trans hid.symm)
    exact .inr ⟨congrArg some hrev.symm, covers_of_validateReport hvalid⟩
  · exact advances_updateWhere fun r _ _ => ⟨rfl, .inr ⟨rfl, rfl⟩⟩

theorem keeps_attempt {op : Op} (h : s.attempt op = .ok s') : Keeps s s' := by
  intro hs
  cases op with
  | sync identity name c =>
      obtain ⟨⟨snapshot, s₁⟩, hsync, rfl⟩ := map_eq_ok.mp h
      exact keeps_sync hsync hs
  | replace name expected c =>
      obtain ⟨⟨snapshot, s₁⟩, hreplace, rfl⟩ := map_eq_ok.mp h
      obtain ⟨r, hread, -⟩ := replaceInner_eq_ok hreplace
      rw [replace, hread] at hreplace
      obtain ⟨hs', hadv, -⟩ := replaceInner_edits hs (List.mem_of_find?_eq_some hread) hreplace
      exact ⟨hs', hadv⟩
  | replaceForIdentity identity name expected c =>
      obtain ⟨⟨snapshot, s₁⟩, hreplace, rfl⟩ := map_eq_ok.mp h
      obtain ⟨-, -, hinner⟩ := bind_eq_ok.mp hreplace
      obtain ⟨r, hread, -⟩ := replaceInner_eq_ok hinner
      rw [hread] at hinner
      obtain ⟨hs', hadv, -⟩ := replaceInner_edits hs (List.mem_of_find?_eq_some hread) hinner
      exact ⟨hs', hadv⟩
  | report identity revision results => exact keeps_report h hs

/-- A successful edit is the one that takes its row from the revision that it is based on to the next. -/
theorem attempt_edits (hs : Consistent s) {op : Op} {i : String} {expected : Nat} (h : s.attempt op = .ok s')
    (hedited : s.edited op = some (i, expected)) :
    ∃ r ∈ s, r.identity = i ∧ r.revision = expected ∧ ∃ r' ∈ s', r'.identity = i ∧ r'.revision = expected + 1 := by
  cases op with
  | sync identity name c => cases hedited
  | replace name base c =>
      obtain ⟨⟨snapshot, s₁⟩, hreplace, rfl⟩ := map_eq_ok.mp h
      obtain ⟨r, hread, -⟩ := replaceInner_eq_ok hreplace
      obtain ⟨rfl, rfl⟩ : r.identity = i ∧ base = expected := by simpa [edited, hread] using hedited
      rw [replace, hread] at hreplace
      have hr := List.mem_of_find?_eq_some hread
      obtain ⟨-, -, hrev, r', hr', hid', hrev'⟩ := replaceInner_edits hs hr hreplace
      exact ⟨r, hr, rfl, hrev, r', hr', hid', hrev'⟩
  | replaceForIdentity identity name base c =>
      obtain ⟨⟨snapshot, s₁⟩, hreplace, rfl⟩ := map_eq_ok.mp h
      obtain ⟨rfl, rfl⟩ : identity = i ∧ base = expected := by simpa [edited] using hedited
      obtain ⟨-, -, hinner⟩ := bind_eq_ok.mp hreplace
      obtain ⟨r, hread, -⟩ := replaceInner_eq_ok hinner
      rw [hread] at hinner
      obtain ⟨hr, hid⟩ := (readIdentity_eq_some hs.identities).mp hread
      obtain ⟨-, -, hrev, r', hr', hid', hrev'⟩ := replaceInner_edits hs hr hinner
      exact ⟨r, hr, hid, hrev, r', hr', hid'.trans hid, hrev'⟩
  | report identity revision results => cases hedited

theorem perform_of_error {op : Op} (h : (s.perform op).1 = some e) : (s.perform op).2 = s := by
  unfold perform at h ⊢
  split at h
  · cases h
  · rfl

theorem keeps_perform (s : ManagedStore) (op : Op) : Keeps s (s.perform op).2 := by
  unfold perform
  split
  · next h => exact keeps_attempt h
  · exact Keeps.refl s

theorem keeps_performAll (s : ManagedStore) (ops : List Op) : Keeps s (s.performAll ops) := by
  induction ops generalizing s with
  | nil => exact Keeps.refl s
  | cons op ops ih => exact (keeps_perform s op).trans (ih _)

theorem edits_cons_of_ok {op : Op} {ops : List Op} (h : s.attempt op = .ok s') :
    edits s (op :: ops) = (s.edited op).toList ++ edits s' ops := by
  simp [edits, perform, h]

theorem edits_cons_of_error {op : Op} {ops : List Op} (h : s.attempt op = .error e) : edits s (op :: ops) = edits s ops := by
  simp [edits, perform, h]

/-- An edit that succeeds is based on a revision that its row did not have before its time. -/
theorem revision_le_of_mem_edits {i : String} {expected : Nat} {ops : List Op} (hs : Consistent s) (hr : r ∈ s)
    (hid : r.identity = i) (h : (i, expected) ∈ edits s ops) : r.revision ≤ expected := by
  induction ops generalizing s r with
  | nil => cases h
  | cons op ops ih =>
      cases hattempt : s.attempt op with
      | error e =>
          rw [edits_cons_of_error hattempt] at h
          exact ih hs hr hid h
      | ok s' =>
          rw [edits_cons_of_ok hattempt] at h
          rcases List.mem_append.mp h with h | h
          · obtain ⟨r₀, hr₀, hid₀, hrev, -⟩ := attempt_edits hs hattempt (Option.mem_toList.mp h)
            obtain rfl := hs.identities.eq_of_key_eq hr hr₀ (hid.trans hid₀.symm)
            exact hrev.le
          · obtain ⟨hs', hadv⟩ := keeps_attempt hattempt hs
            obtain ⟨r', hr', hid', hlater⟩ := hadv r hr
            have hle := ih hs' hr' (hid'.trans hid) h
            rcases hlater with hlt | ⟨heq, -⟩ <;> omega

theorem nodup_edits (hs : Consistent s) (ops : List Op) : (edits s ops).Nodup := by
  induction ops generalizing s with
  | nil => exact List.nodup_nil
  | cons op ops ih =>
      cases hattempt : s.attempt op with
      | error e =>
          rw [edits_cons_of_error hattempt]
          exact ih hs
      | ok s' =>
          rw [edits_cons_of_ok hattempt]
          obtain ⟨hs', -⟩ := keeps_attempt hattempt hs
          cases hedited : s.edited op with
          | none => exact ih hs'
          | some p =>
              obtain ⟨i, expected⟩ := p
              refine List.nodup_cons.mpr ⟨fun hmem => ?_, ih hs'⟩
              obtain ⟨-, -, -, -, r', hr', hid', hrev'⟩ := attempt_edits hs hattempt hedited
              have hle := revision_le_of_mem_edits hs' hr' hid' hmem
              omega

/-- Whatever operations come in whatever order, a name belongs to one row and is the name of that row; what is applied is
the present revision, reported on item by item; an error changes nothing; no two edits succeed on one revision; and what
comes later moves the revisions up, and changes a configuration under a new revision only. -/
theorem store_consistent (ops : List Op) :
    Consistent (performAll [] ops) ∧
      (∀ op e, ((performAll [] ops).perform op).1 = some e → ((performAll [] ops).perform op).2 = performAll [] ops) ∧
      (edits [] ops).Nodup ∧
      ∀ later, Advances (performAll [] ops) ((performAll [] ops).performAll later) := by
  have hs := (keeps_performAll [] ops consistent_nil).1
  exact ⟨hs, fun _ _ h => perform_of_error h, nodup_edits consistent_nil ops,
    fun later => (keeps_performAll (performAll [] ops) later hs).2⟩

end ManagedStore

end Rustgo.Managed
