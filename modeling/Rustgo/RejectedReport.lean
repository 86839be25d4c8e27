import Mathlib.Algebra.BigOperators.Group.List.Basic
import Mathlib.Data.List.Dedup
import Mathlib.Data.List.Nodup
import Rustgo.ManagedConfiguration
import Rustgo.Postcard

namespace Rustgo.Managed

open Checks Json Postcard Protocol
open Postcard.Format (utf8)
open String (utf8Len)

inductive ClientError
  | invalidConfiguration
  deriving DecidableEq

/-- An item of the report, its fields in the order of their names. -/
def failedItem (error : String) (item : String × String) : Json :=
  .object [("error", .string error), ("kind", .string item.1), ("name", .string item.2), ("state", .string "failed")]

def failedItems (desired : ManagedConfiguration) (error : String) : Json := .array (desired.configured.map (failedItem error))

/-- The error loses its last character as long as it is too long. A loop on the
empty text would not end, as there is no character to lose. -/
def popWhile (tooLong : String → Bool) : List Char → Option String
  | [] => if tooLong "" then none else some ""
  | c :: cs => if tooLong (String.ofList (c :: cs).reverse) then popWhile tooLong cs else some (String.ofList (c :: cs).reverse)

def errorBudget (desired : ManagedConfiguration) : Nat :=
  (65536 - (failedItems desired "").size) / max desired.configured.length 1

def tooLong (budget : Nat) (detail : String) : Bool := detail.utf8ByteSize > 2048 ∨ (Json.string detail).size - 2 > budget

/-- `none` if the loop does not end. -/
def rejectedConfigurationReport (revision : UInt64) (desired : ManagedConfiguration) (error : String) :
    Option (Except ClientError ManagedConfigReport) := do
  let detail ← popWhile (tooLong (errorBudget desired)) error.toList.reverse
  let results := utf8 (String.ofList (failedItems desired detail).text)
  match BoundedBytes.tryFrom maxManagedConfigurationBytes results with
  | .ok results => pure (.ok ⟨revision, results⟩)
  | .error _ => pure (.error .invalidConfiguration)

section Trimming

theorem popWhile_eq_some {p : String → Bool} (h : p "" = false) (cs : List Char) :
    ∃ detail, popWhile p cs = some detail ∧ p detail = false ∧ detail.toList <+: cs.reverse := by
  induction cs with
  | nil => exact ⟨"", by simp [popWhile, h], h, List.prefix_refl _⟩
  | cons c cs ih =>
      cases hp : p (String.ofList (c :: cs).reverse) with
      | true =>
          obtain ⟨detail, hdetail, hshort, hprefix⟩ := ih
          refine ⟨detail, by simpa only [popWhile, hp, if_true] using hdetail, hshort, ?_⟩
          rw [List.reverse_cons]
          exact hprefix.trans (List.prefix_append _ _)
      | false =>
          refine ⟨String.ofList (c :: cs).reverse, if_neg (Bool.eq_false_iff.mp hp), hp, ?_⟩
          simp only [String.toList_ofList, List.prefix_refl]

theorem tooLong_eq_false {budget : Nat} {detail : String} :
    tooLong budget detail = false ↔ detail.utf8ByteSize ≤ 2048 ∧ written detail ≤ budget := by
  rw [tooLong, size_string, decide_eq_false_iff_not]
  omega

theorem tooLong_empty (budget : Nat) : tooLong budget "" = false := tooLong_eq_false.mpr ⟨by decide, Nat.zero_le _⟩

/-- The loop ends, on a part of the error that keeps to the bounds. -/
theorem trimmed (desired : ManagedConfiguration) (error : String) :
    ∃ detail, popWhile (tooLong (errorBudget desired)) error.toList.reverse = some detail ∧ detail.utf8ByteSize ≤ 2048 ∧
      written detail ≤ errorBudget desired ∧ detail.toList <+: error.toList := by
  obtain ⟨detail, hdetail, hshort, hprefix⟩ := popWhile_eq_some (tooLong_empty (errorBudget desired)) error.toList.reverse
  rw [List.reverse_reverse] at hprefix
  obtain ⟨hsize, hbudget⟩ := tooLong_eq_false.mp hshort
  exact ⟨detail, hdetail, hsize, hbudget, hprefix⟩

end Trimming

section Sizes

theorem size_failedItem (error : String) (item : String × String) :
    (failedItem error item).size = 49 + written item.1 + written item.2 + written error := by
  have herror : utf8Len (quoted "error") = 7 := by decide
  have hkind : utf8Len (quoted "kind") = 6 := by decide
  have hname : utf8Len (quoted "name") = 6 := by decide
  have hstate : utf8Len (quoted "state") = 7 := by decide
  have hfailed : written "failed" = 6 := by decide
  rw [failedItem, size_object]
  simp only [List.map_cons, List.map_nil, List.sum_cons, List.sum_nil, fieldSize, size_string, herror, hkind, hname, hstate,
    hfailed]
  omega

/-- What the items of a configuration take in a report without errors, with a comma after each. -/
def reportedSize (c : ManagedConfiguration) : Nat :=
  (c.tunnels.map fun item => 56 + written item.name).sum + (c.exports.map fun item => 56 + written item.name).sum +
    (c.forwards.map fun item => 57 + written item.name).sum

theorem sum_map_add {α : Type} (f : α → Nat) (k : Nat) (xs : List α) :
    (xs.map fun x => f x + k).sum = (xs.map f).sum + xs.length * k := by
  rw [List.sum_map_add, List.map_const', List.sum_replicate, Nat.nsmul_eq_mul]

theorem sum_configured (c : ManagedConfiguration) :
    (c.configured.map fun item => 50 + written item.1 + written item.2).sum = reportedSize c := by
  have htunnel : written "tunnel" = 6 := by decide
  have hexport : written "export" = 6 := by decide
  have hforward : written "forward" = 7 := by decide
  simp only [ManagedConfiguration.configured, List.map_append, List.map_map, List.sum_append, Function.comp_def, htunnel,
    hexport, hforward, reportedSize]

/-- The error stands in the report once for each item. -/
theorem size_failedItems (c : ManagedConfiguration) (error : String) (h : c.configured ≠ []) :
    (failedItems c error).size = 1 + reportedSize c + c.configured.length * written error := by
  have hitems : (c.configured.map fun item => (failedItem error item).size + 1).sum =
      reportedSize c + c.configured.length * written error := by
    rw [← sum_configured, ← sum_map_add]
    refine congrArg List.sum (List.map_congr_left fun item _ => ?_)
    rw [size_failedItem]
    omega
  obtain ⟨item, items, hc⟩ := List.exists_cons_of_ne_nil h
  rw [failedItems, hc, List.map_cons, size_array, ← List.map_cons, ← hc, List.map_map]
  simp only [Function.comp_def]
  rw [hitems]
  omega

end Sizes

section Acceptance

/-- A check that goes through a list with the names that it has seen accepts no name twice. -/
theorem nodup_of_seen {α : Type} {name : α → String} (accepts : List String → List α → Prop)
    (hcons : ∀ names x xs, accepts names (x :: xs) → name x ∉ names ∧ accepts (name x :: names) xs) {names : List String}
    {xs : List α} (h : accepts names xs) : (xs.map name).Nodup ∧ ∀ x ∈ xs, name x ∉ names := by
  induction xs generalizing names with
  | nil => exact ⟨List.nodup_nil, fun x hx => absurd hx List.not_mem_nil⟩
  | cons x xs ih =>
      obtain ⟨hnew, hrest⟩ := hcons names x xs h
      obtain ⟨hnodup, hothers⟩ := ih hrest
      refine ⟨?_, fun y hy => ?_⟩
      · rw [List.map_cons, List.nodup_cons]
        refine ⟨fun hmem => ?_, hnodup⟩
        obtain ⟨y, hy, heq⟩ := List.mem_map.mp hmem
        exact hothers y hy (heq ▸ List.mem_cons_self)
      · rcases List.mem_cons.mp hy with rfl | hy
        · exact hnew
        · exact fun hmem => hothers y hy (List.mem_cons_of_mem _ hmem)

theorem nodup_tunnels {tunnels : List TunnelConfig} (h : validateTunnels [] [] tunnels = .ok ()) :
    (tunnels.map TunnelConfig.name).Nodup := by
  refine (nodup_of_seen (fun names tunnels => ∃ ports, validateTunnels names ports tunnels = .ok ()) ?_ ⟨[], h⟩).1
  rintro names tunnel tunnels ⟨ports, h⟩
  simp only [validateTunnels, bind_eq_ok, require_eq_ok] at h
  obtain ⟨-, -, -, -, -, -, -, hnew, -, -, hrest⟩ := h
  exact ⟨hnew, _, hrest⟩

theorem nodup_exports {items : List ExportConfig} (h : validateExports [] items = .ok ()) :
    (items.map ExportConfig.name).Nodup := by
  refine (nodup_of_seen (fun names items => validateExports names items = .ok ()) ?_ h).1
  intro names item items h
  simp only [validateExports, bind_eq_ok, require_eq_ok] at h
  obtain ⟨-, -, -, -, -, hnew, -, -, -, -, hrest⟩ := h
  exact ⟨hnew, hrest⟩

theorem nodup_forwards {localName : Option String} {forwards : List ForwardConfig}
    (h : validateForwards localName [] forwards = .ok ()) : (forwards.map ForwardConfig.name).Nodup := by
  refine (nodup_of_seen (fun names forwards => validateForwards localName names forwards = .ok ()) ?_ h).1
  intro names forward forwards h
  simp only [validateForwards, bind_eq_ok, require_eq_ok] at h
  obtain ⟨-, -, -, -, -, -, -, -, -, -, -, hnew, hrest⟩ := h
  exact ⟨hnew, hrest⟩

theorem nodup_configured {c : ManagedConfiguration} {json : Json} (h : configurationJson c = .ok json) : c.configured.Nodup := by
  have hvalid : c.validate = .ok () := by
    unfold configurationJson at h
    split at h
    · cases h
    · assumption
  simp only [ManagedConfiguration.validate, validateManagedCollections, bind_eq_ok, require_eq_ok] at hvalid
  obtain ⟨_, -, _, htunnels, _, -, _, -, _, hexports, hforwards⟩ := hvalid
  have hkind : ∀ {α : Type} {name : α → String} {xs : List α} (kind : String), (xs.map name).Nodup →
      (xs.map fun x => (kind, name x)).Nodup := by
    intro α name xs kind hnodup
    have hpair := hnodup.map (f := fun n => (kind, n)) fun n m heq => (Prod.mk.inj heq).2
    rwa [List.map_map] at hpair
  have hapart : ∀ {α β : Type} {f : α → String} {g : β → String} {xs : List α} {ys : List β} (k k' : String), k ≠ k' →
      List.Disjoint (xs.map fun x => (k, f x)) (ys.map fun y => (k', g y)) := by
    intro α β f g xs ys k k' hne p hp hp'
    obtain ⟨x, -, rfl⟩ := List.mem_map.mp hp
    obtain ⟨y, -, heq⟩ := List.mem_map.mp hp'
    exact hne (Prod.mk.inj heq).1.symm
  refine List.Nodup.append (List.Nodup.append (hkind _ (nodup_tunnels htunnels)) (hkind _ (nodup_exports hexports)) ?_)
    (hkind _ (nodup_forwards hforwards)) ?_
  · exact hapart _ _ (by decide)
  · exact List.disjoint_append_left.mpr ⟨hapart _ _ (by decide), hapart _ _ (by decide)⟩

theorem validateReportItem_failedItem {detail : String} (h : detail.utf8ByteSize ≤ 2048) (item : String × String)
    (expected : List (String × String)) : validateReportItem (item :: expected) (failedItem detail item) = .ok expected := by
  simp [validateReportItem, failedItem, Json.get, Json.asStr, okOr, require, h, bind, Except.bind, pure, Except.pure]

theorem validateReportItems_failedItems {detail : String} (h : detail.utf8ByteSize ≤ 2048) (items : List (String × String)) :
    validateReportItems items (items.map (failedItem detail)) = .ok () := by
  induction items with
  | nil => rfl
  | cons item items ih =>
      rw [List.map_cons, validateReportItems, validateReportItem_failedItem h, ok_bind]
      exact ih

theorem validateReport_failedItems {c : ManagedConfiguration} {detail : String} (hnodup : c.configured.Nodup)
    (h : detail.utf8ByteSize ≤ 2048) : validateReport c (failedItems c detail) = .ok () := by
  unfold validateReport failedItems
  rw [hnodup.dedup]
  simp only [bind_eq_ok, require_eq_ok, List.length_map]
  exact ⟨(), trivial, validateReportItems_failedItems h _⟩

end Acceptance

/-- The report is there, is the text of a failed item with a part of the error for everything that is configured, and is
accepted. That it fits on the wire is part of its type. -/
def Reported (revision : UInt64) (c : ManagedConfiguration) (error : String) : Prop :=
  ∃ report detail, rejectedConfigurationReport revision c error = some (.ok report) ∧ report.revision = revision ∧
    report.results.bytes = utf8 (String.ofList (failedItems c detail).text) ∧ detail.toList <+: error.toList ∧
    detail.utf8ByteSize ≤ 2048 ∧ validateReport c (failedItems c detail) = .ok ()

theorem length_utf8_text (json : Json) : (utf8 (String.ofList json.text)).length = json.size :=
  String.utf8ByteSize_ofList json.text

/-- With the budget the report fits if it does without an error. -/
theorem size_failedItems_le {c : ManagedConfiguration} {detail : String} (hbudget : written detail ≤ errorBudget c)
    (hfits : reportedSize c < 65536) : (failedItems c detail).size ≤ 65536 := by
  by_cases h : c.configured = []
  · rw [failedItems, h, List.map_nil, size_array_nil]
    decide
  · have hempty : written "" = 0 := rfl
    have hlen : max c.configured.length 1 = c.configured.length := max_eq_left (List.length_pos_iff.mpr h)
    rw [errorBudget, size_failedItems c "" h, hlen, hempty] at hbudget
    have hmul := (Nat.mul_le_mul_left c.configured.length hbudget).trans (Nat.mul_div_le _ _)
    rw [size_failedItems c detail h]
    omega

theorem reported_of_fits {c : ManagedConfiguration} {json : Json} (hstored : configurationJson c = .ok json)
    (hfits : reportedSize c < 65536) (revision : UInt64) (error : String) : Reported revision c error := by
  obtain ⟨detail, hdetail, hshort, hbudget, hprefix⟩ := trimmed c error
  have hlen : (utf8 (String.ofList (failedItems c detail).text)).length ≤ maxManagedConfigurationBytes :=
    (length_utf8_text _).le.trans (size_failedItems_le hbudget hfits)
  refine ⟨⟨revision, ⟨_, hlen⟩⟩, detail, ?_, rfl, rfl, hprefix, hshort,
    validateReport_failedItems (nodup_configured hstored) hshort⟩
  simp [rejectedConfigurationReport, hdetail, BoundedBytes.tryFrom_of_le hlen]

/-- The loop ends, but there is no room for the items alone. -/
theorem rejected_of_not_fits {c : ManagedConfiguration} (h : ¬reportedSize c < 65536) (revision : UInt64) (error : String) :
    rejectedConfigurationReport revision c error = some (.error .invalidConfiguration) := by
  obtain ⟨detail, hdetail, -, -, -⟩ := trimmed c error
  have hconfigured : c.configured ≠ [] := by
    intro hnil
    rw [← sum_configured, hnil] at h
    exact h (by decide)
  have hlen : ¬(utf8 (String.ofList (failedItems c detail).text)).length ≤ maxManagedConfigurationBytes := by
    rw [length_utf8_text, size_failedItems c detail hconfigured, maxManagedConfigurationBytes]
    omega
  simp [rejectedConfigurationReport, hdetail, BoundedBytes.tryFrom, hlen]

theorem not_reported_of_not_fits {c : ManagedConfiguration} (h : ¬reportedSize c < 65536) (revision : UInt64) (error : String) :
    ¬Reported revision c error := by
  rintro ⟨report, detail, hreport, -⟩
  rw [rejected_of_not_fits h] at hreport
  cases hreport

/-- The refusal of a stored configuration is reported, whatever the error, if and only if its names leave room for the
report. -/
theorem reported_iff_fits {c : ManagedConfiguration} {json : Json} (hstored : configurationJson c = .ok json)
    (revision : UInt64) (error : String) : Reported revision c error ↔ reportedSize c < 65536 :=
  ⟨fun h => Decidable.of_not_not fun hfits => not_reported_of_not_fits hfits revision error h,
    fun hfits => reported_of_fits hstored hfits revision error⟩

theorem configurationJson_of {c : ManagedConfiguration} (h : c.validate = .ok ()) (hsize : c.toJson.size ≤ MAX_JSON_BYTES) :
    configurationJson c = .ok c.toJson := by
  rw [configurationJson, h]
  exact bind_eq_ok.mpr ⟨(), require_of hsize, rfl⟩

/-- A tunnel whose port is taken. -/
theorem reported_iff_fits_sample :
    Reported 3 ⟨[⟨"web", .tcp, "localhost:80", 8080⟩], [], [], false⟩ "port in use" ↔
      reportedSize ⟨[⟨"web", .tcp, "localhost:80", 8080⟩], [], [], false⟩ < 65536 :=
  reported_iff_fits (configurationJson_of (by decide +kernel) (by decide +kernel)) 3 "port in use"

section Crowded

/-- A name of eighty bytes, most of which take six each in JSON. -/
def crowdedName (i : Nat) : String :=
  String.ofList (Char.ofNat (256 + i) :: 'a' :: 'a' :: 'a' :: List.replicate 75 (Char.ofNat 1))

def crowdedForward (i : Nat) : ForwardConfig := ⟨crowdedName i, "p", "e", "a:1"⟩

def crowded : ManagedConfiguration := ⟨[], [], (List.range 128).map crowdedForward, true⟩

theorem written_crowdedName {i : Nat} (h : i < 128) : written (crowdedName i) = 455 := by
  have hhead : ∀ i < 128, escape (Char.ofNat (256 + i)) = [Char.ofNat (256 + i)] ∧ (Char.ofNat (256 + i)).utf8Size = 2 := by
    decide
  have hrest : utf8Len (escapeAll ('a' :: 'a' :: 'a' :: List.replicate 75 (Char.ofNat 1))) = 453 := by decide +kernel
  obtain ⟨hescape, hsize⟩ := hhead i h
  rw [written, crowdedName, String.toList_ofList, escapeAll, List.flatMap_cons, hescape, List.singleton_append,
    String.utf8Len_cons, hsize, ← escapeAll, hrest]

theorem crowdedName_injOn : ∀ i < 128, ∀ j < 128, crowdedName i = crowdedName j → i = j := by
  have hchar : ∀ i < 128, (Char.ofNat (256 + i)).toNat = 256 + i := by decide
  intro i hi j hj h
  have hlist := congrArg String.toList h
  rw [crowdedName, crowdedName, String.toList_ofList, String.toList_ofList] at hlist
  have hnum := congrArg Char.toNat (List.cons.inj hlist).1
  rw [hchar i hi, hchar j hj] at hnum
  omega

/-- Forwards that are valid each and have names of their own. -/
theorem validateForwards_of {forwards : List ForwardConfig} {names : List String}
    (hvalid : ∀ f ∈ forwards, validateForwards none [] [f] = .ok ()) (hnew : ∀ f ∈ forwards, f.name ∉ names)
    (hnodup : (forwards.map ForwardConfig.name).Nodup) : validateForwards none names forwards = .ok () := by
  induction forwards generalizing names with
  | nil => rfl
  | cons forward forwards ih =>
      rw [List.map_cons, List.nodup_cons] at hnodup
      have hrest : validateForwards none (forward.name :: names) forwards = .ok () := by
        refine ih (fun f hf => hvalid f (List.mem_cons_of_mem _ hf)) (fun f hf hmem => ?_) hnodup.2
        rcases List.mem_cons.mp hmem with heq | hmem
        · exact hnodup.1 (heq ▸ List.mem_map_of_mem hf)
        · exact hnew f (List.mem_cons_of_mem _ hf) hmem
      have hforward := hvalid forward List.mem_cons_self
      simp only [validateForwards, bind_eq_ok, require_eq_ok] at hforward ⊢
      obtain ⟨u, hname, v, hpeer, w, hexport, x, haddr, y, hlocal, -⟩ := hforward
      exact ⟨u, hname, v, hpeer, w, hexport, x, haddr, y, hlocal, (), hnew forward List.mem_cons_self, hrest⟩

theorem validateWireString_crowdedName (i : Nat) :
    validateWireString "forwards.name" (crowdedName i) MAX_TUNNEL_NAME_BYTES = .ok () := by
  have hletter : isWhitespace 'a' = false := by decide
  have hfull : trimIsEmpty (crowdedName i) = false := by
    simp only [trimIsEmpty, crowdedName, String.toList_ofList, List.all_cons, hletter, Bool.false_and, Bool.and_false]
  have hsize : (crowdedName i).utf8ByteSize ≤ MAX_TUNNEL_NAME_BYTES := by
    have hrest : utf8Len ('a' :: 'a' :: 'a' :: List.replicate 75 (Char.ofNat 1)) = 78 := by decide
    have hhead := (Char.ofNat (256 + i)).utf8Size_le_four
    rw [crowdedName, String.utf8ByteSize_ofList, String.utf8Len_cons, hrest, MAX_TUNNEL_NAME_BYTES]
    omega
  exact bind_eq_ok.mpr ⟨(), require_of hfull, require_of hsize⟩

theorem validate_crowded : crowded.validate = .ok () := by
  have hforwards : validateForwards none [] crowded.forwards = .ok () := by
    refine validateForwards_of (fun f hf => ?_) (fun f hf => List.not_mem_nil) ?_
    · obtain ⟨i, hi, rfl⟩ := List.mem_map.mp hf
      have hpeer : validateClientName "p" = .ok () := by decide
      have hexport : validateWireString "forwards.export" "e" MAX_TUNNEL_NAME_BYTES = .ok () := by decide
      have haddr : validateHostAddress "forwards.listen_addr" "a:1" = .ok () := by decide
      refine bind_eq_ok.mpr ⟨(), validateWireString_crowdedName i, bind_eq_ok.mpr ⟨(), hpeer, ?_⟩⟩
      refine bind_eq_ok.mpr ⟨(), hexport, bind_eq_ok.mpr ⟨(), haddr, ?_⟩⟩
      exact bind_eq_ok.mpr ⟨(), require_of nofun, bind_eq_ok.mpr ⟨(), require_of List.not_mem_nil, rfl⟩⟩
    · rw [crowded, List.map_map]
      refine List.Nodup.map_on (fun i hi j hj h => ?_) List.nodup_range
      exact crowdedName_injOn i (List.mem_range.mp hi) j (List.mem_range.mp hj) h
  simp only [ManagedConfiguration.validate, validateManagedCollections, bind_eq_ok, require_eq_ok]
  have hlen : crowded.forwards.length ≤ MAX_FORWARDS := by
    rw [crowded, List.length_map, List.length_range]
    decide
  exact ⟨(), by decide, (), rfl, (), by decide, (), hlen, (), rfl, hforwards⟩

theorem size_crowdedForward {i : Nat} (h : i < 128) : (crowdedForward i).toJson.size = 510 := by
  have hname : utf8Len (quoted "name") = 6 := by decide
  have hpeer : utf8Len (quoted "peer") = 6 := by decide
  have hexport : utf8Len (quoted "export") = 8 := by decide
  have haddr : utf8Len (quoted "listen_addr") = 13 := by decide
  have hp : written "p" = 1 := by decide
  have he : written "e" = 1 := by decide
  have ha : written "a:1" = 3 := by decide
  rw [crowdedForward, ForwardConfig.toJson, size_object]
  simp only [List.map_cons, List.map_nil, List.sum_cons, List.sum_nil, fieldSize, size_string, hname, hpeer, hexport, haddr,
    hp, he, ha, written_crowdedName h, Nat.reduceAdd]

theorem sum_map_range_eq {f : Nat → Nat} {n k : Nat} (h : ∀ i < n, f i = k) : ((List.range n).map f).sum = n * k := by
  rw [List.map_congr_left fun i hi => h i (List.mem_range.mp hi), List.map_const', List.sum_replicate, Nat.nsmul_eq_mul,
    List.length_range]

theorem size_crowded : crowded.toJson.size ≤ MAX_JSON_BYTES := by
  have htunnels : utf8Len (quoted "tunnels") = 9 := by decide
  have hexports : utf8Len (quoted "exports") = 9 := by decide
  have hforwards : utf8Len (quoted "forwards") = 10 := by decide
  have hp2p : utf8Len (quoted "p2p_enabled") = 13 := by decide
  have htrue : (Json.bool true).size = 4 := by decide
  have hitems : (Json.array (crowded.forwards.map ForwardConfig.toJson)).size = 1 + 128 * 511 := by
    have hsum : ((crowded.forwards.map ForwardConfig.toJson).map fun j => j.size + 1).sum = 128 * 511 := by
      rw [crowded, List.map_map, List.map_map]
      exact sum_map_range_eq fun i hi => congrArg (· + 1) (size_crowdedForward hi)
    obtain ⟨item, items, hc⟩ := List.exists_cons_of_ne_nil (l := crowded.forwards.map ForwardConfig.toJson) (by decide)
    rw [hc] at hsum ⊢
    rw [size_array, hsum]
  rw [ManagedConfiguration.toJson, size_object]
  simp only [List.map_cons, List.map_nil, List.sum_cons, List.sum_nil, fieldSize, htunnels, hexports, hforwards, hp2p, hitems]
  simp only [crowded, List.map_nil, size_array_nil, htrue, MAX_JSON_BYTES, Nat.reduceAdd, Nat.reduceMul, Nat.reduceLeDiff]

theorem reportedSize_crowded : reportedSize crowded = 65536 := by
  have hforward : ∀ i < 128, 57 + written (crowdedForward i).name = 512 := by
    intro i hi
    rw [crowdedForward, written_crowdedName hi]
  have hsum : (crowded.forwards.map fun item => 57 + written item.name).sum = 128 * 512 := by
    rw [crowded, List.map_map]
    exact sum_map_range_eq hforward
  have htunnels : (crowded.tunnels.map fun item => 56 + written item.name).sum = 0 := rfl
  have hexports : (crowded.exports.map fun item => 56 + written item.name).sum = 0 := rfl
  rw [reportedSize, htunnels, hexports, hsum]

/-- The server takes 128 forwards with names that are long in JSON, and the client cannot report on them. -/
theorem crowded_configuration_unreported :
    configurationJson crowded = .ok crowded.toJson ∧ ¬Reported 3 crowded "port in use" := by
  have hfull : ¬reportedSize crowded < 65536 := Nat.not_lt.mpr reportedSize_crowded.ge
  exact ⟨configurationJson_of validate_crowded size_crowded, not_reported_of_not_fits hfull 3 "port in use"⟩

end Crowded

end Rustgo.Managed
