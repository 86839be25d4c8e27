import Rustgo.EnrollmentWorld

namespace Rustgo.ClientEnrollment

open Durable Contract
open Protocol

/-- The files are these, and the server has at most approved requests meanwhile. -/
structure Moved (w : World) (d : Disk) (v : World) : Prop where
  disk : v.disk = d
  sent : v.sent = w.sent
  server : w.server.Approves v.server

theorem Moved.refl (w : World) : Moved w w.disk w := ⟨rfl, rfl, .refl _⟩

theorem Moved.trans {u v w : World} {d e : Disk} (h : Moved u d v) (h' : Moved v e w) : Moved u e w :=
  ⟨h'.disk, h'.sent.trans h.sent, h.server.trans h'.server⟩

/-- What the server does on its own leaves the files as they are. -/
theorem Moved.stay {u v w : World} {d : Disk} (h : Moved u d v) (h' : Moved v v.disk w) : Moved u d w :=
  h.trans (by rw [← h.disk]; exact h')

/-- The operations on the world under a guard and with some of their outcomes. -/
def contract (allowed : Op → Choice → World → Prop) (guard : Op → World → Prop) : Contract Op Op.Answer Choice World where
  perform := ClientEnrollment.perform
  allowed
  rely w v := Moved w w.disk v
  guard
  rely_refl := Moved.refl
  rely_trans := Moved.stay

variable {allowed : Op → Choice → World → Prop} {guard : Op → World → Prop} {b w : World} {d : Disk} {α : Type}
  {Q : α → World → Prop} {E : EnrollmentError → World → Prop}

/-- The operation is under its guard when the files are these. -/
def Guarded (guard : Op → World → Prop) (b : World) (d : Disk) (op : Op) : Prop := ∀ v, Moved b d v → guard op v

/-- The operation may come out so when the files are these. -/
def Possible (allowed : Op → Choice → World → Prop) (b : World) (d : Disk) (op : Op) (choice : Choice) : Prop :=
  ∃ v, Moved b d v ∧ allowed op choice v

theorem wp_metadataExists {next : Bool → Action α} (hw : Moved b d w) (hguard : Guarded guard b d .metadataExists)
    (h : ∀ v, Moved b d v → (contract allowed guard).wp (next d.metadata.isSome) Q E v) :
    (contract allowed guard).wp (Prog.perform Op.metadataExists >>= next) Q E w := by
  refine wp_perform_bind.mpr fun v hv => ?_
  have hv := hw.stay hv
  refine ⟨hguard v hv, fun choice answer u hperform _ => ?_⟩
  cases choice with
  | done =>
      obtain ⟨rfl, rfl⟩ := Prod.mk.inj (Option.some.inj hperform)
      rw [hv.disk]
      exact h v hv
  | _ => cases hperform

theorem wp_keyExists {path : KeyPath} {next : Bool → Action α} (hw : Moved b d w) (hguard : Guarded guard b d (.keyExists path))
    (h : ∀ v, Moved b d v → (contract allowed guard).wp (next (d.keyFiles path).isSome) Q E v) :
    (contract allowed guard).wp (Prog.perform (Op.keyExists path) >>= next) Q E w := by
  refine wp_perform_bind.mpr fun v hv => ?_
  have hv := hw.stay hv
  refine ⟨hguard v hv, fun choice answer u hperform _ => ?_⟩
  cases choice with
  | done =>
      obtain ⟨rfl, rfl⟩ := Prod.mk.inj (Option.some.inj hperform)
      rw [hv.disk]
      exact h v hv
  | _ => cases hperform

theorem wp_readMetadata {next : Option PendingMetadata → Action α} (hw : Moved b d w) (hguard : Guarded guard b d .readMetadata)
    (h : ∀ v m, Moved b d v → (m = d.metadata ∨ m = none ∧ Possible allowed b d .readMetadata .fails) →
      (contract allowed guard).wp (next m) Q E v) :
    (contract allowed guard).wp (Prog.perform Op.readMetadata >>= next) Q E w := by
  refine wp_perform_bind.mpr fun v hv => ?_
  have hv := hw.stay hv
  refine ⟨hguard v hv, fun choice answer u hperform hallowed => ?_⟩
  cases choice with
  | done =>
      obtain ⟨rfl, rfl⟩ := Prod.mk.inj (Option.some.inj hperform)
      exact h v _ hv (.inl (congrArg Disk.metadata hv.disk))
  | fails =>
      obtain ⟨rfl, rfl⟩ := Prod.mk.inj (Option.some.inj hperform)
      exact h v none hv (.inr ⟨rfl, v, hv, hallowed⟩)
  | _ => cases hperform

theorem wp_loadPrivateFile {path : KeyPath} {next : Option PrivateKey → Action α} (hw : Moved b d w) (hguard : Guarded guard b d (.loadPrivateFile path))
    (h : ∀ v key, Moved b d v → (key = d.loadKey path ∨ key = none ∧ Possible allowed b d (.loadPrivateFile path) .fails) →
      (contract allowed guard).wp (next key) Q E v) :
    (contract allowed guard).wp (Prog.perform (Op.loadPrivateFile path) >>= next) Q E w := by
  refine wp_perform_bind.mpr fun v hv => ?_
  have hv := hw.stay hv
  refine ⟨hguard v hv, fun choice answer u hperform hallowed => ?_⟩
  cases choice with
  | done =>
      obtain ⟨rfl, rfl⟩ := Prod.mk.inj (Option.some.inj hperform)
      exact h v _ hv (.inl (congrArg (Disk.loadKey · path) hv.disk))
  | fails =>
      obtain ⟨rfl, rfl⟩ := Prod.mk.inj (Option.some.inj hperform)
      exact h v none hv (.inr ⟨rfl, v, hv, hallowed⟩)
  | _ => cases hperform

theorem wp_readConfig {next : Option ClientSection → Action α} (hw : Moved b d w) (hguard : Guarded guard b d .readConfig)
    (h : ∀ v config, Moved b d v → (config = some d.config ∨ config = none ∧ Possible allowed b d .readConfig .fails) →
      (contract allowed guard).wp (next config) Q E v) :
    (contract allowed guard).wp (Prog.perform Op.readConfig >>= next) Q E w := by
  refine wp_perform_bind.mpr fun v hv => ?_
  have hv := hw.stay hv
  refine ⟨hguard v hv, fun choice answer u hperform hallowed => ?_⟩
  cases choice with
  | done =>
      obtain ⟨rfl, rfl⟩ := Prod.mk.inj (Option.some.inj hperform)
      exact h v _ hv (.inl (congrArg (fun d => some d.config) hv.disk))
  | fails =>
      obtain ⟨rfl, rfl⟩ := Prod.mk.inj (Option.some.inj hperform)
      exact h v none hv (.inr ⟨rfl, v, hv, hallowed⟩)
  | _ => cases hperform

theorem wp_file {op : FileOp} {error : EnrollmentError} {Q : Unit → World → Prop} (hw : Moved b d w) (hguard : Guarded guard b d (.file op))
    (hdone : ∀ e v, op.apply d = some e → Moved b e v → Q () v)
    (hfail : ∀ v, op.apply d = none ∨ Possible allowed b d (.file op) .fails → Moved b d v → E error v) :
    (contract allowed guard).wp (file op error) Q E w := by
  refine wp_perform_bind.mpr fun v hv => ?_
  have hv := hw.stay hv
  refine ⟨hguard v hv, fun choice answer u hperform hallowed => ?_⟩
  cases choice with
  | done =>
      simp only [contract, perform_file, hv.disk] at hperform
      split at hperform
      · next d hd =>
        obtain ⟨rfl, rfl⟩ := Prod.mk.inj (Option.some.inj hperform)
        exact fun t ht => hdone _ t hd ⟨ht.disk, ht.sent.trans hv.sent, hv.server.trans ht.server⟩
      · next hd =>
        obtain ⟨rfl, rfl⟩ := Prod.mk.inj (Option.some.inj hperform)
        exact fun t ht => hfail t (.inl hd) (hv.stay ht)
  | fails =>
      obtain ⟨rfl, rfl⟩ := Prod.mk.inj (Option.some.inj hperform)
      exact fun t ht => hfail t (.inr ⟨v, hv, hallowed⟩) (hv.stay ht)
  | _ => cases hperform

theorem wp_persistPrivateKey {id : String} {next : Option PrivateKey → Action α} (hw : Moved b d w) (hguard : Guarded guard b d (.persistPrivateKey id))
    (hdone : ∀ key v, d.keyFiles (.candidate id) = none → Moved b (d.setKey (.candidate id) (some (.valid key))) v →
      (contract allowed guard).wp (next (some key)) Q E v)
    (hfail : ∀ v, (d.keyFiles (.candidate id)).isSome = true ∨ Possible allowed b d (.persistPrivateKey id) .fails →
      Moved b d v → (contract allowed guard).wp (next none) Q E v) :
    (contract allowed guard).wp (Prog.perform (Op.persistPrivateKey id) >>= next) Q E w := by
  refine wp_perform_bind.mpr fun v hv => ?_
  have hv := hw.stay hv
  refine ⟨hguard v hv, fun choice answer u hperform hallowed => ?_⟩
  cases choice with
  | generated key =>
      simp only [contract, perform_persistPrivateKey, hv.disk] at hperform
      split at hperform
      · next hsome =>
        obtain ⟨rfl, rfl⟩ := Prod.mk.inj (Option.some.inj hperform)
        exact hfail v (.inl hsome) hv
      · next hnone =>
        obtain ⟨rfl, rfl⟩ := Prod.mk.inj (Option.some.inj hperform)
        exact hdone key _ (by simpa using hnone) ⟨rfl, hv.sent, hv.server⟩
  | fails =>
      obtain ⟨rfl, rfl⟩ := Prod.mk.inj (Option.some.inj hperform)
      exact hfail v (.inr ⟨v, hv, hallowed⟩) hv
  | _ => cases hperform

theorem wp_randomRequestId {next : Option String → Action α} (hw : Moved b d w) (hguard : Guarded guard b d .randomRequestId)
    (hdone : ∀ bytes v, Possible allowed b d .randomRequestId (.random bytes) → Moved b d v →
      (contract allowed guard).wp (next (some (requestIdOf bytes))) Q E v)
    (hfail : ∀ v, Possible allowed b d .randomRequestId .fails → Moved b d v → (contract allowed guard).wp (next none) Q E v) :
    (contract allowed guard).wp (Prog.perform Op.randomRequestId >>= next) Q E w := by
  refine wp_perform_bind.mpr fun v hv => ?_
  have hv := hw.stay hv
  refine ⟨hguard v hv, fun choice answer u hperform hallowed => ?_⟩
  cases choice with
  | random bytes =>
      obtain ⟨rfl, rfl⟩ := Prod.mk.inj (Option.some.inj hperform)
      exact hdone bytes v ⟨v, hv, hallowed⟩ hv
  | fails =>
      obtain ⟨rfl, rfl⟩ := Prod.mk.inj (Option.some.inj hperform)
      exact hfail v ⟨v, hv, hallowed⟩ hv
  | _ => cases hperform

theorem wp_certificateAuthorityExists {next : Option Bool → Action α} (hw : Moved b d w) (hguard : Guarded guard b d .certificateAuthorityExists)
    (hdone : ∀ v exist, Moved b d v → (contract allowed guard).wp (next (some exist)) Q E v)
    (hfail : ∀ v, Possible allowed b d .certificateAuthorityExists .fails → Moved b d v →
      (contract allowed guard).wp (next none) Q E v) :
    (contract allowed guard).wp (Prog.perform Op.certificateAuthorityExists >>= next) Q E w := by
  refine wp_perform_bind.mpr fun v hv => ?_
  have hv := hw.stay hv
  refine ⟨hguard v hv, fun choice answer u hperform hallowed => ?_⟩
  cases choice with
  | found exist =>
      obtain ⟨rfl, rfl⟩ := Prod.mk.inj (Option.some.inj hperform)
      exact hdone v exist hv
  | fails =>
      obtain ⟨rfl, rfl⟩ := Prod.mk.inj (Option.some.inj hperform)
      exact hfail v ⟨v, hv, hallowed⟩ hv
  | _ => cases hperform

theorem wp_controlClient {config : ClientSection} {next : Option Unit → Action α} (hw : Moved b d w) (hguard : Guarded guard b d (.controlClient config))
    (hdone : ∀ v, Moved b d v → (contract allowed guard).wp (next (some ())) Q E v)
    (hfail : ∀ v, Possible allowed b d (.controlClient config) .fails → Moved b d v →
      (contract allowed guard).wp (next none) Q E v) :
    (contract allowed guard).wp (Prog.perform (Op.controlClient config) >>= next) Q E w := by
  refine wp_perform_bind.mpr fun v hv => ?_
  have hv := hw.stay hv
  refine ⟨hguard v hv, fun choice answer u hperform hallowed => ?_⟩
  cases choice with
  | done =>
      obtain ⟨rfl, rfl⟩ := Prod.mk.inj (Option.some.inj hperform)
      exact hdone v hv
  | fails =>
      obtain ⟨rfl, rfl⟩ := Prod.mk.inj (Option.some.inj hperform)
      exact hfail v ⟨v, hv, hallowed⟩ hv
  | _ => cases hperform

theorem wp_authenticate {config : ClientSection} {next : Option (Option ClientProfile) → Action α}
    (hw : Moved b d w) (hguard : Guarded guard b d (.authenticate config))
    (hdone : ∀ v profile, Possible allowed b d (.authenticate config) (.authenticated profile) → Moved b d v →
      (contract allowed guard).wp (next (some profile)) Q E v)
    (hfail : ∀ v, Possible allowed b d (.authenticate config) .fails → Moved b d v →
      (contract allowed guard).wp (next none) Q E v) :
    (contract allowed guard).wp (Prog.perform (Op.authenticate config) >>= next) Q E w := by
  refine wp_perform_bind.mpr fun v hv => ?_
  have hv := hw.stay hv
  refine ⟨hguard v hv, fun choice answer u hperform hallowed => ?_⟩
  cases choice with
  | authenticated profile =>
      obtain ⟨rfl, rfl⟩ := Prod.mk.inj (Option.some.inj hperform)
      exact hdone v profile ⟨v, hv, hallowed⟩ hv
  | fails =>
      obtain ⟨rfl, rfl⟩ := Prod.mk.inj (Option.some.inj hperform)
      exact hfail v ⟨v, hv, hallowed⟩ hv
  | _ => cases hperform

theorem wp_openTls {trust : Trust} {name : String} {next : Option Unit → Action α} (hw : Moved b d w) (hguard : Guarded guard b d (.openTls trust name))
    (hdone : ∀ v, Moved b d v → (contract allowed guard).wp (next (some ())) Q E v)
    (hfail : ∀ v, Possible allowed b d (.openTls trust name) .fails → Moved b d v →
      (contract allowed guard).wp (next none) Q E v) :
    (contract allowed guard).wp (Prog.perform (Op.openTls trust name) >>= next) Q E w := by
  refine wp_perform_bind.mpr fun v hv => ?_
  have hv := hw.stay hv
  refine ⟨hguard v hv, fun choice answer u hperform hallowed => ?_⟩
  cases choice with
  | done =>
      obtain ⟨rfl, rfl⟩ := Prod.mk.inj (Option.some.inj hperform)
      exact hdone v hv
  | fails =>
      obtain ⟨rfl, rfl⟩ := Prod.mk.inj (Option.some.inj hperform)
      exact hfail v ⟨v, hv, hallowed⟩ hv
  | _ => cases hperform

theorem wp_connect {trust : Trust} {name address : String} {next : Option Fingerprint → Action α}
    (hw : Moved b d w) (hguard : Guarded guard b d (.connect trust name address))
    (h : ∀ v choice answer, Possible allowed b d (.connect trust name address) choice → Moved b d v →
      (choice = .fails ∧ answer = none ∨ ∃ fingerprint, choice = .certificate fingerprint ∧
        answer = if trust.accepts fingerprint then some fingerprint else none) →
      (contract allowed guard).wp (next answer) Q E v) :
    (contract allowed guard).wp (Prog.perform (Op.connect trust name address) >>= next) Q E w := by
  refine wp_perform_bind.mpr fun v hv => ?_
  have hv := hw.stay hv
  refine ⟨hguard v hv, fun choice answer u hperform hallowed => ?_⟩
  cases choice with
  | certificate fingerprint =>
      obtain ⟨rfl, rfl⟩ := Prod.mk.inj (Option.some.inj hperform)
      exact h v _ _ ⟨v, hv, hallowed⟩ hv (.inr ⟨fingerprint, rfl, rfl⟩)
  | fails =>
      obtain ⟨rfl, rfl⟩ := Prod.mk.inj (Option.some.inj hperform)
      exact h v _ _ ⟨v, hv, hallowed⟩ hv (.inl ⟨rfl, rfl⟩)
  | _ => cases hperform

/-- The world after a request has come to the server. -/
def World.deliver (w : World) (request : EnrollmentRequest) (verdict : Verdict) : World :=
  { w with server := (w.server.receive (registration request) verdict).1, sent := w.sent ++ [request] }

theorem wp_send {request : EnrollmentRequest} {next : Reply → Action α} (hw : Moved b d w) (hguard : Guarded guard b d (.send request))
    (hunsent : ∀ v, Possible allowed b d (.send request) .unsent → Moved b d v → (contract allowed guard).wp (next .lost) Q E v)
    (hsent : ∀ v verdict delivered, allowed (.send request) (.answered verdict delivered) v → Moved b d v →
      (contract allowed guard).wp (next (if delivered then (v.server.receive (registration request) verdict).2 else .lost)) Q E
        (v.deliver request verdict)) :
    (contract allowed guard).wp (Prog.perform (Op.send request) >>= next) Q E w := by
  refine wp_perform_bind.mpr fun v hv => ?_
  have hv := hw.stay hv
  refine ⟨hguard v hv, fun choice answer u hperform hallowed => ?_⟩
  cases choice with
  | unsent =>
      obtain ⟨rfl, rfl⟩ := Prod.mk.inj (Option.some.inj hperform)
      exact hunsent v ⟨v, hv, hallowed⟩ hv
  | answered verdict delivered =>
      obtain ⟨rfl, rfl⟩ := Prod.mk.inj (Option.some.inj hperform)
      exact hsent v verdict delivered hallowed hv
  | _ => cases hperform

end Rustgo.ClientEnrollment
