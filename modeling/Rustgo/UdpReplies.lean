import Rustgo.FlowTableInvariant
import Rustgo.ClientSessionTable

namespace Rustgo.Udp

open Tables LinkedTable SweepQueue SocketAddr Protocol

/-- The flow of a datagram that arrives at a public socket. -/
def publicFlow (source localAddr : SocketAddr) : FlowKey := ⟨canonicalSocketAddr source, canonicalSocketAddr localAddr⟩

/-- The address that a local session puts on its replies. -/
def ClientSession.replySource (session : ClientSession) : SocketAddress := wireSocketAddr session.external

namespace FlowTable

variable {t t' : FlowTable} {ks : List UInt64} {id : UInt64} {key : FlowKey} {now : Nat} {draw : Nat → Option UInt64}

/-- Where `relay_datagrams` sends a reply that names `source`, if it sends it. -/
def replyRecipient (t : FlowTable) (publicDestination : SocketAddr) (id : UInt64) (source : SocketAddress) (now : Nat) :
    Option SocketAddr :=
  let recipient := socketAddrFromWire source
  if (t.validateReply id recipient publicDestination now).1 then some recipient else none

theorem validateReply_fst {recipient destination : SocketAddr} :
    (t.validateReply id recipient destination now).1 = true ↔ t.keyOf id = some ⟨recipient, destination⟩ := by
  rw [validateReply, keyOf_eq]
  cases t.byId.lookup id with
  | none => simp
  | some entry =>
      obtain ⟨⟨source, dest⟩, _, _, _, _⟩ := entry
      simp only [Option.map_some, Option.some.injEq, FlowKey.mk.injEq]
      split
      · next hne => simp only [Bool.false_eq_true, false_iff, not_and_or]; exact hne
      · next heq => simpa [not_or] using heq

theorem keyOf_modify {f : FlowEntry → FlowEntry} (hf : ∀ e, (f e).key = e.key) (id x : UInt64) :
    ({ t with byId := LinkedTable.modify t.byId id f } : FlowTable).keyOf x = t.keyOf x := by
  rw [keyOf_eq, map_lookup_modify hf, ← keyOf_eq]

/-- The session that a datagram is given has the flow of the datagram. -/
theorem keyOf_sessionFor (h : t.Holds ks) {inserted : Bool} (hs : t.sessionFor key now draw = (.ok (id, inserted), t')) :
    t'.keyOf id = some key ∧ ∃ ks', t'.Holds ks' := by
  cases hkey : t.byFlow.lookup key with
  | some known =>
      have hknown : t.keyOf known = some key := (h.flows key known).mp hkey
      obtain ⟨entry, hentry, -⟩ := Option.map_eq_some_iff.mp (keyOf_eq t known ▸ hknown)
      simp only [sessionFor, hkey, hentry, Prod.mk.injEq, Except.ok.injEq] at hs
      obtain ⟨⟨rfl, -⟩, rfl⟩ := hs
      refine ⟨?_, ks, h.touch known now⟩
      rw [keyOf_modify (f := FlowEntry.touch now) fun _ => rfl]
      exact hknown
  | none =>
      by_cases hc : t.capacity ≤ len t.byId
      · simp [sessionFor, hkey, hc] at hs
      · cases hid : t.allocateSessionId draw with
        | error e => simp [sessionFor, hkey, hc, hid] at hs
        | ok drawn =>
            rw [sessionFor_new h hkey (Nat.lt_of_not_le hc) hid] at hs
            cases hs
            exact ⟨keyOf_inserted, _, h.inserted (drawSessionId_unused hid) hkey (Nat.lt_of_not_le hc)⟩

/-- The session stays in the table through all of the operations. -/
def Keeps (id : UInt64) : FlowTable → List Op → Prop
  | _, [] => True
  | t, op :: ops => id ∈ (t.perform op).2.byId ∧ Keeps id (t.perform op).2 ops

instance (id : UInt64) : ∀ (t : FlowTable) (ops : List Op), Decidable (Keeps id t ops)
  | _, [] => inferInstanceAs (Decidable True)
  | t, op :: ops =>
      have := instDecidableKeeps id (t.perform op).2 ops
      inferInstanceAs (Decidable (id ∈ (t.perform op).2.byId ∧ Keeps id (t.perform op).2 ops))

/-- A session that is still there has the flow that it had. -/
theorem keyOf_perform (h : t.Holds ks) (op : Op) (hkey : t.keyOf id = some key) (hid : id ∈ (t.perform op).2.byId) :
    (t.perform op).2.keyOf id = some key := by
  cases op with
  | sessionFor other now draw =>
      rcases sessionFor_cases h other now draw with ⟨e, he, -⟩ | ⟨touched, he⟩ | ⟨drawn, hfree, -, -, he⟩
      · simpa [perform, he] using hkey
      · simp only [perform, he]
        rwa [keyOf_modify (f := FlowEntry.touch now) fun _ => rfl]
      · have hne : id ≠ drawn := by
          rintro rfl
          simp [keyOf_eq, hfree] at hkey
        simp only [perform, he]
        rwa [keyOf_inserted_of_ne hne]
  | remove removed =>
      have hne : id ≠ removed := by
        rintro rfl
        exact Finmap.lookup_eq_none.mp (lookup_remove_self id h) hid
      rw [perform, keyOf, flowOf_remove_of_ne hne, ← keyOf, hkey]
  | validateReply touched recipient destination now =>
      rw [perform, validateReply]
      cases t.byId.lookup touched with
      | none => exact hkey
      | some entry =>
          dsimp only
          split
          · exact hkey
          · rwa [keyOf_modify (f := FlowEntry.touch now) fun _ => rfl]
  | recordTraffic recorded f =>
      rw [perform, recordTraffic]
      rwa [keyOf_modify (f := FlowEntry.observe f) fun _ => rfl]
  | sweepExpired now idleTimeout maximum =>
      obtain ⟨out, u, hout, -, hholds, -, hflow⟩ := h.sweepExpired now idleTimeout maximum
      have hu : (t.perform (.sweepExpired now idleTimeout maximum)).2 = u := by rw [perform, hout]
      rw [hu] at hid ⊢
      rw [keyOf, hflow id ((hholds.threaded.mem id).mpr hid), ← keyOf, hkey]
  | clear => exact absurd hid Finmap.notMem_empty

theorem keyOf_performAll (h : t.Holds ks) {ops : List Op} (hkey : t.keyOf id = some key) (hkeeps : t.Keeps id ops) :
    (t.performAll ops).keyOf id = some key := by
  induction ops generalizing t ks with
  | nil => exact hkey
  | cons op ops ih =>
      obtain ⟨ks', hholds, -⟩ := h.perform op
      exact ih hholds (keyOf_perform h op hkey hkeeps.1) hkeeps.2

end FlowTable

section Replies

open FlowTable

/-- What a flow table gives a datagram of `source`, once the operations `ops` have been performed on a new one. -/
def admitted (capacity : Nat) (observeTraffic : Bool) (ops : List Op) (source localAddr : SocketAddr) (now : Nat)
    (draw : Nat → Option UInt64) : Except FlowError (UInt64 × Bool) × FlowTable :=
  ((FlowTable.new capacity observeTraffic).performAll ops).sessionFor (publicFlow source localAddr) now draw

/-- A reply of the client is sent to the address that the datagram came from exactly
if that address is its own canonical form and has no flow label and no scope. The
reply of an address with a flow label or a scope is dropped, the one of a mapped
address goes to the IPv4 address. -/
theorem reply_reaches_source_iff (capacity : Nat) (observeTraffic : Bool) (ops : List Op) (source localAddr : SocketAddr)
    (now : Nat) (draw : Nat → Option UInt64) (id : UInt64) (inserted : Bool) (t : FlowTable)
    (hadmitted : admitted capacity observeTraffic ops source localAddr now draw = (.ok (id, inserted), t))
    (session : ClientSession)
    (hgiven : session.external = socketAddrFromWire (wireSocketAddr (publicFlow source localAddr).source))
    (later : List Op) (hkeeps : t.Keeps id later) (replied : Nat) :
    ((t.performAll later).replyRecipient (canonicalSocketAddr localAddr) id session.replySource replied = some source ↔
        ¬source.Mapped ∧ source.Unscoped) ∧
      (((t.performAll later).replyRecipient (canonicalSocketAddr localAddr) id session.replySource replied).isSome ↔
        source.Mapped ∨ source.Unscoped) := by
  obtain ⟨ks, hholds, -⟩ := holds_performAll capacity observeTraffic ops
  obtain ⟨hkey, ks', hholds'⟩ := keyOf_sessionFor hholds hadmitted
  have hlater := keyOf_performAll hholds' hkey hkeeps
  have hback : socketAddrFromWire session.replySource = socketAddrFromWire (wireSocketAddr source) := by
    rw [ClientSession.replySource, hgiven, wireSocketAddr_socketAddrFromWire, publicFlow, wireSocketAddr_canonical]
  have hvalid : ((t.performAll later).validateReply id (socketAddrFromWire session.replySource)
      (canonicalSocketAddr localAddr) replied).1 = true ↔ source.Mapped ∨ source.Unscoped := by
    rw [validateReply_fst, hlater, hback, ← socketAddrFromWire_wireSocketAddr]
    simp [publicFlow, eq_comm]
  rw [replyRecipient]
  split
  · next hok =>
    have hform := hvalid.mp hok
    have hcanonical := socketAddrFromWire_wireSocketAddr.mpr hform
    refine ⟨?_, by simpa using hform⟩
    rw [hback, hcanonical, Option.some.injEq, canonicalSocketAddr_eq_self]
    constructor
    · intro hmapped
      exact ⟨hmapped, hform.resolve_left hmapped⟩
    · exact And.left
  · next hdropped =>
    have hform := mt hvalid.mpr hdropped
    simp only [not_or] at hform
    simp [hform.1, hform.2]

def wildcard : SocketAddr := .v4 #v[0, 0, 0, 0] 6000

def firstId : Nat → Option UInt64 := fun _ => some 7

/-- The client's session for a datagram of `source`. -/
def sessionOf (source : SocketAddr) : ClientSession :=
  ⟨1, socketAddrFromWire (wireSocketAddr (publicFlow source wildcard).source), 0, none, none⟩

theorem reply_reaches_source_sample :
    let t := (admitted 4 true [] (.v4 #v[192, 0, 2, 1] 5000) wildcard 0 firstId).2
    let reply := (t.performAll []).replyRecipient (canonicalSocketAddr wildcard) 7
      (sessionOf (.v4 #v[192, 0, 2, 1] 5000)).replySource 1
    (reply = some (.v4 #v[192, 0, 2, 1] 5000) ↔
        ¬Mapped (.v4 #v[192, 0, 2, 1] 5000) ∧ Unscoped (.v4 #v[192, 0, 2, 1] 5000)) ∧
      (reply.isSome ↔ Mapped (.v4 #v[192, 0, 2, 1] 5000) ∨ Unscoped (.v4 #v[192, 0, 2, 1] 5000)) :=
  reply_reaches_source_iff 4 true [] (.v4 #v[192, 0, 2, 1] 5000) wildcard 0 firstId 7 true _
    (Prod.ext (by decide +kernel) rfl) (sessionOf (.v4 #v[192, 0, 2, 1] 5000)) rfl [] trivial 1

/-- A peer on the local link, whose address has the scope of the interface. -/
def linkLocal : SocketAddr := .v6 #v[0xfe, 0x80, 0, 0, 0, 0, 0, 0, 0, 0, 0, 0, 0, 0, 0, 1] 5000 0 2

theorem scoped_reply_dropped :
    ¬∀ (capacity : Nat) (observeTraffic : Bool) (ops : List Op) (source localAddr : SocketAddr) (now : Nat)
      (draw : Nat → Option UInt64) (id : UInt64) (inserted : Bool) (t : FlowTable),
      admitted capacity observeTraffic ops source localAddr now draw = (.ok (id, inserted), t) →
      ∀ session : ClientSession,
        session.external = socketAddrFromWire (wireSocketAddr (publicFlow source localAddr).source) →
        ∀ later, t.Keeps id later → ∀ replied : Nat,
          (t.performAll later).replyRecipient (canonicalSocketAddr localAddr) id session.replySource replied = some source := by
  intro h
  have hsent := h 4 true [] linkLocal wildcard 0 firstId 7 true _ (Prod.ext (by decide +kernel) rfl)
    (sessionOf linkLocal) rfl [] trivial 1
  exact absurd hsent (by decide +kernel)

end Replies

end Rustgo.Udp
