import Rustgo.PeerSessionKeys

namespace Rustgo.TcpPumps

open PeerCipher Runs

def maxRelayPlaintext : Nat := 60 * 1024

/-- The pump of the relay and the one of a direct native TCP connection. -/
inductive Pump
  | stream
  | encryptedTcp
  deriving DecidableEq

inductive Frame
  | data (payload : Bytes)
  | fin
  deriving DecidableEq

inductive Phase
  | running
  | returned
  | failed
  deriving DecidableEq

/-- One endpoint: its application's stream, and the loop that pumps it. -/
structure Endpoint where
  written : Bytes
  closed : Bool
  unread : Bytes
  phase : Phase
  /-- The pending `receive` has taken a part of the next frame. -/
  taking : Bool
  /-- Such a part was lost, and no frame can be read any more. -/
  torn : Bool
  delivered : Bytes
  shut : Bool
  deriving DecidableEq

/-- The frames of a queue are on their way to the endpoint. -/
structure Session where
  endpoint : PeerRole → Endpoint
  queue : PeerRole → List Frame

inductive Action
  | write (x : PeerRole) (bytes : Bytes)
  | close (x : PeerRole)
  | read (x : PeerRole) (n : Nat)
  | readEnd (x : PeerRole)
  | take (x : PeerRole)
  | receive (x : PeerRole)
  | fail (x : PeerRole)

namespace Session

def start : Session where
  endpoint _ := ⟨[], false, [], .running, false, false, [], false⟩
  queue _ := []

variable (w : Session) (x : PeerRole)

def set (e : Endpoint) : Session := { w with endpoint := Function.update w.endpoint x e }

def send (frame : Frame) : Session := { w with queue := Function.update w.queue x.other (w.queue x.other ++ [frame]) }

/-- The read of the application's stream, which the loop prefers. -/
def ready : Bool := (w.endpoint x).unread ≠ [] ∨ (w.endpoint x).closed = true

def write (bytes : Bytes) : Option Session :=
  let e := w.endpoint x
  if e.closed = true then none else some (w.set x { e with written := e.written ++ bytes, unread := e.unread ++ bytes })

def close : Option Session := some (w.set x { w.endpoint x with closed := true })

/-- When the read wins, the pending `receive` is dropped with what it has taken. -/
def read (n : Nat) : Option Session :=
  let e := w.endpoint x
  if e.phase ≠ .running ∨ n = 0 ∨ e.unread.length < n ∨ maxRelayPlaintext < n then none
  else some ((w.set x { e with unread := e.unread.drop n, torn := e.torn || e.taking, taking := false }).send x
    (.data (e.unread.take n)))

/-- A read of no bytes is the end of the application's stream, and the pump returns. -/
def readEnd : Option Session :=
  let e := w.endpoint x
  if e.phase ≠ .running ∨ e.unread ≠ [] ∨ e.closed = false then none
  else some ((w.set x { e with phase := .returned, torn := e.torn || e.taking, taking := false }).send x .fin)

/-- The reader of the encrypted connection waits for the rest of a frame; a
frame of the relay arrives at once. -/
def take (pump : Pump) : Option Session :=
  let e := w.endpoint x
  if pump = .stream ∨ e.phase ≠ .running ∨ w.ready x ∨ e.torn = true ∨ w.queue x = [] then none
  else some (w.set x { e with taking := true })

def receive : Option Session :=
  let e := w.endpoint x
  if e.phase ≠ .running ∨ w.ready x ∨ e.torn = true then none
  else match w.queue x with
    | [] => none
    | frame :: rest =>
        let w' := { w with queue := Function.update w.queue x rest }
        match frame with
        | .data payload => some (w'.set x { e with delivered := e.delivered ++ payload, taking := false })
        | .fin => some (w'.set x { e with phase := .returned, taking := false, shut := true })

/-- Cancelled, or stopped by an error of either stream. -/
def fail : Option Session :=
  if (w.endpoint x).phase ≠ .running then none else some (w.set x { w.endpoint x with phase := .failed })

def next (pump : Pump) : Action → Option Session
  | .write x bytes => w.write x bytes
  | .close x => w.close x
  | .read x n => w.read x n
  | .readEnd x => w.readEnd x
  | .take x => w.take x pump
  | .receive x => w.receive x
  | .fail x => w.fail x

end Session

def Step (pump : Pump) (w : Session) (a : Action) (w' : Session) : Prop := w.next pump a = some w'

/-- A pump has returned only after it delivered all that the other application
sent before its end of stream, and it has not lost a part of a frame. -/
def Complete (w : Session) : Prop :=
  ∀ x, (w.endpoint x).torn = false ∧ ((w.endpoint x).phase = .returned →
    (w.endpoint x.other).closed = true ∧ (w.endpoint x).delivered = (w.endpoint x.other).written)

/-- A pump reads the end of its application's stream only when the other application is done and
nothing of it is left to deliver, and reads the stream only between frames. -/
def Patient (w : Session) : Action → Prop
  | .read x _ => (w.endpoint x).taking = false
  | .readEnd x => (w.endpoint x).taking = false ∧ (w.endpoint x.other).closed = true ∧
      (w.endpoint x).delivered = (w.endpoint x.other).written
  | _ => True

section Access

variable (w : Session) (x : PeerRole) (e : Endpoint) (frame : Frame)

@[simp] theorem set_self : (w.set x e).endpoint x = e := Function.update_self ..

@[simp] theorem set_other : (w.set x e).endpoint x.other = w.endpoint x.other := Function.update_of_ne x.other_ne ..

@[simp] theorem set_queue : (w.set x e).queue = w.queue := rfl

@[simp] theorem send_endpoint : (w.send x frame).endpoint = w.endpoint := rfl

@[simp] theorem send_other : (w.send x frame).queue x.other = w.queue x.other ++ [frame] := Function.update_self ..

@[simp] theorem send_self : (w.send x frame).queue x = w.queue x := Function.update_of_ne x.other_ne.symm ..

end Access

section Delivery

def payloads (frames : List Frame) : Bytes := frames.flatMap fun
  | .data payload => payload
  | .fin => []

/-- What one application has written has been delivered to the other, is on its way or is not read yet. -/
structure Flowing (source sink : Endpoint) (queue : List Frame) : Prop where
  sent : source.written = sink.delivered ++ (payloads queue ++ source.unread)
  ended : Frame.fin ∈ queue → source.phase ≠ .running ∧ source.closed = true ∧ source.unread = [] ∧
    ∃ before, queue = before ++ [.fin] ∧ Frame.fin ∉ before

def Inv (w : Session) : Prop := ∀ x, Flowing (w.endpoint x.other) (w.endpoint x) (w.queue x)

variable {w w' : Session} {x : PeerRole}

theorem inv_of_sides (x : PeerRole) (hin : Flowing (w.endpoint x.other) (w.endpoint x) (w.queue x))
    (hout : Flowing (w.endpoint x) (w.endpoint x.other) (w.queue x.other)) : Inv w := by
  intro y
  rcases x.eq_or_other y with rfl | rfl
  · exact hin
  · rwa [PeerRole.other_other]

theorem Inv.outgoing (h : Inv w) (x : PeerRole) : Flowing (w.endpoint x) (w.endpoint x.other) (w.queue x.other) := by
  have hout := h x.other
  rwa [PeerRole.other_other] at hout

/-- Only what has been written, delivered or read matters, and that an endpoint stopped stays stopped. -/
theorem Flowing.same {source sink source' sink' : Endpoint} {queue : List Frame} (h : Flowing source sink queue)
    (hwritten : source'.written = source.written) (hunread : source'.unread = source.unread)
    (hclosed : source.closed = true → source'.closed = true) (hphase : source.phase ≠ .running → source'.phase ≠ .running)
    (hdelivered : sink'.delivered = sink.delivered) : Flowing source' sink' queue where
  sent := by rw [hwritten, hunread, hdelivered, h.sent]
  ended hfin := by
    obtain ⟨hstopped, hended, hnone, hlast⟩ := h.ended hfin
    exact ⟨hphase hstopped, hclosed hended, hunread.trans hnone, hlast⟩

theorem Inv.write (h : Inv w) {bytes : Bytes} (hw : w.write x bytes = some w') : Inv w' := by
  rw [Session.write] at hw
  split at hw
  · exact nomatch hw
  · next hopen =>
    obtain rfl := Option.some.inj hw
    refine inv_of_sides x ?_ ?_
    · simp only [set_self, set_other, set_queue]
      exact (h x).same rfl rfl id id rfl
    · refine ⟨by simp [(h.outgoing x).sent], fun hfin => ?_⟩
      exact absurd ((h.outgoing x).ended hfin).2.1 hopen

theorem Inv.close (h : Inv w) (hw : w.close x = some w') : Inv w' := by
  obtain rfl := Option.some.inj hw
  refine inv_of_sides x ?_ ?_
  · simp only [set_self, set_other, set_queue]
    exact (h x).same rfl rfl id id rfl
  · simp only [set_self, set_other, set_queue]
    exact (h.outgoing x).same rfl rfl (fun _ => rfl) id rfl

theorem Inv.read (h : Inv w) {n : Nat} (hw : w.read x n = some w') : Inv w' := by
  rw [Session.read] at hw
  split at hw
  · exact nomatch hw
  · next hn =>
    simp only [not_or, not_not] at hn
    obtain rfl := Option.some.inj hw
    refine inv_of_sides x ?_ ?_
    · simp only [set_self, set_other, set_queue, send_endpoint, send_self]
      exact (h x).same rfl rfl id id rfl
    · have hout := h.outgoing x
      have hnone : Frame.fin ∉ w.queue x.other := fun hfin => (hout.ended hfin).1 hn.1
      refine ⟨?_, fun hfin => ?_⟩
      · simp [hout.sent, payloads]
      · simp [hnone] at hfin

theorem Inv.readEnd (h : Inv w) (hw : w.readEnd x = some w') : Inv w' := by
  rw [Session.readEnd] at hw
  split at hw
  · exact nomatch hw
  · next hn =>
    simp only [not_or, not_not, Bool.not_eq_false] at hn
    obtain rfl := Option.some.inj hw
    refine inv_of_sides x ?_ ?_
    · simp only [set_self, set_other, set_queue, send_endpoint, send_self]
      exact (h x).same rfl rfl id id rfl
    · have hout := h.outgoing x
      have hnone : Frame.fin ∉ w.queue x.other := fun hfin => (hout.ended hfin).1 hn.1
      refine ⟨?_, fun _ => ⟨by simp, by simpa using hn.2.2, by simpa using hn.2.1, w.queue x.other, by simp, hnone⟩⟩
      simp [hout.sent, payloads]

theorem Inv.take (h : Inv w) {pump : Pump} (hw : w.take x pump = some w') : Inv w' := by
  rw [Session.take] at hw
  split at hw
  · exact nomatch hw
  · obtain rfl := Option.some.inj hw
    refine inv_of_sides x ?_ ?_
    · simp only [set_self, set_other, set_queue]
      exact (h x).same rfl rfl id id rfl
    · simp only [set_self, set_other, set_queue]
      exact (h.outgoing x).same rfl rfl id id rfl

/-- An end of stream is the last frame, so nothing is left when it arrives. -/
theorem Flowing.fin_first {source sink : Endpoint} {rest : List Frame} (h : Flowing source sink (.fin :: rest)) :
    rest = [] ∧ source.closed = true ∧ sink.delivered = source.written := by
  obtain ⟨-, hclosed, hunread, before, hlast, hnone⟩ := h.ended List.mem_cons_self
  cases before with
  | nil =>
      obtain rfl : rest = [] := by simpa using hlast
      exact ⟨rfl, hclosed, by simp [h.sent, hunread, payloads]⟩
  | cons frame before =>
      obtain ⟨rfl, -⟩ := List.cons_eq_cons.mp hlast
      exact absurd List.mem_cons_self hnone

theorem Flowing.data_first {source sink : Endpoint} {payload : Bytes} {rest : List Frame}
    (h : Flowing source sink (.data payload :: rest)) {sink' : Endpoint} (hdelivered : sink'.delivered = sink.delivered ++ payload) :
    Flowing source sink' rest where
  sent := by simp [h.sent, hdelivered, payloads]
  ended hfin := by
    obtain ⟨hstopped, hclosed, hunread, before, hlast, hnone⟩ := h.ended (List.mem_cons_of_mem _ hfin)
    refine ⟨hstopped, hclosed, hunread, ?_⟩
    cases before with
    | nil => exact nomatch (List.cons_eq_cons.mp hlast).1
    | cons frame before =>
        exact ⟨before, (List.cons_eq_cons.mp hlast).2, fun hmem => hnone (List.mem_cons_of_mem _ hmem)⟩

theorem Inv.receive (h : Inv w) (hw : w.receive x = some w') : Inv w' := by
  have hin := h x
  rw [Session.receive] at hw
  split at hw
  · exact nomatch hw
  · split at hw
    · exact nomatch hw
    · next frame rest hqueue =>
      rw [hqueue] at hin
      cases frame with
      | data payload =>
          obtain rfl := Option.some.inj hw
          refine inv_of_sides x ?_ ?_
          · simp only [set_self, set_other, set_queue, Function.update_self]
            exact hin.data_first rfl
          · simp only [set_self, set_other, set_queue, Function.update_of_ne x.other_ne]
            exact (h.outgoing x).same rfl rfl id id rfl
      | fin =>
          obtain rfl := Option.some.inj hw
          obtain ⟨rfl, -⟩ := hin.fin_first
          refine inv_of_sides x ?_ ?_
          · exact ⟨by simpa [payloads] using hin.sent, fun hfin => by simp at hfin⟩
          · simp only [set_self, set_other, set_queue, Function.update_of_ne x.other_ne]
            exact (h.outgoing x).same rfl rfl id (fun _ => by simp) rfl

theorem Inv.fail (h : Inv w) (hw : w.fail x = some w') : Inv w' := by
  rw [Session.fail] at hw
  split at hw
  · exact nomatch hw
  · obtain rfl := Option.some.inj hw
    refine inv_of_sides x ?_ ?_
    · simp only [set_self, set_other, set_queue]
      exact (h x).same rfl rfl id id rfl
    · simp only [set_self, set_other, set_queue]
      exact (h.outgoing x).same rfl rfl id (fun _ => by simp) rfl

theorem Inv.step (pump : Pump) (w : Session) (a : Action) (w' : Session) (h : Inv w) (hs : Step pump w a w') : Inv w' := by
  cases a with
  | write x bytes => exact h.write hs
  | close x => exact h.close hs
  | read x n => exact h.read hs
  | readEnd x => exact h.readEnd hs
  | take x => exact h.take hs
  | receive x => exact h.receive hs
  | fail x => exact h.fail hs

theorem inv_start : Inv Session.start := fun _ => ⟨rfl, fun h => by simp [Session.start] at h⟩

end Delivery

section Completion

variable {w w' : Session} {x : PeerRole}

/-- Completeness of one endpoint, seen from both. -/
def Settled (source sink : Endpoint) : Prop :=
  sink.torn = false ∧ (sink.phase = .returned → source.closed = true ∧ sink.delivered = source.written)

theorem complete_of_sides (x : PeerRole) (hin : Settled (w.endpoint x.other) (w.endpoint x))
    (hout : Settled (w.endpoint x) (w.endpoint x.other)) : Complete w := by
  intro y
  rcases x.eq_or_other y with rfl | rfl
  · exact hin
  · rwa [PeerRole.other_other]

theorem Complete.outgoing (h : Complete w) (x : PeerRole) : Settled (w.endpoint x) (w.endpoint x.other) := by
  have hout := h x.other
  rwa [PeerRole.other_other] at hout

theorem Settled.same {source sink source' sink' : Endpoint} (h : Settled source sink) (htorn : sink'.torn = sink.torn)
    (hphase : sink'.phase = .returned → sink.phase = .returned) (hdelivered : sink'.delivered = sink.delivered)
    (hclosed : source.closed = true → source'.closed = true)
    (hwritten : source.closed = true → source'.written = source.written) : Settled source' sink' := by
  refine ⟨htorn.trans h.1, fun hreturned => ?_⟩
  obtain ⟨hc, hd⟩ := h.2 (hphase hreturned)
  exact ⟨hclosed hc, hdelivered.trans (hd.trans (hwritten hc).symm)⟩

/-- What one step does to completeness: only the end of the application's stream and a
read in the midst of a frame can break it. -/
theorem Complete.step (pump : Pump) (w : Session) (a : Action) (w' : Session) (hinv : Inv w) (h : Complete w)
    (hs : Step pump w a w') (hpatient : Patient w a) : Complete w' := by
  cases a with
  | write x bytes =>
      simp only [Step, Session.next, Session.write] at hs
      split at hs
      · cases hs
      · next hopen =>
        obtain rfl := Option.some.inj hs
        refine complete_of_sides x ?_ ?_ <;> simp only [set_self, set_other]
        · exact Settled.same (h x) rfl id rfl id fun _ => rfl
        · exact Settled.same (h.outgoing x) rfl id rfl id fun hc => absurd hc hopen
  | close x =>
      obtain rfl := Option.some.inj hs
      refine complete_of_sides x ?_ ?_ <;> simp only [set_self, set_other]
      · exact Settled.same (h x) rfl id rfl id fun _ => rfl
      · exact Settled.same (h.outgoing x) rfl id rfl (fun _ => rfl) fun _ => rfl
  | read x n =>
      simp only [Step, Session.next, Session.read] at hs
      split at hs
      · cases hs
      · obtain rfl := Option.some.inj hs
        have htaking : (w.endpoint x).taking = false := hpatient
        refine complete_of_sides x ?_ ?_ <;> simp only [set_self, set_other, send_endpoint]
        · exact Settled.same (h x) (by simp [htaking]) id rfl id fun _ => rfl
        · exact Settled.same (h.outgoing x) rfl id rfl id fun _ => rfl
  | readEnd x =>
      simp only [Step, Session.next, Session.readEnd] at hs
      split at hs
      · cases hs
      · obtain rfl := Option.some.inj hs
        obtain ⟨htaking, hclosed, hdelivered⟩ := hpatient
        refine complete_of_sides x ?_ ?_ <;> simp only [set_self, set_other, send_endpoint]
        · exact ⟨by simp [htaking, (h x).1], fun _ => ⟨hclosed, hdelivered⟩⟩
        · exact Settled.same (h.outgoing x) rfl id rfl id fun _ => rfl
  | take x =>
      simp only [Step, Session.next, Session.take] at hs
      split at hs
      · cases hs
      · obtain rfl := Option.some.inj hs
        refine complete_of_sides x ?_ ?_ <;> simp only [set_self, set_other]
        · exact Settled.same (h x) rfl id rfl id fun _ => rfl
        · exact Settled.same (h.outgoing x) rfl id rfl id fun _ => rfl
  | receive x =>
      have hin := hinv x
      simp only [Step, Session.next, Session.receive] at hs
      split at hs
      · cases hs
      · next hn =>
        simp only [not_or, not_not] at hn
        split at hs
        · cases hs
        · next frame rest hqueue =>
          rw [hqueue] at hin
          cases frame with
          | data payload =>
              obtain rfl := Option.some.inj hs
              refine complete_of_sides x ?_ ?_ <;> simp only [set_self, set_other]
              · exact ⟨(h x).1, fun hreturned => by simp [hn.1] at hreturned⟩
              · exact Settled.same (h.outgoing x) rfl id rfl id fun _ => rfl
          | fin =>
              obtain rfl := Option.some.inj hs
              refine complete_of_sides x ?_ ?_ <;> simp only [set_self, set_other]
              · exact ⟨(h x).1, fun _ => hin.fin_first.2⟩
              · exact Settled.same (h.outgoing x) rfl id rfl id fun _ => rfl
  | fail x =>
      simp only [Step, Session.next, Session.fail] at hs
      split at hs
      · cases hs
      · obtain rfl := Option.some.inj hs
        refine complete_of_sides x ?_ ?_ <;> simp only [set_self, set_other]
        · exact Settled.same (h x) rfl (fun hreturned => by cases hreturned) rfl id fun _ => rfl
        · exact Settled.same (h.outgoing x) rfl id rfl id fun _ => rfl

theorem incomplete_of_impatient {pump : Pump} {a : Action} (hs : Step pump w a w') (himpatient : ¬Patient w a) :
    ¬Complete w' := by
  intro h
  cases a with
  | read x n =>
      simp only [Step, Session.next, Session.read] at hs
      split at hs
      · exact nomatch hs
      · obtain rfl := Option.some.inj hs
        have htorn := (h x).1
        simp only [send_endpoint, set_self, Bool.or_eq_false_iff] at htorn
        exact himpatient htorn.2
  | readEnd x =>
      simp only [Step, Session.next, Session.readEnd] at hs
      split at hs
      · exact nomatch hs
      · obtain rfl := Option.some.inj hs
        obtain ⟨htorn, hreturned⟩ := h x
        simp only [send_endpoint, set_self, set_other, Bool.or_eq_false_iff, forall_const] at htorn hreturned
        exact himpatient ⟨htorn.2, hreturned⟩
  | write | close | take | receive | fail => exact himpatient trivial

/-- A request, its end of stream, and a reply that nobody reads any more. -/
def halfClosed : List Action :=
  [.write .initiator [1], .close .initiator, .read .initiator 1, .readEnd .initiator, .receive .responder,
    .receive .responder, .write .responder [7], .close .responder]

theorem exec_halfClosed (pump : Pump) : (exec (fun w a => w.next pump a) Session.start halfClosed).any (fun w =>
    (w.endpoint .initiator).phase = .returned ∧ (w.endpoint .initiator).delivered = [] ∧
      (w.endpoint .responder).written = [7]) = true := by
  cases pump <;> decide

theorem not_complete_of_lost {w : Session} (hphase : (w.endpoint .initiator).phase = .returned)
    (hdelivered : (w.endpoint .initiator).delivered = []) (hwritten : (w.endpoint .responder).written = [7]) :
    ¬Complete w := by
  intro h
  have hall := (h .initiator).2 hphase
  rw [hdelivered] at hall
  exact nomatch hall.2.trans hwritten

end Completion

end Rustgo.TcpPumps
