import Rustgo.Bytes
import Rustgo.Runs
import Rustgo.Tables

namespace Rustgo.Forwards

open Runs Tables

def UDP_SOURCE_QUEUE_CAPACITY : Nat := 64

/-- How many generations there are before they come again. -/
def generations : Nat := 2 ^ 64 - 1

/-- The sender of an entry is that of one task. -/
structure SourceEntry where
  generation : Nat
  sender : Nat
  deriving DecidableEq

/-- A task receives, then it has ended and still has to say so. -/
inductive TaskPhase
  | running
  | ended
  | finished
  deriving DecidableEq

structure SourceTask (K : Type) where
  source : K
  generation : Nat
  queue : List (Nat × Bytes)
  phase : TaskPhase
  deriving DecidableEq

inductive LoopPhase (K : Type)
  | selecting
  | sending (source : K) (payload : Bytes)
  | checking (source : K)
  | stopped
  deriving DecidableEq

/-- The loop with its tasks, the completions under way, the sources of all datagrams so far, and which of them were
queued to which task. -/
structure Forward (K : Type) where
  sources : Table K SourceEntry
  tasks : List (SourceTask K)
  completions : List (K × Nat × Nat)
  nextGeneration : Nat
  phase : LoopPhase K
  datagrams : List K
  queued : List (Nat × Nat)

inductive Event (K : Type)
  | datagram (source : K) (payload : Bytes)
  | trySend
  | check
  | complete
  | take (task : Nat)
  | finish (task : Nat)
  | announce (task : Nat)
  | stop

namespace Forward

variable {K : Type} [DecidableEq K]

def init : Forward K := ⟨∅, [], [], 1, .selecting, [], []⟩

def nextOf (generation : Nat) : Nat := max ((generation + 1) % 2 ^ 64) 1

def startSource (s : Forward K) (source : K) (payload : Bytes) : Forward K :=
  { s with
    sources := s.sources.insert source ⟨s.nextGeneration, s.tasks.length⟩
    tasks := s.tasks ++ [⟨source, s.nextGeneration, [], .running⟩]
    nextGeneration := nextOf s.nextGeneration
    phase := .sending source payload
    datagrams := s.datagrams ++ [source] }

def datagram (s : Forward K) (maxSources : Nat) (source : K) (payload : Bytes) : Forward K :=
  if source ∉ s.sources then
    if maxSources ≤ len s.sources then { s with datagrams := s.datagrams ++ [source] } else s.startSource source payload
  else { s with phase := .sending source payload, datagrams := s.datagrams ++ [source] }

/-- The queue is full, or its task has ended. -/
def trySend (s : Forward K) (source : K) (payload : Bytes) : Option (Forward K) :=
  match s.sources.lookup source with
  | none => some { s with phase := .selecting }
  | some entry =>
      s.tasks[entry.sender]?.map fun task =>
        if task.phase = .running ∧ task.queue.length < UDP_SOURCE_QUEUE_CAPACITY then
          { s with
            tasks := s.tasks.set entry.sender { task with queue := task.queue ++ [(s.datagrams.length - 1, payload)] }
            phase := .selecting
            queued := s.queued ++ [(s.datagrams.length - 1, entry.sender)] }
        else { s with phase := .checking source }

/-- Once a datagram could not be queued, the sender may have been closed in the meantime. -/
def check (s : Forward K) (source : K) : Option (Forward K) :=
  match s.sources.lookup source with
  | none => some { s with phase := .selecting }
  | some entry =>
      s.tasks[entry.sender]?.map fun task =>
        if task.phase = .running then { s with phase := .selecting }
        else { s with sources := s.sources.erase source, phase := .selecting }

def complete (s : Forward K) (source : K) (generation : Nat) (rest : List (K × Nat × Nat)) : Forward K :=
  { s with
    sources := if (s.sources.lookup source).any (·.generation = generation) then s.sources.erase source else s.sources
    completions := rest }

/-- A completion waits for room, unless nobody receives it any more. -/
def announce (s : Forward K) (maxSources id : Nat) (task : SourceTask K) : Option (Forward K) :=
  let finished := { s with tasks := s.tasks.set id { task with phase := .finished } }
  if s.phase = .stopped then some finished
  else if s.completions.length < maxSources then
    some { finished with completions := s.completions ++ [(task.source, task.generation, id)] }
  else none

def next (maxSources : Nat) (s : Forward K) : Event K → Option (Forward K)
  | .datagram source payload => if s.phase = .selecting then some (s.datagram maxSources source payload) else none
  | .trySend =>
      match s.phase with
      | .sending source payload => s.trySend source payload
      | _ => none
  | .check =>
      match s.phase with
      | .checking source => s.check source
      | _ => none
  | .complete =>
      match s.completions with
      | (source, generation, _) :: rest =>
          if s.phase = .selecting ∧ s.sources ≠ ∅ then some (s.complete source generation rest) else none
      | [] => none
  | .take id =>
      match s.tasks[id]? with
      | some task => if task.phase = .running ∧ task.queue ≠ [] then
          some { s with tasks := s.tasks.set id { task with queue := task.queue.tail } } else none
      | none => none
  | .finish id =>
      match s.tasks[id]? with
      | some task => if task.phase = .running then
          some { s with tasks := s.tasks.set id { task with queue := [], phase := .ended } } else none
      | none => none
  | .announce id =>
      match s.tasks[id]? with
      | some task => if task.phase = .ended then s.announce maxSources id task else none
      | none => none
  | .stop => if s.phase = .selecting then some { s with phase := .stopped } else none

def Step (maxSources : Nat) (s : Forward K) (event : Event K) (t : Forward K) : Prop := s.next maxSources event = some t

variable {s t : Forward K} {maxSources id : Nat} {source : K} {payload : Bytes} {entry : SourceEntry} {task : SourceTask K} {events : List (Event K)}

/-- What stays the same for a task. -/
def labels (s : Forward K) : List (K × Nat) := s.tasks.map fun task => (task.source, task.generation)

/-- The sources and their tasks, apart from how far these are. -/
structure Sound (maxSources : Nat) (s : Forward K) : Prop where
  bounded : len s.sources ≤ maxSources
  nextGeneration_eq : s.nextGeneration = s.labels.length % generations + 1
  generation_eq : ∀ id source generation, s.labels[id]? = some (source, generation) → generation = id % generations + 1
  owned : ∀ source entry, s.sources.lookup source = some entry → s.labels[entry.sender]? = some (source, entry.generation)
  newest : ∀ source entry id generation, s.sources.lookup source = some entry → s.labels[id]? = some (source, generation) → id ≤ entry.sender
  announced : ∀ source generation id, (source, generation, id) ∈ s.completions → s.labels[id]? = some (source, generation)
  queued_nodup : (s.queued.map Prod.fst).Nodup
  queued_source : ∀ n id, (n, id) ∈ s.queued → ∃ source generation, s.datagrams[n]? = some source ∧ s.labels[id]? = some (source, generation)

/-- A datagram under way is the last one, and is not queued yet. -/
def InFlight (s : Forward K) : Prop := ∀ source payload, s.phase = .sending source payload →
  s.datagrams[s.datagrams.length - 1]? = some source ∧ ∀ id, (s.datagrams.length - 1, id) ∉ s.queued

/-- A task that has finished while the loop runs has its completion under way, as long as it has an entry. -/
def Pending (s : Forward K) : Prop := ∀ source entry task, s.sources.lookup source = some entry → s.tasks[entry.sender]? = some task →
  task.phase = .finished → s.phase ≠ .stopped → (source, entry.generation, entry.sender) ∈ s.completions

omit [DecidableEq K] in
theorem labels_set {task' : SourceTask K} {tasks : List (SourceTask K)} (htask : tasks[id]? = some task) (hsource : task'.source = task.source)
    (hgeneration : task'.generation = task.generation) :
    (tasks.set id task').map (fun task => (task.source, task.generation)) = tasks.map fun task => (task.source, task.generation) := by
  have hlabel : (tasks.map fun task => (task.source, task.generation))[id]? = some (task'.source, task'.generation) := by
    rw [List.getElem?_map, htask, hsource, hgeneration]
    rfl
  obtain ⟨hlt, hlabel⟩ := List.getElem?_eq_some_iff.mp hlabel
  rw [List.map_set, ← hlabel, List.set_getElem_self]

omit [DecidableEq K] in
theorem task_of_label {generation : Nat} (h : s.labels[id]? = some (source, generation)) :
    ∃ task, s.tasks[id]? = some task ∧ task.source = source ∧ task.generation = generation := by
  rw [labels, List.getElem?_map] at h
  obtain ⟨task, htask, hlabel⟩ := Option.map_eq_some_iff.mp h
  exact ⟨task, htask, Prod.mk.inj hlabel⟩

theorem nextOf_eq (n : Nat) : nextOf (n % generations + 1) = (n + 1) % generations + 1 := by
  rw [nextOf, generations]
  omega

theorem sound_init (maxSources : Nat) : (init : Forward K).Sound maxSources where
  bounded := Nat.zero_le _
  nextGeneration_eq := rfl
  generation_eq _ _ _ h := by cases h
  owned _ _ h := by cases h
  newest _ _ _ _ h := by cases h
  announced _ _ _ h := by cases h
  queued_nodup := List.nodup_nil
  queued_source _ _ h := by cases h

theorem Sound.startSource (h : s.Sound maxSources) (hnew : source ∉ s.sources) (hroom : len s.sources < maxSources) :
    (s.startSource source payload).Sound maxSources := by
  have hlabels : (s.startSource source payload).labels = s.labels ++ [(source, s.nextGeneration)] := by
    rw [labels, Forward.startSource, List.map_append]
    rfl
  have hlength : s.labels.length = s.tasks.length := List.length_map _
  have hold : ∀ id label, s.labels[id]? = some label → (s.labels ++ [(source, s.nextGeneration)])[id]? = some label := fun id label hlabel => by
    rw [List.getElem?_append_left (List.getElem?_eq_some_iff.mp hlabel).1]
    exact hlabel
  have hcases : ∀ id label, (s.labels ++ [(source, s.nextGeneration)])[id]? = some label →
      s.labels[id]? = some label ∨ id = s.labels.length ∧ label = (source, s.nextGeneration) := fun id label hlabel => by
    by_cases hlt : id < s.labels.length
    · exact .inl ((List.getElem?_append_left hlt).symm.trans hlabel)
    · rw [List.getElem?_append_right (not_lt.mp hlt), List.getElem?_singleton] at hlabel
      obtain ⟨hzero, heq⟩ := Option.ite_none_right_eq_some.mp hlabel
      exact .inr ⟨by omega, (Option.some.inj heq).symm⟩
  refine ⟨?_, ?_, ?_, ?_, ?_, ?_, h.queued_nodup, ?_⟩
  · have hinsert := len_insert_le s.sources source ⟨s.nextGeneration, s.tasks.length⟩
    exact hinsert.trans (by omega)
  · rw [hlabels, List.length_append, List.length_singleton, ← nextOf_eq, ← h.nextGeneration_eq]
    rfl
  · intro id source' generation hlabel
    rw [hlabels] at hlabel
    rcases hcases _ _ hlabel with hlabel | ⟨rfl, heq⟩
    · exact h.generation_eq id source' generation hlabel
    · rw [(Prod.mk.inj heq).2, h.nextGeneration_eq]
  · intro other entry hlookup
    rw [hlabels]
    by_cases hother : other = source
    · subst hother
      obtain rfl := Option.some.inj ((Finmap.lookup_insert _).symm.trans hlookup)
      rw [← hlength]
      exact List.getElem?_concat_length
    · exact hold _ _ (h.owned other entry ((Finmap.lookup_insert_of_ne _ hother).symm.trans hlookup))
  · intro other entry id generation hlookup hlabel
    rw [hlabels] at hlabel
    by_cases hother : other = source
    · subst hother
      obtain rfl := Option.some.inj ((Finmap.lookup_insert _).symm.trans hlookup)
      rcases hcases _ _ hlabel with hlabel | ⟨rfl, -⟩
      · exact hlength ▸ (List.getElem?_eq_some_iff.mp hlabel).1.le
      · exact hlength.le
    · rcases hcases _ _ hlabel with hlabel | ⟨-, heq⟩
      · exact h.newest other entry id generation ((Finmap.lookup_insert_of_ne _ hother).symm.trans hlookup) hlabel
      · exact absurd (Prod.mk.inj heq).1 hother
  · intro other generation id hmem
    rw [hlabels]
    exact hold _ _ (h.announced other generation id hmem)
  · intro n id hmem
    obtain ⟨other, generation, hdatagram, hlabel⟩ := h.queued_source n id hmem
    rw [hlabels]
    refine ⟨other, generation, ?_, hold _ _ hlabel⟩
    exact (List.getElem?_append_left (List.getElem?_eq_some_iff.mp hdatagram).1).trans hdatagram

/-- The loop goes on while tasks only move. -/
theorem Sound.congr (h : s.Sound maxSources) (hsources : t.sources = s.sources) (hlabels : t.labels = s.labels)
    (hcompletions : t.completions = s.completions) (hnext : t.nextGeneration = s.nextGeneration) (hdatagrams : t.datagrams = s.datagrams)
    (hqueued : t.queued = s.queued) : t.Sound maxSources where
  bounded := hsources ▸ h.bounded
  nextGeneration_eq := by rw [hnext, hlabels]; exact h.nextGeneration_eq
  generation_eq := hlabels ▸ h.generation_eq
  owned := by rw [hsources, hlabels]; exact h.owned
  newest := by rw [hsources, hlabels]; exact h.newest
  announced := by rw [hcompletions, hlabels]; exact h.announced
  queued_nodup := hqueued ▸ h.queued_nodup
  queued_source := by rw [hqueued, hdatagrams, hlabels]; exact h.queued_source

theorem Sound.receive (h : s.Sound maxSources) (phase : LoopPhase K) (source : K) :
    ({ s with phase := phase, datagrams := s.datagrams ++ [source] } : Forward K).Sound maxSources where
  bounded := h.bounded
  nextGeneration_eq := h.nextGeneration_eq
  generation_eq := h.generation_eq
  owned := h.owned
  newest := h.newest
  announced := h.announced
  queued_nodup := h.queued_nodup
  queued_source n id hmem := by
    obtain ⟨other, generation, hdatagram, hlabel⟩ := h.queued_source n id hmem
    exact ⟨other, generation, (List.getElem?_append_left (List.getElem?_eq_some_iff.mp hdatagram).1).trans hdatagram, hlabel⟩

/-- An entry goes. -/
theorem Sound.erase (h : s.Sound maxSources) (source : K) : ({ s with sources := s.sources.erase source } : Forward K).Sound maxSources where
  bounded := (len_erase_le _ _).trans h.bounded
  nextGeneration_eq := h.nextGeneration_eq
  generation_eq := h.generation_eq
  owned other entry hlookup := h.owned other entry (lookup_erase_eq_some hlookup).2
  newest other entry id generation hlookup := h.newest other entry id generation (lookup_erase_eq_some hlookup).2
  announced := h.announced
  queued_nodup := h.queued_nodup
  queued_source := h.queued_source

theorem Sound.enqueue (h : s.Sound maxSources) (hflight : InFlight s) (hphase : s.phase = .sending source payload)
    (hlookup : s.sources.lookup source = some entry) (phase : LoopPhase K) :
    ({ s with phase := phase, queued := s.queued ++ [(s.datagrams.length - 1, entry.sender)] } : Forward K).Sound maxSources where
  bounded := h.bounded
  nextGeneration_eq := h.nextGeneration_eq
  generation_eq := h.generation_eq
  owned := h.owned
  newest := h.newest
  announced := h.announced
  queued_nodup := by
    dsimp only
    rw [List.map_append, List.nodup_append]
    refine ⟨h.queued_nodup, List.nodup_singleton _, fun n hn m hm heq => ?_⟩
    obtain ⟨⟨_, id⟩, hmem, rfl⟩ := List.mem_map.mp hn
    rw [List.mem_singleton.mp hm] at heq
    obtain rfl : _ = s.datagrams.length - 1 := heq
    exact (hflight source payload hphase).2 id hmem
  queued_source n id hmem := by
    rcases List.mem_append.mp hmem with hmem | hmem
    · exact h.queued_source n id hmem
    · obtain ⟨rfl, rfl⟩ := Prod.mk.inj (List.mem_singleton.mp hmem)
      exact ⟨source, entry.generation, (hflight source payload hphase).1, h.owned source entry hlookup⟩

/-- A step keeps what holds of the sources, of the datagram under way, and of completions. -/
structure Inv (maxSources : Nat) (s : Forward K) : Prop where
  sound : s.Sound maxSources
  flight : InFlight s
  pending : Pending s

omit [DecidableEq K] in
theorem inFlight_of_phase (h : ∀ source payload, s.phase ≠ .sending source payload) : InFlight s :=
  fun source payload hphase => absurd hphase (h source payload)

/-- A datagram that has just been received is not queued. -/
theorem Sound.inFlight (h : s.Sound maxSources) (source : K) (hdatagrams : t.datagrams = s.datagrams ++ [source]) (hqueued : t.queued = s.queued)
    (hphase : ∀ other payload, t.phase = .sending other payload → other = source) : InFlight t := by
  intro other payload hsending
  obtain rfl := hphase other payload hsending
  have hlast : t.datagrams.length - 1 = s.datagrams.length := by rw [hdatagrams, List.length_append, List.length_singleton, Nat.add_sub_cancel]
  rw [hlast, hdatagrams, hqueued]
  refine ⟨List.getElem?_concat_length, fun id hmem => ?_⟩
  obtain ⟨_, _, hdatagram, -⟩ := h.queued_source _ id hmem
  exact absurd (List.getElem?_eq_some_iff.mp hdatagram).1 (lt_irrefl _)

theorem Pending.mono (h : Pending s) (hsources : ∀ source entry, t.sources.lookup source = some entry → s.sources.lookup source = some entry)
    (htasks : ∀ (id : Nat) (task : SourceTask K), t.tasks[id]? = some task → task.phase = .finished →
      ∃ before : SourceTask K, s.tasks[id]? = some before ∧ before.phase = .finished)
    (hcompletions : s.completions ⊆ t.completions) (hphase : t.phase ≠ .stopped → s.phase ≠ .stopped) : Pending t := by
  intro source entry task hlookup htask hfinished hrunning
  obtain ⟨before, hbefore, hdone⟩ := htasks _ task htask hfinished
  exact hcompletions (h source entry before (hsources source entry hlookup) hbefore hdone (hphase hrunning))

/-- The loop moves on. -/
theorem Pending.phase (h : Pending s) (hphase : s.phase ≠ .stopped) (hsources : t.sources = s.sources) (htasks : t.tasks = s.tasks)
    (hcompletions : t.completions = s.completions) : Pending t :=
  h.mono (fun _ _ hlookup => hsources ▸ hlookup) (fun _ task htask hfinished => ⟨task, htasks ▸ htask, hfinished⟩)
    (fun _ hmem => hcompletions ▸ hmem) fun _ => hphase

omit [DecidableEq K] in
/-- A task that has not finished by now had not before. -/
theorem finished_of_set {task' : SourceTask K} (hphase : task'.phase ≠ .finished) {other : Nat} {found : SourceTask K}
    (hfound : (s.tasks.set id task')[other]? = some found) (hfinished : found.phase = .finished) :
    ∃ before, s.tasks[other]? = some before ∧ before.phase = .finished := by
  rw [List.getElem?_set] at hfound
  split at hfound
  · obtain ⟨-, hfound⟩ := Option.ite_none_right_eq_some.mp hfound
    obtain rfl := Option.some.inj hfound
    exact absurd hfinished hphase
  · exact ⟨found, hfound, hfinished⟩

theorem Inv.startSource (h : s.Inv maxSources) (hphase : s.phase = .selecting) (hnew : source ∉ s.sources) (hroom : len s.sources < maxSources) :
    (s.startSource source payload).Inv maxSources := by
  refine ⟨h.sound.startSource hnew hroom, ?_, ?_⟩
  · refine h.sound.inFlight source rfl rfl fun other payload' hsending => ?_
    exact (LoopPhase.sending.inj hsending).1.symm
  · intro other entry task hlookup htask hfinished hrunning
    by_cases hother : other = source
    · subst hother
      obtain rfl := Option.some.inj ((Finmap.lookup_insert _).symm.trans hlookup)
      obtain rfl := Option.some.inj (List.getElem?_concat_length.symm.trans htask)
      cases hfinished
    · have hold := (Finmap.lookup_insert_of_ne _ hother).symm.trans hlookup
      have hlt := (List.getElem?_eq_some_iff.mp (h.sound.owned other entry hold)).1
      rw [labels, List.length_map] at hlt
      exact h.pending other entry task hold ((List.getElem?_append_left hlt).symm.trans htask) hfinished (by simp [hphase])

theorem Inv.datagram (h : s.Inv maxSources) (hphase : s.phase = .selecting) : (s.datagram maxSources source payload).Inv maxSources := by
  have hrunning : s.phase ≠ .stopped := by simp [hphase]
  rw [Forward.datagram]
  split
  · next hnew =>
    split
    · refine ⟨h.sound.receive s.phase source, inFlight_of_phase fun _ _ => ?_, h.pending.phase hrunning rfl rfl rfl⟩
      simp [hphase]
    · next hroom => exact h.startSource hphase hnew (not_le.mp hroom)
  · refine ⟨h.sound.receive _ source, h.sound.inFlight source rfl rfl fun other payload' hsending => ?_, h.pending.phase hrunning rfl rfl rfl⟩
    exact (LoopPhase.sending.inj hsending).1.symm

theorem Inv.retask (h : s.Inv maxSources) {task' : SourceTask K} (htask : s.tasks[id]? = some task) (hsource : task'.source = task.source)
    (hgeneration : task'.generation = task.generation) (hphase : task'.phase ≠ .finished) :
    ({ s with tasks := s.tasks.set id task' } : Forward K).Inv maxSources :=
  ⟨h.sound.congr rfl (labels_set htask hsource hgeneration) rfl rfl rfl rfl, h.flight,
    h.pending.mono (fun _ _ h => h) (fun _ _ => finished_of_set hphase) (List.Subset.refl _) fun h => h⟩

theorem Inv.trySend (h : s.Inv maxSources) (hphase : s.phase = .sending source payload) (hstep : s.trySend source payload = some t) :
    t.Inv maxSources := by
  have hrunning : s.phase ≠ .stopped := by simp [hphase]
  rw [Forward.trySend] at hstep
  split at hstep
  · obtain rfl := Option.some.inj hstep
    exact ⟨h.sound.congr rfl rfl rfl rfl rfl rfl, inFlight_of_phase fun _ _ h => (by cases h), h.pending.phase hrunning rfl rfl rfl⟩
  · next entry hlookup =>
    obtain ⟨task, htask, heq⟩ := Option.map_eq_some_iff.mp hstep
    split at heq
    · next hroom =>
      subst heq
      have hmoved : ({ s with tasks := s.tasks.set entry.sender { task with queue := task.queue ++ [(s.datagrams.length - 1, payload)] } } :
          Forward K).Inv maxSources := h.retask htask rfl rfl (by simp [hroom.1])
      exact ⟨hmoved.sound.enqueue hmoved.flight hphase hlookup _, inFlight_of_phase fun _ _ h => (by cases h), hmoved.pending.phase hrunning rfl rfl rfl⟩
    · subst heq
      exact ⟨h.sound.congr rfl rfl rfl rfl rfl rfl, inFlight_of_phase fun _ _ h => (by cases h), h.pending.phase hrunning rfl rfl rfl⟩

theorem Inv.check (h : s.Inv maxSources) (hphase : s.phase = .checking source) (hstep : s.check source = some t) : t.Inv maxSources := by
  have hrunning : s.phase ≠ .stopped := by simp [hphase]
  have hselecting : ({ s with phase := .selecting } : Forward K).Inv maxSources :=
    ⟨h.sound.congr rfl rfl rfl rfl rfl rfl, inFlight_of_phase fun _ _ h => (by cases h), h.pending.phase hrunning rfl rfl rfl⟩
  rw [Forward.check] at hstep
  split at hstep
  · exact Option.some.inj hstep ▸ hselecting
  · obtain ⟨task, htask, heq⟩ := Option.map_eq_some_iff.mp hstep
    split at heq
    · exact heq ▸ hselecting
    · subst heq
      exact ⟨hselecting.sound.erase source, inFlight_of_phase fun _ _ h => (by cases h),
        hselecting.pending.mono (fun _ _ hlookup => (lookup_erase_eq_some hlookup).2) (fun _ task htask hfinished => ⟨task, htask, hfinished⟩)
          (List.Subset.refl _) fun h => h⟩

/-- A completion takes out the entry that it names, and no other. -/
theorem lookup_complete {generation : Nat} {rest : List (K × Nat × Nat)} {other : K} :
    (s.complete source generation rest).sources.lookup other = some entry ↔
      s.sources.lookup other = some entry ∧ ¬(other = source ∧ entry.generation = generation) := by
  rw [Forward.complete]
  dsimp only
  split
  · next hmatch =>
    obtain ⟨old, hold, hgeneration⟩ := (Option.any_eq_true _ _).mp hmatch
    constructor
    · intro hlookup
      obtain ⟨hne, hlookup⟩ := lookup_erase_eq_some hlookup
      exact ⟨hlookup, fun h => hne h.1⟩
    · rintro ⟨hlookup, hne⟩
      have hother : other ≠ source := by
        rintro rfl
        rw [hold] at hlookup
        obtain rfl := Option.some.inj hlookup
        exact hne ⟨rfl, of_decide_eq_true hgeneration⟩
      rw [Finmap.lookup_erase_ne hother]
      exact hlookup
  · next hmiss =>
    refine ⟨fun hlookup => ⟨hlookup, ?_⟩, And.left⟩
    rintro ⟨rfl, hgeneration⟩
    exact hmiss ((Option.any_eq_true _ _).mpr ⟨entry, hlookup, decide_eq_true hgeneration⟩)

theorem Inv.complete {generation : Nat} {rest : List (K × Nat × Nat)} (h : s.Inv maxSources) (hphase : s.phase = .selecting)
    (hcompletions : s.completions = (source, generation, id) :: rest) : (s.complete source generation rest).Inv maxSources := by
  have hsound : (s.complete source generation rest).Sound maxSources := by
    refine ⟨?_, h.sound.nextGeneration_eq, h.sound.generation_eq, fun other entry hlookup => h.sound.owned other entry (lookup_complete.mp hlookup).1,
      fun other entry id generation hlookup => h.sound.newest other entry id generation (lookup_complete.mp hlookup).1,
      fun other generation id hmem => h.sound.announced other generation id (hcompletions ▸ List.mem_cons_of_mem _ hmem), h.sound.queued_nodup,
      h.sound.queued_source⟩
    rw [Forward.complete]
    dsimp only
    split
    · exact (len_erase_le _ _).trans h.sound.bounded
    · exact h.sound.bounded
  refine ⟨hsound, inFlight_of_phase fun _ _ => ?_, fun other entry task hlookup htask hfinished _ => ?_⟩
  · simp [Forward.complete, hphase]
  · obtain ⟨hlookup, hne⟩ := lookup_complete.mp hlookup
    have hmem := h.pending other entry task hlookup htask hfinished (by simp [hphase])
    rw [hcompletions] at hmem
    rcases List.mem_cons.mp hmem with heq | hmem
    · obtain ⟨hsource, htail⟩ := Prod.mk.inj heq
      exact absurd ⟨hsource, (Prod.mk.inj htail).1⟩ hne
    · exact hmem

theorem Inv.announce (h : s.Inv maxSources) (htask : s.tasks[id]? = some task) (hstep : s.announce maxSources id task = some t) :
    t.Inv maxSources := by
  have hlabels : ({ s with tasks := s.tasks.set id { task with phase := .finished } } : Forward K).labels = s.labels :=
    labels_set htask rfl rfl
  have hsound : ({ s with tasks := s.tasks.set id { task with phase := .finished } } : Forward K).Sound maxSources :=
    h.sound.congr rfl hlabels rfl rfl rfl rfl
  rw [Forward.announce] at hstep
  split at hstep
  · next hstopped =>
    obtain rfl := Option.some.inj hstep
    exact ⟨hsound, h.flight, fun _ _ _ _ _ _ hrunning => absurd hstopped hrunning⟩
  · next hrunning =>
    obtain ⟨-, hstep⟩ := Option.ite_none_right_eq_some.mp hstep
    obtain rfl := Option.some.inj hstep
    have hlabel : s.labels[id]? = some (task.source, task.generation) := by
      rw [labels, List.getElem?_map, htask]
      rfl
    refine ⟨⟨hsound.bounded, hsound.nextGeneration_eq, hsound.generation_eq, hsound.owned, hsound.newest, fun other generation id' hmem => ?_,
      hsound.queued_nodup, hsound.queued_source⟩, h.flight, fun other entry found hlookup hfound hfinished _ => ?_⟩
    · rcases List.mem_append.mp hmem with hmem | hmem
      · exact hsound.announced other generation id' hmem
      · obtain ⟨rfl, htail⟩ := Prod.mk.inj (List.mem_singleton.mp hmem)
        obtain ⟨rfl, rfl⟩ := Prod.mk.inj htail
        exact (congrArg (·[id']?) hlabels).trans hlabel
    · by_cases hid : entry.sender = id
      · have hown := h.sound.owned other entry hlookup
        rw [hid, hlabel] at hown
        obtain ⟨rfl, hgeneration⟩ := Prod.mk.inj (Option.some.inj hown)
        rw [hid, ← hgeneration]
        exact List.mem_append_right _ List.mem_cons_self
      · rw [List.getElem?_set_ne (Ne.symm hid)] at hfound
        exact List.mem_append_left _ (h.pending other entry found hlookup hfound hfinished hrunning)

theorem Inv.next (h : s.Inv maxSources) {event : Event K} (hstep : s.next maxSources event = some t) : t.Inv maxSources := by
  unfold Forward.next at hstep
  split at hstep
  · obtain ⟨hphase, hstep⟩ := Option.ite_none_right_eq_some.mp hstep
    exact Option.some.inj hstep ▸ h.datagram hphase
  · split at hstep
    · next hphase => exact h.trySend hphase hstep
    · cases hstep
  · split at hstep
    · next hphase => exact h.check hphase hstep
    · cases hstep
  · split at hstep
    · next hcompletions =>
      obtain ⟨⟨hphase, -⟩, hstep⟩ := Option.ite_none_right_eq_some.mp hstep
      exact Option.some.inj hstep ▸ h.complete hphase hcompletions
    · cases hstep
  · split at hstep
    · next task htask =>
      obtain ⟨⟨hphase, -⟩, hstep⟩ := Option.ite_none_right_eq_some.mp hstep
      exact Option.some.inj hstep ▸ h.retask htask rfl rfl (by simp [hphase])
    · cases hstep
  · split at hstep
    · next task htask => exact Option.some.inj (Option.ite_none_right_eq_some.mp hstep).2 ▸ h.retask htask rfl rfl (by simp)
    · cases hstep
  · split at hstep
    · next task htask => exact h.announce htask (Option.ite_none_right_eq_some.mp hstep).2
    · cases hstep
  · obtain ⟨hphase, hstep⟩ := Option.ite_none_right_eq_some.mp hstep
    obtain rfl := Option.some.inj hstep
    exact ⟨h.sound.congr rfl rfl rfl rfl rfl rfl, inFlight_of_phase fun _ _ h => (by cases h), fun _ _ _ _ _ _ h => absurd rfl h⟩

theorem inv_init (maxSources : Nat) : (init : Forward K).Inv maxSources :=
  ⟨sound_init maxSources, inFlight_of_phase fun _ _ h => (by cases h), fun _ _ _ h => by cases h⟩

theorem inv_run (h : Run (Step maxSources) init events s) : s.Inv maxSources :=
  h.invariant (P := Inv maxSources) (fun _ _ _ hs hstep => hs.next hstep) (inv_init maxSources)

/-- Entries and completions of one source have the same generation only when generations have come again in between. -/
theorem Sound.sender_eq {generation : Nat} (h : s.Sound maxSources) (hannounced : (source, generation, id) ∈ s.completions)
    (hlookup : s.sources.lookup source = some entry) (hgeneration : entry.generation = generation) :
    ∃ rounds, entry.sender = id + rounds * generations := by
  have hid := h.announced source generation id hannounced
  have hle := h.newest source entry id generation hlookup hid
  have hleft := h.generation_eq id source generation hid
  have hright := h.generation_eq entry.sender source entry.generation (h.owned source entry hlookup)
  refine ⟨(entry.sender - id) / generations, ?_⟩
  rw [generations] at hleft hright ⊢
  omega

/-- The table of sources is bounded. A completion takes out the entry of its own task, or else one that came a multiple of
all generations later. An entry whose task is over goes with the completion, which is still to come, or with a datagram
that cannot be queued; and a datagram is queued to one task at most, of its own source. -/
theorem sources_sound (maxSources : Nat) (events : List (Event K)) (s : Forward K) (h : Run (Step maxSources) init events s) :
    len s.sources ≤ maxSources ∧
      ((s.queued.map Prod.fst).Nodup ∧ ∀ n id, (n, id) ∈ s.queued →
        ∃ task, s.tasks[id]? = some task ∧ s.datagrams[n]? = some task.source) ∧
      (∀ source entry, s.sources.lookup source = some entry → ∃ task, s.tasks[entry.sender]? = some task ∧ task.source = source ∧
        (task.phase = .finished → s.phase ≠ .stopped → (source, entry.generation, entry.sender) ∈ s.completions)) ∧
      (∀ t source generation id rest, Step maxSources s .complete t → s.completions = (source, generation, id) :: rest →
        (∀ entry, t.sources.lookup source = some entry → entry.sender ≠ id) ∧
          ∀ other entry, s.sources.lookup other = some entry → t.sources.lookup other ≠ some entry →
            other = source ∧ ∃ rounds, entry.sender = id + rounds * generations) ∧
      (∀ t source payload entry task, Step maxSources s .trySend t → s.phase = .sending source payload → s.sources.lookup source = some entry →
        s.tasks[entry.sender]? = some task → task.phase ≠ .running → t = { s with phase := .checking source }) ∧
      ∀ t source entry task, Step maxSources s .check t → s.phase = .checking source → s.sources.lookup source = some entry →
        s.tasks[entry.sender]? = some task → task.phase ≠ .running → t.sources.lookup source = none := by
  have hinv := inv_run h
  refine ⟨hinv.sound.bounded, ⟨hinv.sound.queued_nodup, fun n id hmem => ?_⟩, fun source entry hlookup => ?_,
    fun t source generation id rest hstep hcompletions => ?_, fun t source payload entry task hstep hphase hlookup htask hover => ?_,
    fun t source entry task hstep hphase hlookup htask hover => ?_⟩
  · obtain ⟨source, generation, hdatagram, hlabel⟩ := hinv.sound.queued_source n id hmem
    obtain ⟨task, htask, rfl, -⟩ := task_of_label hlabel
    exact ⟨task, htask, hdatagram⟩
  · obtain ⟨task, htask, hsource, -⟩ := task_of_label (hinv.sound.owned source entry hlookup)
    exact ⟨task, htask, hsource, hinv.pending source entry task hlookup htask⟩
  · simp only [Step, Forward.next, hcompletions] at hstep
    obtain rfl := Option.some.inj (Option.ite_none_right_eq_some.mp hstep).2
    have hannounced : (source, generation, id) ∈ s.completions := hcompletions ▸ List.mem_cons_self
    refine ⟨fun entry hlookup hsender => ?_, fun other entry hlookup hgone => ?_⟩
    · obtain ⟨hlookup, hne⟩ := lookup_complete.mp hlookup
      have hown := hinv.sound.owned source entry hlookup
      rw [hsender, hinv.sound.announced source generation id hannounced] at hown
      exact hne ⟨rfl, (Prod.mk.inj (Option.some.inj hown)).2.symm⟩
    · rw [Ne, lookup_complete, not_and, not_not] at hgone
      obtain ⟨rfl, hgeneration⟩ := hgone hlookup
      exact ⟨rfl, hinv.sound.sender_eq hannounced hlookup hgeneration⟩
  · simp only [Step, Forward.next, hphase, Forward.trySend, hlookup, htask, Option.map_some] at hstep
    rw [if_neg fun hroom => hover hroom.1] at hstep
    exact (Option.some.inj hstep).symm
  · simp only [Step, Forward.next, hphase, Forward.check, hlookup, htask, Option.map_some] at hstep
    rw [if_neg hover] at hstep
    obtain rfl := Option.some.inj hstep
    exact Finmap.lookup_erase _ _

section Sample

/-- Nothing is under way but the completions of tasks that have ended. -/
def waiting (tasks : List (SourceTask Nat)) (datagrams : List Nat) (queued : List (Nat × Nat)) : Forward Nat :=
  ⟨∅, tasks, [], tasks.length % generations + 1, .selecting, datagrams, queued⟩

def restarted (tasks : List (SourceTask Nat)) (datagrams : List Nat) (queued : List (Nat × Nat)) : Forward Nat :=
  ⟨(∅ : Table Nat SourceEntry).insert 0 ⟨tasks.length % generations + 1, tasks.length⟩,
    tasks ++ [⟨0, tasks.length % generations + 1, [(datagrams.length, [])], .running⟩], [], (tasks.length + 1) % generations + 1, .selecting,
    datagrams ++ [0], queued ++ [(datagrams.length, tasks.length)]⟩

variable {tasks : List (SourceTask Nat)} {datagrams : List Nat} {queued : List (Nat × Nat)}

theorem restart : exec (next 1) (waiting tasks datagrams queued) [.datagram 0 [], .trySend] = some (restarted tasks datagrams queued) := by
  have hempty : len (∅ : Table Nat SourceEntry) = 0 := rfl
  simp [exec, next, datagram, startSource, trySend, waiting, restarted, hempty, Finmap.notMem_empty, nextOf_eq, UDP_SOURCE_QUEUE_CAPACITY]

theorem sources_sound_restart : ∃ s : Forward Nat, Run (Step 1) init [.datagram 0 [], .trySend] s ∧ s.queued = [(0, 0)] ∧
    len s.sources ≤ 1 := by
  have hrun : Run (Step 1) init [.datagram 0 [], .trySend] (restarted [] [] []) := run_of_exec (fun _ _ _ h => h) (@restart [] [] [])
  exact ⟨_, hrun, rfl, (sources_sound 1 _ _ hrun).1⟩

/-- The new task is over before the loop is told anything of the first. -/
theorem restart_over : exec (next 1) (restarted tasks datagrams queued) [.finish tasks.length, .announce tasks.length, .complete] =
    some (waiting (tasks ++ [⟨0, tasks.length % generations + 1, [], .finished⟩]) (datagrams ++ [0])
      (queued ++ [(datagrams.length, tasks.length)])) := by
  have herase : ((∅ : Table Nat SourceEntry).insert 0 ⟨tasks.length % generations + 1, tasks.length⟩).erase 0 = ∅ :=
    erase_insert.trans rfl
  have hne : (∅ : Table Nat SourceEntry).insert 0 ⟨tasks.length % generations + 1, tasks.length⟩ ≠ ∅ := fun h =>
    absurd (h ▸ Finmap.lookup_insert _ : (∅ : Table Nat SourceEntry).lookup 0 = some _) (by simp)
  simp [exec, next, announce, complete, waiting, restarted, herase, hne]

/-- The first task has ended, and any number of others have come and gone since. -/
theorem waiting_run (n : Nat) : ∃ (events : List (Event Nat)) (tasks : List (SourceTask Nat)) (datagrams : List Nat) (queued : List (Nat × Nat)),
    Run (Step 1) init events (waiting tasks datagrams queued) ∧ tasks.length = n + 1 ∧ tasks[0]? = some ⟨0, 1, [], .ended⟩ := by
  induction n with
  | zero =>
      have hempty : waiting [] [] [] = init := rfl
      have hfirst : exec (next 1) (restarted [] [] []) [.finish 0, .datagram 0 [], .trySend, .check] =
          some (waiting [⟨0, 1, [], .ended⟩] [0, 0] [(0, 0)]) := by
        have herase : ((∅ : Table Nat SourceEntry).insert 0 ⟨1, 0⟩).erase 0 = ∅ := erase_insert.trans rfl
        simp [exec, next, datagram, trySend, check, waiting, restarted, herase, generations]
      have hrestart := run_of_exec (fun _ _ _ h => h) (@restart [] [] [])
      exact ⟨_, _, _, _, (hempty ▸ hrestart).trans (run_of_exec (fun _ _ _ h => h) hfirst), rfl, rfl⟩
  | succ n ih =>
      obtain ⟨events, tasks, datagrams, queued, hrun, hlength, hfirst⟩ := ih
      have hrestart : Run (Step 1) _ _ _ := run_of_exec (fun _ _ _ h => h) (@restart tasks datagrams queued)
      have hover : Run (Step 1) _ _ _ := run_of_exec (fun _ _ _ h => h) (@restart_over tasks datagrams queued)
      refine ⟨_, _, _, _, (hrun.trans hrestart).trans hover, ?_, ?_⟩
      · rw [List.length_append, hlength]
        rfl
      · rw [List.getElem?_append_left (by omega), hfirst]

def announced (tasks : List (SourceTask Nat)) (datagrams : List Nat) (queued : List (Nat × Nat)) : Forward Nat :=
  { restarted tasks datagrams queued with
    tasks := (restarted tasks datagrams queued).tasks.set 0 ⟨0, 1, [], .finished⟩
    completions := [(0, 1, 0)] }

/-- Once all generations have been given out, the completion of the first task takes out the entry of the last. -/
theorem entry_lost : ¬∀ (events : List (Event Nat)) (s t : Forward Nat) source generation id rest entry,
    Run (Step 1) init events s → Step 1 s .complete t → s.completions = (source, generation, id) :: rest →
      s.sources.lookup source = some entry → t.sources.lookup source ≠ some entry → entry.sender = id := by
  intro h
  obtain ⟨events, tasks, datagrams, queued, hrun, hlength, hfirst⟩ := waiting_run (generations - 1)
  have hlength : tasks.length = generations := hlength
  have hpos : 0 < tasks.length := by rw [hlength]; decide
  have hgeneration : tasks.length % generations + 1 = 1 := by rw [hlength, Nat.mod_self]
  -- The first task announces itself to the loop that has given its generation out again.
  have hannounce : exec (next 1) (restarted tasks datagrams queued) [.announce 0] = some (announced tasks datagrams queued) := by
    have hended : (restarted tasks datagrams queued).tasks[0]? = some ⟨0, 1, [], .ended⟩ := (List.getElem?_append_left hpos).trans hfirst
    simp only [exec, next, hended]
    rfl
  have hlookup : (announced tasks datagrams queued).sources.lookup 0 = some ⟨1, tasks.length⟩ := by
    rw [announced, restarted, hgeneration]
    exact Finmap.lookup_insert _
  have hcomplete : Step 1 (announced tasks datagrams queued) .complete ((announced tasks datagrams queued).complete 0 1 []) := by
    have hne : (announced tasks datagrams queued).sources ≠ ∅ := fun hempty => by
      rw [hempty] at hlookup
      cases hlookup
    unfold Step next
    exact if_pos (show _ ∧ _ from ⟨rfl, hne⟩)
  have hrestart := hrun.trans (run_of_exec (fun _ _ _ h => h) (@restart tasks datagrams queued))
  have hsender := h _ _ _ 0 1 0 [] ⟨1, tasks.length⟩ (hrestart.trans (run_of_exec (fun _ _ _ h => h) hannounce)) hcomplete rfl hlookup
    fun hkept => (lookup_complete.mp hkept).2 ⟨rfl, rfl⟩
  exact absurd hsender hpos.ne'

end Sample

end Forward

end Rustgo.Forwards
