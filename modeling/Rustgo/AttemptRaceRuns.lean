import Rustgo.AttemptRace
import Mathlib.Data.List.Nodup
import Mathlib.Data.List.Count

namespace Rustgo.AttemptRace

open Path Runs

section Lists

variable {α β : Type} [DecidableEq α] [DecidableEq β]

theorem map_erase_of_nodup {f : α → β} {l : List α} {a : α} (h : (l.map f).Nodup) (ha : a ∈ l) :
    (l.erase a).map f = (l.map f).erase (f a) := by
  induction l with
  | nil => rfl
  | cons b l ih =>
      obtain ⟨hb, hl⟩ := List.nodup_cons.mp h
      rcases List.mem_cons.mp ha with rfl | ha'
      · simp
      · have hne : f b ≠ f a := fun heq => hb (heq ▸ List.mem_map_of_mem ha')
        have hba : b ≠ a := fun heq => hne (congrArg f heq)
        rw [List.erase_cons_tail (by simpa using hba), List.map_cons, List.map_cons,
          List.erase_cons_tail (by simpa using hne), ih hl ha']

/-- The first element with a key is the only one. -/
theorem find?_of_nodup {f : α → β} {l : List α} {a : α} (h : (l.map f).Nodup) (ha : a ∈ l) :
    l.find? (fun x => f x = f a) = some a := by
  induction l with
  | nil => cases ha
  | cons b l ih =>
      obtain ⟨hb, hl⟩ := List.nodup_cons.mp h
      rcases List.mem_cons.mp ha with rfl | ha'
      · simp
      · have hne : f b ≠ f a := fun heq => hb (heq ▸ List.mem_map_of_mem ha')
        rw [List.find?_cons_of_neg (by simpa using hne), ih hl ha']

end Lists

namespace Race

variable {config : PathManagerConfig} {attempts : List Attempt} {begun : Nat} {s t : Race}

section Spawn

variable (deadline : Nat) (s) (group : List Attempt)

@[simp] theorem spawnGroup_nil : s.spawnGroup deadline [] = s := rfl

@[simp] theorem spawnGroup_cons (attempt : Attempt) :
    s.spawnGroup deadline (attempt :: group) = (s.spawn deadline attempt).spawnGroup deadline group := rfl

/-- What no spawned attempt changes. -/
theorem spawnGroup_frame : (s.spawnGroup deadline group).relayGroup = s.relayGroup ∧
    (s.spawnGroup deadline group).relayStart = s.relayStart ∧
    (s.spawnGroup deadline group).relayStarted = s.relayStarted ∧
    (s.spawnGroup deadline group).directActive = s.directActive ∧
    (s.spawnGroup deadline group).relayActive = s.relayActive ∧
    (s.spawnGroup deadline group).phase = s.phase := by
  induction group generalizing s with
  | nil => exact ⟨rfl, rfl, rfl, rfl, rfl, rfl⟩
  | cons attempt group ih => exact ih (s.spawn deadline attempt)

theorem spawnGroup_kinds :
    (s.spawnGroup deadline group).running.map RunningAttempt.kind = s.running.map RunningAttempt.kind ++ group.map Attempt.kind := by
  induction group generalizing s with
  | nil => simp
  | cons attempt group ih => simp [ih, spawn]

theorem spawnGroup_attempts :
    (s.spawnGroup deadline group).started.map Started.attempt = s.started.map Started.attempt ++ group := by
  induction group generalizing s with
  | nil => simp
  | cons attempt group ih => simp [ih, spawn]

theorem spawnGroup_times (st : Started) (h : st ∈ (s.spawnGroup deadline group).started) :
    st ∈ s.started ∨ st.attempt ∈ group ∧ st.startedAt = s.now := by
  induction group generalizing s with
  | nil => exact .inl h
  | cons attempt group ih =>
      rcases ih (s.spawn deadline attempt) h with hold | ⟨hmem, hat⟩
      · rcases List.mem_append.mp hold with hold | hnew
        · exact .inl hold
        · obtain rfl := List.mem_singleton.mp hnew
          exact .inr ⟨List.mem_cons_self, rfl⟩
      · exact .inr ⟨List.mem_cons_of_mem _ hmem, hat⟩

end Spawn

namespace Booked

theorem getElem?_lt (h : s.Booked) {i : Nat} {st : Started} (hst : s.started[i]? = some st) : i < s.nextId :=
  h.count ▸ (List.getElem?_eq_some_iff.mp hst).1

/-- A token belongs to one attempt. -/
theorem index_eq (h : s.Booked) {i j : Nat} {st other : Started} (hst : s.started[i]? = some st)
    (hother : s.started[j]? = some other) (htoken : st.cancellation = other.cancellation) : i = j := by
  have heq : (s.started.map Started.cancellation)[i]? = (s.started.map Started.cancellation)[j]? := by
    rw [List.getElem?_map, List.getElem?_map, hst, hother]
    exact congrArg some htoken
  refine (List.getElem?_inj ?_ h.tokens).mp heq
  rw [List.length_map, h.count]
  exact h.getElem?_lt hst

theorem id_lt (h : s.Booked) {entry : RunningAttempt} (hentry : entry ∈ s.running) : entry.id < s.nextId := by
  obtain ⟨st, hst, -, -⟩ := h.known entry hentry
  exact h.getElem?_lt hst

theorem cancellation_lt (h : s.Booked) {entry : RunningAttempt} (hentry : entry ∈ s.running) :
    entry.cancellation < s.nextToken := by
  obtain ⟨st, hst, -, htoken⟩ := h.known entry hentry
  exact htoken ▸ h.tokens_lt st (List.mem_of_getElem? hst)

theorem eq_of_cancellation (h : s.Booked) {entry other : RunningAttempt} (hentry : entry ∈ s.running)
    (hother : other ∈ s.running) (htoken : entry.cancellation = other.cancellation) : entry = other := by
  obtain ⟨st, hst, -, hst'⟩ := h.known entry hentry
  obtain ⟨st₂, hst₂, -, hst₂'⟩ := h.known other hother
  exact List.inj_on_of_nodup_map h.ids hentry hother (h.index_eq hst hst₂ (hst'.trans (htoken.trans hst₂'.symm)))

theorem spawn (h : s.Booked) (hloop : s.isLooping = true) (deadline : Nat) (attempt : Attempt) :
    (s.spawn deadline attempt).Booked where
  entries task htask := by
    rcases List.mem_append.mp htask with hold | hnew
    · exact List.mem_append_left _ (h.entries task hold)
    · obtain rfl := List.mem_singleton.mp hnew
      exact List.mem_append_right _ List.mem_cons_self
  ids := by
    rw [Race.spawn, List.map_append]
    refine h.ids.append (List.nodup_singleton _) ?_
    intro i hi hnew
    obtain ⟨entry, hentry, rfl⟩ := List.mem_map.mp hi
    exact Nat.ne_of_lt (h.id_lt hentry) (by simpa using hnew)
  taskIds := by
    rw [Race.spawn, List.map_append]
    refine h.taskIds.append (List.nodup_singleton _) ?_
    intro i hi hnew
    obtain ⟨entry, hentry, rfl⟩ := List.mem_map.mp hi
    exact Nat.ne_of_lt (h.taskIds_lt entry hentry) (by simpa using hnew)
  taskIds_lt entry hentry := by
    rcases List.mem_append.mp hentry with hold | hnew
    · exact Nat.lt_succ_of_lt (h.taskIds_lt entry hold)
    · obtain rfl := List.mem_singleton.mp hnew
      exact Nat.lt_succ_self _
  known entry hentry := by
    rcases List.mem_append.mp hentry with hold | hnew
    · obtain ⟨st, hst, hkind, htoken⟩ := h.known entry hold
      refine ⟨st, ?_, hkind, htoken⟩
      rw [Race.spawn, List.getElem?_append_left (h.count ▸ h.getElem?_lt hst), hst]
    · obtain rfl := List.mem_singleton.mp hnew
      refine ⟨⟨attempt, s.nextToken, s.now⟩, ?_, rfl, rfl⟩
      rw [Race.spawn, ← h.count, List.getElem?_concat_length]
  count := by simp [Race.spawn, h.count]
  tokens := by
    rw [Race.spawn, List.map_append]
    refine h.tokens.append (List.nodup_singleton _) ?_
    intro token htoken hnew
    obtain ⟨st, hst, rfl⟩ := List.mem_map.mp htoken
    exact Nat.ne_of_lt (h.tokens_lt st hst) (by simpa using hnew)
  tokens_lt st hst := by
    rcases List.mem_append.mp hst with hold | hnew
    · exact Nat.lt_succ_of_lt (h.tokens_lt st hold)
    · obtain rfl := List.mem_singleton.mp hnew
      exact Nat.lt_succ_self _
  cancelled_lt token htoken := Nat.lt_succ_of_lt (h.cancelled_lt token htoken)
  listed _ := by simp [Race.spawn, h.listed hloop]
  fresh _ task htask hopen := by
    rcases List.mem_append.mp htask with hold | hnew
    · exact h.fresh hloop task hold hopen
    · obtain rfl := List.mem_singleton.mp hnew
      exact fun hin => Nat.lt_irrefl _ (h.cancelled_lt _ hin)

end Booked

theorem Resolved.spawn (h : s.Resolved) (hb : s.Booked) (hnone : s.result? = none) (hclean : s.isClean = false)
    (deadline : Nat) (attempt : Attempt) : (s.spawn deadline attempt).Resolved where
  each i hi := by
    rcases Nat.lt_succ_iff_lt_or_eq.mp hi with hold | rfl
    · rcases h.each i hold with hrun | ⟨st, outcome, hst, hjoined, hfails, htoken⟩ | ⟨winner, hwinner, -⟩
      · rw [Race.spawn, List.map_append]
        exact .inl (List.mem_append_left _ hrun)
      · refine .inr (.inl ⟨st, outcome, ?_, hjoined, hfails, htoken⟩)
        rw [Race.spawn, List.getElem?_append_left (hb.count ▸ hb.getElem?_lt hst), hst]
      · rw [hnone] at hwinner
        cases hwinner
    · exact .inl (by simp [Race.spawn])
  won winner hwinner := by
    rw [show (s.spawn deadline attempt).result? = s.result? from rfl, hnone] at hwinner
    cases hwinner
  cleaned hc := by
    rw [show (s.spawn deadline attempt).isClean = s.isClean from rfl, hclean] at hc
    cases hc
  exhausted hr := by
    rw [show (s.spawn deadline attempt).result? = s.result? from rfl, hnone] at hr
    cases hr

theorem result?_of_isLooping (h : s.isLooping = true) : s.result? = none := by
  unfold isLooping at h
  unfold result?
  split at h <;> simp_all

theorem isClean_of_isLooping (h : s.isLooping = true) : s.isClean = false := by
  unfold isLooping at h
  unfold isClean
  split at h <;> simp_all

/-- A group is started attempt by attempt. -/
theorem spawnGroup_sound (hb : s.Booked) (hr : s.Resolved) (hloop : s.isLooping = true) (deadline : Nat) (group : List Attempt) :
    (s.spawnGroup deadline group).Booked ∧ (s.spawnGroup deadline group).Resolved := by
  induction group generalizing s with
  | nil => exact ⟨hb, hr⟩
  | cons attempt group ih =>
      have hr' := hr.spawn hb (result?_of_isLooping hloop) (isClean_of_isLooping hloop) deadline attempt
      exact ih (s := s.spawn deadline attempt) (hb.spawn hloop deadline attempt) hr' hloop

theorem countP_kinds {group : List Attempt} {p : PathKind → Bool} (h : ∀ attempt ∈ group, p attempt.kind = true) :
    (group.map Attempt.kind).countP p = group.length := by
  rw [← List.length_map Attempt.kind, List.countP_eq_length]
  simpa using h

theorem countP_kinds_eq_zero {group : List Attempt} {p : PathKind → Bool} (h : ∀ attempt ∈ group, p attempt.kind = false) :
    (group.map Attempt.kind).countP p = 0 := by
  simpa [List.countP_eq_zero] using h

/-- The counters are counters of kinds. -/
theorem counted_iff : s.Counted ↔ s.directActive = (s.running.map RunningAttempt.kind).countP (fun kind => kind ≠ .relay) ∧
    s.relayActive = (s.running.map RunningAttempt.kind).countP (fun kind => kind = .relay) := by
  rw [List.countP_map, List.countP_map]
  exact ⟨fun h => ⟨h.direct, h.relay⟩, fun h => ⟨h.1, h.2⟩⟩

theorem Won.ne_running {winner : RaceWinner} {i : Nat} (hwon : s.Won winner i) (hb : s.Booked) {entry : RunningAttempt}
    (hentry : entry ∈ s.running) : winner.cancellation ≠ entry.cancellation := by
  obtain ⟨st, hst, -, -, htoken, hout⟩ := hwon
  obtain ⟨other, hother, -, hother'⟩ := hb.known entry hentry
  intro heq
  obtain rfl := hb.index_eq hst hother (htoken.symm.trans (heq.trans hother'.symm))
  exact hout (List.mem_map_of_mem hentry)

theorem Booked.cancel (h : s.Booked) (tokens : List Token) (hlt : ∀ token ∈ tokens, token < s.nextToken)
    (hfresh : s.isLooping = true → ∀ task ∈ s.tasks, (∀ error, task.outcome ≠ some (.result (.error error))) →
      task.entry.cancellation ∉ tokens) : Booked { s with cancelled := s.cancelled ++ tokens } :=
  { h with
    cancelled_lt := fun token htoken => (List.mem_append.mp htoken).elim (h.cancelled_lt token) (hlt token)
    fresh := fun hloop task htask hopen htoken =>
      (List.mem_append.mp htoken).elim (h.fresh hloop task htask hopen) (hfresh hloop task htask hopen) }

theorem Resolved.cancel (h : s.Resolved) (tokens : List Token)
    (hwin : ∀ winner, s.result? = some (.ok winner) → winner.cancellation ∉ tokens) :
    Resolved { s with cancelled := s.cancelled ++ tokens } where
  each i hi := by
    rcases h.each i hi with hrun | ⟨st, outcome, hst, hjoined, hfails, htoken⟩ | hwon
    · exact .inl hrun
    · exact .inr (.inl ⟨st, outcome, hst, hjoined, hfails, List.mem_append_left _ htoken⟩)
    · exact .inr (.inr hwon)
  won winner hwinner := by
    obtain ⟨hout, hwon⟩ := h.won winner hwinner
    exact ⟨fun htoken => (List.mem_append.mp htoken).elim hout (hwin winner hwinner), hwon⟩
  cleaned hclean entry hentry := List.mem_append_left _ (h.cleaned hclean entry hentry)
  exhausted := h.exhausted

section Settle

variable {taskId : Nat} {outcome : Outcome}

theorem settle_entries (s : Race) (taskId : Nat) (outcome : Outcome) :
    (s.settle taskId outcome).tasks.map AttemptTask.entry = s.tasks.map AttemptTask.entry := by
  rw [settle, List.map_map]
  refine List.map_congr_left fun task _ => ?_
  simp only [Function.comp_apply]
  split <;> rfl

theorem mem_settle {task : AttemptTask} (h : task ∈ (s.settle taskId outcome).tasks) :
    task ∈ s.tasks ∧ (task.entry.taskId = taskId → task.outcome ≠ none) ∨
      ∃ before ∈ s.tasks, before.entry = task.entry ∧ before.entry.taskId = taskId ∧ before.outcome = none ∧
        task.outcome = some outcome := by
  obtain ⟨before, hbefore, rfl⟩ := List.mem_map.mp h
  by_cases hc : before.entry.taskId = taskId ∧ before.outcome = none
  · rw [if_pos hc]
    exact .inr ⟨before, hbefore, rfl, hc.1, hc.2, rfl⟩
  · rw [if_neg hc]
    exact .inl ⟨hbefore, fun hid hnone => hc ⟨hid, hnone⟩⟩

theorem Booked.settle (h : s.Booked) (taskId : Nat) (outcome : Outcome) : (s.settle taskId outcome).Booked :=
  { h with
    entries := fun task htask => by
      have hmem : task.entry ∈ s.tasks.map AttemptTask.entry := settle_entries s taskId outcome ▸ List.mem_map_of_mem htask
      obtain ⟨before, hbefore, hentry⟩ := List.mem_map.mp hmem
      exact hentry ▸ h.entries before hbefore
    listed := fun hloop => (h.listed hloop).trans (settle_entries s taskId outcome).symm
    fresh := fun hloop task htask hopen => by
      rcases mem_settle htask with ⟨hmem, -⟩ | ⟨before, hbefore, hentry, -, hnone, -⟩
      · exact h.fresh hloop task hmem hopen
      · exact hentry ▸ h.fresh hloop before hbefore fun error => by simp [hnone] }

theorem Resolved.settle (h : s.Resolved) (taskId : Nat) (outcome : Outcome) : (s.settle taskId outcome).Resolved :=
  { h with }

theorem Counted.settle (h : s.Counted) (taskId : Nat) (outcome : Outcome) : (s.settle taskId outcome).Counted :=
  { h with }

end Settle

theorem Booked.task_eq (h : s.Booked) (hloop : s.isLooping = true) {task other : AttemptTask} (htask : task ∈ s.tasks)
    (hother : other ∈ s.tasks) (hid : task.entry.taskId = other.entry.taskId) : task = other := by
  have hids := h.taskIds
  rw [h.listed hloop, List.map_map] at hids
  exact List.inj_on_of_nodup_map hids htask hother hid

/-- A task whose deadline is over cancels its token before it ends. -/
theorem Booked.expire (h : s.Booked) {task : AttemptTask} (htask : task ∈ s.tasks)
    (hnone : task.outcome = none) (error : PathError) :
    Booked { s.settle task.entry.taskId (.result (.error error)) with cancelled := s.cancelled ++ [task.entry.cancellation] } := by
  refine (h.settle task.entry.taskId (.result (.error error))).cancel [task.entry.cancellation] ?_ ?_
  · intro token htoken
    obtain rfl := List.mem_singleton.mp htoken
    exact h.cancellation_lt (h.entries task htask)
  · intro hloop other hother hopen htoken
    rcases mem_settle hother with ⟨hmem, hdone⟩ | ⟨before, -, -, -, -, hfailed⟩
    · have hentry : other.entry = task.entry :=
        h.eq_of_cancellation (h.entries other hmem) (h.entries task htask) (List.mem_singleton.mp htoken)
      obtain rfl := h.task_eq hloop hmem htask (congrArg RunningAttempt.taskId hentry)
      exact hdone rfl hnone
    · exact hopen error hfailed

theorem Resolved.expire (h : s.Resolved) (hb : s.Booked) {task : AttemptTask} (htask : task ∈ s.tasks) (error : PathError) :
    Resolved { s.settle task.entry.taskId (.result (.error error)) with cancelled := s.cancelled ++ [task.entry.cancellation] } := by
  refine (h.settle task.entry.taskId (.result (.error error))).cancel [task.entry.cancellation] ?_
  intro winner hwinner htoken
  obtain ⟨-, i, hwon⟩ := h.won winner hwinner
  exact hwon.ne_running hb (hb.entries task htask) (List.mem_singleton.mp htoken)

section Leave

variable {task : AttemptTask} {outcome : Outcome}

/-- The race without a task that ended and its running attempt. -/
def leave (s : Race) (task : AttemptTask) (outcome : Outcome) : Race :=
  { s with
    tasks := s.tasks.erase task
    joined := s.joined ++ [(task.entry.id, outcome)]
    running := s.running.erase task.entry
    directActive := if task.entry.kind = .relay then s.directActive else s.directActive - 1
    relayActive := if task.entry.kind = .relay then s.relayActive - 1 else s.relayActive }

theorem decrementActive_eq (s : Race) (kind : PathKind) : s.decrementActive kind =
    { s with
      directActive := if kind = .relay then s.directActive else s.directActive - 1
      relayActive := if kind = .relay then s.relayActive - 1 else s.relayActive } := by
  rw [decrementActive]
  split <;> rfl

/-- A task that ended is the task of a running attempt. -/
theorem take_of_fails (hb : s.Booked) (htask : task ∈ s.tasks) (hfails : Fails task.entry.kind outcome) :
    s.take task outcome = (s.leave task outcome).fail task.entry := by
  have hentry := hb.entries task htask
  cases outcome with
  | panicked =>
      have hfind : s.running.find? (fun entry => entry.taskId = task.entry.taskId) = some task.entry :=
        find?_of_nodup hb.taskIds hentry
      simp only [take, hfind, decrementActive_eq, leave]
  | result result =>
      have hfind : s.running.find? (fun entry => entry.id = task.entry.id) = some task.entry :=
        find?_of_nodup hb.ids hentry
      cases result with
      | error error => simp only [take, hfind, decrementActive_eq, leave]
      | ok path =>
          have hkind : ¬ path.kind = task.entry.kind := hfails
          simp only [take, hfind, decrementActive_eq, leave, if_neg hkind]

theorem take_of_ok {path : SelectedPath} (hb : s.Booked) (htask : task ∈ s.tasks) (hkind : path.kind = task.entry.kind) :
    s.take task (.result (.ok path)) =
      { s.leave task (.result (.ok path)) with phase := .cleaning (.ok ⟨path, task.entry.cancellation⟩) } := by
  have hfind : s.running.find? (fun entry => entry.id = task.entry.id) = some task.entry :=
    find?_of_nodup hb.ids (hb.entries task htask)
  simp only [take, hfind, decrementActive_eq, leave, if_pos hkind]

theorem Booked.leave (h : s.Booked) (hloop : s.isLooping = true) (htask : task ∈ s.tasks) (outcome : Outcome) :
    (s.leave task outcome).Booked :=
  have hsub : ∀ entry ∈ s.running.erase task.entry, entry ∈ s.running := fun _ => List.mem_of_mem_erase
  have hlisted : s.running.erase task.entry = (s.tasks.erase task).map AttemptTask.entry := by
    have hids : ((s.tasks.map AttemptTask.entry).map RunningAttempt.id).Nodup := h.listed hloop ▸ h.ids
    rw [map_erase_of_nodup (List.Nodup.of_map _ hids) htask, h.listed hloop]
  { h with
    entries := fun other hother => by
      rw [Race.leave, hlisted]
      exact List.mem_map_of_mem hother
    ids := h.ids.sublist (List.erase_sublist.map _)
    taskIds := h.taskIds.sublist (List.erase_sublist.map _)
    taskIds_lt := fun entry hentry => h.taskIds_lt entry (hsub entry hentry)
    known := fun entry hentry => h.known entry (hsub entry hentry)
    listed := fun _ => hlisted
    fresh := fun _ other hother => h.fresh hloop other (List.mem_of_mem_erase hother) }

theorem Counted.leave (h : s.Counted) (hentry : task.entry ∈ s.running) (outcome : Outcome) :
    (s.leave task outcome).Counted := by
  constructor
  · rw [Race.leave, List.countP_erase, h.direct]
    by_cases hkind : task.entry.kind = .relay <;> simp [hkind, hentry]
  · rw [Race.leave, List.countP_erase, h.relay]
    by_cases hkind : task.entry.kind = .relay <;> simp [hkind, hentry]

/-- The attempts that were running before are still running, but for one. -/
theorem Resolved.leave_each (h : s.Resolved) (hb : s.Booked) (hloop : s.isLooping = true) (htask : task ∈ s.tasks)
    (outcome : Outcome) {i : Nat} (hi : i < s.nextId) (hne : i ≠ task.entry.id) :
    i ∈ (s.leave task outcome).running.map RunningAttempt.id ∨ (s.leave task outcome).Spent i := by
  rcases h.each i hi with hrun | ⟨st, before, hst, hjoined, hfails, htoken⟩ | ⟨winner, hwinner, -⟩
  · obtain ⟨entry, hentry, rfl⟩ := List.mem_map.mp hrun
    have hentry' : entry ≠ task.entry := fun heq => hne (congrArg RunningAttempt.id heq)
    exact .inl (List.mem_map_of_mem ((List.mem_erase_of_ne hentry').mpr hentry))
  · exact .inr ⟨st, before, hst, List.mem_append_left _ hjoined, hfails, htoken⟩
  · rw [result?_of_isLooping hloop] at hwinner
    cases hwinner

theorem not_mem_leave (hb : s.Booked) (hentry : task.entry ∈ s.running) (outcome : Outcome) :
    task.entry.id ∉ (s.leave task outcome).running.map RunningAttempt.id := by
  rw [leave, map_erase_of_nodup hb.ids hentry]
  exact hb.ids.not_mem_erase

theorem Booked.fail (h : s.Booked) (hloop : s.isLooping = true) (htask : task ∈ s.tasks) (outcome : Outcome) :
    ((s.leave task outcome).fail task.entry).Booked := by
  have hb := h.leave hloop htask outcome
  have hc := hb.cancel [task.entry.cancellation]
    (fun token htoken => List.mem_singleton.mp htoken ▸ h.cancellation_lt (h.entries task htask))
    (fun _ other hother _ htoken => by
      have hmem := hb.entries other hother
      have heq : other.entry = task.entry :=
        h.eq_of_cancellation (List.mem_of_mem_erase hmem) (h.entries task htask) (List.mem_singleton.mp htoken)
      exact not_mem_leave h (h.entries task htask) outcome (List.mem_map.mpr ⟨_, hmem, congrArg RunningAttempt.id heq⟩))
  exact { hc with listed := fun _ => hc.listed hloop, fresh := fun _ => hc.fresh hloop }

theorem Resolved.fail (h : s.Resolved) (hb : s.Booked) (hloop : s.isLooping = true) (htask : task ∈ s.tasks)
    (hfails : Fails task.entry.kind outcome) : ((s.leave task outcome).fail task.entry).Resolved where
  each i hi := by
    by_cases hid : i = task.entry.id
    · obtain ⟨st, hst, hkind, htoken⟩ := hb.known task.entry (hb.entries task htask)
      refine .inr (.inl ⟨st, outcome, hid ▸ hst, ?_, hkind ▸ hfails, ?_⟩)
      · exact List.mem_append_right _ (List.mem_singleton.mpr (by rw [hid]))
      · exact List.mem_append_right _ (List.mem_singleton.mpr htoken)
    · rcases h.leave_each hb hloop htask outcome hi hid with hrun | ⟨st, before, hst, hjoined, hbefore, htoken⟩
      · exact .inl hrun
      · exact .inr (.inl ⟨st, before, hst, hjoined, hbefore, List.mem_append_left _ htoken⟩)
  won winner hwinner := by cases hwinner
  cleaned hclean := by cases hclean
  exhausted hr := by cases hr

theorem Resolved.win (h : s.Resolved) (hb : s.Booked) (hloop : s.isLooping = true) (htask : task ∈ s.tasks)
    {path : SelectedPath} (hkind : path.kind = task.entry.kind) (houtcome : task.outcome = some (.result (.ok path))) :
    Resolved { s.leave task (.result (.ok path)) with phase := .cleaning (.ok ⟨path, task.entry.cancellation⟩) } := by
  obtain ⟨st, hst, hst', htoken⟩ := hb.known task.entry (hb.entries task htask)
  have hwon : Won { s.leave task (.result (.ok path)) with phase := .cleaning (.ok ⟨path, task.entry.cancellation⟩) }
      ⟨path, task.entry.cancellation⟩ task.entry.id := by
    refine ⟨st, hst, ?_, hkind.trans hst'.symm, htoken.symm, not_mem_leave hb (hb.entries task htask) (.result (.ok path))⟩
    exact List.mem_append_right _ (List.mem_singleton.mpr rfl)
  constructor
  · intro i hi
    by_cases hid : i = task.entry.id
    · exact .inr (.inr ⟨_, rfl, hid ▸ hwon⟩)
    · exact (h.leave_each hb hloop htask _ hi hid).imp_right .inl
  · intro winner hwinner
    obtain rfl : (⟨path, task.entry.cancellation⟩ : RaceWinner) = winner := by
      simpa [result?] using hwinner
    exact ⟨hb.fresh hloop task htask fun error => by simp [houtcome], _, hwon⟩
  · intro hclean
    cases hclean
  · intro hr
    cases hr

end Leave

theorem kind_of_directGroups {attempt : Attempt} (h : attempt ∈ directGroups attempts) : attempt.kind ≠ .relay := by
  simp only [directGroups, groupOf, List.mem_append, List.mem_filter, decide_eq_true_eq] at h
  rcases h with (⟨-, hk⟩ | ⟨-, hk⟩) | ⟨-, hk⟩ <;> simp [hk]

/-- The attempts that were started are not relay attempts before the relay group is. -/
theorem Ordered.direct_only (h : s.Ordered config attempts begun) (hb : s.Booked) (hrelay : s.relayStarted = false) :
    (s.running.map RunningAttempt.kind).countP (fun kind => kind = .relay) = 0 := by
  rw [List.countP_eq_zero]
  intro kind hkind
  obtain ⟨entry, hentry, rfl⟩ := List.mem_map.mp hkind
  obtain ⟨st, hst, hkind', -⟩ := hb.known entry hentry
  have hmem : st.attempt ∈ s.started.map Started.attempt := List.mem_map_of_mem (List.mem_of_getElem? hst)
  rw [h.lists, hrelay, if_neg Bool.false_ne_true, List.append_nil] at hmem
  simpa [← hkind'] using kind_of_directGroups hmem

theorem isLooping_congr (h : t.phase = s.phase) : t.isLooping = s.isLooping := by
  unfold isLooping
  rw [h]

/-- A race in its loop may go to a phase that has no winner. -/
theorem Sound.move (h : s.Sound config attempts begun) (hloop : s.isLooping = true) {phase : Phase}
    (hwin : ∀ winner, result? { s with phase } ≠ some (.ok winner)) (hclean : isClean { s with phase } = false)
    (hend : result? { s with phase } = some (.error .noViablePath) → s.relayStarted = true ∧ s.running = []) :
    Sound config attempts begun { s with phase } := by
  refine ⟨{ h.booked with listed := fun _ => h.booked.listed hloop, fresh := fun _ => h.booked.fresh hloop }, ?_,
    { h.counted with }, { h.ordered with }⟩
  constructor
  · intro i hi
    rcases h.resolved.each i hi with hrun | hspent | ⟨winner, hwinner, -⟩
    · exact .inl hrun
    · exact .inr (.inl hspent)
    · exact absurd ((result?_of_isLooping hloop).symm.trans hwinner) (by simp)
  · exact fun winner hwinner => absurd hwinner (hwin winner)
  · exact fun hc => absurd (hclean.symm.trans hc) Bool.false_ne_true
  · exact hend

namespace Sound

variable (h : s.Sound config attempts begun)
include h

theorem startRelays (hloop : s.isLooping = true) : (s.startRelays config).Sound config attempts begun := by
  rw [Race.startRelays]
  split
  case isFalse => exact h
  case isTrue hc =>
      obtain ⟨hrelay, htime⟩ := hc
      obtain ⟨hgroup, hstart, hstarted, hdirect, hactive, -⟩ :=
        spawnGroup_frame { s with relayStarted := true, relayActive := s.relayGroup.length } (s.now + config.attemptTimeout)
          s.relayGroup
      have hb : Booked { s with relayStarted := true, relayActive := s.relayGroup.length } := { h.booked with }
      have hno := result?_of_isLooping hloop
      have hr : Resolved { s with relayStarted := true, relayActive := s.relayGroup.length } :=
        { h.resolved with exhausted := fun hend => absurd (hno.symm.trans hend) (by simp) }
      obtain ⟨hbooked, hresolved⟩ := spawnGroup_sound hb hr hloop (s.now + config.attemptTimeout) s.relayGroup
      have hkinds : ∀ attempt ∈ s.relayGroup, attempt.kind = .relay := by
        rw [h.ordered.relayGroup]
        intro attempt hattempt
        simpa using (List.mem_filter.mp hattempt).2
      obtain ⟨hdirects, -⟩ := counted_iff.mp h.counted
      refine ⟨hbooked, hresolved, counted_iff.mpr ⟨?_, ?_⟩, hgroup.trans h.ordered.relayGroup,
        hstart.trans h.ordered.relayStart, ?_, ?_⟩
      · rw [hdirect, spawnGroup_kinds, List.countP_append, countP_kinds_eq_zero (by simpa using hkinds)]
        exact hdirects
      · rw [hactive, spawnGroup_kinds, List.countP_append, countP_kinds (by simpa using hkinds),
          h.ordered.direct_only h.booked hrelay, Nat.zero_add]
      · rw [spawnGroup_attempts, hstarted, h.ordered.lists, hrelay, h.ordered.relayGroup]
        simp
      · intro st hst hkind
        rw [hstart]
        rcases spawnGroup_times _ _ _ st hst with hold | ⟨-, hat⟩
        · exact h.ordered.times st hold hkind
        · exact hat ▸ htime

theorem round (hloop : s.isLooping = true) : (s.round config).Sound config attempts begun := by
  have hnext := h.startRelays hloop
  have hloop' : (s.startRelays config).isLooping = true := by
    rw [Race.startRelays]
    split
    · exact (isLooping_congr (spawnGroup_frame _ _ _).2.2.2.2.2).trans hloop
    · exact hloop
  by_cases hend : (s.startRelays config).exhausted = true
  · rw [show s.round config = { s.startRelays config with phase := .cleaning (.error .noViablePath) } by
      simp only [Race.round, hend, if_true]]
    simp only [exhausted, decide_eq_true_eq] at hend
    obtain ⟨hdirect, hstarted, hrelay⟩ := hend
    rw [hnext.counted.direct, List.countP_eq_zero] at hdirect
    rw [hnext.counted.relay, List.countP_eq_zero] at hrelay
    have hnil : (s.startRelays config).running = [] := by
      refine List.eq_nil_iff_forall_not_mem.mpr fun entry hentry => ?_
      have hd := hdirect entry hentry
      have hr := hrelay entry hentry
      simp_all
    exact hnext.move hloop' (fun winner hwinner => by cases hwinner) rfl fun _ => ⟨hstarted, hnil⟩
  · rw [show s.round config = { s.startRelays config with phase := .selecting } by
      simp only [Race.round, hend, Bool.false_eq_true, if_false]]
    exact hnext.move hloop' (fun winner hwinner => by cases hwinner) rfl fun hr => by cases hr

end Sound

theorem sound_start (config : PathManagerConfig) (attempts : List Attempt) (begun firstTask : Nat) (firstToken : Token) :
    (start config attempts begun firstTask firstToken).Sound config attempts begun := by
  rw [start]
  have hb : (prepare config attempts begun firstTask firstToken).Booked := by
    constructor <;> simp [prepare]
  have hr : (prepare config attempts begun firstTask firstToken).Resolved := by
    constructor <;> simp [prepare, result?, isClean]
  obtain ⟨hbooked, hresolved⟩ := spawnGroup_sound hb hr rfl
    (min (begun + config.directTimeout) (begun + config.attemptTimeout)) (directGroups attempts)
  obtain ⟨hgroup, hstart, hstarted, hdirect, hactive, -⟩ :=
    spawnGroup_frame (prepare config attempts begun firstTask firstToken)
      (min (begun + config.directTimeout) (begun + config.attemptTimeout)) (directGroups attempts)
  have hkinds : ∀ attempt ∈ directGroups attempts, attempt.kind ≠ .relay := fun _ => kind_of_directGroups
  refine ⟨hbooked, hresolved, counted_iff.mpr ⟨?_, ?_⟩, hgroup, hstart.trans ?_, ?_, ?_⟩
  · rw [hdirect, spawnGroup_kinds, List.countP_append, countP_kinds (by simpa using hkinds)]
    simp [prepare]
  · rw [hactive, spawnGroup_kinds, List.countP_append, countP_kinds_eq_zero (by simpa using hkinds)]
    simp [prepare]
  · simp [prepare]
  · rw [spawnGroup_attempts, hstarted]
    simp [prepare]
  · intro st hst hkind
    rcases spawnGroup_times _ _ _ st hst with hold | ⟨hmem, -⟩
    · cases hold
    · exact absurd hkind (hkinds _ hmem)

theorem Sound.take (h : s.Sound config attempts begun) (hloop : s.isLooping = true) {task : AttemptTask} {outcome : Outcome}
    (htask : task ∈ s.tasks) (houtcome : task.outcome = some outcome) : (s.take task outcome).Sound config attempts begun := by
  have hentry := h.booked.entries task htask
  by_cases hfails : Fails task.entry.kind outcome
  · rw [take_of_fails h.booked htask hfails]
    exact ⟨h.booked.fail hloop htask outcome, h.resolved.fail h.booked hloop htask hfails,
      { h.counted.leave hentry outcome with }, { h.ordered with }⟩
  · cases outcome with
    | panicked => exact absurd trivial hfails
    | result result =>
      cases result with
      | error error => exact absurd trivial hfails
      | ok path =>
        have hkind : path.kind = task.entry.kind := not_not.mp hfails
        rw [take_of_ok h.booked htask hkind]
        have hb := h.booked.leave hloop htask (.result (.ok path))
        exact ⟨{ hb with listed := fun _ => hb.listed hloop, fresh := fun _ => hb.fresh hloop },
          h.resolved.win h.booked hloop htask hkind houtcome, { h.counted.leave hentry (.result (.ok path)) with },
          { h.ordered with }⟩

/-- `cleanup` cancels the tokens of the attempts that are running. -/
theorem Sound.cleanup (h : s.Sound config attempts begun) {result : Except PathError RaceWinner}
    (hphase : s.phase = .cleaning result) :
    Sound config attempts begun
      { s with cancelled := s.cancelled ++ s.running.map RunningAttempt.cancellation, phase := .draining result } := by
  have hresult : s.result? = some result := by
    unfold result?
    rw [hphase]
  have hb := h.booked.cancel (s.running.map RunningAttempt.cancellation)
    (fun token htoken => by
      obtain ⟨entry, hentry, rfl⟩ := List.mem_map.mp htoken
      exact h.booked.cancellation_lt hentry)
    (fun hloop => by simp [isLooping, hphase] at hloop)
  have hr := h.resolved.cancel (s.running.map RunningAttempt.cancellation) fun winner hwinner htoken => by
    obtain ⟨-, i, hwon⟩ := h.resolved.won winner hwinner
    obtain ⟨entry, hentry, heq⟩ := List.mem_map.mp htoken
    exact hwon.ne_running h.booked hentry heq.symm
  refine ⟨{ hb with listed := fun hl => (by cases hl), fresh := fun hl => (by cases hl) }, ?_, { h.counted with }, { h.ordered with }⟩
  constructor
  · intro i hi
    rcases hr.each i hi with hrun | hspent | ⟨winner, hwinner, hwon⟩
    · exact .inl hrun
    · exact .inr (.inl hspent)
    · exact .inr (.inr ⟨winner, hresult.symm.trans hwinner, hwon⟩)
  · exact fun winner hwinner => hr.won winner (hresult.trans hwinner)
  · exact fun _ entry hentry => List.mem_append_right _ (List.mem_map_of_mem hentry)
  · exact fun hend => h.resolved.exhausted (hresult.trans hend)

/-- The tasks that are left are gone before the race returns. -/
theorem Sound.drain (h : s.Sound config attempts begun) {result : Except PathError RaceWinner}
    (hphase : s.phase = .draining result) : Sound config attempts begun { s with tasks := [], phase := .returned result } := by
  have hresult : s.result? = some result := by
    unfold result?
    rw [hphase]
  have hclean : s.isClean = true := by
    unfold isClean
    rw [hphase]
  refine ⟨{ h.booked with entries := fun _ => (by simp), listed := fun hl => (by cases hl), fresh := fun hl => (by cases hl) }, ?_,
    { h.counted with }, { h.ordered with }⟩
  constructor
  · intro i hi
    rcases h.resolved.each i hi with hrun | hspent | ⟨winner, hwinner, hwon⟩
    · exact .inl hrun
    · exact .inr (.inl hspent)
    · exact .inr (.inr ⟨winner, hresult.symm.trans hwinner, hwon⟩)
  · exact fun winner hwinner => h.resolved.won winner (hresult.trans hwinner)
  · exact fun _ => h.resolved.cleaned hclean
  · exact fun hend => h.resolved.exhausted (hresult.trans hend)

theorem Sound.step (h : s.Sound config attempts begun) {event : Event} (hstep : Step config s event t) :
    t.Sound config attempts begun := by
  unfold Step next at hstep
  split at hstep
  · split at hstep
    · obtain rfl := Option.some.inj hstep
      exact ⟨{ h.booked with }, { h.resolved with }, { h.counted with }, { h.ordered with }⟩
    · cases hstep
  · obtain rfl := Option.some.inj hstep
    exact ⟨{ h.booked with }, { h.resolved with }, { h.counted with }, { h.ordered with }⟩
  · obtain rfl := Option.some.inj hstep
    exact ⟨{ h.booked with }, { h.resolved with }, { h.counted with }, { h.ordered with }⟩
  · obtain rfl := Option.some.inj hstep
    exact ⟨{ h.booked with }, { h.resolved with }, { h.counted with }, { h.ordered with }⟩
  case h_5 taskId outcome =>
    split at hstep
    · obtain rfl := Option.some.inj hstep
      exact ⟨h.booked.settle taskId outcome, h.resolved.settle taskId outcome, h.counted.settle taskId outcome, { h.ordered with }⟩
    · cases hstep
  case h_6 taskId =>
    obtain ⟨task, hfind, hstep⟩ := Option.bind_eq_some_iff.mp hstep
    split at hstep
    case isTrue hc =>
      obtain rfl := Option.some.inj hstep
      obtain rfl : task.entry.taskId = taskId := by simpa using List.find?_some hfind
      have htask := List.mem_of_find?_eq_some hfind
      exact ⟨h.booked.expire htask hc.1 _, h.resolved.expire h.booked htask _, { h.counted with }, { h.ordered with }⟩
    case isFalse => cases hstep
  case h_7 hphase =>
    obtain rfl := Option.some.inj hstep
    exact h.round (by simp [isLooping, hphase])
  case h_8 hphase =>
    split at hstep
    · obtain rfl := Option.some.inj hstep
      exact h.move (by simp [isLooping, hphase]) (fun winner hwinner => by cases hwinner) rfl fun hend => by cases hend
    · cases hstep
  case h_9 hphase =>
    split at hstep
    · obtain rfl := Option.some.inj hstep
      exact h.move (by simp [isLooping, hphase]) (fun winner hwinner => by cases hwinner) rfl fun hend => by cases hend
    · cases hstep
  case h_10 hphase =>
    obtain ⟨task, hfind, hstep⟩ := Option.bind_eq_some_iff.mp hstep
    obtain ⟨outcome, houtcome, rfl⟩ := Option.map_eq_some_iff.mp hstep
    exact h.take (by simp [isLooping, hphase]) (List.mem_of_find?_eq_some hfind) houtcome
  case h_11 hphase =>
    obtain rfl := Option.some.inj hstep
    exact h.cleanup hphase
  case h_12 hphase =>
    obtain rfl := Option.some.inj hstep
    exact h.drain hphase
  · cases hstep

theorem step_of_next {event : Event} (h : s.next config event = some t) : Step config s event t := h

theorem Sound.run {events : List Event} (h : s.Sound config attempts begun) (hrun : Run (Step config) s events t) :
    t.Sound config attempts begun := hrun.invariant (fun _ _ _ hs hstep => hs.step hstep) h

theorem count_groupOf (attempts : List Attempt) (kind : PathKind) (attempt : Attempt) :
    (groupOf attempts kind).count attempt = if attempt.kind = kind then attempts.count attempt else 0 := by
  rw [groupOf]
  split
  · exact List.count_filter (by simpa)
  · exact List.count_eq_zero_of_not_mem fun hmem => by simp_all

/-- Every attempt of the list is in one of the groups. -/
theorem groups_perm (attempts : List Attempt) : (directGroups attempts ++ groupOf attempts .relay).Perm attempts := by
  rw [List.perm_iff_count]
  intro attempt
  simp only [directGroups, List.count_append, count_groupOf]
  cases attempt.kind <;> simp

theorem Ordered.subperm (h : s.Ordered config attempts begun) : (s.started.map Started.attempt).Subperm attempts := by
  refine List.Subperm.trans (List.Sublist.subperm ?_) (groups_perm attempts).subperm
  rw [h.lists]
  split
  · exact List.Sublist.refl _
  · exact (List.append_nil (directGroups attempts)).symm ▸ List.sublist_append_left _ _

theorem Ordered.in_time (h : s.Ordered config attempts begun) (hdirect : ∃ attempt ∈ attempts, attempt.kind ≠ .relay)
    {st : Started} (hst : st ∈ s.started) (hkind : st.attempt.kind = .relay) : begun + config.relayGrace ≤ st.startedAt := by
  obtain ⟨attempt, hattempt, hne⟩ := hdirect
  have hmem : attempt ∈ directGroups attempts := by
    have hgroup := (groups_perm attempts).mem_iff.mpr hattempt
    rcases List.mem_append.mp hgroup with hdirects | hrelays
    · exact hdirects
    · exact absurd (of_decide_eq_true (List.mem_filter.mp hrelays).2) hne
  have hstart := h.relayStart
  rw [if_neg (List.ne_nil_of_mem hmem)] at hstart
  exact hstart ▸ h.times st hst hkind

theorem result?_of_returned {result : Except PathError RaceWinner} (h : s.phase = .returned result) :
    s.result? = some result ∧ s.isClean = true := by
  unfold result? isClean
  rw [h]
  exact ⟨rfl, rfl⟩

theorem Sound.winner (h : s.Sound config attempts begun) {winner : RaceWinner} (hphase : s.phase = .returned (.ok winner)) :
    ∃ i st, s.started[i]? = some st ∧ (i, .result (.ok winner.path)) ∈ s.joined ∧ winner.path.kind = st.attempt.kind ∧
      winner.cancellation = st.cancellation ∧ winner.cancellation ∉ s.cancelled ∧
      ∀ j other, s.started[j]? = some other → j ≠ i → other.cancellation ∈ s.cancelled := by
  obtain ⟨hresult, hclean⟩ := result?_of_returned hphase
  obtain ⟨hout, i, st, hst, hjoined, hkind, htoken, -⟩ := h.resolved.won winner hresult
  refine ⟨i, st, hst, hjoined, hkind, htoken, hout, fun j other hother hne => ?_⟩
  rcases h.resolved.each j (h.booked.getElem?_lt hother) with hrun | ⟨st', -, hst', -, -, hspent⟩ | ⟨winner', hwinner', hwon⟩
  · obtain ⟨entry, hentry, rfl⟩ := List.mem_map.mp hrun
    obtain ⟨st', hst', -, htoken'⟩ := h.booked.known entry hentry
    obtain rfl := Option.some.inj (hst'.symm.trans hother)
    exact htoken' ▸ h.resolved.cleaned hclean entry hentry
  · exact Option.some.inj (hst'.symm.trans hother) ▸ hspent
  · obtain rfl : winner = winner' := by simpa using hresult.symm.trans hwinner'
    obtain ⟨st', hst', -, -, htoken', -⟩ := hwon
    exact absurd (h.booked.index_eq hst' hst (htoken'.symm.trans htoken)) hne

theorem Sound.no_viable_path (h : s.Sound config attempts begun) (hphase : s.phase = .returned (.error .noViablePath)) :
    (s.started.map Started.attempt).Perm attempts ∧
      ∀ i st, s.started[i]? = some st → ∃ outcome, (i, outcome) ∈ s.joined ∧ Fails st.attempt.kind outcome := by
  obtain ⟨hresult, -⟩ := result?_of_returned hphase
  obtain ⟨hrelays, hrunning⟩ := h.resolved.exhausted hresult
  constructor
  · rw [h.ordered.lists, hrelays]
    exact groups_perm attempts
  · intro i st hst
    rcases h.resolved.each i (h.booked.getElem?_lt hst) with hrun | ⟨st', outcome, hst', hjoined, hfails, -⟩ | ⟨winner, hwinner, -⟩
    · rw [hrunning] at hrun
      cases hrun
    · obtain rfl := Option.some.inj (hst'.symm.trans hst)
      exact ⟨outcome, hjoined, hfails⟩
    · exact absurd (hresult.symm.trans hwinner) (by simp)

/-- The race over the attempts of any list, however its tasks end and whenever it is cancelled. -/
theorem race_attempts (config : PathManagerConfig) (attempts : List Attempt) (begun firstTask : Nat) (firstToken : Token)
    {events : List Event} (h : Run (Step config) (start config attempts begun firstTask firstToken) events s) :
    (∀ winner, s.phase = .returned (.ok winner) →
      ∃ i st, s.started[i]? = some st ∧ (i, .result (.ok winner.path)) ∈ s.joined ∧ winner.path.kind = st.attempt.kind ∧
        winner.cancellation = st.cancellation ∧ winner.cancellation ∉ s.cancelled ∧
        ∀ j other, s.started[j]? = some other → j ≠ i → other.cancellation ∈ s.cancelled) ∧
    (s.phase = .returned (.error .noViablePath) → (s.started.map Started.attempt).Perm attempts ∧
      ∀ i st, s.started[i]? = some st → ∃ outcome, (i, outcome) ∈ s.joined ∧ Fails st.attempt.kind outcome) ∧
    (s.started.map Started.attempt).Subperm attempts ∧
    ((∃ attempt ∈ attempts, attempt.kind ≠ .relay) →
      ∀ st ∈ s.started, st.attempt.kind = .relay → begun + config.relayGrace ≤ st.startedAt) ∧
    s.directActive = s.running.countP (fun entry => entry.kind ≠ .relay) ∧
    s.relayActive = s.running.countP (fun entry => entry.kind = .relay) ∧
    (s.isLooping = true → s.running = s.tasks.map AttemptTask.entry) := by
  have hs := (sound_start config attempts begun firstTask firstToken).run h
  exact ⟨fun winner => hs.winner, hs.no_viable_path, hs.ordered.subperm, fun hdirect st => hs.ordered.in_time hdirect,
    hs.counted.direct, hs.counted.relay, hs.booked.listed⟩

/-- The relay wins after the direct attempt has failed. -/
theorem race_attempts_relay :
    ∃ events s, Run (Step ⟨50, 10, 40⟩) (start ⟨50, 10, 40⟩ [⟨1, .relay⟩, ⟨2, .quicV4⟩] 100 7 3) events s ∧
      s.phase = .returned (.ok ⟨⟨.relay⟩, 4⟩) ∧ s.started.map Started.startedAt = [100, 110] ∧ 3 ∈ s.cancelled ∧
      (s.started.map Started.attempt).Subperm [⟨1, .relay⟩, ⟨2, .quicV4⟩] := by
  obtain ⟨s, hrun, hphase, htimes, hcancelled⟩ := run_of_exec_any (fun _ _ _ => step_of_next)
    (P := fun s => s.phase = .returned (.ok ⟨⟨.relay⟩, 4⟩) ∧ s.started.map Started.startedAt = [100, 110] ∧ 3 ∈ s.cancelled)
    (show (exec (next ⟨50, 10, 40⟩) (start ⟨50, 10, 40⟩ [⟨1, .relay⟩, ⟨2, .quicV4⟩] 100 7 3)
      [.round, .finish 7 (.result (.ok ⟨.relay⟩)), .join 7, .round, .tick 110, .wake, .round,
        .finish 8 (.result (.ok ⟨.relay⟩)), .join 8, .cleanup, .drained]).any _ = true by decide +kernel)
  exact ⟨_, s, hrun, hphase, htimes, hcancelled, (race_attempts _ _ _ _ _ hrun).2.2.1⟩

end Race

end Rustgo.AttemptRace
