import Rustgo.TokenBuckets
import Rustgo.Runs

namespace Rustgo.Observation

open Bindings (latestInstant)
open Runs Tables

namespace BucketTable

variable {K : Type} [DecidableEq K] {table : BucketTable K} {expiry : BucketExpiry K} {rest : List (BucketExpiry K)}
  {key : K} {entry : BucketEntry} {now stale : Nat}

/-- Every expiry names a bucket that is there, and every bucket has one. -/
structure Tracked (table : BucketTable K) : Prop where
  nodup : (table.expirations.map BucketExpiry.key).Nodup
  current : ∀ expiry ∈ table.expirations, table.isCurrent expiry = true
  covered : ∀ key entry, table.entries.lookup key = some entry → ∃ expiry ∈ table.expirations, expiry.key = key

theorem isCurrent_iff : table.isCurrent expiry = true ↔
    ∃ entry, table.entries.lookup expiry.key = some entry ∧ entry.generation = expiry.generation := by
  rw [isCurrent, Option.any_eq_true]
  simp only [decide_eq_true_eq]

/-- The expiry of a bucket is queued. -/
def Queues (table : BucketTable K) (key : K) (generation : Nat) : Prop :=
  ∃ expiry ∈ table.expirations, expiry.key = key ∧ expiry.generation = generation

theorem Tracked.queues_iff (h : table.Tracked) {generation : Nat} :
    table.Queues key generation ↔ (table.entries.lookup key).map BucketEntry.generation = some generation := by
  constructor
  · rintro ⟨expiry, hexpiry, rfl, rfl⟩
    obtain ⟨entry, hentry, hgeneration⟩ := isCurrent_iff.mp (h.current expiry hexpiry)
    rw [hentry, Option.map_some, hgeneration]
  · intro hlookup
    obtain ⟨entry, hentry, rfl⟩ := Option.map_eq_some_iff.mp hlookup
    obtain ⟨expiry, hexpiry, rfl⟩ := h.covered key entry hentry
    obtain ⟨entry', hentry', hgeneration⟩ := isCurrent_iff.mp (h.current expiry hexpiry)
    obtain rfl := Option.some.inj (hentry.symm.trans hentry')
    exact ⟨expiry, hexpiry, rfl, hgeneration.symm⟩

theorem tracked_default : (default : BucketTable K).Tracked :=
  ⟨List.nodup_nil, fun _ h => absurd h List.not_mem_nil, fun _ _ h => by cases h⟩

/-- A bucket goes together with its expiry. -/
theorem Tracked.drop (h : ({ table with expirations := expiry :: rest } : BucketTable K).Tracked) :
    ({ table with entries := table.entries.erase expiry.key, expirations := rest } : BucketTable K).Tracked := by
  obtain ⟨hnew, hnodup⟩ := List.nodup_cons.mp h.nodup
  have hne : ∀ other ∈ rest, other.key ≠ expiry.key := fun other hother heq => hnew (heq ▸ List.mem_map_of_mem hother)
  refine ⟨hnodup, fun other hother => ?_, fun key entry hlookup => ?_⟩
  · have hcurrent := h.current other (List.mem_cons_of_mem _ hother)
    rw [isCurrent, Finmap.lookup_erase_ne (hne other hother)]
    exact hcurrent
  · have hkey : key ≠ expiry.key := fun heq => by
      rw [heq, Finmap.lookup_erase] at hlookup
      cases hlookup
    rw [Finmap.lookup_erase_ne hkey] at hlookup
    obtain ⟨other, hother, rfl⟩ := h.covered key entry hlookup
    rcases List.mem_cons.mp hother with rfl | hother
    · exact absurd rfl hkey
    · exact ⟨other, hother, rfl⟩

/-- An expiry can move to the end of the queue, with another time. -/
theorem Tracked.requeue (h : ({ table with expirations := expiry :: rest } : BucketTable K).Tracked) (expiresAt : Nat) :
    ({ table with expirations := rest ++ [{ expiry with expiresAt }] } : BucketTable K).Tracked := by
  refine ⟨?_, fun other hother => ?_, fun key entry hlookup => ?_⟩
  · have hperm : (expiry.key :: rest.map BucketExpiry.key).Perm (rest.map BucketExpiry.key ++ [expiry.key]) :=
      (List.perm_append_singleton _ _).symm
    simpa using hperm.nodup_iff.mp h.nodup
  · rcases List.mem_append.mp hother with hother | hother
    · exact h.current other (List.mem_cons_of_mem _ hother)
    · obtain rfl := List.mem_singleton.mp hother
      exact h.current expiry List.mem_cons_self
  · obtain ⟨other, hother, rfl⟩ := h.covered key entry hlookup
    rcases List.mem_cons.mp hother with rfl | hother
    · exact ⟨_, List.mem_append_right _ List.mem_cons_self, rfl⟩
    · exact ⟨other, List.mem_append_left _ hother, rfl⟩

/-- Buckets are the same, apart from some that were due. -/
def Swept (now stale : Nat) (table table' : BucketTable K) : Prop :=
  ∀ key, table'.entries.lookup key = table.entries.lookup key ∨
    table'.entries.lookup key = none ∧
      ∃ entry, table.entries.lookup key = some entry ∧ expirationFrom entry.bucket.lastRefill stale 0 ≤ now

theorem Swept.refl (table : BucketTable K) : Swept now stale table table := fun _ => .inl rfl

theorem Swept.trans {a b c : BucketTable K} (hab : Swept now stale a b) (hbc : Swept now stale b c) : Swept now stale a c := by
  intro key
  rcases hbc key with hc | ⟨hc, entry, hentry, hdue⟩
  · rw [hc]
    exact hab key
  · rcases hab key with hb | ⟨hb, -⟩
    · exact .inr ⟨hc, entry, hb ▸ hentry, hdue⟩
    · rw [hb] at hentry
      cases hentry

theorem Swept.lookup_none {a b : BucketTable K} (h : Swept now stale a b) (hlookup : a.entries.lookup key = none) : b.entries.lookup key = none := by
  rcases h key with hsame | ⟨hgone, -⟩
  · exact hsame.trans hlookup
  · exact hgone

theorem Swept.lookup_some {a b : BucketTable K} (h : Swept now stale a b) (hlookup : b.entries.lookup key = some entry) :
    a.entries.lookup key = some entry := by
  rcases h key with hsame | ⟨hgone, -⟩
  · exact hsame.symm.trans hlookup
  · rw [hgone] at hlookup
    cases hlookup

/-- A review keeps track of the buckets. -/
theorem Tracked.review (now stale : Nat) (h : ({ table with expirations := expiry :: rest } : BucketTable K).Tracked) :
    (({ table with expirations := rest } : BucketTable K).review expiry now stale).Tracked ∧
      Swept now stale table (({ table with expirations := rest } : BucketTable K).review expiry now stale) := by
  obtain ⟨entry, hentry, hgeneration⟩ := isCurrent_iff.mp (h.current expiry List.mem_cons_self)
  dsimp only at hentry
  rw [BucketTable.review]
  simp only [hentry]
  rw [if_neg (not_not.mpr hgeneration)]
  split
  · next hdue =>
    refine ⟨h.drop, fun key => ?_⟩
    by_cases hkey : key = expiry.key
    · subst hkey
      exact .inr ⟨Finmap.lookup_erase _ _, entry, hentry, hdue⟩
    · exact .inl (Finmap.lookup_erase_ne hkey)
  · exact ⟨h.requeue _, .refl table⟩

theorem Tracked.sweep (h : table.Tracked) (now stale steps : Nat) :
    (table.sweep now stale steps).2.Tracked ∧ Swept now stale table (table.sweep now stale steps).2 := by
  induction steps generalizing table with
  | zero => exact ⟨h, .refl table⟩
  | succ steps ih =>
      rw [BucketTable.sweep]
      split
      · exact ⟨h, .refl table⟩
      · next expiry rest hrest =>
        split
        · exact ⟨h, .refl table⟩
        · have h' : ({ table with expirations := expiry :: rest } : BucketTable K).Tracked := by rwa [← hrest]
          obtain ⟨hreviewed, hswept⟩ := h'.review now stale
          obtain ⟨htracked, hrest⟩ := ih hreviewed
          exact ⟨htracked, hswept.trans hrest⟩

/-- What is prepared for a new bucket once the due ones are swept. -/
inductive Prepares (maximumEntries : Nat) (swept : BucketTable K) : PreparedBucketSlot K → BucketTable K → Prop
  | room (steps) (hroom : len swept.entries < maximumEntries) : Prepares maximumEntries swept ⟨none, steps, true⟩ swept
  | full (steps) (hfull : maximumEntries ≤ len swept.entries) : Prepares maximumEntries swept ⟨none, steps, false⟩ swept
  | eviction (steps expiry rest) (hfull : maximumEntries ≤ len swept.entries) (hfirst : swept.expirations = expiry :: rest) :
      Prepares maximumEntries swept ⟨some expiry, steps, true⟩ { swept with expirations := rest }

theorem Tracked.popCurrent (h : table.Tracked) (steps : Nat) :
    (table.popCurrent steps).2 = (none, table) ∨
      ∃ expiry rest, table.expirations = expiry :: rest ∧ (table.popCurrent steps).2 = (some expiry, { table with expirations := rest }) := by
  cases steps with
  | zero => exact .inl rfl
  | succ steps =>
      rw [BucketTable.popCurrent]
      split
      · exact .inl rfl
      · next expiry rest hrest =>
        have hcurrent : ({ table with expirations := rest } : BucketTable K).isCurrent expiry = true :=
          h.current expiry (hrest ▸ List.mem_cons_self)
        dsimp only
        rw [if_pos hcurrent]
        exact .inr ⟨expiry, rest, hrest, rfl⟩

theorem Tracked.prepareSlot (h : table.Tracked) (maximumEntries now stale : Nat) :
    Prepares maximumEntries (table.sweepExpired now stale).2 (table.prepareSlot maximumEntries now stale).1
      (table.prepareSlot maximumEntries now stale).2 := by
  have hswept := (h.sweep now stale MAX_BUCKET_MAINTENANCE_STEPS_PER_PACKET).1
  rw [BucketTable.prepareSlot, BucketTable.sweepExpired]
  generalize table.sweep now stale MAX_BUCKET_MAINTENANCE_STEPS_PER_PACKET = swept at hswept ⊢
  obtain ⟨done, swept⟩ := swept
  dsimp only
  split
  · next hfull =>
    have hpop := Tracked.popCurrent hswept (MAX_BUCKET_MAINTENANCE_STEPS_PER_PACKET - done)
    generalize swept.popCurrent (MAX_BUCKET_MAINTENANCE_STEPS_PER_PACKET - done) = popped at hpop ⊢
    obtain ⟨more, eviction, last⟩ := popped
    rcases hpop with hpop | ⟨expiry, rest, hfirst, hpop⟩
    · obtain ⟨rfl, rfl⟩ := Prod.mk.inj hpop
      exact .full _ hfull
    · obtain ⟨rfl, rfl⟩ := Prod.mk.inj hpop
      exact .eviction _ expiry rest hfull hfirst
  · next hroom => exact .room _ (not_le.mp hroom)

omit [DecidableEq K] in
/-- A slot that is given back is tracked as before. -/
theorem Prepares.restore {maximumEntries : Nat} {prepared : PreparedBucketSlot K} {swept table' : BucketTable K}
    (h : Prepares maximumEntries swept prepared table') : table'.restoreSlot prepared.eviction = swept := by
  cases h with
  | room | full => rfl
  | eviction _ _ _ _ hfirst =>
      rw [restoreSlot]
      exact congrArg (fun expirations => ({ swept with expirations } : BucketTable K)) hfirst.symm

theorem Prepares.commit {maximumEntries : Nat} {prepared : PreparedBucketSlot K} {swept table' : BucketTable K}
    (h : Prepares maximumEntries swept prepared table') (hswept : swept.Tracked) (hlookup : swept.entries.lookup key = none) :
    (table'.commitSlot prepared.eviction).Tracked ∧ (table'.commitSlot prepared.eviction).entries.lookup key = none := by
  cases h with
  | room | full => exact ⟨hswept, hlookup⟩
  | eviction _ expiry rest _ hfirst =>
      have hfirst' : ({ swept with expirations := expiry :: rest } : BucketTable K).Tracked := by rwa [← hfirst]
      refine ⟨hfirst'.drop, ?_⟩
      by_cases hkey : key = expiry.key
      · rw [hkey]
        exact Finmap.lookup_erase _ _
      · exact (Finmap.lookup_erase_ne hkey).trans hlookup

theorem Prepares.lookup_some {maximumEntries : Nat} {prepared : PreparedBucketSlot K} {swept table' : BucketTable K}
    (h : Prepares maximumEntries swept prepared table') (hlookup : (table'.commitSlot prepared.eviction).entries.lookup key = some entry) :
    swept.entries.lookup key = some entry := by
  cases h with
  | room | full => exact hlookup
  | eviction _ expiry rest _ hfirst =>
      by_cases hkey : key = expiry.key
      · rw [hkey] at hlookup
        exact absurd (hlookup.symm.trans (Finmap.lookup_erase _ _)) (by simp)
      · exact (Finmap.lookup_erase_ne hkey).symm.trans hlookup

theorem Tracked.insertBucket {capacity refillInterval : Nat} (h : table.Tracked) (hlookup : table.entries.lookup key = none) (steps : Nat) :
    (table.insertBucket key capacity refillInterval now stale steps).2.Tracked := by
  rw [BucketTable.insertBucket]
  have hkey : ∀ expiry ∈ table.expirations, expiry.key ≠ key := fun expiry hexpiry heq => by
    obtain ⟨entry, hentry, -⟩ := isCurrent_iff.mp (h.current expiry hexpiry)
    rw [heq, hlookup] at hentry
    cases hentry
  refine ⟨?_, fun expiry hexpiry => ?_, fun other entry hother => ?_⟩
  · dsimp only
    rw [List.map_append, List.nodup_append]
    refine ⟨h.nodup, List.nodup_singleton _, fun a ha b hb => ?_⟩
    obtain ⟨expiry, hexpiry, rfl⟩ := List.mem_map.mp ha
    obtain rfl := List.mem_singleton.mp hb
    exact hkey expiry hexpiry
  · rw [isCurrent_iff]
    rcases List.mem_append.mp hexpiry with hexpiry | hexpiry
    · obtain ⟨entry, hentry, hgeneration⟩ := isCurrent_iff.mp (h.current expiry hexpiry)
      exact ⟨entry, (Finmap.lookup_insert_of_ne _ (hkey expiry hexpiry)).trans hentry, hgeneration⟩
    · obtain rfl := List.mem_singleton.mp hexpiry
      exact ⟨_, Finmap.lookup_insert _, rfl⟩
  · by_cases hother' : other = key
    · exact ⟨_, List.mem_append_right _ List.mem_cons_self, hother'.symm⟩
    · obtain ⟨expiry, hexpiry, heq⟩ := h.covered other entry ((Finmap.lookup_insert_of_ne _ hother').symm.trans hother)
      exact ⟨expiry, List.mem_append_left _ hexpiry, heq⟩

theorem Tracked.takeKnown {capacity refillInterval : Nat} (h : table.Tracked) (hlookup : table.entries.lookup key = some entry) :
    (table.takeKnown key entry capacity refillInterval now).2.Tracked := by
  rw [BucketTable.takeKnown]
  have hsame : ∀ other, ∃ bucket : BucketEntry → TokenBucket, (table.entries.insert key { entry with bucket := (entry.bucket.take capacity refillInterval now).2 }).lookup other =
      (table.entries.lookup other).map fun old => { old with bucket := bucket old } := by
    intro other
    by_cases hother : other = key
    · subst hother
      exact ⟨fun _ => (entry.bucket.take capacity refillInterval now).2, by rw [Finmap.lookup_insert, hlookup]; rfl⟩
    · refine ⟨BucketEntry.bucket, ?_⟩
      rw [Finmap.lookup_insert_of_ne _ hother]
      exact Option.map_id'.symm
  refine ⟨h.nodup, fun expiry hexpiry => ?_, fun other entry' hother => ?_⟩
  · rw [isCurrent_iff]
    obtain ⟨old, hold, hgeneration⟩ := isCurrent_iff.mp (h.current expiry hexpiry)
    obtain ⟨bucket, hbucket⟩ := hsame expiry.key
    rw [hold] at hbucket
    exact ⟨_, hbucket, hgeneration⟩
  · obtain ⟨bucket, hbucket⟩ := hsame other
    obtain ⟨old, hold, -⟩ := Option.map_eq_some_iff.mp (hbucket.symm.trans hother)
    exact h.covered other old hold

/-- A bucket has exactly one expiry of its generation. -/
theorem Tracked.count (h : table.Tracked) (hlookup : table.entries.lookup key = some entry) :
    table.expirations.countP (fun expiry => expiry.key = key ∧ expiry.generation = entry.generation) = 1 := by
  have hsame : ∀ expiry ∈ table.expirations, (expiry.key = key ∧ expiry.generation = entry.generation) ↔ expiry.key = key := by
    refine fun expiry hexpiry => ⟨And.left, fun heq => ⟨heq, ?_⟩⟩
    obtain ⟨entry', hentry', hgeneration⟩ := isCurrent_iff.mp (h.current expiry hexpiry)
    rw [heq, hlookup] at hentry'
    exact hgeneration.symm.trans (congrArg BucketEntry.generation (Option.some.inj hentry').symm)
  have hcount : table.expirations.countP (fun expiry => expiry.key = key ∧ expiry.generation = entry.generation) =
      (table.expirations.map BucketExpiry.key).count key := by
    rw [List.count, List.countP_map]
    exact List.countP_congr fun expiry hexpiry => by simpa using hsame expiry hexpiry
  rw [hcount]
  obtain ⟨expiry, hexpiry, rfl⟩ := h.covered key entry hlookup
  exact List.count_eq_one_of_mem h.nodup (List.mem_map_of_mem hexpiry)

end BucketTable

namespace TokenBucket

variable {bucket : TokenBucket} {capacity refillInterval now : Nat}

/-- A bucket that had the time to fill up is as good as a new one. -/
theorem take_of_stale (hinterval : 0 < refillInterval) (hpos : 0 < capacity) (hmax : capacity ≤ u32Max)
    (hcapacity : bucket.capacity = capacity) (hstale : bucket.lastRefill + refillInterval * capacity ≤ now) :
    bucket.take capacity refillInterval now = (TokenBucket.new capacity now).take capacity refillInterval now := by
  have hrefill : capacity ≤ (now - bucket.lastRefill) / refillInterval := by
    rw [Nat.le_div_iff_mul_le hinterval, Nat.mul_comm]
    omega
  have hbucket : bucket.refill capacity refillInterval now = ⟨capacity, capacity, now⟩ := by
    rw [refill, if_pos (hpos.trans_le hrefill), hcapacity]
    refine congrArg (TokenBucket.mk capacity · now) ?_
    omega
  have hnew : (TokenBucket.new capacity now).refill capacity refillInterval now = ⟨capacity, capacity, now⟩ := by
    rw [refill, new, Nat.sub_self, Nat.zero_div, if_neg (lt_irrefl 0)]
  have hnewcap : (TokenBucket.new capacity now).capacity = capacity := rfl
  rw [take_eq hcapacity, take_eq hnewcap, hbucket, hnew]

/-- A bucket of the limits that are fixed, at a time. -/
structure Within (bucket : TokenBucket) (capacity now : Nat) : Prop where
  capacity_eq : bucket.capacity = capacity
  tokens_le : bucket.tokens ≤ capacity
  lastRefill_le : bucket.lastRefill ≤ now

theorem within_new (capacity now : Nat) : (TokenBucket.new capacity now).Within capacity now := ⟨rfl, le_refl _, le_refl _⟩

theorem Within.mono {later : Nat} (h : bucket.Within capacity now) (hlater : now ≤ later) : bucket.Within capacity later :=
  ⟨h.capacity_eq, h.tokens_le, h.lastRefill_le.trans hlater⟩

theorem Within.take (h : bucket.Within capacity now) : (bucket.take capacity refillInterval now).2.Within capacity now :=
  ⟨capacity_take h.capacity_eq, tokens_take_le h.capacity_eq h.tokens_le,
    (lastRefill_take h.capacity_eq).trans_le (lastRefill_refill_le _ _ h.lastRefill_le)⟩

/-- A bucket without capacity grants nothing. -/
theorem take_of_empty (hcapacity : bucket.capacity = 0) (htokens : bucket.tokens ≤ 0) : (bucket.take 0 refillInterval now).1 = false := by
  have hrefill := tokens_refill_le refillInterval now htokens
  rw [take_eq hcapacity, if_pos (Nat.le_zero.mp hrefill)]

end TokenBucket

/-- The limits of a table. A refill interval of zero is refused when the service is bound. -/
structure BucketLimits where
  maximumEntries : Nat
  capacity : Nat
  refillInterval : Nat
  globalCapacity : Nat
  capacity_le : capacity ≤ u32Max
  refillInterval_pos : 0 < refillInterval

/-- A call for a key, which shares the global bucket when it is of a new source. -/
structure Arrival (K : Type) where
  key : K
  newSource : Bool
  now : Nat

section Admit

variable {K : Type} [DecidableEq K] {limits : BucketLimits} {table : BucketTable K} {globalAdmission : TokenBucket} {arrival : Arrival K}

def BucketLimits.stale (limits : BucketLimits) : Nat := staleAfter limits.refillInterval limits.capacity

def arrive (limits : BucketLimits) (table : BucketTable K) (globalAdmission : TokenBucket) (arrival : Arrival K) :
    BucketAdmission × BucketTable K × TokenBucket :=
  if arrival.newSource then
    table.allowNewSource arrival.key limits.maximumEntries limits.capacity limits.refillInterval arrival.now globalAdmission limits.globalCapacity
  else
    let (admission, table) := table.allow arrival.key limits.maximumEntries limits.capacity limits.refillInterval arrival.now
    (admission, table, globalAdmission)

/-- How a call for a key comes out. -/
inductive Outcome (limits : BucketLimits) (table : BucketTable K) (globalAdmission : TokenBucket) (arrival : Arrival K) :
    BucketAdmission × BucketTable K × TokenBucket → Prop
  /-- The bucket of the key decides. -/
  | known (entry) (hlookup : table.entries.lookup arrival.key = some entry) :
      Outcome limits table globalAdmission arrival
        (⟨(entry.bucket.take limits.capacity limits.refillInterval arrival.now).1, 0⟩,
          (table.takeKnown arrival.key entry limits.capacity limits.refillInterval arrival.now).2, globalAdmission)
  /-- No slot is found. -/
  | crowded (steps) (hlookup : table.entries.lookup arrival.key = none)
      (hfull : limits.maximumEntries ≤ len (table.sweepExpired arrival.now limits.stale).2.entries) :
      Outcome limits table globalAdmission arrival (⟨false, steps⟩, (table.sweepExpired arrival.now limits.stale).2, globalAdmission)
  /-- The global bucket refuses a new source. -/
  | refused (steps) (hlookup : table.entries.lookup arrival.key = none) (hsource : arrival.newSource = true)
      (hglobal : (globalAdmission.take limits.globalCapacity limits.refillInterval arrival.now).1 = false) :
      Outcome limits table globalAdmission arrival (⟨false, steps⟩, (table.sweepExpired arrival.now limits.stale).2,
        (globalAdmission.take limits.globalCapacity limits.refillInterval arrival.now).2)
  /-- A new bucket decides, in the place of another if there is no room. -/
  | admitted (prepared table' steps globalAdmission') (hlookup : table.entries.lookup arrival.key = none)
      (hprepared : BucketTable.Prepares limits.maximumEntries (table.sweepExpired arrival.now limits.stale).2 prepared table')
      (hslot : (table.prepareSlot limits.maximumEntries arrival.now limits.stale).1 = prepared) (havailable : prepared.available = true)
      (hglobal : arrival.newSource = true → (globalAdmission.take limits.globalCapacity limits.refillInterval arrival.now).1 = true) :
      Outcome limits table globalAdmission arrival
        (⟨((TokenBucket.new limits.capacity arrival.now).take limits.capacity limits.refillInterval arrival.now).1, steps⟩,
          ((table'.commitSlot prepared.eviction).insertBucket arrival.key limits.capacity limits.refillInterval arrival.now limits.stale steps).2,
          globalAdmission')

/-- The two calls differ in the global bucket alone. -/
theorem BucketTable.Tracked.arrive (h : table.Tracked) : Outcome limits table globalAdmission arrival (arrive limits table globalAdmission arrival) := by
  have hprepared := h.prepareSlot limits.maximumEntries arrival.now limits.stale
  rw [Observation.arrive, BucketTable.allowNewSource, BucketTable.allow]
  cases hlookup : table.entries.lookup arrival.key with
  | some entry =>
      split
      · exact .known entry hlookup
      · exact .known entry hlookup
  | none =>
      rw [BucketLimits.stale] at hprepared
      dsimp only
      generalize hslot : table.prepareSlot limits.maximumEntries arrival.now (staleAfter limits.refillInterval limits.capacity) = slot at hprepared ⊢
      obtain ⟨prepared, table'⟩ := slot
      dsimp only at hprepared ⊢
      by_cases havailable : prepared.available = false
      · rw [if_pos havailable, if_pos havailable]
        cases hprepared with
        | full steps hfull =>
            split
            · exact .crowded steps hlookup hfull
            · exact .crowded steps hlookup hfull
        | room | eviction => cases havailable
      · rw [if_neg havailable, if_neg havailable]
        split
        · next hsource =>
          split
          · next hrefused =>
            rw [hprepared.restore]
            exact .refused _ hlookup hsource hrefused
          · next hgranted =>
            exact .admitted prepared table' _ _ hlookup hprepared (congrArg Prod.fst hslot) (Bool.of_not_eq_false havailable) fun _ => Bool.of_not_eq_false hgranted
        · next hsource =>
          exact .admitted prepared table' _ _ hlookup hprepared (congrArg Prod.fst hslot) (Bool.of_not_eq_false havailable) fun h => absurd h hsource

theorem arrive_bounded (globalAdmission : TokenBucket) (arrival : Arrival K) (hlen : len table.entries ≤ limits.maximumEntries) :
    (arrive limits table globalAdmission arrival).1.maintenanceSteps ≤ MAX_BUCKET_MAINTENANCE_STEPS_PER_PACKET ∧
      len (arrive limits table globalAdmission arrival).2.1.entries ≤ limits.maximumEntries := by
  rw [arrive]
  split
  · exact BucketTable.allowNewSource_bounded globalAdmission limits.globalCapacity hlen
  · exact BucketTable.allow_bounded hlen

theorem Outcome.tracked {result : BucketAdmission × BucketTable K × TokenBucket} (h : table.Tracked)
    (houtcome : Outcome limits table globalAdmission arrival result) : result.2.1.Tracked := by
  have hswept := h.sweep arrival.now limits.stale MAX_BUCKET_MAINTENANCE_STEPS_PER_PACKET
  cases houtcome with
  | known entry hlookup => exact h.takeKnown hlookup
  | crowded => exact hswept.1
  | refused => exact hswept.1
  | admitted prepared table' steps _ hlookup hprepared =>
      obtain ⟨hcommitted, hgone⟩ := hprepared.commit hswept.1 (hswept.2.lookup_none hlookup)
      exact hcommitted.insertBucket hgone steps

/-- A call without a bucket of its own is refused, and only sweeps. -/
structure Turned (limits : BucketLimits) (table : BucketTable K) (arrival : Arrival K) (result : BucketAdmission × BucketTable K × TokenBucket) :
    Prop where
  lookup_eq : result.2.1.entries.lookup arrival.key = none
  allowed_eq : result.1.allowed = false
  swept : BucketTable.Swept arrival.now limits.stale table result.2.1

/-- The bucket of the key, if there is one in the middle of the call, or a new one decides. -/
structure Asked (limits : BucketLimits) (table : BucketTable K) (arrival : Arrival K) (result : BucketAdmission × BucketTable K × TokenBucket)
    (middle : BucketTable K) (bucket : TokenBucket) : Prop where
  bucket_eq : bucket = ((middle.entries.lookup arrival.key).map BucketEntry.bucket).getD (.new limits.capacity arrival.now)
  lookup_of_middle : ∀ key entry, middle.entries.lookup key = some entry → table.entries.lookup key = some entry
  entries_eq : ∃ generation, result.2.1.entries = middle.entries.insert arrival.key
    ⟨(bucket.take limits.capacity limits.refillInterval arrival.now).2, generation⟩
  allowed_eq : result.1.allowed = (bucket.take limits.capacity limits.refillInterval arrival.now).1
  evicted_or : table.entries.lookup arrival.key = none ∧
      (table.prepareSlot limits.maximumEntries arrival.now limits.stale).1.eviction.isSome = true ∨
    BucketTable.Swept arrival.now limits.stale table middle

theorem Asked.within {result : BucketAdmission × BucketTable K × TokenBucket} {middle : BucketTable K} {bucket : TokenBucket}
    (h : Asked limits table arrival result middle bucket)
    (hentries : ∀ key entry, table.entries.lookup key = some entry → entry.bucket.Within limits.capacity arrival.now) :
    bucket.Within limits.capacity arrival.now := by
  rw [h.bucket_eq]
  cases hlookup : middle.entries.lookup arrival.key with
  | none => exact TokenBucket.within_new _ _
  | some entry => exact hentries arrival.key entry (h.lookup_of_middle _ _ hlookup)

theorem Outcome.turned_or_asked {result : BucketAdmission × BucketTable K × TokenBucket} (h : table.Tracked)
    (houtcome : Outcome limits table globalAdmission arrival result) :
    Turned limits table arrival result ∨ ∃ middle bucket, Asked limits table arrival result middle bucket := by
  have hswept := (h.sweep arrival.now limits.stale MAX_BUCKET_MAINTENANCE_STEPS_PER_PACKET).2
  cases houtcome with
  | known entry hlookup =>
      refine .inr ⟨table, entry.bucket, ?_, fun _ _ h => h, ⟨entry.generation, rfl⟩, rfl, .inr (.refl table)⟩
      rw [hlookup]
      rfl
  | crowded _ hlookup => exact .inl ⟨hswept.lookup_none hlookup, rfl, hswept⟩
  | refused _ hlookup => exact .inl ⟨hswept.lookup_none hlookup, rfl, hswept⟩
  | admitted prepared table' steps _ hlookup hprepared hslot =>
      have hmiddle := hswept.lookup_none hlookup
      refine .inr ⟨table'.commitSlot prepared.eviction, .new limits.capacity arrival.now, ?_, ?_, ⟨_, rfl⟩, rfl, ?_⟩
      · rw [(hprepared.commit (h.sweep _ _ _).1 hmiddle).2]
        rfl
      · intro key entry hentry
        exact hswept.lookup_some (hprepared.lookup_some hentry)
      · cases hprepared with
        | room | full => exact .inr hswept
        | eviction => exact .inl ⟨hlookup, by rw [hslot]; rfl⟩

theorem Outcome.turned_of_global {result : BucketAdmission × BucketTable K × TokenBucket} (h : table.Tracked)
    (houtcome : Outcome limits table globalAdmission arrival result) (hsource : arrival.newSource = true)
    (hlookup : table.entries.lookup arrival.key = none)
    (hglobal : (globalAdmission.take limits.globalCapacity limits.refillInterval arrival.now).1 = false) : Turned limits table arrival result := by
  have hswept := (h.sweep arrival.now limits.stale MAX_BUCKET_MAINTENANCE_STEPS_PER_PACKET).2
  cases houtcome with
  | known entry hknown =>
      rw [hlookup] at hknown
      cases hknown
  | crowded => exact ⟨hswept.lookup_none hlookup, rfl, hswept⟩
  | refused => exact ⟨hswept.lookup_none hlookup, rfl, hswept⟩
  | admitted _ _ _ _ _ _ _ _ hgranted =>
      rw [hgranted hsource] at hglobal
      cases hglobal

/-- A table in use, and what is kept beside it: the buckets that would be there if none was ever removed. -/
structure Admissions (K : Type) where
  table : BucketTable K
  globalAdmission : TokenBucket
  clock : Nat
  kept : K → Option TokenBucket
  evicted : Bool

namespace Admissions

variable {state : Admissions K} {arrivals : List (Arrival K)}

def init (K : Type) (limits : BucketLimits) (start : Nat) : Admissions K :=
  ⟨.default, .new limits.globalCapacity start, start, fun _ => none, false⟩

def result (limits : BucketLimits) (state : Admissions K) (arrival : Arrival K) : BucketAdmission × BucketTable K × TokenBucket :=
  arrive limits state.table state.globalAdmission arrival

/-- A call that is refused for want of a slot or by the global bucket has no bucket of its own. -/
def asks (limits : BucketLimits) (state : Admissions K) (arrival : Arrival K) : Bool :=
  ((state.result limits arrival).2.1.entries.lookup arrival.key).isSome

def evicts (limits : BucketLimits) (state : Admissions K) (arrival : Arrival K) : Bool :=
  (state.table.entries.lookup arrival.key).isNone &&
    (state.table.prepareSlot limits.maximumEntries arrival.now limits.stale).1.eviction.isSome && state.asks limits arrival

/-- What the bucket says that was kept for the key. -/
def keptTake (limits : BucketLimits) (state : Admissions K) (arrival : Arrival K) : Bool × TokenBucket :=
  ((state.kept arrival.key).getD (.new limits.capacity arrival.now)).take limits.capacity limits.refillInterval arrival.now

def next (limits : BucketLimits) (state : Admissions K) (arrival : Arrival K) : Admissions K where
  table := (state.result limits arrival).2.1
  globalAdmission := (state.result limits arrival).2.2
  clock := arrival.now
  kept := if state.asks limits arrival then Function.update state.kept arrival.key (some (state.keptTake limits arrival).2) else state.kept
  evicted := state.evicted || state.evicts limits arrival

def run (limits : BucketLimits) (start : Nat) (arrivals : List (Arrival K)) : Admissions K :=
  arrivals.foldl (next limits) (init K limits start)

/-- The buckets of the table are those that were kept, and the ones that are gone are full again. -/
structure Kept (limits : BucketLimits) (table : BucketTable K) (kept : K → Option TokenBucket) (clock : Nat) : Prop where
  known : ∀ key entry, table.entries.lookup key = some entry → kept key = some entry.bucket
  gone : ∀ key bucket, table.entries.lookup key = none → kept key = some bucket →
    bucket.lastRefill + limits.refillInterval * limits.capacity ≤ clock

variable {kept : K → Option TokenBucket} {clock now : Nat} {table' : BucketTable K}

/-- A bucket that is due has had the time to fill up. -/
theorem refilled_of_due {lastRefill : Nat} (hlast : lastRefill ≤ now) (hinstant : now + limits.refillInterval * limits.capacity ≤ latestInstant)
    (hdue : expirationFrom lastRefill limits.stale 0 ≤ now) : lastRefill + limits.refillInterval * limits.capacity ≤ now := by
  have hmax : latestInstant ≤ durationMax := by decide
  have hstale : limits.stale = limits.refillInterval * limits.capacity := min_eq_left (by omega)
  rw [hstale, expirationFrom, if_pos (by omega)] at hdue
  exact hdue

theorem Kept.sweep (h : Kept limits table kept clock) (hclock : clock ≤ now)
    (hentries : ∀ key entry, table.entries.lookup key = some entry → entry.bucket.Within limits.capacity clock)
    (hinstant : now + limits.refillInterval * limits.capacity ≤ latestInstant)
    (hswept : BucketTable.Swept now limits.stale table table') : Kept limits table' kept now where
  known key entry hlookup := by
    rcases hswept key with hsame | ⟨hgone, -⟩
    · exact h.known key entry (hsame ▸ hlookup)
    · rw [hgone] at hlookup
      cases hlookup
  gone key bucket hlookup hkept := by
    rcases hswept key with hsame | ⟨-, entry, hentry, hdue⟩
    · exact (h.gone key bucket (hsame ▸ hlookup) hkept).trans hclock
    · obtain rfl := Option.some.inj ((h.known key entry hentry).symm.trans hkept)
      exact refilled_of_due ((hentries key entry hentry).lastRefill_le.trans hclock) hinstant hdue

/-- A bucket is taken from in the table and beside it. -/
theorem Kept.insert {key : K} {entry : BucketEntry} (h : Kept limits table kept clock)
    (htable : table'.entries = table.entries.insert key entry) :
    Kept limits table' (Function.update kept key (some entry.bucket)) clock where
  known other entry' hlookup := by
    rw [htable] at hlookup
    by_cases hother : other = key
    · subst hother
      rw [Finmap.lookup_insert] at hlookup
      obtain rfl := Option.some.inj hlookup
      exact Function.update_self _ _ _
    · rw [Finmap.lookup_insert_of_ne _ hother] at hlookup
      exact (Function.update_of_ne hother _ _).trans (h.known other entry' hlookup)
  gone other bucket hlookup hkept := by
    rw [htable] at hlookup
    by_cases hother : other = key
    · subst hother
      rw [Finmap.lookup_insert] at hlookup
      cases hlookup
    · rw [Finmap.lookup_insert_of_ne _ hother] at hlookup
      exact h.gone other bucket hlookup ((Function.update_of_ne hother _ _).symm.trans hkept)

/-- A bucket that is gone decides as a new one does. -/
theorem Kept.take_new (h : Kept limits table kept now) (hpos : 0 < limits.capacity)
    (hbuckets : ∀ key bucket, kept key = some bucket → bucket.Within limits.capacity clock) {key : K} (hlookup : table.entries.lookup key = none) :
    ((kept key).getD (.new limits.capacity now)).take limits.capacity limits.refillInterval now =
      (TokenBucket.new limits.capacity now).take limits.capacity limits.refillInterval now := by
  cases hkept : kept key with
  | none => rfl
  | some bucket =>
      exact TokenBucket.take_of_stale limits.refillInterval_pos hpos limits.capacity_le (hbuckets key bucket hkept).capacity_eq
        (h.gone key bucket hlookup hkept)

/-- As long as nothing is evicted and buckets fill up at instants that there are, the buckets are kept. -/
structure Valid (limits : BucketLimits) (state : Admissions K) : Prop where
  tracked : state.table.Tracked
  bounded : len state.table.entries ≤ limits.maximumEntries
  entries : ∀ key entry, state.table.entries.lookup key = some entry → entry.bucket.Within limits.capacity state.clock
  buckets : ∀ key bucket, state.kept key = some bucket → bucket.Within limits.capacity state.clock
  keeps : state.evicted = false → 0 < limits.capacity → state.clock + limits.refillInterval * limits.capacity ≤ latestInstant →
    Kept limits state.table state.kept state.clock

theorem valid_init (limits : BucketLimits) (start : Nat) : (init K limits start).Valid limits where
  tracked := BucketTable.tracked_default
  bounded := Nat.zero_le _
  entries _ _ h := by cases h
  buckets _ _ h := by cases h
  keeps _ _ _ := ⟨fun _ _ h => (by cases h), fun _ _ _ h => (by cases h)⟩

theorem asks_eq_false (h : Turned limits state.table arrival (state.result limits arrival)) : state.asks limits arrival = false := by
  rw [asks, h.lookup_eq]
  rfl

theorem asks_eq_true {middle : BucketTable K} {bucket : TokenBucket}
    (h : Asked limits state.table arrival (state.result limits arrival) middle bucket) : state.asks limits arrival = true := by
  obtain ⟨generation, hentries⟩ := h.entries_eq
  rw [asks, hentries, Finmap.lookup_insert]
  rfl

/-- Unless something is evicted, only sweeping comes before the decision. -/
theorem swept_of_asked {middle : BucketTable K} {bucket : TokenBucket}
    (h : Asked limits state.table arrival (state.result limits arrival) middle bucket) (hevicts : state.evicts limits arrival = false) :
    BucketTable.Swept arrival.now limits.stale state.table middle := by
  rcases h.evicted_or with ⟨hlookup, heviction⟩ | hswept
  · rw [evicts, hlookup, heviction, asks_eq_true h] at hevicts
    cases hevicts
  · exact hswept

/-- The bucket that decides does so as the one that was kept. -/
theorem keptTake_eq {middle : BucketTable K} {bucket : TokenBucket} (h : state.Valid limits)
    (hasked : Asked limits state.table arrival (state.result limits arrival) middle bucket) (hpos : 0 < limits.capacity)
    (hkept : Kept limits middle state.kept arrival.now) :
    state.keptTake limits arrival = bucket.take limits.capacity limits.refillInterval arrival.now := by
  rw [keptTake, hasked.bucket_eq]
  cases hlookup : middle.entries.lookup arrival.key with
  | some entry =>
      rw [hkept.known arrival.key entry hlookup]
      rfl
  | none => exact hkept.take_new hpos h.buckets hlookup

theorem Valid.kept_within (h : state.Valid limits) (hclock : state.clock ≤ arrival.now) :
    ((state.kept arrival.key).getD (.new limits.capacity arrival.now)).Within limits.capacity arrival.now := by
  cases hkept : state.kept arrival.key with
  | none => exact TokenBucket.within_new _ _
  | some bucket => exact (h.buckets arrival.key bucket hkept).mono hclock

/-- A call finds the buckets kept in order. -/
theorem Valid.next (h : state.Valid limits) (hclock : state.clock ≤ arrival.now) : (state.next limits arrival).Valid limits := by
  have houtcome : Outcome limits state.table state.globalAdmission arrival (state.result limits arrival) := h.tracked.arrive
  have htracked := houtcome.tracked h.tracked
  have hbounded := (arrive_bounded state.globalAdmission arrival h.bounded).2
  have hentries : ∀ key entry, state.table.entries.lookup key = some entry → entry.bucket.Within limits.capacity arrival.now :=
    fun key entry hlookup => (h.entries key entry hlookup).mono hclock
  have hbuckets : ∀ key bucket, state.kept key = some bucket → bucket.Within limits.capacity arrival.now :=
    fun key bucket hkept => (h.buckets key bucket hkept).mono hclock
  rcases houtcome.turned_or_asked h.tracked with hturned | ⟨middle, bucket, hasked⟩
  · have hasks := asks_eq_false hturned
    refine ⟨htracked, hbounded, fun key entry hlookup => hentries key entry (hturned.swept.lookup_some hlookup), ?_, ?_⟩
    · rw [Admissions.next, hasks]
      exact hbuckets
    · intro hevicted hpos hinstant
      have hkept := h.keeps (Bool.or_eq_false_iff.mp hevicted).1 hpos ((Nat.add_le_add_right hclock _).trans hinstant)
      rw [Admissions.next, hasks]
      exact hkept.sweep hclock h.entries hinstant hturned.swept
  · have hasks := asks_eq_true hasked
    obtain ⟨generation, hentry⟩ := hasked.entries_eq
    have hbucket := hasked.within hentries
    refine ⟨htracked, hbounded, fun key entry hlookup => ?_, fun key other hother => ?_, ?_⟩
    · change (state.result limits arrival).2.1.entries.lookup key = some entry at hlookup
      rw [hentry] at hlookup
      by_cases hkey : key = arrival.key
      · subst hkey
        rw [Finmap.lookup_insert] at hlookup
        obtain rfl := Option.some.inj hlookup
        exact hbucket.take
      · rw [Finmap.lookup_insert_of_ne _ hkey] at hlookup
        exact hentries key entry (hasked.lookup_of_middle _ _ hlookup)
    · rw [Admissions.next, hasks] at hother
      dsimp only at hother
      rw [if_pos rfl] at hother
      by_cases hkey : key = arrival.key
      · subst hkey
        rw [Function.update_self] at hother
        obtain rfl := Option.some.inj hother
        exact (h.kept_within hclock).take
      · rw [Function.update_of_ne hkey] at hother
        exact hbuckets key other hother
    · intro hevicted hpos hinstant
      obtain ⟨hbefore, hevicts⟩ := Bool.or_eq_false_iff.mp hevicted
      have hkept := h.keeps hbefore hpos ((Nat.add_le_add_right hclock _).trans hinstant)
      have hmiddle := hkept.sweep hclock h.entries hinstant (swept_of_asked hasked hevicts)
      have htake := keptTake_eq h hasked hpos hmiddle
      rw [Admissions.next, hasks, if_pos rfl, htake]
      exact hmiddle.insert hentry

theorem valid_run (limits : BucketLimits) {start : Nat} (hmonotone : (start :: arrivals.map Arrival.now).Pairwise (· ≤ ·)) :
    (run limits start arrivals).Valid limits ∧ ∀ time, start ≤ time → (∀ arrival ∈ arrivals, arrival.now ≤ time) →
      (run limits start arrivals).clock ≤ time := by
  induction arrivals using List.reverseRecOn with
  | nil => exact ⟨valid_init limits start, fun time htime _ => htime⟩
  | append_singleton arrivals arrival ih =>
      rw [List.map_append, ← List.cons_append, List.pairwise_append] at hmonotone
      obtain ⟨hsorted, -, hlast⟩ := hmonotone
      obtain ⟨hvalid, hclock⟩ := ih hsorted
      have hlast : ∀ time ∈ start :: arrivals.map Arrival.now, time ≤ arrival.now := fun time htime => hlast time htime _ List.mem_cons_self
      have hle := hclock arrival.now (hlast start List.mem_cons_self) fun other hother =>
        hlast other.now (List.mem_cons_of_mem _ (List.mem_map_of_mem hother))
      rw [run, List.foldl_append, List.foldl_cons, List.foldl_nil]
      exact ⟨hvalid.next hle, fun time _ htime => htime arrival (List.mem_append_right _ List.mem_cons_self)⟩

/-- Without capacity both tables refuse. -/
theorem Valid.refused_of_empty {middle : BucketTable K} {bucket : TokenBucket} (h : state.Valid limits) (hclock : state.clock ≤ arrival.now)
    (hasked : Asked limits state.table arrival (state.result limits arrival) middle bucket) (hzero : limits.capacity = 0) :
    (bucket.take limits.capacity limits.refillInterval arrival.now).1 = (state.keptTake limits arrival).1 := by
  have hnone : ∀ bucket : TokenBucket, bucket.Within limits.capacity arrival.now →
      (bucket.take limits.capacity limits.refillInterval arrival.now).1 = false := by
    rw [hzero]
    exact fun bucket hbucket => TokenBucket.take_of_empty hbucket.capacity_eq hbucket.tokens_le
  rw [keptTake, hnone _ (hasked.within fun key entry hlookup => (h.entries key entry hlookup).mono hclock), hnone _ (h.kept_within hclock)]

/-- Over a run the table is bounded, every bucket has one expiry of its generation, and a call does a bounded amount of upkeep.
A call without a bucket is refused and only sweeps, as one that the global bucket refuses; as long as nothing is evicted
every other is decided by the bucket that was kept for its key. -/
theorem table_sound (limits : BucketLimits) (start : Nat) (arrivals : List (Arrival K)) (arrival : Arrival K)
    (hmonotone : (start :: (arrivals ++ [arrival]).map Arrival.now).Pairwise (· ≤ ·)) :
    let before := run limits start arrivals
    let after := run limits start (arrivals ++ [arrival])
    let admission := (before.result limits arrival).1
    len after.table.entries ≤ limits.maximumEntries ∧
      (∀ key entry, after.table.entries.lookup key = some entry →
        after.table.expirations.countP (fun expiry => expiry.key = key ∧ expiry.generation = entry.generation) = 1 ∧
          ∀ expiry ∈ after.table.expirations, expiry.key = key → expiry.generation = entry.generation) ∧
      admission.maintenanceSteps ≤ MAX_BUCKET_MAINTENANCE_STEPS_PER_PACKET ∧
      (arrival.newSource = true → before.table.entries.lookup arrival.key = none →
        (before.globalAdmission.take limits.globalCapacity limits.refillInterval arrival.now).1 = false → before.asks limits arrival = false) ∧
      (before.asks limits arrival = false → admission.allowed = false ∧
        ∀ key, (after.table.entries.lookup key = before.table.entries.lookup key ∧
            ∀ generation, after.table.Queues key generation ↔ before.table.Queues key generation) ∨
          (after.table.entries.lookup key = none ∧ (∀ generation, ¬after.table.Queues key generation) ∧
            ∃ entry, before.table.entries.lookup key = some entry ∧
              expirationFrom entry.bucket.lastRefill limits.stale 0 ≤ arrival.now)) ∧
      (before.asks limits arrival = true → after.evicted = false →
        arrival.now + limits.refillInterval * limits.capacity ≤ latestInstant →
          admission.allowed = (before.keptTake limits arrival).1) := by
  dsimp only
  have hsorted : (start :: arrivals.map Arrival.now).Pairwise (· ≤ ·) := by
    rw [List.map_append, ← List.cons_append] at hmonotone
    exact (List.pairwise_append.mp hmonotone).1
  obtain ⟨hvalid, hclock⟩ := valid_run limits hsorted
  obtain ⟨hafter, -⟩ := valid_run limits hmonotone
  have hle : (run limits start arrivals).clock ≤ arrival.now := by
    rw [List.map_append, ← List.cons_append] at hmonotone
    have hlast := (List.pairwise_append.mp hmonotone).2.2
    exact hclock arrival.now (hlast start List.mem_cons_self _ List.mem_cons_self) fun other hother =>
      hlast other.now (List.mem_cons_of_mem _ (List.mem_map_of_mem hother)) _ List.mem_cons_self
  have hrun : run limits start (arrivals ++ [arrival]) = (run limits start arrivals).next limits arrival := by
    rw [run, List.foldl_append]
    rfl
  rw [hrun] at hafter ⊢
  generalize run limits start arrivals = before at hvalid hle hafter ⊢
  have houtcome : Outcome limits before.table before.globalAdmission arrival (before.result limits arrival) := hvalid.tracked.arrive
  refine ⟨hafter.bounded, fun key entry hlookup => ⟨hafter.tracked.count hlookup, fun expiry hexpiry hkey => ?_⟩,
    (arrive_bounded before.globalAdmission arrival hvalid.bounded).1, fun hsource hlookup hglobal => ?_, fun hasks => ?_, fun hasks hevicted hinstant => ?_⟩
  · have hqueued := hafter.tracked.queues_iff.mp ⟨expiry, hexpiry, hkey, rfl⟩
    rw [hlookup, Option.map_some] at hqueued
    exact (Option.some.inj hqueued).symm
  · exact asks_eq_false (houtcome.turned_of_global hvalid.tracked hsource hlookup hglobal)
  · rcases houtcome.turned_or_asked hvalid.tracked with hturned | ⟨middle, bucket, hasked⟩
    · refine ⟨hturned.allowed_eq, fun key => ?_⟩
      rcases hturned.swept key with hsame | ⟨hgone, hdue⟩
      · refine .inl ⟨hsame, fun generation => ?_⟩
        rw [hafter.tracked.queues_iff, hvalid.tracked.queues_iff]
        exact iff_of_eq (congrArg (fun lookup => Option.map BucketEntry.generation lookup = some generation) hsame)
      · refine .inr ⟨hgone, fun generation hqueued => ?_, hdue⟩
        have hlookup := hafter.tracked.queues_iff.mp hqueued
        rw [show ((before.next limits arrival).table.entries.lookup key) = none from hgone] at hlookup
        cases hlookup
    · rw [asks_eq_true hasked] at hasks
      cases hasks
  · rcases houtcome.turned_or_asked hvalid.tracked with hturned | ⟨middle, bucket, hasked⟩
    · rw [asks_eq_false hturned] at hasks
      cases hasks
    · rw [hasked.allowed_eq]
      rcases Nat.eq_zero_or_pos limits.capacity with hzero | hpos
      · exact hvalid.refused_of_empty hle hasked hzero
      · obtain ⟨hbefore, hevicts⟩ := Bool.or_eq_false_iff.mp hevicted
        have hkept := hvalid.keeps hbefore hpos ((Nat.add_le_add_right hle _).trans hinstant)
        have hmiddle := hkept.sweep hle hvalid.entries hinstant (swept_of_asked hasked hevicts)
        rw [keptTake_eq hvalid hasked hpos hmiddle]

/-- A second source, then the first again: it is refused while the second waits for the global bucket. -/
theorem table_sound_second : (run ⟨5, 1, 10, 1, by decide, by decide⟩ 0 [⟨1, true, 0⟩, ⟨2, true, 9⟩] : Admissions Nat).asks
    ⟨5, 1, 10, 1, by decide, by decide⟩ ⟨2, true, 9⟩ = false :=
  (table_sound ⟨5, 1, 10, 1, by decide, by decide⟩ 0 [⟨1, true, 0⟩, ⟨2, true, 9⟩] ⟨2, true, 9⟩ (by decide)).2.2.2.1 rfl
    (by decide) (by decide)

/-- A source that was forgotten needs the global bucket again, a source without a slot is refused, and a bucket
that fills up after the last instant there is resets. -/
theorem removal_observable :
    (¬∀ (limits : BucketLimits) (arrivals : List (Arrival Nat)) (arrival : Arrival Nat) (bucket : TokenBucket),
      (0 :: (arrivals ++ [arrival]).map Arrival.now).Pairwise (· ≤ ·) → (run limits 0 (arrivals ++ [arrival])).evicted = false →
        (run limits 0 arrivals).kept arrival.key = some bucket →
          ((run limits 0 arrivals).result limits arrival).1.allowed = (bucket.take limits.capacity limits.refillInterval arrival.now).1) ∧
      (¬∀ (limits : BucketLimits) (arrival : Arrival Nat), arrival.newSource = false → (run limits 0 [arrival]).evicted = false →
        ((run limits 0 []).result limits arrival).1.allowed = ((run limits 0 []).keptTake limits arrival).1) ∧
      ¬∀ (limits : BucketLimits) (arrivals : List (Arrival Nat)) (arrival : Arrival Nat),
        (0 :: (arrivals ++ [arrival]).map Arrival.now).Pairwise (· ≤ ·) → (run limits 0 (arrivals ++ [arrival])).evicted = false →
          (run limits 0 arrivals).asks limits arrival = true →
            ((run limits 0 arrivals).result limits arrival).1.allowed = ((run limits 0 arrivals).keptTake limits arrival).1 := by
  refine ⟨fun h => ?_, fun h => ?_, fun h => ?_⟩
  · exact absurd (h ⟨5, 1, 10, 1, by decide, by decide⟩ [⟨1, true, 0⟩, ⟨2, true, 10⟩] ⟨1, true, 10⟩ ⟨1, 0, 0⟩ (by decide) (by decide) (by decide))
      (by decide)
  · exact absurd (h ⟨0, 1, 10, 1, by decide, by decide⟩ ⟨1, false, 0⟩ rfl (by decide)) (by decide)
  · exact absurd (h ⟨5, 1, latestInstant + 1, 1, by decide, by decide⟩ [⟨1, false, 0⟩, ⟨2, false, 1⟩] ⟨1, false, 1⟩ (by decide) (by decide)
      (by decide)) (by decide)

end Admissions

end Admit

end Rustgo.Observation
