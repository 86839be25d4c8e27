import Rustgo.ChannelBindings
import Rustgo.PeerBucket
import Rustgo.SocketAddr

namespace Rustgo.Observation

open Tables
open Bindings (latestInstant)

def MAX_BUCKET_MAINTENANCE_STEPS_PER_PACKET : Nat := 4

def u32Max : Nat := 2 ^ 32 - 1

/-- The longest duration, in nanoseconds: the seconds are an unsigned 64-bit number. -/
def durationMax : Nat := 2 ^ 64 * 1000000000 - 1

structure TokenBucket where
  capacity : Nat
  tokens : Nat
  lastRefill : Nat
  deriving DecidableEq

namespace TokenBucket

def new (capacity now : Nat) : TokenBucket := ⟨capacity, capacity, now⟩

def refill (bucket : TokenBucket) (capacity refillInterval now : Nat) : TokenBucket :=
  let refill := (now - bucket.lastRefill) / refillInterval
  if 0 < refill then ⟨bucket.capacity, min (min (bucket.tokens + min refill u32Max) u32Max) capacity, now⟩ else bucket

def take (bucket : TokenBucket) (capacity refillInterval now : Nat) : Bool × TokenBucket :=
  let bucket := (if bucket.capacity = capacity then bucket else .new capacity now).refill capacity refillInterval now
  if bucket.tokens = 0 then (false, bucket) else (true, { bucket with tokens := bucket.tokens - 1 })

end TokenBucket

structure BucketEntry where
  bucket : TokenBucket
  generation : Nat
  deriving DecidableEq

structure BucketExpiry (K : Type) where
  key : K
  generation : Nat
  expiresAt : Nat

structure BucketTable (K : Type) where
  entries : Table K BucketEntry
  expirations : List (BucketExpiry K)
  nextGeneration : Nat

structure BucketAdmission where
  allowed : Bool
  maintenanceSteps : Nat
  deriving DecidableEq

structure PreparedBucketSlot (K : Type) where
  eviction : Option (BucketExpiry K)
  maintenanceSteps : Nat
  available : Bool

def expirationFrom (now staleAfter fallback : Nat) : Nat :=
  if now + staleAfter ≤ latestInstant then now + staleAfter
  else if now + fallback ≤ latestInstant then now + fallback
  else now

/-- How long a bucket takes to fill up. -/
def staleAfter (refillInterval capacity : Nat) : Nat := min (refillInterval * capacity) durationMax

namespace BucketTable

variable {K : Type} [DecidableEq K]

def default : BucketTable K := ⟨∅, [], 1⟩

/-- The expiry names the bucket that is there now, not an earlier one of that key. -/
def isCurrent (table : BucketTable K) (expiry : BucketExpiry K) : Bool :=
  (table.entries.lookup expiry.key).any (·.generation = expiry.generation)

/-- What becomes of a due expiry that has been popped: a bucket refilled in the
meantime is due later. -/
def review (table : BucketTable K) (expiry : BucketExpiry K) (now staleAfter : Nat) : BucketTable K :=
  match table.entries.lookup expiry.key with
  | none => table
  | some entry =>
      if entry.generation ≠ expiry.generation then table
      else
        let expiresAt := expirationFrom entry.bucket.lastRefill staleAfter 0
        if expiresAt ≤ now then { table with entries := table.entries.erase expiry.key }
        else { table with expirations := table.expirations ++ [{ expiry with expiresAt := expiresAt }] }

/-- At most `steps` expiries are reviewed; the number of those that were is returned. -/
def sweep (table : BucketTable K) (now staleAfter : Nat) : Nat → Nat × BucketTable K
  | 0 => (0, table)
  | steps + 1 =>
      match table.expirations with
      | [] => (0, table)
      | expiry :: rest =>
          if now < expiry.expiresAt then (0, table)
          else
            let (done, table) := (({ table with expirations := rest } : BucketTable K).review expiry now staleAfter).sweep now staleAfter steps
            (done + 1, table)

def sweepExpired (table : BucketTable K) (now staleAfter : Nat) : Nat × BucketTable K :=
  table.sweep now staleAfter MAX_BUCKET_MAINTENANCE_STEPS_PER_PACKET

/-- Pops at most `steps` expiries, up to the first that is current. -/
def popCurrent (table : BucketTable K) : Nat → Nat × Option (BucketExpiry K) × BucketTable K
  | 0 => (0, none, table)
  | steps + 1 =>
      match table.expirations with
      | [] => (0, none, table)
      | expiry :: rest =>
          let popped : BucketTable K := { table with expirations := rest }
          if popped.isCurrent expiry then (1, some expiry, popped)
          else
            let (done, eviction, table) := popped.popCurrent steps
            (done + 1, eviction, table)

def prepareSlot (table : BucketTable K) (maximumEntries now staleAfter : Nat) : PreparedBucketSlot K × BucketTable K :=
  let (swept, table) := table.sweepExpired now staleAfter
  if maximumEntries ≤ len table.entries then
    let (popped, eviction, table) := table.popCurrent (MAX_BUCKET_MAINTENANCE_STEPS_PER_PACKET - swept)
    (⟨eviction, swept + popped, eviction.isSome⟩, table)
  else (⟨none, swept, true⟩, table)

def commitSlot (table : BucketTable K) (eviction : Option (BucketExpiry K)) : BucketTable K :=
  match eviction with
  | some expiry => { table with entries := table.entries.erase expiry.key }
  | none => table

def restoreSlot (table : BucketTable K) (eviction : Option (BucketExpiry K)) : BucketTable K :=
  match eviction with
  | some expiry => { table with expirations := expiry :: table.expirations }
  | none => table

def insertBucket (table : BucketTable K) (key : K) (capacity refillInterval now staleAfter maintenanceSteps : Nat) :
    BucketAdmission × BucketTable K :=
  let generation := table.nextGeneration
  let (allowed, bucket) := (TokenBucket.new capacity now).take capacity refillInterval now
  (⟨allowed, maintenanceSteps⟩,
    ⟨table.entries.insert key ⟨bucket, generation⟩,
      table.expirations ++ [⟨key, generation, expirationFrom now staleAfter refillInterval⟩],
      max ((generation + 1) % 2 ^ 64) 1⟩)

/-- A key that has a bucket takes from it. -/
def takeKnown (table : BucketTable K) (key : K) (entry : BucketEntry) (capacity refillInterval now : Nat) :
    BucketAdmission × BucketTable K :=
  let (allowed, bucket) := entry.bucket.take capacity refillInterval now
  (⟨allowed, 0⟩, { table with entries := table.entries.insert key { entry with bucket := bucket } })

def allow (table : BucketTable K) (key : K) (maximumEntries capacity refillInterval now : Nat) :
    BucketAdmission × BucketTable K :=
  match table.entries.lookup key with
  | some entry => table.takeKnown key entry capacity refillInterval now
  | none =>
      let stale := staleAfter refillInterval capacity
      let (prepared, table) := table.prepareSlot maximumEntries now stale
      if prepared.available = false then (⟨false, prepared.maintenanceSteps⟩, table)
      else (table.commitSlot prepared.eviction).insertBucket key capacity refillInterval now stale prepared.maintenanceSteps

def allowNewSource (table : BucketTable K) (key : K) (maximumEntries capacity refillInterval now : Nat)
    (globalAdmission : TokenBucket) (globalCapacity : Nat) : BucketAdmission × BucketTable K × TokenBucket :=
  match table.entries.lookup key with
  | some entry =>
      let (admission, table) := table.takeKnown key entry capacity refillInterval now
      (admission, table, globalAdmission)
  | none =>
      let stale := staleAfter refillInterval capacity
      let (prepared, table) := table.prepareSlot maximumEntries now stale
      if prepared.available = false then (⟨false, prepared.maintenanceSteps⟩, table, globalAdmission)
      else
        let (admitted, globalAdmission) := globalAdmission.take globalCapacity refillInterval now
        if admitted = false then
          (⟨false, prepared.maintenanceSteps⟩, table.restoreSlot prepared.eviction, globalAdmission)
        else
          let (admission, table) := (table.commitSlot prepared.eviction).insertBucket key capacity refillInterval now stale
            prepared.maintenanceSteps
          (admission, table, globalAdmission)

variable {table : BucketTable K} {key : K} {now stale capacity refillInterval maximumEntries : Nat}

theorem len_review_le (table : BucketTable K) (expiry : BucketExpiry K) (now stale : Nat) :
    len (table.review expiry now stale).entries ≤ len table.entries := by
  rw [review]
  split
  · exact le_refl _
  · split
    · exact le_refl _
    · dsimp only
      split
      · exact len_erase_le _ _
      · exact le_refl _

theorem sweep_bounded (table : BucketTable K) (now stale steps : Nat) :
    (table.sweep now stale steps).1 ≤ steps ∧ len (table.sweep now stale steps).2.entries ≤ len table.entries := by
  induction steps generalizing table with
  | zero => exact ⟨le_refl _, le_refl _⟩
  | succ steps ih =>
      rw [sweep]
      split
      · exact ⟨Nat.zero_le _, le_refl _⟩
      · next expiry rest hrest =>
        split
        · exact ⟨Nat.zero_le _, le_refl _⟩
        · obtain ⟨hsteps, hlen⟩ := ih (({ table with expirations := rest } : BucketTable K).review expiry now stale)
          exact ⟨Nat.succ_le_succ hsteps, hlen.trans (len_review_le _ _ _ _)⟩

/-- Popping leaves the buckets alone, and stops at one that is there. -/
theorem popCurrent_cases (table : BucketTable K) (steps : Nat) :
    (table.popCurrent steps).1 ≤ steps ∧ (table.popCurrent steps).2.2.entries = table.entries ∧
      ∀ expiry, (table.popCurrent steps).2.1 = some expiry → table.isCurrent expiry = true := by
  induction steps generalizing table with
  | zero => exact ⟨le_refl _, rfl, fun expiry h => by cases h⟩
  | succ steps ih =>
      rw [popCurrent]
      split
      · exact ⟨Nat.zero_le _, rfl, fun expiry h => by cases h⟩
      · next expiry rest hrest =>
        dsimp only
        split
        · next hcurrent =>
          refine ⟨Nat.succ_le_succ (Nat.zero_le _), rfl, fun other h => ?_⟩
          obtain rfl := Option.some.inj h
          exact hcurrent
        · obtain ⟨hsteps, hentries, hcurrent⟩ := ih { table with expirations := rest }
          exact ⟨Nat.succ_le_succ hsteps, hentries, hcurrent⟩

/-- One packet pays for a bounded amount of upkeep, and a slot that is found
available is free once its eviction is committed. -/
theorem prepareSlot_bounded (table : BucketTable K) (maximumEntries now stale : Nat) (hlen : len table.entries ≤ maximumEntries) :
    (table.prepareSlot maximumEntries now stale).1.maintenanceSteps ≤ MAX_BUCKET_MAINTENANCE_STEPS_PER_PACKET ∧
      len (table.prepareSlot maximumEntries now stale).2.entries ≤ maximumEntries ∧
      ((table.prepareSlot maximumEntries now stale).1.available = true →
        len ((table.prepareSlot maximumEntries now stale).2.commitSlot
          (table.prepareSlot maximumEntries now stale).1.eviction).entries < maximumEntries) := by
  obtain ⟨hswept, hle⟩ := sweep_bounded table now stale MAX_BUCKET_MAINTENANCE_STEPS_PER_PACKET
  rw [prepareSlot, sweepExpired]
  generalize table.sweep now stale MAX_BUCKET_MAINTENANCE_STEPS_PER_PACKET = swept at hswept hle ⊢
  obtain ⟨done, table'⟩ := swept
  dsimp only at hswept hle ⊢
  split
  · obtain ⟨hpopped, hentries, hcurrent⟩ := popCurrent_cases table' (MAX_BUCKET_MAINTENANCE_STEPS_PER_PACKET - done)
    generalize table'.popCurrent (MAX_BUCKET_MAINTENANCE_STEPS_PER_PACKET - done) = popped at hpopped hentries hcurrent ⊢
    obtain ⟨more, eviction, last⟩ := popped
    dsimp only at hpopped hentries hcurrent ⊢
    refine ⟨by omega, hentries ▸ hle.trans hlen, fun havailable => ?_⟩
    obtain ⟨expiry, rfl⟩ := Option.isSome_iff_exists.mp havailable
    obtain ⟨entry, hentry, -⟩ := (Option.any_eq_true _ _).mp (hcurrent expiry rfl)
    have herase := len_erase hentry
    rw [commitSlot, hentries]
    dsimp only
    omega
  · next hroom => exact ⟨hswept, hle.trans hlen, fun _ => not_le.mp hroom⟩

theorem takeKnown_bounded {entry : BucketEntry} (capacity refillInterval now : Nat) (hlookup : table.entries.lookup key = some entry) :
    (table.takeKnown key entry capacity refillInterval now).1.maintenanceSteps = 0 ∧
      len (table.takeKnown key entry capacity refillInterval now).2.entries = len table.entries := by
  exact ⟨rfl, len_replace hlookup⟩

/-- The assertions on the upkeep hold, and the table stays within its bound. -/
theorem allow_bounded (hlen : len table.entries ≤ maximumEntries) :
    (table.allow key maximumEntries capacity refillInterval now).1.maintenanceSteps ≤ MAX_BUCKET_MAINTENANCE_STEPS_PER_PACKET ∧
      len (table.allow key maximumEntries capacity refillInterval now).2.entries ≤ maximumEntries := by
  rw [allow]
  split
  · next entry hlookup =>
    obtain ⟨hsteps, hentries⟩ := takeKnown_bounded capacity refillInterval now hlookup
    exact ⟨hsteps.trans_le (Nat.zero_le _), hentries.trans_le hlen⟩
  · obtain ⟨hsteps, hle, hfree⟩ := prepareSlot_bounded table maximumEntries now (staleAfter refillInterval capacity) hlen
    dsimp only
    split
    · exact ⟨hsteps, hle⟩
    · next havailable => exact ⟨hsteps, (len_insert_le _ _ _).trans (by rw [Nat.add_comm]; exact hfree (Bool.of_not_eq_false havailable))⟩

theorem allowNewSource_bounded (globalAdmission : TokenBucket) (globalCapacity : Nat) (hlen : len table.entries ≤ maximumEntries) :
    (table.allowNewSource key maximumEntries capacity refillInterval now globalAdmission globalCapacity).1.maintenanceSteps ≤
        MAX_BUCKET_MAINTENANCE_STEPS_PER_PACKET ∧
      len (table.allowNewSource key maximumEntries capacity refillInterval now globalAdmission globalCapacity).2.1.entries ≤
        maximumEntries := by
  rw [allowNewSource]
  split
  · next entry hlookup =>
    obtain ⟨hsteps, hentries⟩ := takeKnown_bounded capacity refillInterval now hlookup
    exact ⟨hsteps.trans_le (Nat.zero_le _), hentries.trans_le hlen⟩
  · obtain ⟨hsteps, hle, hfree⟩ := prepareSlot_bounded table maximumEntries now (staleAfter refillInterval capacity) hlen
    dsimp only
    split
    · exact ⟨hsteps, hle⟩
    · next havailable =>
      split
      · refine ⟨hsteps, ?_⟩
        unfold restoreSlot
        split
        · exact hle
        · exact hle
      · exact ⟨hsteps, (len_insert_le _ _ _).trans (by rw [Nat.add_comm]; exact hfree (Bool.of_not_eq_false havailable))⟩

end BucketTable

/-- An IPv4-mapped address shares the bucket of its IPv4 address. -/
def canonicalIp : IpAddr → IpAddr
  | .v6 octets => (SocketAddr.toIpv4Mapped octets).elim (.v6 octets) .v4
  | .v4 octets => .v4 octets

end Rustgo.Observation
