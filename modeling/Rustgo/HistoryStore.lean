import Mathlib.Algebra.BigOperators.Group.Finset.Basic
import Mathlib.Algebra.Order.Monoid.Unbundled.WithTop
import Mathlib.Data.Rat.Defs
import Mathlib.Data.String.Basic
import Rustgo.Checks
import Rustgo.Tables

namespace Rustgo.History

open Checks Tables

inductive HistoryMetric
  | cpuBasisPoints
  | processCpuBasisPoints
  | memoryUsedBytes
  | memoryTotalBytes
  | processMemoryBytes
  | diskUsedBytes
  | diskTotalBytes
  | diskReadBytesPerSecond
  | diskWriteBytesPerSecond
  | networkRxBytesPerSecond
  | networkTxBytesPerSecond
  | trafficReceivedBytes
  | trafficSentBytes
  deriving DecidableEq

def HistoryMetric.all : List HistoryMetric :=
  [.cpuBasisPoints, .processCpuBasisPoints, .memoryUsedBytes, .memoryTotalBytes, .processMemoryBytes, .diskUsedBytes,
    .diskTotalBytes, .diskReadBytesPerSecond, .diskWriteBytesPerSecond, .networkRxBytesPerSecond,
    .networkTxBytesPerSecond, .trafficReceivedBytes, .trafficSentBytes]

theorem HistoryMetric.mem_all (metric : HistoryMetric) : metric ∈ all := by
  cases metric <;> decide

inductive HistoryScope
  | server
  | client (name : String)
  deriving DecidableEq

/-- An aggregate resolution. -/
inductive Tier
  | oneMinute
  | fiveMinutes
  deriving DecidableEq

inductive Resolution
  | raw
  | tier (tier : Tier)
  deriving DecidableEq

def RAW_RETENTION_MILLIS : Nat := 60 * 60 * 1000
def ONE_MINUTE_RETENTION_MILLIS : Nat := 24 * RAW_RETENTION_MILLIS
def MINUTE_BUCKET_MILLIS : Nat := 60 * 1000
def FIVE_MINUTE_BUCKET_MILLIS : Nat := 5 * MINUTE_BUCKET_MILLIS
def DURABLE_RETIREMENT_FLOOR_TAG : Nat := 2 ^ 62

def Tier.width : Tier → Nat
  | .oneMinute => MINUTE_BUCKET_MILLIS
  | .fiveMinutes => FIVE_MINUTE_BUCKET_MILLIS

structure HostMetrics where
  cpuBasisPoints : Option UInt16
  processCpuBasisPoints : Option UInt16
  memoryUsedBytes : Option UInt64
  memoryTotalBytes : Option UInt64
  processMemoryBytes : Option UInt64
  diskUsedBytes : Option UInt64
  diskTotalBytes : Option UInt64
  diskReadBytesPerSec : Option UInt64
  diskWriteBytesPerSec : Option UInt64
  networkRxBytesPerSec : Option UInt64
  networkTxBytesPerSec : Option UInt64

structure TrafficCounters where
  receivedBytes : UInt64
  sentBytes : UInt64

structure ServerHistorySample where
  timestamp : Nat
  metrics : HostMetrics
  traffic : TrafficCounters

structure ClientHistorySample where
  client : String
  timestamp : Nat
  metrics : HostMetrics
  traffic : TrafficCounters

structure HistoryBatch where
  serverPoints : List ServerHistorySample
  clientPoints : List ClientHistorySample

inductive DatabaseError
  | interrupted
  | valueOutOfRange (field : String)
  deriving DecidableEq

structure RowKey where
  scope : HistoryScope
  resolution : Resolution
  timestamp : Nat
  metric : HistoryMetric
  deriving DecidableEq

structure Row where
  value : ℚ
  sampleCount : Nat
  isLatest : Bool
  deriving DecidableEq

structure TombstoneKey where
  scope : HistoryScope
  tier : Tier
  timestamp : Nat
  deriving DecidableEq

/-- The metric points of both tables, the tombstones with the times of their
deletion, and the column that holds the retirement evidence. -/
structure Store where
  rows : Table RowKey Row
  tombstones : Table TombstoneKey Nat
  lastMaintenance : Nat

def saturatingAdd (a b : Nat) : Nat := min (a + b) (2 ^ 64 - 1)

def bucketStart (timestamp width : Nat) : Nat := timestamp / width * width

def sqliteInteger (value : Nat) (field : String) : Except DatabaseError Nat := do
  require (value < 2 ^ 63) (.valueOutOfRange field)
  pure value

def rawAdmissionCutoff (workerClock : Nat) : Nat :=
  let cutoff := workerClock - RAW_RETENTION_MILLIS
  if cutoff = 0 then 0
  else saturatingAdd cutoff (FIVE_MINUTE_BUCKET_MILLIS - 1) / FIVE_MINUTE_BUCKET_MILLIS * FIVE_MINUTE_BUCKET_MILLIS

def encodeDurableRetirementFloor (cutoff : Nat) : Except DatabaseError Nat := do
  require (DURABLE_RETIREMENT_FLOOR_TAG + cutoff < 2 ^ 63) (.valueOutOfRange "durable raw retirement floor")
  pure (DURABLE_RETIREMENT_FLOOR_TAG + cutoff)

def decodeDurableRetirementFloor (evidence : Nat) : Nat := evidence - DURABLE_RETIREMENT_FLOOR_TAG

namespace Store

def new : Store := ⟨∅, ∅, 0⟩

/-- No sample below the floor is admitted again. -/
def floor (store : Store) : Nat := decodeDurableRetirementFloor store.lastMaintenance

def sampleIntersectsTombstone (store : Store) (scope : HistoryScope) (timestamp : Nat) : Except DatabaseError Bool := do
  let minute ← sqliteInteger (bucketStart timestamp MINUTE_BUCKET_MILLIS) "minute tombstone timestamp"
  let fiveMinutes ← sqliteInteger (bucketStart timestamp FIVE_MINUTE_BUCKET_MILLIS) "five-minute tombstone timestamp"
  pure ((store.tombstones.lookup ⟨scope, .oneMinute, minute⟩).isSome ||
    (store.tombstones.lookup ⟨scope, .fiveMinutes, fiveMinutes⟩).isSome)

/-- An insert that on conflict leaves the row's latest flag as it is. -/
def upsert (store : Store) (key : RowKey) (value : ℚ) (sampleCount : Nat) : Store :=
  { store with
    rows := store.rows.insert key ⟨value, sampleCount, (store.rows.lookup key).any Row.isLatest⟩ }

end Store

def metricValues (metrics : HostMetrics) (traffic : TrafficCounters) : List (HistoryMetric × ℚ) :=
  let pushU16 (metric : HistoryMetric) (value : Option UInt16) : List (HistoryMetric × ℚ) :=
    value.toList.map fun value => (metric, value.toNat)
  let pushU64 (metric : HistoryMetric) (value : Option UInt64) : List (HistoryMetric × ℚ) :=
    value.toList.map fun value => (metric, value.toNat)
  pushU16 .cpuBasisPoints metrics.cpuBasisPoints ++ pushU16 .processCpuBasisPoints metrics.processCpuBasisPoints ++
    pushU64 .memoryUsedBytes metrics.memoryUsedBytes ++ pushU64 .memoryTotalBytes metrics.memoryTotalBytes ++
    pushU64 .processMemoryBytes metrics.processMemoryBytes ++ pushU64 .diskUsedBytes metrics.diskUsedBytes ++
    pushU64 .diskTotalBytes metrics.diskTotalBytes ++ pushU64 .diskReadBytesPerSecond metrics.diskReadBytesPerSec ++
    pushU64 .diskWriteBytesPerSecond metrics.diskWriteBytesPerSec ++
    pushU64 .networkRxBytesPerSecond metrics.networkRxBytesPerSec ++
    pushU64 .networkTxBytesPerSecond metrics.networkTxBytesPerSec ++
    [(HistoryMetric.trafficReceivedBytes, (traffic.receivedBytes.toNat : ℚ)),
      (HistoryMetric.trafficSentBytes, (traffic.sentBytes.toNat : ℚ))]

/-- A raw value that a transaction has written. -/
structure Admission where
  scope : HistoryScope
  timestamp : Nat
  metric : HistoryMetric
  value : ℚ
  deriving DecidableEq

/-- A transaction of `persist_batches`: the store under it, the buckets its
samples fell into, and what it has written and dropped so far. -/
structure Progress where
  store : Store
  minutes : List (HistoryScope × Nat)
  fiveMinutes : List (HistoryScope × Nat)
  admitted : List Admission
  droppedLatePoints : Nat

namespace Progress

def new (store : Store) : Progress := ⟨store, [], [], [], 0⟩

def drop (p : Progress) : Progress := { p with droppedLatePoints := p.droppedLatePoints + 1 }

def write (scope : HistoryScope) (timestamp : Nat) (p : Progress) (point : HistoryMetric × ℚ) : Progress :=
  { p with
    store := p.store.upsert ⟨scope, .raw, timestamp, point.1⟩ point.2 1
    admitted := p.admitted ++ [⟨scope, timestamp, point.1, point.2⟩] }

def insertSample (field : String) (p : Progress) (scope : HistoryScope) (timestamp : Nat)
    (values : List (HistoryMetric × ℚ)) : Except DatabaseError Progress := do
  let timestamp ← sqliteInteger timestamp field
  pure (values.foldl (write scope timestamp) p)

def touch (p : Progress) (scope : HistoryScope) (timestamp : Nat) : Progress :=
  { p with
    minutes := p.minutes.insert (scope, bucketStart timestamp MINUTE_BUCKET_MILLIS)
    fiveMinutes := p.fiveMinutes.insert (scope, bucketStart timestamp FIVE_MINUTE_BUCKET_MILLIS) }

/-- A sample is dropped below the cutoff or in a tombstoned bucket. -/
def persistSample (cutoff : Nat) (field : String) (p : Progress) (scope : HistoryScope) (timestamp : Nat)
    (values : List (HistoryMetric × ℚ)) : Except DatabaseError Progress := do
  if timestamp < cutoff then pure p.drop
  else if ← p.store.sampleIntersectsTombstone scope timestamp then pure p.drop
  else do
    let written ← p.insertSample field scope timestamp values
    pure (written.touch scope timestamp)

def persistServerSample (cutoff : Nat) (p : Progress) (sample : ServerHistorySample) : Except DatabaseError Progress :=
  p.persistSample cutoff "server timestamp" .server sample.timestamp (metricValues sample.metrics sample.traffic)

def persistClientSample (cutoff : Nat) (p : Progress) (sample : ClientHistorySample) : Except DatabaseError Progress :=
  p.persistSample cutoff "client timestamp" (.client sample.client) sample.timestamp
    (metricValues sample.metrics sample.traffic)

def persistBatch (cutoff : Nat) (p : Progress) (batch : HistoryBatch) : Except DatabaseError Progress := do
  let p ← batch.serverPoints.foldlM (persistServerSample cutoff) p
  batch.clientPoints.foldlM (persistClientSample cutoff) p

end Progress

namespace Store

/-- The raw rows of one metric in a bucket. -/
def group (store : Store) (scope : HistoryScope) (start stop : Nat) (metric : HistoryMetric) : Finset RowKey :=
  store.rows.keys.filter fun key => key.scope = scope ∧ key.resolution = .raw ∧ start ≤ key.timestamp ∧
    key.timestamp < stop ∧ key.metric = metric

def weight (store : Store) (key : RowKey) : Nat := (store.rows.lookup key).elim 0 Row.sampleCount

def amount (store : Store) (key : RowKey) : ℚ :=
  (store.rows.lookup key).elim 0 fun row => row.value * row.sampleCount

/-- One group of the aggregating insert; a metric with no raw row has none. -/
def aggregateMetric (source : Store) (scope : HistoryScope) (tier : Tier) (start stop : Nat) (store : Store)
    (metric : HistoryMetric) : Store :=
  let group := source.group scope start stop metric
  if group = ∅ then store
  else
    let sampleCount := ∑ key ∈ group, source.weight key
    store.upsert ⟨scope, .tier tier, start, metric⟩ ((∑ key ∈ group, source.amount key) / sampleCount) sampleCount

def aggregateBucket (startField stopField : String) (store : Store) (scope : HistoryScope) (tier : Tier) (bucket : Nat) :
    Except DatabaseError Store := do
  let start ← sqliteInteger bucket startField
  let stop ← sqliteInteger (saturatingAdd bucket tier.width) stopField
  pure (HistoryMetric.all.foldl (store.aggregateMetric scope tier start stop) store)

def aggregateServerBucket (store : Store) (tier : Tier) (bucket : Nat) : Except DatabaseError Store :=
  store.aggregateBucket "server bucket timestamp" "server bucket end" .server tier bucket

def aggregateClientBucket (store : Store) (client : String) (tier : Tier) (bucket : Nat) : Except DatabaseError Store :=
  store.aggregateBucket "client bucket timestamp" "client bucket end" (.client client) tier bucket

def aggregateIn (tier : Tier) (store : Store) : HistoryScope × Nat → Except DatabaseError Store
  | (.server, bucket) => store.aggregateServerBucket tier bucket
  | (.client client, bucket) => store.aggregateClientBucket client tier bucket

/-- The newest rows of a scope and resolution carry the latest flag, and no others. -/
def refreshLatest (store : Store) (scope : HistoryScope) (resolution : Resolution) : Store :=
  let keys := store.rows.keys.filter fun key => key.scope = scope ∧ key.resolution = resolution
  let newest := (keys.image RowKey.timestamp).max
  let refresh (key : RowKey) (row : Row) : Row :=
    if key.scope = scope ∧ key.resolution = resolution ∧ (row.isLatest = true ∨ (key.timestamp : WithBot Nat) = newest) then
      { row with isLatest := (key.timestamp : WithBot Nat) = newest }
    else row
  { store with rows := update refresh store.rows }

/-- One transaction over the batches. The buckets are independent of each
other, so the order of the sets of touched buckets does not matter. -/
def persistBatches (store : Store) (clock : Nat) (batches : List HistoryBatch) : Except DatabaseError Progress := do
  let cutoff := max (rawAdmissionCutoff clock) store.floor
  let p ← batches.foldlM (Progress.persistBatch cutoff) (.new store)
  let store ← p.minutes.foldlM (aggregateIn .oneMinute) p.store
  let store ← p.fiveMinutes.foldlM (aggregateIn .fiveMinutes) store
  let scopes := (p.minutes.map Prod.fst).dedup
  let refreshed := [Resolution.raw, .tier .oneMinute, .tier .fiveMinutes].foldl
    (fun store resolution => scopes.foldl (fun store scope => store.refreshLatest scope resolution) store) store
  pure { p with store := refreshed }

end Store

end Rustgo.History
