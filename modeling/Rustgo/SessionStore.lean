import Rustgo.Bytes
import Rustgo.LoginLimiter
import Rustgo.Runs
import Mathlib.Data.Prod.Lex

namespace Rustgo.Web

open Runs Tables

abbrev SessionKey := Vector UInt8 32

abbrev SessionToken := Vector UInt8 32

structure SessionRecord where
  created : Nat
  lastActivity : Nat
  sequence : Nat
  deriving DecidableEq

/-- Sessions are evicted in this order. -/
def SessionRecord.rank (record : SessionRecord) : ℕ ×ₗ ℕ ×ₗ ℕ := toLex (record.lastActivity, toLex (record.created, record.sequence))

structure SessionTable where
  sessions : Table SessionKey SessionRecord
  nextSequence : Nat

inductive AuthenticationError
  | randomness
  | unavailable
  deriving DecidableEq

namespace SessionTable

def isLive (now idle absolute : Nat) (record : SessionRecord) : Bool := now - record.lastActivity < idle ∧ now - record.created < absolute

def removeExpired (table : SessionTable) (now idle absolute : Nat) : SessionTable :=
  { table with sessions := keep (fun _ => isLive now idle absolute) table.sessions }

def isOldest (table : SessionTable) (key : SessionKey) : Bool :=
  (table.sessions.lookup key).any fun record => ∀ entry ∈ table.sessions.entries, record.rank ≤ entry.2.rank

/-- Which of the oldest sessions goes is up to the order in which the table is traversed. -/
def evictOldest (table : SessionTable) : Option SessionKey → Option SessionTable
  | none => if table.sessions = ∅ then some table else none
  | some key => if table.isOldest key then some { table with sessions := table.sessions.erase key } else none

def insertSession (table : SessionTable) (key : SessionKey) (now : Nat) : SessionTable :=
  ⟨table.sessions.insert key ⟨now, now, table.nextSequence⟩, min (table.nextSequence + 1) (2 ^ 64 - 1)⟩

end SessionTable

/-- The secret key of the store stays the same, so only the function that it gives matters. -/
structure SessionStore where
  hmac : Bytes → SessionKey
  limits : WebRuntimeLimits

namespace SessionStore

variable (store : SessionStore) (table : SessionTable)

def deriveKey (token : SessionToken) : SessionKey := store.hmac token.toList

def purge (now : Nat) : SessionTable :=
  table.removeExpired now store.limits.sessionIdleTimeout store.limits.sessionAbsoluteTimeout

/-- Draws tokens until one has no session. The session that is evicted is the one given, and nothing is returned when it cannot be that one. -/
def issue (table : SessionTable) (draws : Nat → Option SessionToken) (evicted : Option SessionKey) (now : Nat) :
    Nat → Option (Except AuthenticationError SessionToken × SessionTable)
  | 0 => some (.error .unavailable, table)
  | attempts + 1 =>
      match draws 0 with
      | none => some (.error .randomness, table)
      | some token =>
          let key := store.deriveKey token
          let table := store.purge table now
          if key ∈ table.sessions then issue table (fun i => draws (i + 1)) evicted now attempts
          else if len table.sessions = store.limits.maxSessions then
            (table.evictOldest evicted).map fun table => (.ok token, table.insertSession key now)
          else if evicted = none then some (.ok token, table.insertSession key now)
          else none

def ISSUE_ATTEMPTS : Nat := 4

def touch (record : SessionRecord) (key : SessionKey) (now : Nat) : SessionTable :=
  { table with sessions := table.sessions.insert key { record with lastActivity := now } }

def authenticate (token : SessionToken) (now : Nat) : Bool × SessionTable :=
  let key := store.deriveKey token
  let table := store.purge table now
  match table.sessions.lookup key with
  | none => (false, table)
  | some record => (true, touch table record key now)

def csrfPrefix : Bytes := "rustgo-web-csrf-v1\x00".toUTF8.toList

def csrfCredential (token : SessionToken) (now : Nat) : Option SessionKey × SessionTable :=
  let key := store.deriveKey token
  let table := store.purge table now
  match table.sessions.lookup key with
  | none => (none, table)
  | some record => (some (store.hmac (csrfPrefix ++ token.toList)), touch table record key now)

def revoke (token : SessionToken) (now : Nat) : Bool × SessionTable :=
  let key := store.deriveKey token
  let table := store.purge table now
  ((table.sessions.lookup key).isSome, { table with sessions := table.sessions.erase key })

end SessionStore

/-- What the store has been asked, with the session that an issue evicted. -/
inductive SessionEvent
  | issued (token : SessionToken) (evicted : Option SessionKey) (now : Nat)
  | used (token : SessionToken) (now : Nat)
  | revoked (token : SessionToken) (now : Nat)
  deriving DecidableEq

namespace SessionEvent

variable (own : SessionToken → Bool) (key : SessionKey)

def token : SessionEvent → SessionToken
  | issued token .. | used token _ | revoked token _ => token

/-- The time at which a session was issued and those of its uses, as long as it is not revoked or evicted. -/
def record (times : Option (Nat × List Nat)) : SessionEvent → Option (Nat × List Nat)
  | issued token evicted now => if own token then some (now, []) else if evicted = some key then none else times
  | used token now => if own token then times.map (Prod.map id (· ++ [now])) else times
  | revoked token _ => if own token then none else times

def history (log : List SessionEvent) : Option (Nat × List Nat) := log.foldl (record own key) none

end SessionEvent

/-- A session that was issued is young enough, and was never left alone for too long. -/
def Alive (limits : WebRuntimeLimits) (times : Option (Nat × List Nat)) (now : Nat) : Prop :=
  ∃ issued uses, times = some (issued, uses) ∧ now - issued < limits.sessionAbsoluteTimeout ∧
    (issued :: uses ++ [now]).IsChain fun earlier later => later - earlier < limits.sessionIdleTimeout

section Matches

variable {limits : WebRuntimeLimits} {times : Option (Nat × List Nat)} {record : SessionRecord} {found : Option SessionRecord} {now later : Nat}

/-- A session that is found has been alive so far, and none is found that ever will be. -/
def Matches (limits : WebRuntimeLimits) (found : Option SessionRecord) (times : Option (Nat × List Nat)) (now : Nat) : Prop :=
  match found with
  | some record => ∃ issued uses, times = some (issued, uses) ∧ record.created = issued ∧
      record.lastActivity ∈ (issued :: uses).getLast? ∧ record.lastActivity ≤ now ∧
      (issued :: uses).IsChain fun earlier later => later - earlier < limits.sessionIdleTimeout
  | none => ∀ later, now ≤ later → ¬Alive limits times later

theorem Matches.mono (h : Matches limits found times now) (hlater : now ≤ later) : Matches limits found times later := by
  cases found with
  | none => exact fun last hlast => h last (hlater.trans hlast)
  | some record =>
      obtain ⟨issued, uses, htimes, hcreated, hactivity, hle, hchain⟩ := h
      exact ⟨issued, uses, htimes, hcreated, hactivity, hle.trans hlater, hchain⟩

theorem alive_iff {issued : Nat} {uses : List Nat} (hactivity : record.lastActivity ∈ (issued :: uses).getLast?)
    (hchain : (issued :: uses).IsChain fun earlier later => later - earlier < limits.sessionIdleTimeout) (hcreated : record.created = issued) :
    Alive limits (some (issued, uses)) now ↔
      SessionTable.isLive now limits.sessionIdleTimeout limits.sessionAbsoluteTimeout record = true := by
  have hgap : (issued :: uses ++ [now]).IsChain (fun earlier later => later - earlier < limits.sessionIdleTimeout) ↔
      now - record.lastActivity < limits.sessionIdleTimeout := by
    rw [List.isChain_append]
    refine ⟨fun h => h.2.2 _ hactivity now rfl, fun h => ⟨hchain, List.isChain_singleton _, fun last hlast other hother => ?_⟩⟩
    obtain rfl := Option.some.inj hother
    obtain rfl := Option.mem_unique hlast hactivity
    exact h
  rw [SessionTable.isLive, decide_eq_true_eq, hcreated]
  constructor
  · rintro ⟨_, _, htimes, hage, hchain⟩
    obtain ⟨rfl, rfl⟩ := Prod.mk.inj (Option.some.inj htimes)
    exact ⟨hgap.mp hchain, hage⟩
  · rintro ⟨hidle, hage⟩
    exact ⟨issued, uses, rfl, hage, hgap.mpr hidle⟩

/-- The expired sessions are removed, and are not alive any more. -/
theorem Matches.purge (h : Matches limits found times now) :
    Matches limits (found.filter (SessionTable.isLive now limits.sessionIdleTimeout limits.sessionAbsoluteTimeout)) times now := by
  cases found with
  | none => exact h
  | some record =>
      obtain ⟨issued, uses, rfl, hcreated, hactivity, hle, hchain⟩ := h
      cases hlive : SessionTable.isLive now limits.sessionIdleTimeout limits.sessionAbsoluteTimeout record with
      | true =>
          rw [Option.filter_some_pos hlive]
          exact ⟨issued, uses, rfl, hcreated, hactivity, hle, hchain⟩
      | false =>
          rw [Option.filter_some_neg (by simp [hlive])]
          intro later hlater halive
          rw [alive_iff hactivity hchain hcreated, SessionTable.isLive, decide_eq_true_eq] at halive
          rw [SessionTable.isLive, decide_eq_false_iff_not] at hlive
          omega

/-- A use counts if the session was alive. -/
theorem Matches.use (h : Matches limits found times now)
    (hlive : ∀ record, found = some record → SessionTable.isLive now limits.sessionIdleTimeout limits.sessionAbsoluteTimeout record = true) :
    Matches limits (found.map ({ · with lastActivity := now })) (times.map (Prod.map id (· ++ [now]))) now := by
  cases found with
  | none =>
      rintro later hlater ⟨issued, uses, htimes, hage, hchain⟩
      obtain ⟨⟨issued', uses'⟩, rfl, heq⟩ := Option.map_eq_some_iff.mp htimes
      obtain ⟨rfl, rfl⟩ := Prod.mk.inj heq
      rw [id] at hage
      exact h now (le_refl _) ⟨issued', uses', rfl, by omega, (List.isChain_append.mp hchain).1⟩
  | some record =>
      obtain ⟨issued, uses, rfl, hcreated, hactivity, hle, hchain⟩ := h
      have halive := (alive_iff hactivity hchain hcreated).mpr (hlive record rfl)
      obtain ⟨_, _, htimes, hage, hchain⟩ := halive
      obtain ⟨rfl, rfl⟩ := Prod.mk.inj (Option.some.inj htimes)
      have hlast : now ∈ (issued :: (uses ++ [now])).getLast? := by
        rw [← List.cons_append, List.getLast?_append]
        rfl
      exact ⟨issued, uses ++ [now], rfl, hcreated, hlast, le_refl _, hchain⟩

end Matches

namespace SessionStore

variable {store : SessionStore} {table table' : SessionTable} {draws : Nat → Option SessionToken} {evicted : Option SessionKey} {now : Nat}

theorem lookup_purge (store : SessionStore) (table : SessionTable) (now : Nat) (key : SessionKey) : (store.purge table now).sessions.lookup key =
    (table.sessions.lookup key).filter (SessionTable.isLive now store.limits.sessionIdleTimeout store.limits.sessionAbsoluteTimeout) :=
  lookup_keep _ _ _

theorem len_purge_le (store : SessionStore) (table : SessionTable) (now : Nat) : len (store.purge table now).sessions ≤ len table.sessions :=
  len_keep_le _ _

theorem purge_purge (store : SessionStore) (table : SessionTable) (now : Nat) : store.purge (store.purge table now) now = store.purge table now := by
  refine congrArg (SessionTable.mk · table.nextSequence) (Finmap.ext_lookup fun key => ?_)
  change (store.purge (store.purge table now) now).sessions.lookup key = (store.purge table now).sessions.lookup key
  rw [lookup_purge, lookup_purge, Option.filter_filter]
  simp only [Bool.and_self]

theorem csrfCredential_table (store : SessionStore) (table : SessionTable) (token : SessionToken) (now : Nat) :
    (store.csrfCredential table token now).2 = (store.authenticate table token now).2 := by
  rw [csrfCredential, authenticate]
  cases (store.purge table now).sessions.lookup (store.deriveKey token) with
  | none => rfl
  | some record => rfl

/-- An issue of a token: an unexpired session goes only when there is no room without. -/
structure Issues (store : SessionStore) (table : SessionTable) (evicted : Option SessionKey) (now : Nat) (token : SessionToken)
    (table' : SessionTable) : Prop where
  fresh : store.deriveKey token ∉ (store.purge table now).sessions
  makes_room : ∃ room : SessionTable, table' = room.insertSession (store.deriveKey token) now ∧
    (len (store.purge table now).sessions ≠ store.limits.maxSessions ∧ evicted = none ∧ room = store.purge table now ∨
      len (store.purge table now).sessions = store.limits.maxSessions ∧ (store.purge table now).evictOldest evicted = some room)

theorem issue_cases {attempts : Nat} {result : Except AuthenticationError SessionToken}
    (h : store.issue table draws evicted now attempts = some (result, table')) :
    ((∃ error, result = .error error) ∧ (table' = table ∨ table' = store.purge table now)) ∨
      ∃ token, result = .ok token ∧ Issues store table evicted now token table' := by
  induction attempts generalizing table draws with
  | zero =>
      obtain ⟨rfl, rfl⟩ := Prod.mk.inj (Option.some.inj h)
      exact .inl ⟨⟨_, rfl⟩, .inl rfl⟩
  | succ attempts ih =>
      rw [issue] at h
      split at h
      · obtain ⟨rfl, rfl⟩ := Prod.mk.inj (Option.some.inj h)
        exact .inl ⟨⟨_, rfl⟩, .inl rfl⟩
      · next token hdraw =>
        dsimp only at h
        split at h
        · rcases ih h with ⟨herror, hsame⟩ | ⟨token, rfl, hissues⟩
          · rw [purge_purge, or_self] at hsame
            exact .inl ⟨herror, .inr hsame⟩
          · obtain ⟨hfresh, hroom⟩ := hissues
            rw [purge_purge] at hfresh hroom
            exact .inr ⟨token, rfl, hfresh, hroom⟩
        · next hfresh =>
          split at h
          · next hfull =>
            obtain ⟨room, hroom, heq⟩ := Option.map_eq_some_iff.mp h
            obtain ⟨rfl, rfl⟩ := Prod.mk.inj heq
            exact .inr ⟨token, rfl, hfresh, room, rfl, .inr ⟨hfull, hroom⟩⟩
          · next hfree =>
            split at h
            · next hevicted =>
              obtain ⟨rfl, rfl⟩ := Prod.mk.inj (Option.some.inj h)
              exact .inr ⟨token, rfl, hfresh, _, rfl, .inl ⟨hfree, hevicted, rfl⟩⟩
            · cases h

/-- At capacity the session that goes is one of the purged table, and none in it was active before. -/
theorem evictOldest_cases {purged room : SessionTable} (hpos : 0 < len purged.sessions) (h : purged.evictOldest evicted = some room) :
    ∃ key record, evicted = some key ∧ purged.sessions.lookup key = some record ∧
      room = { purged with sessions := purged.sessions.erase key } ∧
      ∀ other record', purged.sessions.lookup other = some record' → record.lastActivity ≤ record'.lastActivity := by
  cases evicted with
  | none =>
      have hne : purged.sessions ≠ ∅ := fun hempty => by
        rw [hempty] at hpos
        exact absurd hpos (lt_irrefl 0)
      rw [SessionTable.evictOldest, if_neg hne] at h
      cases h
  | some key =>
      rw [SessionTable.evictOldest] at h
      split at h
      · next holdest =>
        obtain ⟨record, hrecord, hleast⟩ := (Option.any_eq_true _ _).mp holdest
        refine ⟨key, record, rfl, hrecord, (Option.some.inj h).symm, fun other record' hother => ?_⟩
        have hle := of_decide_eq_true hleast ⟨other, record'⟩ (Finmap.lookup_eq_some_iff.mp hother)
        rcases Prod.Lex.le_iff.mp hle with hlt | ⟨heq, -⟩
        · exact le_of_lt hlt
        · exact le_of_eq heq
      · cases h

/-- The room that is made for a token. -/
theorem Issues.room_spec {token : SessionToken} (h : Issues store table evicted now token table')
    (hbounded : len table.sessions ≤ store.limits.maxSessions) : ∃ room : SessionTable,
    table' = room.insertSession (store.deriveKey token) now ∧ len room.sessions < store.limits.maxSessions ∧
      ∀ key, room.sessions.lookup key = if evicted = some key then none else (store.purge table now).sessions.lookup key := by
  obtain ⟨-, room, rfl, hroom⟩ := h
  refine ⟨room, rfl, ?_⟩
  rcases hroom with ⟨hfree, rfl, rfl⟩ | ⟨hfull, hevict⟩
  · exact ⟨((store.len_purge_le table now).trans hbounded).lt_of_ne hfree, fun key => (if_neg (by simp)).symm⟩
  · obtain ⟨victim, record, rfl, hvictim, rfl, -⟩ := evictOldest_cases (hfull ▸ store.limits.maxSessions_pos) hevict
    refine ⟨?_, fun key => ?_⟩
    · have herase := len_erase hvictim
      dsimp only
      omega
    · dsimp only
      by_cases hkey : victim = key
      · rw [if_pos (congrArg some hkey), hkey, Finmap.lookup_erase]
      · rw [if_neg (fun h => hkey (Option.some.inj h)), Finmap.lookup_erase_ne (Ne.symm hkey)]

/-- A session that may go is there to be found. -/
theorem exists_oldest {purged : SessionTable} (hpos : 0 < len purged.sessions) : ∃ key, purged.isOldest key = true := by
  obtain ⟨first, hfirst⟩ := Multiset.card_pos_iff_exists_mem.mp hpos
  obtain ⟨entry, hentry, hleast⟩ := Finset.exists_min_image purged.sessions.entries.toFinset (fun entry => entry.2.rank)
    ⟨first, Multiset.mem_toFinset.mpr hfirst⟩
  refine ⟨entry.1, (Option.any_eq_true _ _).mpr ⟨entry.2, Finmap.lookup_eq_some_iff.mpr (Multiset.mem_toFinset.mp hentry), ?_⟩⟩
  exact decide_eq_true fun other hother => hleast other (Multiset.mem_toFinset.mpr hother)

/-- An issue can always go on. -/
theorem exists_issue (store : SessionStore) (table : SessionTable) (draws : Nat → Option SessionToken) (now attempts : Nat) :
    ∃ evicted, (store.issue table draws evicted now attempts).isSome = true := by
  induction attempts generalizing table draws with
  | zero => exact ⟨none, rfl⟩
  | succ attempts ih =>
      simp only [issue]
      cases draws 0 with
      | none => exact ⟨none, rfl⟩
      | some token =>
          dsimp only
          split
          · exact ih _ _
          · split
            · next hfull =>
              obtain ⟨key, hkey⟩ := exists_oldest (hfull ▸ store.limits.maxSessions_pos)
              refine ⟨some key, ?_⟩
              rw [SessionTable.evictOldest, if_pos hkey]
              rfl
            · exact ⟨none, rfl⟩

end SessionStore

inductive SessionCall
  | issue (draws : Nat → Option SessionToken) (evicted : Option SessionKey) (now : Nat)
  | authenticate (token : SessionToken) (now : Nat)
  | csrfCredential (token : SessionToken) (now : Nat)
  | revoke (token : SessionToken) (now : Nat)

def SessionCall.now : SessionCall → Nat
  | issue _ _ now | authenticate _ now | csrfCredential _ now | revoke _ now => now

structure SessionSystem where
  table : SessionTable
  log : List SessionEvent
  clock : Nat

namespace SessionSystem

variable {store : SessionStore} {s t : SessionSystem} {call : SessionCall} {calls : List SessionCall}

def start : SessionSystem := ⟨⟨∅, 0⟩, [], 0⟩

def next (store : SessionStore) (s : SessionSystem) (call : SessionCall) : Option SessionSystem :=
  if s.clock ≤ call.now then
    match call with
    | .issue draws evicted now =>
        (store.issue s.table draws evicted now SessionStore.ISSUE_ATTEMPTS).map fun (result, table) =>
          ⟨table, match result with
            | .ok token => s.log ++ [.issued token evicted now]
            | .error _ => s.log, now⟩
    | .authenticate token now => some ⟨(store.authenticate s.table token now).2, s.log ++ [.used token now], now⟩
    | .csrfCredential token now => some ⟨(store.csrfCredential s.table token now).2, s.log ++ [.used token now], now⟩
    | .revoke token now => some ⟨(store.revoke s.table token now).2, s.log ++ [.revoked token now], now⟩
  else none

/-- Calls come at times that do not decrease. -/
def Step (store : SessionStore) (s : SessionSystem) (call : SessionCall) (t : SessionSystem) : Prop := s.next store call = some t

/-- The times of the session of a key, if tokens are told apart by their keys. -/
def times (store : SessionStore) (key : SessionKey) (log : List SessionEvent) : Option (Nat × List Nat) :=
  SessionEvent.history (fun token => store.deriveKey token = key) key log

structure Valid (store : SessionStore) (s : SessionSystem) : Prop where
  bounded : len s.table.sessions ≤ store.limits.maxSessions
  found : ∀ key, Matches store.limits (s.table.sessions.lookup key) (times store key s.log) s.clock

theorem valid_start : start.Valid store where
  bounded := Nat.zero_le _
  found _ := fun _ _ ⟨_, _, htimes, _⟩ => by cases htimes

theorem times_append (store : SessionStore) (key : SessionKey) (log : List SessionEvent) (event : SessionEvent) :
    times store key (log ++ [event]) = event.record (fun token => store.deriveKey token = key) key (times store key log) := by
  rw [times, SessionEvent.history, List.foldl_append]
  rfl

theorem Valid.purge (h : s.Valid store) {now : Nat} (hnow : s.clock ≤ now) (key : SessionKey) :
    Matches store.limits ((store.purge s.table now).sessions.lookup key) (times store key s.log) now := by
  rw [SessionStore.lookup_purge]
  exact ((h.found key).mono hnow).purge

theorem lookup_use (store : SessionStore) (table : SessionTable) (token : SessionToken) (now : Nat) (key : SessionKey) :
    (store.authenticate table token now).2.sessions.lookup key = if key = store.deriveKey token then
      ((store.purge table now).sessions.lookup key).map ({ · with lastActivity := now }) else (store.purge table now).sessions.lookup key := by
  rw [SessionStore.authenticate]
  split
  · next hnone =>
    split
    · next hkey => rw [hkey, hnone, Option.map_none]
    · rfl
  · next record hrecord =>
    split
    · next hkey => rw [hkey, hrecord, Option.map_some]; exact Finmap.lookup_insert _
    · next hkey => exact Finmap.lookup_insert_of_ne _ hkey

theorem len_use (store : SessionStore) (table : SessionTable) (token : SessionToken) (now : Nat) :
    len (store.authenticate table token now).2.sessions = len (store.purge table now).sessions := by
  rw [SessionStore.authenticate]
  split
  · rfl
  · next record hrecord => exact len_replace hrecord

/-- A use that counts keeps the session alive. -/
theorem Valid.use (h : s.Valid store) {token : SessionToken} {now : Nat} (hnow : s.clock ≤ now) :
    Valid store ⟨(store.authenticate s.table token now).2, s.log ++ [.used token now], now⟩ := by
  refine ⟨(len_use store s.table token now).trans_le ((store.len_purge_le _ _).trans h.bounded), fun key => ?_⟩
  · have hpurged := h.purge hnow key
    rw [times_append, lookup_use]
    by_cases hkey : key = store.deriveKey token
    · rw [if_pos hkey, SessionEvent.record, if_pos (decide_eq_true hkey.symm)]
      refine hpurged.use fun record hrecord => ?_
      rw [SessionStore.lookup_purge] at hrecord
      exact (Option.filter_eq_some_iff.mp hrecord).2
    · rw [if_neg hkey, SessionEvent.record, if_neg (by simpa using Ne.symm hkey)]
      exact hpurged

theorem Valid.revoke (h : s.Valid store) {token : SessionToken} {now : Nat} (hnow : s.clock ≤ now) :
    Valid store ⟨(store.revoke s.table token now).2, s.log ++ [.revoked token now], now⟩ := by
  refine ⟨((len_erase_le _ _).trans (store.len_purge_le _ _)).trans h.bounded, fun key => ?_⟩
  rw [times_append, SessionStore.revoke, SessionEvent.record]
  by_cases hkey : key = store.deriveKey token
  · rw [if_pos (decide_eq_true hkey.symm), hkey, Finmap.lookup_erase]
    exact fun _ _ ⟨_, _, htimes, _⟩ => by cases htimes
  · rw [if_neg (by simpa using Ne.symm hkey), Finmap.lookup_erase_ne hkey]
    exact h.purge hnow key

theorem Valid.issue (h : s.Valid store) {token : SessionToken} {evicted : Option SessionKey} {table' : SessionTable} {now : Nat} (hnow : s.clock ≤ now)
    (hissues : store.Issues s.table evicted now token table') : Valid store ⟨table', s.log ++ [.issued token evicted now], now⟩ := by
  obtain ⟨room, rfl, hlt, hroom⟩ := hissues.room_spec h.bounded
  refine ⟨?_, fun key => ?_⟩
  · have hinsert := len_insert_le room.sessions (store.deriveKey token) ⟨now, now, room.nextSequence⟩
    exact hinsert.trans (by omega)
  · rw [times_append, SessionEvent.record]
    by_cases hkey : key = store.deriveKey token
    · rw [if_pos (decide_eq_true hkey.symm), hkey, SessionTable.insertSession, Finmap.lookup_insert]
      exact ⟨now, [], rfl, rfl, rfl, le_refl _, List.isChain_singleton _⟩
    · rw [if_neg (by simpa using Ne.symm hkey), SessionTable.insertSession, Finmap.lookup_insert_of_ne _ hkey, hroom]
      split
      · exact fun _ _ ⟨_, _, htimes, _⟩ => by cases htimes
      · exact h.purge hnow key

theorem Valid.next (h : s.Valid store) (hstep : s.next store call = some t) : t.Valid store := by
  unfold SessionSystem.next at hstep
  split at hstep
  · next hclock =>
    cases call with
    | issue draws evicted now =>
        obtain ⟨⟨result, table'⟩, hissue, rfl⟩ := Option.map_eq_some_iff.mp hstep
        rcases SessionStore.issue_cases hissue with ⟨⟨error, rfl⟩, hsame⟩ | ⟨token, rfl, hissues⟩
        · rcases hsame with rfl | rfl
          · exact ⟨h.bounded, fun key => (h.found key).mono hclock⟩
          · exact ⟨(store.len_purge_le _ _).trans h.bounded, h.purge hclock⟩
        · exact h.issue hclock hissues
    | authenticate token now =>
        obtain rfl := Option.some.inj hstep
        exact h.use hclock
    | csrfCredential token now =>
        obtain rfl := Option.some.inj hstep
        rw [store.csrfCredential_table]
        exact h.use hclock
    | revoke token now =>
        obtain rfl := Option.some.inj hstep
        exact h.revoke hclock
  · cases hstep

theorem valid_run (h : Run (Step store) start calls s) : s.Valid store :=
  h.invariant (P := Valid store) (fun _ _ _ => Valid.next) valid_start

/-- Where no two tokens have one key, sessions are told apart by their tokens. -/
theorem times_eq {token : SessionToken} {log : List SessionEvent}
    (hkeys : ∀ event ∈ log, store.deriveKey event.token = store.deriveKey token → event.token = token) :
    times store (store.deriveKey token) log = SessionEvent.history (fun other => other = token) (store.deriveKey token) log := by
  induction log using List.reverseRecOn with
  | nil => rfl
  | append_singleton log event ih =>
      have hown : (store.deriveKey event.token = store.deriveKey token) ↔ event.token = token :=
        ⟨hkeys event (List.mem_append_right _ List.mem_cons_self), congrArg store.deriveKey⟩
      rw [times_append, ih fun earlier hearlier => hkeys earlier (List.mem_append_left _ hearlier), SessionEvent.history, SessionEvent.history,
        List.foldl_append, List.foldl_cons, List.foldl_nil]
      cases event <;> simp only [SessionEvent.record, SessionEvent.token] at hown ⊢ <;> simp only [hown]

theorem Valid.live_iff (h : s.Valid store) (token : SessionToken) {now : Nat} (hnow : s.clock ≤ now) :
    ((store.purge s.table now).sessions.lookup (store.deriveKey token)).isSome = true ↔
      Alive store.limits (times store (store.deriveKey token) s.log) now := by
  have hpurged := h.purge hnow (store.deriveKey token)
  cases hlookup : (store.purge s.table now).sessions.lookup (store.deriveKey token) with
  | none =>
      rw [hlookup] at hpurged
      exact ⟨fun h => (by cases h), fun halive => absurd halive (hpurged now (le_refl _))⟩
  | some record =>
      rw [hlookup] at hpurged
      obtain ⟨issued, uses, htimes, hcreated, hactivity, -, hchain⟩ := hpurged
      rw [SessionStore.lookup_purge] at hlookup
      rw [htimes, alive_iff hactivity hchain hcreated]
      exact ⟨fun _ => (Option.filter_eq_some_iff.mp hlookup).2, fun _ => rfl⟩

/-- After any calls a token is accepted if its session is alive by its own history, there are never more sessions than
allowed, and an issue at capacity costs the session that was idle for longest among those that have not expired. -/
theorem sessions_sound (store : SessionStore) (calls : List SessionCall) (s : SessionSystem) (hrun : Run (Step store) start calls s)
    (token : SessionToken) (hkeys : ∀ event ∈ s.log, store.deriveKey event.token = store.deriveKey token → event.token = token)
    (now : Nat) (hnow : s.clock ≤ now) :
    let alive := Alive store.limits (SessionEvent.history (fun other => other = token) (store.deriveKey token) s.log) now
    ((store.authenticate s.table token now).1 = true ↔ alive) ∧
      ((store.csrfCredential s.table token now).1.isSome = true ↔ alive) ∧
      ((store.revoke s.table token now).1 = true ↔ alive) ∧
      len s.table.sessions ≤ store.limits.maxSessions ∧
      (∀ draws, ∃ evicted, (s.next store (.issue draws evicted now)).isSome = true) ∧
      ∀ draws evicted issued table', store.issue s.table draws evicted now SessionStore.ISSUE_ATTEMPTS = some (.ok issued, table') →
        if len (store.purge s.table now).sessions = store.limits.maxSessions then
          ∃ key record, evicted = some key ∧ (store.purge s.table now).sessions.lookup key = some record ∧
            (∀ other record', (store.purge s.table now).sessions.lookup other = some record' → record.lastActivity ≤ record'.lastActivity) ∧
            ∀ other, other ≠ store.deriveKey issued →
              table'.sessions.lookup other = if other = key then none else (store.purge s.table now).sessions.lookup other
        else evicted = none ∧ ∀ other, other ≠ store.deriveKey issued →
          table'.sessions.lookup other = (store.purge s.table now).sessions.lookup other := by
  have hvalid := valid_run hrun
  have hlive := hvalid.live_iff token hnow
  rw [times_eq hkeys] at hlive
  refine ⟨?_, ?_, hlive, hvalid.bounded, fun draws => ?_, fun draws evicted issued table' hissue => ?_⟩
  · rw [← hlive, SessionStore.authenticate]
    split
    · next hnone => rw [hnone]; exact ⟨fun h => (by cases h), fun h => (by cases h)⟩
    · next record hrecord => rw [hrecord]; exact ⟨fun _ => rfl, fun _ => rfl⟩
  · rw [← hlive, SessionStore.csrfCredential]
    split
    · next hnone => rw [hnone]; exact ⟨fun h => (by cases h), fun h => (by cases h)⟩
    · next record hrecord => rw [hrecord]; exact ⟨fun _ => rfl, fun _ => rfl⟩
  · obtain ⟨evicted, hissue⟩ := store.exists_issue s.table draws now SessionStore.ISSUE_ATTEMPTS
    refine ⟨evicted, ?_⟩
    unfold SessionSystem.next
    rw [if_pos (show s.clock ≤ (SessionCall.issue draws evicted now).now from hnow), Option.isSome_map]
    exact hissue
  · rcases SessionStore.issue_cases hissue with ⟨⟨error, herror⟩, -⟩ | ⟨_, heq, hissues⟩
    · cases herror
    · obtain rfl := Except.ok.inj heq
      obtain ⟨-, room, rfl, ⟨hfree, rfl, rfl⟩ | ⟨hfull, hevict⟩⟩ := hissues
      · rw [if_neg hfree]
        exact ⟨rfl, fun other hother => Finmap.lookup_insert_of_ne _ hother⟩
      · rw [if_pos hfull]
        obtain ⟨key, record, rfl, hkey, rfl, hleast⟩ := SessionStore.evictOldest_cases (hfull ▸ store.limits.maxSessions_pos) hevict
        refine ⟨key, record, rfl, hkey, hleast, fun other hother => ?_⟩
        rw [SessionTable.insertSession, Finmap.lookup_insert_of_ne _ hother]
        split
        · next heq => rw [heq, Finmap.lookup_erase]
        · next hne => exact Finmap.lookup_erase_ne hne

/-- A key that no other token shares. -/
def sampleStore : SessionStore :=
  ⟨fun bytes => Vector.ofFn fun i => bytes.getD i 0, ⟨10, 20, 1, 60, 1, 1, 1, by decide, by decide, by decide, by decide, by decide, by decide,
    by decide⟩⟩

def sampleToken : SessionToken := Vector.replicate 32 7

theorem sessions_sound_used : ∃ s, Run (Step sampleStore) start [.issue (fun _ => some sampleToken) none 0, .authenticate sampleToken 9] s ∧
    (sampleStore.authenticate s.table sampleToken 18).1 = true := by
  obtain ⟨s, hrun, hlog, hclock⟩ := run_of_exec_any
    (P := fun s => s.log = [.issued sampleToken none 0, .used sampleToken 9] ∧ s.clock = 9) (fun _ _ _ h => h)
    (show (exec (next sampleStore) start [.issue (fun _ => some sampleToken) none 0, .authenticate sampleToken 9]).any _ = true by decide +kernel)
  refine ⟨s, hrun, ((sessions_sound sampleStore _ s hrun sampleToken (fun event hevent _ => ?_) 18 (by omega)).1).mpr ?_⟩
  · rw [hlog] at hevent
    rcases List.mem_pair.mp hevent with rfl | rfl
    · rfl
    · rfl
  · rw [hlog]
    exact ⟨0, [9], rfl, by decide, by decide⟩

end SessionSystem

end Rustgo.Web
