import RecordMapper.Failure
import RecordMapper.Calendar.Timestamp

/-!
The in-memory store: per record name a table in insertion order. Where a record has a key entry, an
equal key replaces the record in place. Expired records stay in a table, unseen, until a write to it
drops them.
-/

namespace RecordMapper

structure StoredRecord where
  record : Record
  expiresAt : Option Instant

def StoredRecord.isExpired (now : Instant) (s : StoredRecord) : Bool :=
  match s.expiresAt with
  | some t => t.nanos ≤ now.nanos
  | none => false

abbrev Table := List StoredRecord

namespace Table

def live (now : Instant) (t : Table) : Table := t.filter fun s => !s.isExpired now

def hasKey (column : String) (key : Value) (s : StoredRecord) : Bool :=
  match s.record.find? column with
  | some v => v == key
  | none => false

/-- Changes the first record with a key; `none` when no record has it. -/
def changeFirst (column : String) (key : Value) (change : StoredRecord → StoredRecord) :
    Table → Option Table
  | [] => none
  | s :: rest =>
    if hasKey column key s then some (change s :: rest)
    else (changeFirst column key change rest).map (s :: ·)

/-- Puts a record in the place of the first one with its key, or at the end. -/
def upsert (column : String) (new : StoredRecord) (t : Table) : Table :=
  match new.record.find? column with
  | none => t ++ [new]
  | some key => (t.changeFirst column key fun _ => new).getD (t ++ [new])

end Table

structure MemoryStore where
  database : DatabaseType
  /-- The key columns of record names that are not identified by `_id`. -/
  keys : List (String × String) := []
  tables : List (String × Table) := []
  bulkInserts : Nat := 0

/-- The order of two records by sort clauses, of which the first to tell them apart decides. A
missing entry comes before every value, or after every value when the direction is descending. -/
def compareBy (sep : String) (a b : Record) : List SortKey → Ordering
  | [] => .eq
  | k :: ks =>
    let byPath := compare (a.findPath? sep k.field) (b.findPath? sep k.field)
    let directed :=
      match k.order with
      | .ascending => byPath
      | .descending => byPath.swap
    directed.then (compareBy sep a b ks)

namespace MemoryStore

/-- A store operation: its answer, and the store that it leaves. -/
abbrev Step (α : Type) := MemoryStore → Except Failure α × MemoryStore

def withKey (s : MemoryStore) (name column : String) : MemoryStore :=
  { s with keys := (writeEntry name column s.keys).2 }

def keyColumn (s : MemoryStore) (name : String) : String := (lookup name s.keys).getD "_id"

def table (s : MemoryStore) (name : String) : Table := (lookup name s.tables).getD []

def setTable (s : MemoryStore) (name : String) (t : Table) : MemoryStore :=
  { s with tables := (writeEntry name t s.tables).2 }

/-- How many records of a name are live. -/
def count (now : Instant) (s : MemoryStore) (name : String) : Nat := ((s.table name).live now).length

def clear (s : MemoryStore) : MemoryStore := { s with tables := [] }

/-- Stores a record, after dropping the expired ones of its table. -/
def put (now : Instant) (r : Record) (expiresAt : Option Instant) (s : MemoryStore) : MemoryStore :=
  s.setTable r.name (((s.table r.name).live now).upsert (s.keyColumn r.name) ⟨r, expiresAt⟩)

def insert (now : Instant) (r : Record) : Step Record := fun s => (.ok r, s.put now r none)

/-- The greatest time to live, as many milliseconds as a signed number of 64 bits counts. -/
def greatestTimeToLive : Nat := IntegerType.i64.greatest.toNat * 1000000

/-- Inserts a record that expires once the given nanoseconds have passed from an instant that is read
before the one of storing. -/
def insertFor (start now : Instant) (r : Record) (nanos : Nat) : Step Record := fun s =>
  if greatestTimeToLive < nanos then (.error .timeToLiveOutOfRange, s)
  else
    match start.after? nanos with
    | none => (.error .clockOverflow, s)
    | some t => (.ok r, s.put now r (some t))

/-- Stores records one after the other, each at the instant of its own reading of the clock. -/
def putAll (clock : Clock) : List Record → MemoryStore → MemoryStore
  | [], s => s
  | r :: rs, s => putAll (clock.after 1) rs (s.put (clock 0) r none)

def insertAll (clock : Clock) (rs : List Record) : Step (List Record) := fun s =>
  (.ok rs, putAll clock rs { s with bulkInserts := s.bulkInserts + 1 })

/-- Replaces the record with the key of the given one; it keeps its place and its expiry. -/
def update (now : Instant) (r : Record) : Step Record := fun s =>
  let column := s.keyColumn r.name
  match r.find? column with
  | none => (.error (.noKeyEntry r.name column), s)
  | some key =>
    let live := (s.table r.name).live now
    match live.changeFirst column key fun stored => { stored with record := r } with
    | some changed => (.ok r, s.setTable r.name changed)
    | none => (.error (.noSuchRecord r.name column key), s.setTable r.name live)

def delete (now : Instant) (sep : String) (q : DeleteQuery) : Step Unit := fun s =>
  let kept := ((s.table q.name).live now).filter fun stored =>
    !admits sep q.condition stored.record
  (.ok (), s.setTable q.name kept)

/-- The live records of a name that satisfy the condition, sorted and cut. -/
def select (now : Instant) (sep : String) (q : SelectQuery) (s : MemoryStore) : List Record :=
  let found := (((s.table q.name).live now).map (·.record)).filter (admits sep q.condition)
  let sorted := found.mergeSort fun a b => compareBy sep a b q.sorts != .gt
  match q.limit with
  | some n => sorted.take n
  | none => sorted

end MemoryStore

end RecordMapper
