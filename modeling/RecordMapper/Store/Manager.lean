import RecordMapper.Store.Memory
import RecordMapper.Store.Session

/-!
Record managers: stores as the mapping layer sees them. A manager answers a write with the record as
stored, which need not be the record it was given.
-/

namespace RecordMapper

structure RecordManager (σ : Type) where
  database : DatabaseType
  /-- Whether batches go to `insertAll`. -/
  bulk : Bool
  insert : Record → Action σ Record
  insertFor : Record → Nat → Action σ Record
  insertAll : List Record → Action σ (List Record)
  update : Record → Action σ Record
  delete : DeleteQuery → Action σ Unit
  select : SelectQuery → Action σ (List Record)

namespace RecordManager

variable {σ : Type}

/-- One memory store of a world. -/
structure Place (σ : Type) where
  find : σ → MemoryStore
  replace : MemoryStore → σ → σ

/-- Runs a step of the store at a place. -/
def Place.run {α : Type} (p : Place σ) (step : MemoryStore.Step α) : Action σ α :=
  Action.onWorld fun w =>
    let (answer, s) := step (p.find w)
    (answer, p.replace s w)

/-- The manager of the memory store at a place. -/
def memory (database : DatabaseType) (p : Place σ) (bulk : Bool) : RecordManager σ where
  database := database
  bulk := bulk
  insert r := do p.run (MemoryStore.insert (← Action.now) r)
  insertFor r nanos := do p.run (MemoryStore.insertFor (← Action.now) (← Action.now) r nanos)
  insertAll rs := do p.run (MemoryStore.insertAll (← Action.readings rs.length) rs)
  update r := do p.run (MemoryStore.update (← Action.now) r)
  delete q := do p.run (MemoryStore.delete (← Action.now) (← Action.separator) q)
  select q := do
    let now ← Action.now
    let sep ← Action.separator
    p.run fun s => (.ok (s.select now sep q), s)

/-- A manager without a bulk path: a batch is inserted record by record. -/
def elementwise (m : RecordManager σ) : RecordManager σ :=
  { m with bulk := false, insertAll := fun rs => rs.mapM m.insert }

instance : ToString (RecordManager σ) :=
  ⟨fun m => Text.members "RecordManager" [("database_type", m.database.label)]⟩

end RecordManager

end RecordMapper
