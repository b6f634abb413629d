import RecordMapper.Pipeline.Workflow
import RecordMapper.Store.Manager

/-! Entity operations over a record manager: writes run the persist pipeline, reads convert back. -/

namespace RecordMapper

structure Template (σ : Type) where
  schema : Schema
  manager : RecordManager σ
  workflow : Workflow σ

/-- The condition that the identifier of a type has a value. -/
def TypeDescriptor.idCondition (t : TypeDescriptor) (id : Value) : Except Failure Condition :=
  if id.isNull then .error (.required "id")
  else
    match t.id? with
    | some f => .ok (.equals f.column id)
    | none => .error (.noIdentifier t.typeName)

namespace Template

variable {σ : Type}

/-- Converts a record to an entity of a type. -/
def toEntity (t : Template σ) (type : TypeKey) (r : Record) : Action σ Entity := do
  let d ← Action.describe t.schema type
  Action.ofExcept (d.toEntity r)

def insert (t : Template σ) (type : TypeKey) (e : Entity) : Action σ Entity :=
  t.workflow.flow t.schema type e t.manager.insert

/-- Inserts an entity that expires once the given nanoseconds have passed. -/
def insertFor (t : Template σ) (type : TypeKey) (e : Entity) (nanos : Nat) : Action σ Entity :=
  t.workflow.flow t.schema type e fun r => t.manager.insertFor r nanos

def update (t : Template σ) (type : TypeKey) (e : Entity) : Action σ Entity :=
  t.workflow.flow t.schema type e t.manager.update

/-- Inserts a batch over the bulk path: all preparations, one store call, all completions. -/
def insertBulk (t : Template σ) (type : TypeKey) (es : List Entity) : Action σ (List Entity) := do
  let d ← Action.describe t.schema type
  let records ← es.mapM (t.workflow.prepare d)
  let stored ← t.manager.insertAll records
  if stored.length != records.length then
    throw (.bulkMismatch d.name stored.length records.length)
  stored.mapM (t.workflow.complete d)

/-- Inserts a batch and returns the stored entities in input order. -/
def insertAll (t : Template σ) (type : TypeKey) (es : List Entity) : Action σ (List Entity) :=
  if t.manager.bulk then t.insertBulk type es else es.mapM (t.insert type)

def insertAllFor (t : Template σ) (type : TypeKey) (es : List Entity) (nanos : Nat) :
    Action σ (List Entity) := es.mapM fun e => t.insertFor type e nanos

def updateAll (t : Template σ) (type : TypeKey) (es : List Entity) : Action σ (List Entity) :=
  es.mapM (t.update type)

def delete (t : Template σ) (q : DeleteQuery) : Action σ Unit := t.manager.delete q

def deleteById (t : Template σ) (type : TypeKey) (id : Value) : Action σ Unit := do
  let d ← Action.describe t.schema type
  let c ← Action.ofExcept (d.idCondition id)
  t.delete { name := d.name, condition := some c }

def select (t : Template σ) (type : TypeKey) (q : SelectQuery) : Action σ (List Entity) := do
  let records ← t.manager.select q
  records.mapM (t.toEntity type)

/-- The only match, `none` for no match and a failure for several. -/
def single (t : Template σ) (type : TypeKey) (q : SelectQuery) : Action σ (Option Entity) := do
  match ← t.manager.select q with
  | [] => pure none
  | [r] => some <$> t.toEntity type r
  | _ => throw (.notUnique q)

def findById (t : Template σ) (type : TypeKey) (id : Value) : Action σ (Option Entity) := do
  let d ← Action.describe t.schema type
  let c ← Action.ofExcept (d.idCondition id)
  t.single type { name := d.name, condition := some c }

def findAll (t : Template σ) (type : TypeKey) : Action σ (List Entity) := do
  let d ← Action.describe t.schema type
  t.select type { name := d.name }

end Template

end RecordMapper
