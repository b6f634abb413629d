import RecordMapper.Mapping.Writing

/-!
Reading entities from records. A nested entity is read from the child record under its column or,
without one, from the record of its owner, if some entry there belongs to it.
-/

namespace RecordMapper.TypeDescriptor

/-- The content that an entry stands for. -/
def entityContent (codec : FieldCodec) (converter : Option AttributeConverter) (v : Value) :
    Except Failure Datum := do
  let v ←
    match converter with
    | some c => c.toEntityValue v
    | none => pure v
  codec.set v

/-- The record that a nested entity is read from. -/
def nestedSource? (t : TypeDescriptor) (column : String) (r : Record) : Option Record :=
  match r.find? column with
  | some (.record name entries) => some ⟨name, entries⟩
  | _ => if t.occursIn r then some r else none

mutual

/-- Reads the fields that the record has entries for into an entity. -/
def readInto (r : Record) : TypeDescriptor → Entity → Except Failure Entity
  | mk _ type _ _ fields, e => readFields r type.name 0 fields e
termination_by structural t => t

/-- Reads the fields from a place on. -/
def readFields (r : Record) (type : String) (place : Nat) :
    List Field → Entity → Except Failure Entity
  | [], e => .ok e
  | f :: fs, e => do
    let e ← readField r type place f e
    readFields r type (place + 1) fs e
termination_by structural fs => fs

def readField (r : Record) (type : String) (place : Nat) : Field → Entity → Except Failure Entity
  | ⟨name, column, _, converter, access⟩, e => readAccess r type place name column converter access e
termination_by structural f => f

def readAccess (r : Record) (type : String) (place : Nat) (name column : String)
    (converter : Option AttributeConverter) :
    FieldAccess TypeDescriptor → Entity → Except Failure Entity
  | .value _ codec, e =>
    match r.find? column with
    | none => .ok e
    | some v =>
      if v.isNull then .ok e
      else (inField type name (entityContent codec converter v)).map (e.withContent place ·)
  | .embedded t, e =>
    match t.nestedSource? column r with
    | none => .ok e
    | some source => (readInto source t t.newInstance).map fun child => e.withChild place (some child)
  | .subEntity t, e =>
    match t.nestedSource? column r with
    | none => .ok e
    | some source => (readInto source t t.newInstance).map fun child => e.withChild place (some child)
termination_by structural a => a

end

def toEntity (t : TypeDescriptor) (r : Record) : Except Failure Entity :=
  if r.isEmpty then .error (.emptyRecord r.name t.typeName) else t.readInto r t.newInstance

end RecordMapper.TypeDescriptor
