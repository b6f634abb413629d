import RecordMapper.Schema.Descriptor

/-!
Writing entities to records. The identifier comes first and the other fields in declaration order;
null values leave no entry. An embedded entity becomes a child record under its column, a sub-entity
writes into the record of its owner.
-/

namespace RecordMapper

namespace Entity

/-- The slot at a place of an entity that is taken for one of the given type. -/
def slotAs (e : Entity) (type : TypeKey) (place : Nat) : Except Failure (Slot Entity) :=
  match e.slot? place with
  | some s => if e.type = type then .ok s else .error (.wrongInstance type.name)
  | none => .error (.wrongInstance type.name)

def contentAs (e : Entity) (type : TypeKey) (place : Nat) : Except Failure Datum :=
  match e.slotAs type place with
  | .ok (.content d) => .ok d
  | .ok (.child _) => .error (.wrongInstance type.name)
  | .error failure => .error failure

def childAs (e : Entity) (type : TypeKey) (place : Nat) : Except Failure (Option Entity) :=
  match e.slotAs type place with
  | .ok (.child c) => .ok c
  | .ok (.content _) => .error (.wrongInstance type.name)
  | .error failure => .error failure

end Entity

/-- A failure of one field, as reported for its owner. -/
def inField {α : Type} (type name : String) (x : Except Failure α) : Except Failure α :=
  x.mapError (.field type name ·)

/-- The value that a field leaves in the record, null when it leaves none. -/
def recordValue (codec : FieldCodec) (converter : Option AttributeConverter) (d : Datum) :
    Except Failure Value := do
  let v ← codec.get d
  match v.isNull, converter with
  | false, some c => c.toRecordValue v
  | _, _ => pure v

namespace TypeDescriptor

mutual

/-- Writes the fields of an entity into a record. -/
def writeInto (e : Entity) : TypeDescriptor → Record → Except Failure Record
  | mk _ type _ _ fields, r => do
    let r ← writeFields type e true 0 fields r
    writeFields type e false 0 fields r
termination_by structural t => t

/-- Writes the identifier fields, or the others, of the fields from a place on. -/
def writeFields (type : TypeKey) (e : Entity) (identifiers : Bool) (place : Nat) :
    List Field → Record → Except Failure Record
  | [], r => .ok r
  | f :: fs, r => do
    let r ← writeField type e identifiers place f r
    writeFields type e identifiers (place + 1) fs r
termination_by structural fs => fs

def writeField (type : TypeKey) (e : Entity) (identifiers : Bool) (place : Nat) :
    Field → Record → Except Failure Record
  | ⟨name, column, isId, converter, access⟩, r =>
    if isId == identifiers then writeAccess type e place name column converter access r else .ok r
termination_by structural f => f

def writeAccess (type : TypeKey) (e : Entity) (place : Nat) (name column : String)
    (converter : Option AttributeConverter) :
    FieldAccess TypeDescriptor → Record → Except Failure Record
  | .value _ codec, r => do
    let v ← inField type.name name (e.contentAs type place >>= recordValue codec converter)
    pure (if v.isNull then r else r.put column v)
  | .embedded t, r => do
    match ← inField type.name name (e.childAs type place) with
    | none => pure r
    | some child =>
      let nested ← writeInto child t (.empty column)
      pure (r.put column (.ofRecord nested))
  | .subEntity t, r => do
    match ← inField type.name name (e.childAs type place) with
    | none => pure r
    | some child => writeInto child t r
termination_by structural a => a

end

def toRecord (t : TypeDescriptor) (e : Entity) : Except Failure Record :=
  t.writeInto e (.empty t.name)

end TypeDescriptor

end RecordMapper
