import RecordMapper.Schema.Declaration

/-!
Descriptors: validated types with classified fields. A nested field carries the descriptor of its
type, so a descriptor is a finite tree. The record level of a type holds its own columns and those
that its sub-entities write there.
-/

namespace RecordMapper

inductive ValueRole where
  | plain | collection | map
  deriving DecidableEq

/-- What a field holds: a value, or an entity whose descriptor is of type `δ`. -/
inductive FieldAccess (δ : Type) where
  | value (role : ValueRole) (codec : FieldCodec)
  | embedded (type : δ)
  | subEntity (type : δ)

structure FieldDescriptor (δ : Type) where
  /-- The name in the program. -/
  name : String
  /-- The name in the record. -/
  column : String
  isId : Bool
  converter : Option AttributeConverter
  access : FieldAccess δ

namespace FieldDescriptor

variable {δ : Type}

def kind (f : FieldDescriptor δ) : FieldKind :=
  match f.access with
  | .value .plain _ => .plain
  | .value .collection _ => .collection
  | .value .map _ => .map
  | .embedded _ => .embedded
  | .subEntity _ => .subEntity

def nested? (f : FieldDescriptor δ) : Option δ :=
  match f.access with
  | .value .. => none
  | .embedded t | .subEntity t => some t

end FieldDescriptor

/-- The identity tells apart the descriptors that a registry makes. -/
inductive TypeDescriptor where
  | mk (identity : Nat) (key : TypeKey) (name : String) (newInstance : Thunk Entity)
      (fields : List (FieldDescriptor TypeDescriptor))

abbrev TypeDescriptor.Field := FieldDescriptor TypeDescriptor

namespace TypeDescriptor

def identity : TypeDescriptor → Nat
  | mk i _ _ _ _ => i

def key : TypeDescriptor → TypeKey
  | mk _ k _ _ _ => k

def typeName (t : TypeDescriptor) : String := t.key.name

/-- The logical name, which the records of the type carry. -/
def name : TypeDescriptor → String
  | mk _ _ n _ _ => n

def newInstance : TypeDescriptor → Entity
  | mk _ _ _ e _ => e.get

/-- The fields in declaration order. -/
def fields : TypeDescriptor → List Field
  | mk _ _ _ _ fs => fs

def id? (t : TypeDescriptor) : Option Field := t.fields.find? (·.isId)

def field? (t : TypeDescriptor) (name : String) : Option Field := t.fields.find? (·.name == name)

def byColumn? (t : TypeDescriptor) (column : String) : Option Field :=
  t.fields.find? (·.column == column)

mutual

/-- The columns that a sub-entity writes into the record of its owner. -/
def flatColumns : TypeDescriptor → List String
  | mk _ _ _ _ fields => flatColumnsOf fields

def flatColumnsOfField : Field → List String
  | ⟨_, column, _, _, access⟩ => flatColumnsOfAccess column access

def flatColumnsOfAccess (column : String) : FieldAccess TypeDescriptor → List String
  | .subEntity t => t.flatColumns
  | .value .. => [column]
  | .embedded _ => [column]

def flatColumnsOf : List Field → List String
  | [] => []
  | f :: fs => flatColumnsOfField f ++ flatColumnsOf fs

end

/-- The columns of a field at the level of its type: its own and, for a sub-entity, those that are
written there. -/
def columnsOf (f : Field) : List String :=
  match f.access with
  | .subEntity t => f.column :: t.flatColumns
  | _ => [f.column]

mutual

/-- Whether some entry of the record belongs to the type, at whatever depth of nesting. -/
def occursIn (r : Record) : TypeDescriptor → Bool
  | mk _ _ _ _ fields => occursInFields r fields

def occursInField (r : Record) : Field → Bool
  | ⟨_, column, _, _, access⟩ => r.contains column || occursInAccess r access

def occursInAccess (r : Record) : FieldAccess TypeDescriptor → Bool
  | .value .. => false
  | .embedded t => t.occursIn r
  | .subEntity t => t.occursIn r

def occursInFields (r : Record) : List Field → Bool
  | [] => false
  | f :: fs => occursInField r f || occursInFields r fs

end

def FieldDescriptor.inspect (f : Field) : String :=
  Text.members "FieldDescriptor"
    [("field_name", Text.quoted f.name), ("name", Text.quoted f.column), ("kind", f.kind.label),
      ("is_id", Text.bool f.isId),
      ("nested", Text.option (f.nested?.map fun t => Text.quoted t.name))]

def inspect (t : TypeDescriptor) : String :=
  Text.members "TypeDescriptor"
    [("name", Text.quoted t.name), ("type_name", Text.quoted t.typeName),
      ("fields", Text.list (t.fields.map FieldDescriptor.inspect))]

end TypeDescriptor

end RecordMapper
