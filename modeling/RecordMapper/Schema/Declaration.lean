import RecordMapper.Field.Type
import RecordMapper.Text.Description
import RecordMapper.Schema.Entity

/-! What the application declares about its mapped types. -/

namespace RecordMapper

/-- How the content of a field is read as a value and written from one. -/
inductive FieldCodec where
  | typed (type : FieldType)
  /-- The field can be neither read nor written. -/
  | sealed

namespace FieldCodec

def initial : FieldCodec → Datum
  | typed t => t.initial
  | .sealed => .value .null

def get : FieldCodec → Datum → Except Failure Value
  | typed _, d => .ok d.toValue
  | .sealed, _ => .error (.reported .internal "field is unreadable")

def set : FieldCodec → Value → Except Failure Datum
  | typed t, v => t.read v
  | .sealed, _ => .error (.reported .internal "field is unwritable")

/-- The content that a form gives the field; a sealed field stays as it is. -/
def fill : FieldCodec → Value → Except Failure Datum
  | typed t, v => t.read v
  | .sealed, _ => .ok (initial .sealed)

end FieldCodec

/-- A conversion between the value of a field and the value of its entry. -/
structure AttributeConverter where
  toRecordValue : Value → Except Failure Value
  toEntityValue : Value → Except Failure Value

/-- Whether an entity has the entity of a nested field. -/
inductive Presence where
  /-- It always has one. -/
  | required
  /-- It has one while it is fresh. -/
  | initially
  /-- It has none while it is fresh. -/
  | optional
  deriving DecidableEq

inductive FieldShape where
  | scalar (codec : FieldCodec)
  | sequence (codec : FieldCodec)
  | mapping (codec : FieldCodec)
  /-- Another mapped type. -/
  | nested (type : TypeKey) (presence : Presence)

structure FieldDeclaration where
  name : String
  shape : FieldShape
  column : Option String := none
  isId : Bool := false
  converter : Option AttributeConverter := none

structure TypeDeclaration where
  key : TypeKey
  logicalName : Option String := none
  embeddable : Bool := false
  /-- The contents of a new instance that differ from those of a fresh entity, by place; without it
  no new instance can be made. -/
  factory : Option (List (Nat × Datum)) := some []
  fields : List FieldDeclaration
  /-- Fields that an entity has and that are not mapped. -/
  unmapped : List (String × FieldType) := []
  /-- Whether a form is read for the values first and for the nested entities after them. -/
  nestedLast : Bool := false

def TypeDeclaration.typeName (t : TypeDeclaration) : String := t.key.name

def TypeDeclaration.name (t : TypeDeclaration) : String := t.logicalName.getD t.typeName

/-- A finite set of declarations; of several for one type the first counts. -/
abbrev Schema := List TypeDeclaration

namespace Schema

def find? (s : Schema) (type : TypeKey) : Option TypeDeclaration :=
  List.find? (fun (t : TypeDeclaration) => t.key == type) s

/-- The key of the first declared type that has a simple name. -/
def keyNamed? (s : Schema) (name : String) : Option TypeKey :=
  (List.find? (fun (t : TypeDeclaration) => t.typeName == name) s).map (·.key)

/-- A fresh entity. Nested entities are made down to `depth`, which is enough for types that do not
embed themselves when it is the number of types. -/
def freshAt (s : Schema) : Nat → TypeKey → Entity
  | 0, type => .mk type []
  | depth + 1, type =>
    match s.find? type with
    | none => .mk type []
    | some t =>
      let mapped := t.fields.map fun f =>
        (f.name, match f.shape with
          | .scalar c | .sequence c | .mapping c => Slot.content c.initial
          | .nested child presence =>
            .child (if presence = .optional then none else some (s.freshAt depth child)))
      .mk type (mapped ++ t.unmapped.map fun u => (u.1, .content u.2.initial))

def fresh (s : Schema) (type : TypeKey) : Entity := s.freshAt (s.length + 1) type

/-- A fresh entity with some of its contents replaced. -/
def freshWith (s : Schema) (type : TypeKey) (contents : List (Nat × Datum)) : Entity :=
  contents.foldl (fun e c => e.withContent c.1 c.2) (s.fresh type)

end Schema

/-- The role of a field in its record. -/
inductive FieldKind where
  | plain | collection | map | embedded | subEntity
  deriving DecidableEq

namespace FieldKind

def name : FieldKind → String
  | plain => "PLAIN"
  | collection => "COLLECTION"
  | map => "MAP"
  | embedded => "EMBEDDED"
  | subEntity => "SUBENTITY"

def label : FieldKind → String
  | plain => "Plain"
  | collection => "Collection"
  | map => "Map"
  | embedded => "Embedded"
  | subEntity => "SubEntity"

end FieldKind

/-- The role of a declared field; a nested type is embedded when it is declared embeddable. -/
def Schema.kindOf (s : Schema) (f : FieldDeclaration) : FieldKind :=
  match f.shape with
  | .scalar _ => .plain
  | .sequence _ => .collection
  | .mapping _ => .map
  | .nested type _ => if (s.find? type).any (·.embeddable) then .embedded else .subEntity

namespace FieldShape

def text : FieldShape → String
  | scalar _ => "Scalar"
  | sequence _ => "Sequence"
  | mapping _ => "Mapping"
  | nested type _ => "Nested(" ++ type.name ++ ")"

end FieldShape

def FieldDeclaration.inspect (f : FieldDeclaration) : String :=
  Text.members "FieldDeclaration"
    [("field_name", Text.quoted f.name), ("column", Text.option (f.column.map Text.quoted)),
      ("id", Text.bool f.isId), ("shape", f.shape.text), ("converter", Text.bool f.converter.isSome)]

def TypeDeclaration.inspect (t : TypeDeclaration) : String :=
  Text.members "TypeDeclaration"
    [("type_name", Text.quoted t.typeName), ("name", Text.quoted t.name),
      ("embeddable", Text.bool t.embeddable),
      ("fields", Text.list (t.fields.map FieldDeclaration.inspect))]

end RecordMapper
