import RecordMapper.Schema.Declaration

/-!
Forms: contents of an entity given by field name, from which an entity of a type is filled in. A
field without a content stays fresh, and fields that share a name share the content.
-/

namespace RecordMapper

/-- What a form gives for one field: a value, or the contents of a nested entity. -/
inductive Filling where
  | value (v : Value)
  | entity (contents : List (String × Filling))

abbrev Form := List (String × Filling)

/-- The shapes of the fields of a type by place, the mapped ones first. -/
def TypeDeclaration.shapes (t : TypeDeclaration) : List (String × FieldShape) :=
  t.fields.map (fun f => (f.name, f.shape)) ++ t.unmapped.map fun u => (u.1, .scalar (.typed u.2))

def FieldShape.isNested : FieldShape → Bool
  | .nested .. => true
  | _ => false

/-- The places of the fields in the order in which a form is read for them. -/
def TypeDeclaration.readingOrder (t : TypeDeclaration) : List Nat :=
  let nestedAt (place : Nat) : Bool := t.shapes[place]?.any (·.2.isNested)
  let places := List.range t.shapes.length
  if t.nestedLast then
    let (nested, values) := places.partition nestedAt
    values ++ nested
  else places

namespace Schema

/-- The places of a type that have a field of a name, with their shapes. -/
def placesOf (s : Schema) (type : TypeKey) (name : String) : List (Nat × FieldShape) :=
  let shapes := ((s.find? type).map (·.shapes)).getD []
  (shapes.mapIdx fun place field => (place, field)).filterMap fun (place, field) =>
    if field.1 == name then some (place, field.2) else none

/-- Puts the slots that were read by place into a fresh entity, in the reading order of the type; the
first that could not be read decides. -/
def assemble (s : Schema) (type : TypeKey) (slots : List (Nat × Except Failure (Slot Entity))) :
    Except Failure Entity :=
  let order := ((s.find? type).map (·.readingOrder)).getD []
  order.foldlM (fun e place =>
    match slots.find? (·.1 == place) with
    | none => .ok e
    | some (_, slot) => slot.map (e.withSlot place ·)) (s.fresh type)

mutual

/-- The slot that a filling stands for in a field. A value in a nested field stands for no entity, or
for a fresh one where an entity is required. -/
def slotOf (s : Schema) (type : TypeKey) : FieldShape → Filling → Except Failure (Slot Entity)
  | .scalar codec, .value v => (codec.fill v).map .content
  | .sequence codec, .value v => (codec.fill v).map .content
  | .mapping codec, .value v => (codec.fill v).map .content
  | .nested child presence, .value _ =>
    .ok (.child (if presence = .required then some (s.fresh child) else none))
  | .nested child _, .entity contents =>
    (s.assemble child (slotsOf s child contents)).map fun e => .child (some e)
  | _, .entity _ => .error (.wrongInstance type.name)
termination_by structural _ filling => filling

def slotsOfEntry (s : Schema) (type : TypeKey) :
    String × Filling → List (Nat × Except Failure (Slot Entity))
  | (name, filling) =>
    (s.placesOf type name).map fun field => (field.1, slotOf s type field.2 filling)
termination_by structural entry => entry

def slotsOf (s : Schema) (type : TypeKey) :
    List (String × Filling) → List (Nat × Except Failure (Slot Entity))
  | [] => []
  | entry :: rest => slotsOfEntry s type entry ++ slotsOf s type rest
termination_by structural entries => entries

end

/-- The entity of a type that a form describes. -/
def fill (s : Schema) (type : TypeKey) (form : Form) : Except Failure Entity :=
  s.assemble type (s.slotsOf type form)

end Schema

end RecordMapper
