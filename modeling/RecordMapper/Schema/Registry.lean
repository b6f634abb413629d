import RecordMapper.Schema.Descriptor

/-!
The registry makes one descriptor per type, from its declaration, and keeps it. A nested type is
described before its owner is complete and stays described even if the owner is refused.
-/

namespace RecordMapper

structure Registry where
  descriptors : List (TypeKey × TypeDescriptor) := []

namespace Registry

def find? (r : Registry) (type : TypeKey) : Option TypeDescriptor :=
  (r.descriptors.find? (·.1 == type)).map (·.2)

def contains (r : Registry) (type : TypeKey) : Bool := (r.find? type).isSome

def size (r : Registry) : Nat := r.descriptors.length

/-- Keeps a new descriptor, whose identity is its place. -/
def keep (r : Registry) (type : TypeKey) (make : Nat → TypeDescriptor) : TypeDescriptor × Registry :=
  let t := make r.size
  (t, { r with descriptors := r.descriptors ++ [(type, t)] })

/-- A description in progress: the outcome, and the registry with what has been kept on the way. -/
abbrev Describing (α : Type) := Registry → Except Failure α × Registry

/-- The record-side name of a declared field. -/
def columnOf (f : FieldDeclaration) : String :=
  f.column.getD (if f.isId then "_id" else f.name)

/-- Describes what a declared field of a type holds. -/
def describeAccess (s : Schema) (describe : TypeKey → Describing TypeDescriptor) (type : TypeKey)
    (f : FieldDeclaration) : Describing (FieldAccess TypeDescriptor) := fun r =>
  match f.shape with
  | .scalar codec => (.ok (.value .plain codec), r)
  | .sequence codec => (.ok (.value .collection codec), r)
  | .mapping codec => (.ok (.value .map codec), r)
  | .nested child _ =>
    if f.isId then (.error (.nestedIdentifier type.name f.name), r)
    else
      match describe child r with
      | (.error failure, r) => (.error failure, r)
      | (.ok t, r) => (.ok (if s.kindOf f = .embedded then .embedded t else .subEntity t), r)

/-- The first column that is already taken, by an earlier column or by a name in `taken`. -/
def firstClash? (taken : List String) : List String → Option String
  | [] => none
  | c :: cs => if taken.contains c then some c else firstClash? (c :: taken) cs

/-- Describes fields in order, given the columns taken by the fields before. -/
def describeFields (s : Schema) (describe : TypeKey → Describing TypeDescriptor) (type : TypeKey) :
    List String → List FieldDeclaration → Describing (List TypeDescriptor.Field)
  | _, [], r => (.ok [], r)
  | taken, f :: fs, r =>
    match describeAccess s describe type f r with
    | (.error failure, r) => (.error failure, r)
    | (.ok access, r) =>
      let field : TypeDescriptor.Field := ⟨f.name, columnOf f, f.isId, f.converter, access⟩
      let columns := TypeDescriptor.columnsOf field
      match firstClash? taken columns with
      | some column => (.error (.columnClash type.name column), r)
      | none =>
        match describeFields s describe type (columns ++ taken) fs r with
        | (.error failure, r) => (.error failure, r)
        | (.ok fields, r) => (.ok (field :: fields), r)

/-- Describes a type inside the types in `owners`. Each level adds an owner, and as many levels as
there are types, and one more, are enough. -/
def describeAt (s : Schema) : Nat → List TypeKey → TypeKey → Describing TypeDescriptor
  | 0, _, type, r => (.error (.selfEmbedding type.name), r)
  | depth + 1, owners, type, r =>
    match r.find? type with
    | some t => (.ok t, r)
    | none =>
      match s.find? type with
      | none => (.error (.undeclaredType type.name), r)
      | some d =>
        if owners.contains type then (.error (.selfEmbedding type.name), r)
        else
          match d.factory with
          | none => (.error (.noFactory type.name), r)
          | some contents =>
            if 1 < d.fields.countP (·.isId) then (.error (.manyIdentifiers type.name), r)
            else
              match describeFields s (describeAt s depth (type :: owners)) type [] d.fields r with
              | (.error failure, r) => (.error failure, r)
              | (.ok fields, r) =>
                let (t, r) := r.keep type fun identity =>
                  .mk identity type d.name (s.freshWith type contents) fields
                (.ok t, r)

def describe (s : Schema) (type : TypeKey) : Describing TypeDescriptor :=
  describeAt s (s.length + 1) [] type

end Registry

end RecordMapper
