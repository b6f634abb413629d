import RecordMapper.Schema.Descriptor
import RecordMapper.Text.Split

/-! Paths of field names and the column paths that they stand for in a record. -/

namespace RecordMapper.TypeDescriptor

mutual

/-- The column path of a field path. An embedded field puts its column and the separator in front of
its nested columns, a sub-entity puts nothing, and the columns of a sub-entity are also reached by
their bare field names. `none` when the path names no field. -/
def columnPath (sep : String) : TypeDescriptor → String → Option String
  | mk _ _ _ _ fields, path =>
    let parts := if sep.isEmpty then none else Text.cutOnce? sep path
    let (head, rest) :=
      match parts with
      | some (head, rest) => (head, some rest)
      | none => (path, none)
    match columnPathOf sep head rest fields with
    | some found => found
    | none => columnPathInSubEntities sep path fields
termination_by structural t => t

/-- The answer of the first field named `head`, if there is one. -/
def columnPathOf (sep head : String) (rest : Option String) : List Field → Option (Option String)
  | [] => none
  | f :: fs =>
    match columnPathOfField sep head rest f with
    | some found => some found
    | none => columnPathOf sep head rest fs
termination_by structural fs => fs

def columnPathOfField (sep head : String) (rest : Option String) : Field → Option (Option String)
  | ⟨name, column, _, _, access⟩ =>
    if name == head then
      match rest with
      | none => some (some column)
      | some rest => some (columnPathInAccess sep column rest access)
    else none
termination_by structural f => f

def columnPathInAccess (sep column rest : String) : FieldAccess TypeDescriptor → Option String
  | .value .. => none
  | .embedded t => (columnPath sep t rest).map fun nested => column ++ sep ++ nested
  | .subEntity t => columnPath sep t rest
termination_by structural a => a

/-- The first answer of a sub-entity field to the whole path. -/
def columnPathInSubEntities (sep path : String) : List Field → Option String
  | [] => none
  | f :: fs =>
    match columnPathInSubEntity sep path f with
    | some found => some found
    | none => columnPathInSubEntities sep path fs
termination_by structural fs => fs

def columnPathInSubEntity (sep path : String) : Field → Option String
  | ⟨_, _, _, _, access⟩ => columnPathInSubEntityAccess sep path access
termination_by structural f => f

def columnPathInSubEntityAccess (sep path : String) : FieldAccess TypeDescriptor → Option String
  | .subEntity t => columnPath sep t path
  | .value .. => none
  | .embedded _ => none
termination_by structural a => a

end

/-- The column path of a field path, or the path itself when it names no field. -/
def columnOrSelf (sep : String) (t : TypeDescriptor) (path : String) : String :=
  (t.columnPath sep path).getD path

end RecordMapper.TypeDescriptor
