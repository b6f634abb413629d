import RecordMapper.Proofs.Schema.Level

/-!
What two descriptors of a type have in common when different registries made them: all but the
identities. The columns of a descriptor and whether it is formed depend on its content alone.
-/

namespace RecordMapper

namespace TypeDescriptor

mutual

/-- The descriptor with every identity in it set to zero. -/
def content : TypeDescriptor → TypeDescriptor
  | mk _ key name newInstance fields => mk 0 key name newInstance (contentOf fields)

def contentOfField : Field → Field
  | ⟨name, column, isId, converter, access⟩ =>
    ⟨name, column, isId, converter, contentOfAccess access⟩

def contentOfAccess : FieldAccess TypeDescriptor → FieldAccess TypeDescriptor
  | .value role codec => .value role codec
  | .embedded t => .embedded t.content
  | .subEntity t => .subEntity t.content

def contentOf : List Field → List Field
  | [] => []
  | f :: fs => contentOfField f :: contentOf fs

end

theorem contentOf_eq_map (fs : List Field) : contentOf fs = fs.map contentOfField := by
  induction fs with
  | nil => rfl
  | cons f fs ih => rw [contentOf, List.map_cons, ih]

@[simp]
theorem content_mk (identity : Nat) (key : TypeKey) (name : String) (newInstance : Thunk Entity)
    (fields : List Field) : (mk identity key name newInstance fields).content =
      mk 0 key name newInstance (fields.map contentOfField) := by
  rw [content, contentOf_eq_map]

@[simp]
theorem key_content (t : TypeDescriptor) : t.content.key = t.key := by
  cases t
  rfl

@[simp]
theorem newInstance_content (t : TypeDescriptor) : t.content.newInstance = t.newInstance := by
  cases t
  rfl

@[simp]
theorem fields_content (t : TypeDescriptor) : t.content.fields = t.fields.map contentOfField := by
  cases t
  rw [content_mk]
  rfl

@[simp]
theorem column_contentOfField (f : Field) : (contentOfField f).column = f.column := by
  cases f
  rfl

@[simp]
theorem isId_contentOfField (f : Field) : (contentOfField f).isId = f.isId := by
  cases f
  rfl

@[simp]
theorem access_contentOfField (f : Field) :
    (contentOfField f).access = contentOfAccess f.access := by
  cases f
  rfl

theorem nested?_contentOfField (f : Field) :
    (contentOfField f).nested? = f.nested?.map content := by
  rw [FieldDescriptor.nested?, FieldDescriptor.nested?, access_contentOfField]
  cases f.access <;> rfl

theorem flatColumns_content (t : TypeDescriptor) : t.content.flatColumns = t.flatColumns := by
  induction t using nestedInduction with
  | step t ih =>
    rw [flatColumns_eq_flatMap, flatColumns_eq_flatMap, fields_content, List.flatMap_map]
    refine List.flatMap_congr fun f hf => ?_
    rw [column_contentOfField, access_contentOfField]
    cases access : f.access with
    | value role codec | embedded child => rfl
    | subEntity child => exact ih f hf child (f.nested?_of_subEntity access)

theorem columnsOf_contentOfField (f : Field) : columnsOf (contentOfField f) = columnsOf f := by
  rw [columnsOf, columnsOf, access_contentOfField, column_contentOfField]
  cases f.access with
  | value role codec | embedded child => rfl
  | subEntity child =>
    rw [contentOfAccess]
    exact congrArg (f.column :: ·) child.flatColumns_content

end TypeDescriptor

end RecordMapper
