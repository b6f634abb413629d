import Mathlib.Data.List.Perm.Basic
import Mathlib.Data.List.Nodup
import Mathlib.Data.List.Count
import RecordMapper.Schema.Descriptor

/-!
Record levels. The fields at the level of a type are its own and those of its sub-entities at any
depth, which share the record of their owner; an embedded type opens a level of its own.
-/

namespace RecordMapper

def FieldDescriptor.isSubEntity {δ : Type} (f : FieldDescriptor δ) : Bool :=
  match f.access with
  | .subEntity _ => true
  | _ => false

theorem FieldDescriptor.nested?_of_embedded {δ : Type} {f : FieldDescriptor δ} {child : δ}
    (access : f.access = .embedded child) : f.nested? = some child := by
  simp [nested?, access]

theorem FieldDescriptor.nested?_of_subEntity {δ : Type} {f : FieldDescriptor δ} {child : δ}
    (access : f.access = .subEntity child) : f.nested? = some child := by
  simp [nested?, access]

theorem FieldDescriptor.access_of_nested? {δ : Type} {f : FieldDescriptor δ} {child : δ}
    (nested : f.nested? = some child) :
    f.access = .embedded child ∨ f.access = .subEntity child := by
  unfold nested? at nested
  split at nested
  next => cases nested
  next t access =>
    cases nested
    exact .inl access
  next t access =>
    cases nested
    exact .inr access

namespace TypeDescriptor

mutual

/-- The fields at the record level of a type, each in front of those that it brings along. -/
def levelFields : TypeDescriptor → List Field
  | mk _ _ _ _ fields => levelFieldsOf fields

def levelFieldsOfField : Field → List Field
  | ⟨name, column, isId, converter, access⟩ =>
    ⟨name, column, isId, converter, access⟩ :: levelFieldsOfAccess access

def levelFieldsOfAccess : FieldAccess TypeDescriptor → List Field
  | .subEntity t => t.levelFields
  | .value .. => []
  | .embedded _ => []

def levelFieldsOf : List Field → List Field
  | [] => []
  | f :: fs => levelFieldsOfField f ++ levelFieldsOf fs

end

/-- The names that are looked up in the record of a type. -/
def levelNames (t : TypeDescriptor) : List String := t.levelFields.map (·.column)

/-- The columns of the sub-entity fields at the level of a type: looked up, but never written. -/
def subEntityColumns (t : TypeDescriptor) : List String :=
  (t.levelFields.filter (·.isSubEntity)).map (·.column)

/-- The types that a record level belongs to: the type itself and the embedded types at any depth,
those inside sub-entities included. -/
inductive HasLevel : TypeDescriptor → TypeDescriptor → Prop
  | own (t : TypeDescriptor) : HasLevel t t
  | embedded {t child level : TypeDescriptor} {f : Field} (mem : f ∈ t.levelFields)
      (access : f.access = .embedded child) (inner : HasLevel child level) : HasLevel t level

theorem sizeOf_lt_of_nested {t child : TypeDescriptor} {f : Field} (hf : f ∈ t.fields)
    (hn : f.nested? = some child) : sizeOf child < sizeOf t := by
  cases t with
  | mk identity key name instance_ fields =>
    have hlt := List.sizeOf_lt_of_mem (show f ∈ fields from hf)
    obtain ⟨_, column, _, converter, access⟩ := f
    cases access with
    | value => simp [FieldDescriptor.nested?] at hn
    | embedded c | subEntity c =>
      cases Option.some.inj hn
      simp only [FieldDescriptor.mk.sizeOf_spec, FieldAccess.embedded.sizeOf_spec,
        FieldAccess.subEntity.sizeOf_spec, mk.sizeOf_spec] at hlt ⊢
      omega

/-- Descriptors are finite trees: what passes from the nested types to their owner holds always. -/
@[elab_as_elim]
theorem nestedInduction {motive : TypeDescriptor → Prop}
    (step : ∀ t, (∀ f ∈ t.fields, ∀ child, f.nested? = some child → motive child) → motive t)
    (t : TypeDescriptor) : motive t :=
  step t fun _ hf child hn =>
    have := sizeOf_lt_of_nested hf hn
    nestedInduction step child
termination_by sizeOf t

theorem levelFieldsOfField_eq (f : Field) :
    levelFieldsOfField f = f :: levelFieldsOfAccess f.access := by
  cases f
  rfl

theorem flatColumnsOfField_eq (f : Field) :
    flatColumnsOfField f = flatColumnsOfAccess f.column f.access := by
  cases f
  rfl

theorem levelFieldsOf_eq_flatMap (fs : List Field) :
    levelFieldsOf fs = fs.flatMap fun f => f :: levelFieldsOfAccess f.access := by
  induction fs with
  | nil => rfl
  | cons f fs ih => simp [levelFieldsOf, levelFieldsOfField_eq, ih]

theorem levelFields_eq_flatMap (t : TypeDescriptor) :
    t.levelFields = t.fields.flatMap fun f => f :: levelFieldsOfAccess f.access := by
  cases t with
  | mk identity key name instance_ fields => exact levelFieldsOf_eq_flatMap fields

theorem mem_levelFields_of_mem_fields {t : TypeDescriptor} {f : Field} (hf : f ∈ t.fields) :
    f ∈ t.levelFields := by
  rw [levelFields_eq_flatMap]
  exact List.mem_flatMap.mpr ⟨f, hf, List.mem_cons_self⟩

theorem levelFields_sublist_of_subEntity {t child : TypeDescriptor} {f : Field}
    (hf : f ∈ t.fields) (access : f.access = .subEntity child) :
    child.levelFields.Sublist t.levelFields := by
  have inner : child.levelFields.Sublist (f :: levelFieldsOfAccess f.access) := by
    rw [access]
    exact List.sublist_cons_self f _
  have piece : (f :: levelFieldsOfAccess f.access) ∈
      t.fields.map fun f => f :: levelFieldsOfAccess f.access := List.mem_map.mpr ⟨f, hf, rfl⟩
  rw [levelFields_eq_flatMap t]
  exact inner.trans (List.sublist_flatten_of_mem piece)

theorem flatColumnsOf_eq_flatMap (fs : List Field) :
    flatColumnsOf fs = fs.flatMap fun f => flatColumnsOfAccess f.column f.access := by
  induction fs with
  | nil => rfl
  | cons f fs ih => simp [flatColumnsOf, flatColumnsOfField_eq, ih]

theorem flatColumns_eq_flatMap (t : TypeDescriptor) :
    t.flatColumns = t.fields.flatMap fun f => flatColumnsOfAccess f.column f.access := by
  cases t with
  | mk identity key name instance_ fields => exact flatColumnsOf_eq_flatMap fields

/-- The columns written at a level are those of all its fields but the sub-entity fields. -/
theorem flatColumns_eq_map_filter (t : TypeDescriptor) :
    t.flatColumns = (t.levelFields.filter (!·.isSubEntity)).map (·.column) := by
  induction t using nestedInduction with
  | step t ih =>
    rw [flatColumns_eq_flatMap, levelFields_eq_flatMap, List.filter_flatMap, List.map_flatMap]
    refine List.flatMap_congr fun f hf => ?_
    cases access : f.access with
    | value role codec | embedded child =>
      simp [flatColumnsOfAccess, levelFieldsOfAccess, FieldDescriptor.isSubEntity, access]
    | subEntity child =>
      have := ih f hf child (f.nested?_of_subEntity access)
      simp [flatColumnsOfAccess, levelFieldsOfAccess, FieldDescriptor.isSubEntity, access, this]

/-- What is looked up at a level is what is written there and the columns of its sub-entities. -/
theorem levelNames_perm (t : TypeDescriptor) :
    (t.flatColumns ++ t.subEntityColumns).Perm t.levelNames := by
  rw [flatColumns_eq_map_filter, subEntityColumns, levelNames, ← List.map_append]
  refine List.Perm.map _ (List.perm_append_comm.trans ?_)
  simpa using List.filter_append_perm (fun f : Field => f.isSubEntity) t.levelFields

/-- The columns of the sub-entity fields that lie inside the sub-entities of a type. -/
def innerColumns (t : TypeDescriptor) : List String :=
  t.fields.flatMap fun f =>
    match f.access with
    | .subEntity child => child.subEntityColumns
    | _ => []

/-- The columns of the fields, as `columnsOf` counts them, are all names of the level but the
columns of sub-entity fields inside sub-entities. -/
theorem levelNames_perm_columnsOf (t : TypeDescriptor) :
    (t.fields.flatMap columnsOf ++ t.innerColumns).Perm t.levelNames := by
  rw [levelNames, levelFields_eq_flatMap, List.map_flatMap]
  refine (List.flatMap_append_perm _ _ _).trans (List.Perm.flatMap_left _ fun f _ => ?_)
  cases access : f.access with
  | value role codec | embedded child =>
    simp [columnsOf, levelFieldsOfAccess, access]
  | subEntity child =>
    simpa [columnsOf, levelFieldsOfAccess, access, levelNames] using child.levelNames_perm

/-- The names that reading looks up for a type, at whatever depth of nesting. -/
inductive HasColumn : TypeDescriptor → String → Prop
  | own {t : TypeDescriptor} {f : Field} (mem : f ∈ t.fields) : HasColumn t f.column
  | nested {t child : TypeDescriptor} {f : Field} {c : String} (mem : f ∈ t.fields)
      (nested : f.nested? = some child) (inner : HasColumn child c) : HasColumn t c

theorem HasColumn.of_mem_levelFields {t : TypeDescriptor} {f : Field} (mem : f ∈ t.levelFields) :
    t.HasColumn f.column ∧
      ∀ child, f.access = .embedded child → ∀ c, child.HasColumn c → t.HasColumn c := by
  induction t using nestedInduction with
  | step t ih =>
    rw [levelFields_eq_flatMap] at mem
    obtain ⟨g, hg, within⟩ := List.mem_flatMap.mp mem
    rcases List.mem_cons.mp within with rfl | brought
    · exact ⟨.own hg, fun child access _ inner => .nested hg (f.nested?_of_embedded access) inner⟩
    · cases access : g.access with
      | value role codec | embedded child => simp [levelFieldsOfAccess, access] at brought
      | subEntity child =>
        have nested := g.nested?_of_subEntity access
        rw [access] at brought
        obtain ⟨column, inside⟩ := ih g hg child nested brought
        exact ⟨.nested hg nested column,
          fun embedded opened c inner => .nested hg nested (inside embedded opened c inner)⟩

/-- A name of a type is one of its level or belongs to an embedded type there. -/
theorem hasColumn_iff {t : TypeDescriptor} {c : String} :
    t.HasColumn c ↔ c ∈ t.levelNames ∨
      ∃ f ∈ t.levelFields, ∃ child, f.access = .embedded child ∧ child.HasColumn c := by
  constructor
  · intro h
    induction h with
    | own mem => exact .inl (List.mem_map_of_mem (mem_levelFields_of_mem_fields mem))
    | @nested t child f c mem nested inner ih =>
      rcases f.access_of_nested? nested with access | access
      · exact .inr ⟨f, mem_levelFields_of_mem_fields mem, child, access, inner⟩
      · -- What lies at the level of a sub-entity lies at the level of its owner.
        have fields := levelFields_sublist_of_subEntity mem access
        rcases ih with name | ⟨g, hg, opened⟩
        · exact .inl ((fields.map _).subset name)
        · exact .inr ⟨g, fields.subset hg, opened⟩
  · rintro (name | ⟨f, hf, child, access, inner⟩)
    · obtain ⟨f, hf, rfl⟩ := List.mem_map.mp name
      exact (HasColumn.of_mem_levelFields hf).1
    · exact (HasColumn.of_mem_levelFields hf).2 child access c inner

/-- No name is looked up twice at a level of the type, and no sub-entity type is without fields. -/
structure Separated (t : TypeDescriptor) : Prop where
  names : ∀ level, t.HasLevel level → level.levelNames.Nodup
  inhabited : ∀ level, t.HasLevel level → ∀ f ∈ level.levelFields, ∀ child,
    f.access = .subEntity child → child.fields ≠ []

theorem Separated.levelNames_nodup {t : TypeDescriptor} (h : t.Separated) : t.levelNames.Nodup :=
  h.names t (.own t)

theorem Separated.columns_nodup {t : TypeDescriptor} (h : t.Separated) :
    (t.flatColumns ++ t.subEntityColumns).Nodup :=
  t.levelNames_perm.nodup_iff.mpr h.levelNames_nodup

theorem Separated.flatColumns_nodup {t : TypeDescriptor} (h : t.Separated) :
    t.flatColumns.Nodup :=
  (List.nodup_append.mp h.columns_nodup).1

theorem Separated.not_mem_flatColumns {t : TypeDescriptor} (h : t.Separated) {column : String}
    (mem : column ∈ t.subEntityColumns) : column ∉ t.flatColumns := by
  intro written
  have apart := (List.nodup_append.mp h.columns_nodup).2.2
  exact apart column written column mem rfl

theorem Separated.of_embedded {t : TypeDescriptor} (names : t.levelNames.Nodup)
    (inhabited : ∀ f ∈ t.levelFields, ∀ child, f.access = .subEntity child → child.fields ≠ [])
    (inner : ∀ f ∈ t.levelFields, ∀ child, f.access = .embedded child → child.Separated) :
    t.Separated := by
  constructor
  · intro level hl
    cases hl with
    | own => exact names
    | embedded mem access rest => exact (inner _ mem _ access).names level rest
  · intro level hl
    cases hl with
    | own => exact inhabited
    | embedded mem access rest => exact (inner _ mem _ access).inhabited level rest

theorem Separated.fields_ne_nil {t child : TypeDescriptor} {f : Field} (h : t.Separated)
    (hf : f ∈ t.fields) (access : f.access = .subEntity child) : child.fields ≠ [] :=
  h.inhabited t (.own t) f (mem_levelFields_of_mem_fields hf) child access

theorem HasLevel.of_embedded {t child level : TypeDescriptor} {f : Field} (hf : f ∈ t.fields)
    (access : f.access = .embedded child) (inner : child.HasLevel level) : t.HasLevel level :=
  .embedded (mem_levelFields_of_mem_fields hf) access inner

/-- A level of a sub-entity is its own, which belongs to the owner, or a level of the owner. -/
theorem HasLevel.of_subEntity {t child level : TypeDescriptor} {f : Field} (hf : f ∈ t.fields)
    (access : f.access = .subEntity child) (inner : child.HasLevel level) :
    level = child ∨ t.HasLevel level := by
  cases inner with
  | own => exact .inl rfl
  | embedded mem opened rest =>
    have sub := levelFields_sublist_of_subEntity hf access
    exact .inr (.embedded (sub.subset mem) opened rest)

theorem Separated.nested {t child : TypeDescriptor} {f : Field} (h : t.Separated)
    (hf : f ∈ t.fields) (nested : f.nested? = some child) : child.Separated := by
  rcases f.access_of_nested? nested with access | access
  · exact ⟨fun level hl => h.names level (.of_embedded hf access hl),
      fun level hl => h.inhabited level (.of_embedded hf access hl)⟩
  · have sub := levelFields_sublist_of_subEntity hf access
    refine ⟨fun level hl => ?_, fun level hl g hg => ?_⟩
    · rcases HasLevel.of_subEntity hf access hl with rfl | outer
      · exact h.levelNames_nodup.sublist (sub.map _)
      · exact h.names level outer
    · rcases HasLevel.of_subEntity hf access hl with rfl | outer
      · exact h.inhabited t (.own t) g (sub.subset hg)
      · exact h.inhabited level outer g hg

theorem subEntityColumns_subset {t child : TypeDescriptor} {f : Field} (hf : f ∈ t.fields)
    (access : f.access = .subEntity child) : child.subEntityColumns ⊆ t.subEntityColumns := by
  have sub := levelFields_sublist_of_subEntity hf access
  exact ((sub.filter _).map _).subset

theorem column_mem_subEntityColumns {t child : TypeDescriptor} {f : Field} (hf : f ∈ t.fields)
    (access : f.access = .subEntity child) : f.column ∈ t.subEntityColumns := by
  refine List.mem_map.mpr ⟨f, List.mem_filter.mpr ⟨mem_levelFields_of_mem_fields hf, ?_⟩, rfl⟩
  simp [FieldDescriptor.isSubEntity, access]

end TypeDescriptor

end RecordMapper
