import RecordMapper.Proofs.Mapping.Dependence

/-!
Nested and flat forms of a record. Reading looks at no entry but those that the type names, so it
does not matter whether the entries of a nested entity stand in a record of their own or among those
of its owner, as long as nobody else uses their names.
-/

namespace RecordMapper

/-- The record with the entries of a child record in place of the child record. -/
def Record.flattened (r : Record) (column : String) (inner : Record) : Record :=
  (r.remove column).2.splice inner

section Flattened

variable {r inner : Record} {column c : String}

/-- The entries of the child record win over what the record held under their names. -/
theorem Record.find?_flattened (distinct : inner.names.Nodup) :
    (r.flattened column inner).find? c = (inner.find? c).or ((r.remove column).2.find? c) :=
  find?_putAll (r.remove column).2 distinct c

theorem Record.find?_flattened_of_not_mem (distinct : inner.names.Nodup) (free : c ∉ inner.names) :
    (r.flattened column inner).find? c = (r.remove column).2.find? c := by
  rw [find?_flattened distinct, find?_eq_none_iff.mpr free, Option.none_or]

theorem Record.find?_flattened_of_free (distinct : inner.names.Nodup) (free : c ∉ r.names)
    (ne : c ≠ column) : (r.flattened column inner).find? c = inner.find? c := by
  rw [find?_flattened distinct, find?_remove_of_ne r ne, find?_eq_none_iff.mpr free, Option.or_none]

end Flattened

/-- The record holds, under a column, a record with some entries, all of which the type names, and
has no entry of such a name itself. -/
structure TypeDescriptor.Lifts (child : TypeDescriptor) (column : String) (r inner : Record) :
    Prop where
  outer_names : r.names.Nodup
  inner_names : inner.names.Nodup
  held : r.find? column = some (.ofRecord inner)
  some_entry : inner.isEmpty = false
  named : ∀ c ∈ inner.names, child.HasColumn c
  apart : ∀ c ∈ r.names, ¬ child.HasColumn c

namespace TypeDescriptor

section Lifts

variable {child : TypeDescriptor} {column c : String} {r inner : Record}

theorem Lifts.unnamed (h : child.Lifts column r inner) : ¬ child.HasColumn column := by
  refine h.apart column (Record.contains_iff.mp ?_)
  rw [Record.contains, h.held]
  rfl

theorem Lifts.find?_of_hasColumn (h : child.Lifts column r inner) (named : child.HasColumn c) :
    (r.flattened column inner).find? c = inner.find? c := by
  have free : c ∉ r.names := fun mem => h.apart c mem named
  refine Record.find?_flattened_of_free h.inner_names free ?_
  rintro rfl
  exact h.unnamed named

theorem Lifts.find?_of_not_hasColumn (h : child.Lifts column r inner)
    (foreign : ¬ child.HasColumn c) :
    (r.flattened column inner).find? c = (r.remove column).2.find? c :=
  Record.find?_flattened_of_not_mem h.inner_names fun mem => foreign (h.named c mem)

theorem Lifts.exists_contains (h : child.Lifts column r inner) :
    ∃ c, child.HasColumn c ∧ (r.flattened column inner).contains c = true := by
  obtain ⟨c, mem⟩ := Record.isEmpty_eq_false_iff.mp h.some_entry
  refine ⟨c, h.named c mem, ?_⟩
  rw [Record.contains, h.find?_of_hasColumn (h.named c mem)]
  exact Record.contains_iff.mpr mem

/-- The one record offers the child record as the source of the nested entity, -/
theorem Lifts.nestedSource? (h : child.Lifts column r inner) :
    child.nestedSource? column r = some inner := by
  simp [TypeDescriptor.nestedSource?, h.held, Value.ofRecord]

/-- and the other offers itself. -/
theorem Lifts.nestedSource?_flattened (h : child.Lifts column r inner) :
    child.nestedSource? column (r.flattened column inner) = some (r.flattened column inner) := by
  have removed : (r.flattened column inner).find? column = none := by
    rw [h.find?_of_not_hasColumn h.unnamed]
    exact Record.find?_remove_self h.outer_names column
  have occurs : child.occursIn (r.flattened column inner) = true :=
    occursIn_iff.mpr h.exists_contains
  simp [TypeDescriptor.nestedSource?, removed, occurs]

theorem Lifts.isEmpty (h : child.Lifts column r inner) : r.isEmpty = false := by
  refine Record.isEmpty_eq_false_iff.mpr ⟨column, Record.contains_iff.mp ?_⟩
  rw [Record.contains, h.held]
  rfl

theorem Lifts.isEmpty_flattened (h : child.Lifts column r inner) :
    (r.flattened column inner).isEmpty = false := by
  obtain ⟨c, -, held⟩ := h.exists_contains
  exact Record.isEmpty_eq_false_iff.mpr ⟨c, Record.contains_iff.mp held⟩

end Lifts

/-- Where all columns of a type are distinct, a record in which a nested entity has a record of its
own is read like the record that holds the entries of that record instead. -/
theorem toEntity_flattened {t child : TypeDescriptor} {f : Field} {r inner : Record}
    (distinct : t.allColumns.Nodup) (hf : f ∈ t.fields) (nested : f.nested? = some child)
    (lifts : child.Lifts f.column r inner) :
    t.toEntity (r.flattened f.column inner) = t.toEntity r := by
  have inside : ∀ c, child.HasColumn c →
      (r.flattened f.column inner).find? c = inner.find? c := fun c => lifts.find?_of_hasColumn
  have outside : ∀ g ∈ t.fields, g ≠ f → ∀ c ∈ allColumnsOfField g,
      (r.flattened f.column inner).find? c = r.find? c := by
    intro g hg ne c mem
    have foreign := not_mem_allColumnsOfField_of_nodup distinct hf hg ne mem
    rw [lifts.find?_of_not_hasColumn fun named =>
      foreign (mem_allColumnsOfField_of_nested nested named)]
    refine Record.find?_remove_of_ne r ?_
    rintro rfl
    exact foreign (column_mem_allColumnsOfField f)
  rw [toEntity, toEntity, lifts.isEmpty, lifts.isEmpty_flattened, readInto_eq, readInto_eq]
  refine readFields_congr fun g hg place e => ?_
  by_cases same : g = f
  · subst same
    rw [readAccess_nested nested, readAccess_nested nested, lifts.nestedSource?,
      lifts.nestedSource?_flattened]
    simp only [readInto_congr inside]
  · exact readAccess_congr (outside g hg same) e

end TypeDescriptor

/-- The record of an owner with a flat place and a branch of its own, and that of the branch. -/
def owningRecord (branch : Record) : Record :=
  ⟨"Owner", [("mark", .string "m"), ("branch", .ofRecord branch)]⟩

def branchRecord : Record := ⟨"branch", [("leaf", .record "leaf" [("note", .string "n")])]⟩

theorem toEntity_flattened_branch :
    let branchField : TypeDescriptor.Field := (branchedType "leaf").fields[1]
    let branch : TypeDescriptor := branchField.nested?.get rfl
    (Registry.describe (branchedSchema "leaf") ⟨"", "Owner"⟩ {}).1 = .ok (branchedType "leaf") ∧
      (branchedType "leaf").allColumns.Nodup ∧
      branch.Lifts "branch" (owningRecord branchRecord) branchRecord ∧
      (branchedType "leaf").toEntity ((owningRecord branchRecord).flattened "branch" branchRecord) =
        (branchedType "leaf").toEntity (owningRecord branchRecord) ∧
      (branchedType "leaf").toEntity (owningRecord branchRecord) = .ok (branchedOwner "m" "n") := by
  intro branchField branch
  have distinct : (branchedType "leaf").allColumns.Nodup := by decide
  have lifts : branch.Lifts "branch" (owningRecord branchRecord) branchRecord :=
    ⟨by decide, by decide, rfl, rfl, by decide, by decide⟩
  have same := TypeDescriptor.toEntity_flattened distinct (List.getElem_mem _)
    (show branchField.nested? = some branch from rfl) lifts
  exact ⟨rfl, distinct, lifts, same, rfl⟩

end RecordMapper
