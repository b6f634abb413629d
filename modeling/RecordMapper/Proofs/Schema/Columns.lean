import Mathlib.Data.List.Pairwise
import RecordMapper.Proofs.Schema.Level

/-!
The columns of a type at all depths, each field counted once for every path of nested fields that
leads to it. Where they are pairwise distinct, no name that is read for one field is read for
another.
-/

namespace RecordMapper.TypeDescriptor

mutual

def allColumns : TypeDescriptor → List String
  | mk _ _ _ _ fields => allColumnsOf fields

def allColumnsOfField : Field → List String
  | ⟨_, column, _, _, access⟩ => column :: allColumnsOfAccess access

def allColumnsOfAccess : FieldAccess TypeDescriptor → List String
  | .value .. => []
  | .embedded t => t.allColumns
  | .subEntity t => t.allColumns

def allColumnsOf : List Field → List String
  | [] => []
  | f :: fs => allColumnsOfField f ++ allColumnsOf fs

end

theorem allColumnsOfField_eq (f : Field) :
    allColumnsOfField f = f.column :: allColumnsOfAccess f.access := by
  cases f
  rfl

theorem column_mem_allColumnsOfField (f : Field) : f.column ∈ allColumnsOfField f := by
  rw [allColumnsOfField_eq]
  exact List.mem_cons_self

theorem allColumnsOfAccess_of_nested? {f : Field} {child : TypeDescriptor}
    (nested : f.nested? = some child) : allColumnsOfAccess f.access = child.allColumns := by
  rcases f.access_of_nested? nested with access | access
  all_goals
    rw [access]
    rfl

theorem allColumns_eq_flatMap (t : TypeDescriptor) :
    t.allColumns = t.fields.flatMap allColumnsOfField := by
  have fields : ∀ fs : List Field, allColumnsOf fs = fs.flatMap allColumnsOfField := by
    intro fs
    induction fs with
    | nil => rfl
    | cons f fs ih => rw [allColumnsOf, ih, List.flatMap_cons]
  cases t with
  | mk identity key name instance_ fs => exact fields fs

/-- The columns are the names that reading looks up for the type. -/
theorem mem_allColumns_iff {t : TypeDescriptor} {c : String} :
    c ∈ t.allColumns ↔ t.HasColumn c := by
  induction t using nestedInduction with
  | step t ih =>
    rw [allColumns_eq_flatMap, List.mem_flatMap]
    constructor
    · rintro ⟨f, hf, mem⟩
      rw [allColumnsOfField_eq] at mem
      rcases List.mem_cons.mp mem with rfl | inside
      · exact .own hf
      · cases access : f.access with
        | value role codec => simp [access, allColumnsOfAccess] at inside
        | embedded child | subEntity child =>
          have nested : f.nested? = some child := by simp [FieldDescriptor.nested?, access]
          rw [allColumnsOfAccess_of_nested? nested] at inside
          exact .nested hf nested ((ih f hf child nested).mp inside)
    · intro h
      cases h with
      | own mem => exact ⟨_, mem, column_mem_allColumnsOfField _⟩
      | @nested _ child f _ mem nested inner =>
        refine ⟨f, mem, ?_⟩
        rw [allColumnsOfField_eq, allColumnsOfAccess_of_nested? nested]
        exact List.mem_cons_of_mem _ ((ih f mem child nested).mpr inner)

instance (t : TypeDescriptor) (c : String) : Decidable (t.HasColumn c) :=
  decidable_of_iff _ mem_allColumns_iff

theorem mem_allColumnsOfField_of_nested {f : Field} {child : TypeDescriptor} {c : String}
    (nested : f.nested? = some child) (column : child.HasColumn c) : c ∈ allColumnsOfField f := by
  rw [allColumnsOfField_eq, allColumnsOfAccess_of_nested? nested]
  exact List.mem_cons_of_mem _ (mem_allColumns_iff.mpr column)

section

variable {t : TypeDescriptor} {f g : Field} {c : String}

theorem not_mem_allColumnsOfField_of_nodup (distinct : t.allColumns.Nodup) (hf : f ∈ t.fields)
    (hg : g ∈ t.fields) (ne : g ≠ f) (mem : c ∈ allColumnsOfField g) :
    c ∉ allColumnsOfField f := by
  intro other
  rw [allColumns_eq_flatMap] at distinct
  have symm : Std.Symm (Function.onFun List.Disjoint allColumnsOfField) :=
    ⟨fun _ _ disjoint _ second first => disjoint first second⟩
  have apart := (List.nodup_flatMap.mp distinct).2.forall hg hf ne
  exact apart mem other

end

end RecordMapper.TypeDescriptor
