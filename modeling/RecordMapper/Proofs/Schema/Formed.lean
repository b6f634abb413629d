import RecordMapper.Proofs.Schema.Content
import RecordMapper.Proofs.Schema.Slots
import RecordMapper.Schema.Registry

/-!
Formed descriptors: new instances have a slot for each field, columns do not clash and nested types
are formed. Fields that pass the search for clashes one after the other make a formed descriptor.
-/

namespace RecordMapper

/-- A descriptor of the given type as describing makes it, its nested descriptors included. -/
inductive TypeDescriptor.Formed : TypeDescriptor → Prop
  | mk {t : TypeDescriptor} (instance_type : t.newInstance.type = t.key)
      (slots : t.fields.length ≤ t.newInstance.slots.length)
      (columns : (t.fields.flatMap columnsOf).Nodup)
      (identifiers : t.fields.countP (·.isId) ≤ 1)
      (nested : ∀ f ∈ t.fields, ∀ child, f.nested? = some child → child.Formed) : Formed t

namespace TypeDescriptor

theorem Formed.columnsOf_nodup {t : TypeDescriptor} (formed : t.Formed) :
    (t.fields.flatMap columnsOf).Nodup := by
  cases formed with
  | mk _ _ columns => exact columns

theorem Formed.instance_type {t : TypeDescriptor} (formed : t.Formed) :
    t.newInstance.type = t.key := by
  cases formed with
  | mk instance_ => exact instance_

theorem Formed.instance_slots {t : TypeDescriptor} (formed : t.Formed) :
    t.fields.length ≤ t.newInstance.slots.length := by
  cases formed with
  | mk _ slots => exact slots

theorem Formed.nested {t child : TypeDescriptor} {f : Field} (formed : t.Formed)
    (hf : f ∈ t.fields) (nested : f.nested? = some child) : child.Formed := by
  cases formed with
  | mk _ _ _ _ inner => exact inner f hf child nested

/-- Identities have no part in whether a descriptor is formed. -/
theorem Formed.of_content {t : TypeDescriptor} (formed : t.content.Formed) : t.Formed := by
  induction t using nestedInduction with
  | step t ih =>
    cases formed with
    | mk instance_type slots columns identifiers nested =>
      refine .mk ?_ ?_ ?_ ?_ fun f hf child hn => ih f hf child hn ?_
      · simpa using instance_type
      · simpa using slots
      · simpa [List.flatMap_map, columnsOf_contentOfField] using columns
      · simpa [List.countP_map, Function.comp_def] using identifiers
      · refine nested (contentOfField f) ?_ child.content ?_
        · rw [fields_content]
          exact List.mem_map_of_mem hf
        · rw [nested?_contentOfField, hn, Option.map_some]

end TypeDescriptor

namespace Registry

theorem firstClash?_eq_none_iff {taken columns : List String} :
    firstClash? taken columns = none ↔ columns.Nodup ∧ ∀ c ∈ columns, c ∉ taken := by
  induction columns generalizing taken with
  | nil => simp [firstClash?]
  | cons c cs ih =>
    by_cases clash : c ∈ taken
    · simp [firstClash?, clash]
    · simp only [firstClash?, List.contains_iff_mem, clash, if_false, ih, List.mem_cons, not_or,
        List.nodup_cons, forall_eq_or_imp, not_false_eq_true, true_and]
      constructor
      · rintro ⟨distinct, fresh⟩
        exact ⟨⟨fun mem => (fresh c mem).1 rfl, distinct⟩, fun d hd => (fresh d hd).2⟩
      · rintro ⟨⟨new, distinct⟩, fresh⟩
        exact ⟨distinct, fun d hd => ⟨fun eq => new (eq ▸ hd), fresh d hd⟩⟩

/-- What the fields described so far promise: the columns are new and do not clash, and nested
types are formed. -/
structure FieldsFormed (taken : List String) (fields : List TypeDescriptor.Field) : Prop where
  columns : (fields.flatMap TypeDescriptor.columnsOf).Nodup
  fresh : ∀ c ∈ fields.flatMap TypeDescriptor.columnsOf, c ∉ taken
  nested : ∀ f ∈ fields, ∀ child, f.nested? = some child → child.Formed

theorem FieldsFormed.nil {taken : List String} : FieldsFormed taken [] :=
  ⟨by simp, by simp, by simp⟩

theorem FieldsFormed.cons {taken : List String} {f : TypeDescriptor.Field}
    {fields : List TypeDescriptor.Field}
    (clash : firstClash? taken (TypeDescriptor.columnsOf f) = none)
    (nested : ∀ child, f.nested? = some child → child.Formed)
    (rest : FieldsFormed (TypeDescriptor.columnsOf f ++ taken) fields) :
    FieldsFormed taken (f :: fields) := by
  obtain ⟨distinct, free⟩ := firstClash?_eq_none_iff.mp clash
  refine ⟨?_, ?_, ?_⟩
  · rw [List.flatMap_cons, List.nodup_append]
    refine ⟨distinct, rest.columns, fun a ha b hb eq => ?_⟩
    exact rest.fresh b hb (List.mem_append_left _ (eq ▸ ha))
  · intro c hc
    rw [List.flatMap_cons, List.mem_append] at hc
    rcases hc with own | later
    · exact free c own
    · exact fun mem => rest.fresh c later (List.mem_append_right _ mem)
  · intro g hg
    rcases List.mem_cons.mp hg with rfl | hg
    · exact nested
    · exact rest.nested g hg

theorem formed_mk {s : Schema} {type : TypeKey} {d : TypeDeclaration}
    (contents : List (Nat × Datum)) {fields : List TypeDescriptor.Field}
    (found : s.find? type = some d) (single : d.fields.countP (·.isId) ≤ 1)
    (len : fields.length = d.fields.length)
    (ids : fields.countP (·.isId) = d.fields.countP (·.isId))
    (formed : FieldsFormed [] fields) (identity : Nat) :
    TypeDescriptor.Formed (.mk identity type d.name (s.freshWith type contents) fields) := by
  have slots : fields.length ≤ (s.freshWith type contents).slots.length := by
    rw [Schema.length_slots_freshWith, Schema.length_slots_fresh found, len]
    omega
  have atMostOne : fields.countP (·.isId) ≤ 1 := by omega
  exact .mk (s.type_freshWith type contents) slots formed.columns atMostOne formed.nested

end Registry

end RecordMapper
