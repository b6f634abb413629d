import RecordMapper.Proofs.Mapping.Paths

/-!
Field names as paths. A path is cut at the separator before any field is looked up, so the name of a
field leads to its column when the separator does not stand in it, and otherwise to wherever its
parts lead, which is nowhere in a type of values.
-/

namespace RecordMapper

namespace TypeDescriptor

variable {t : TypeDescriptor} {sep name : String} {f : Field}

theorem access_of_flat (flat : f.nested? = none) : ∃ role codec, f.access = .value role codec := by
  cases access : f.access with
  | value role codec => exact ⟨role, codec, rfl⟩
  | embedded child | subEntity child => simp [FieldDescriptor.nested?, access] at flat

theorem columnPathInSubEntities_of_flat {fs : List Field} (sep path : String)
    (flat : ∀ f ∈ fs, f.nested? = none) : columnPathInSubEntities sep path fs = none := by
  induction fs with
  | nil => rfl
  | cons f fs ih =>
    obtain ⟨here, others⟩ := List.forall_mem_cons.mp flat
    obtain ⟨role, codec, access⟩ := access_of_flat here
    have silent : columnPathInSubEntity sep path f = none := by
      cases f
      cases access
      rfl
    rw [columnPathInSubEntities, silent]
    exact ih others

/-- A type of values has no column for a name that the separator cuts. -/
theorem columnPath_eq_none_of_flat (some_sep : sep ≠ "") (flat : ∀ f ∈ t.fields, f.nested? = none)
    (inside : sep.toList <:+: name.toList) : t.columnPath sep name = none := by
  obtain ⟨parts, cut⟩ : ∃ parts, Text.cutOnce? sep name = some parts :=
    Option.ne_none_iff_exists'.mp fun uncut => Text.cutOnce?_eq_none_iff.mp uncut inside
  obtain ⟨head, tail⟩ := parts
  cases t with
  | mk identity key record instance_ fs =>
    simp only [columnPath, String.isEmpty_eq_false_iff.mpr some_sep, cut, columnPathOf_eq,
      Bool.false_eq_true, if_false]
    cases found : fs.find? (·.name == head) with
    | none => exact columnPathInSubEntities_of_flat sep name flat
    | some g =>
      obtain ⟨role, codec, access⟩ := access_of_flat (flat g (List.mem_of_find?_eq_some found))
      simp [access, columnPathInAccess]

/-- In a type of values, the names that lead to the columns of their fields are those that the
separator leaves whole. -/
theorem columnPath_self_iff_of_flat (some_sep : sep ≠ "")
    (names : (t.fields.map (·.name)).Nodup) (flat : ∀ f ∈ t.fields, f.nested? = none)
    (hf : f ∈ t.fields) :
    t.columnPath sep f.name = some f.column ↔ ¬ sep.toList <:+: f.name.toList := by
  constructor
  · intro led inside
    rw [columnPath_eq_none_of_flat some_sep flat inside] at led
    cases led
  · intro whole
    exact columnPath_of_field? whole (field?_eq_of_nodup names hf)

end TypeDescriptor

/-- A guest who has nothing but one text. -/
def guestSchema (name column : String) : Schema :=
  [{ key := ⟨"", "Guest"⟩,
     fields := [{ name, shape := .scalar (.typed .string), column := some column }] }]

def guestType (name column : String) : TypeDescriptor :=
  .mk 0 ⟨"", "Guest"⟩ "Guest" ((guestSchema name column).freshWith ⟨"", "Guest"⟩ [])
    [⟨name, column, false, none, .value .plain (.typed .string)⟩]

theorem describe_guest (name column : String) :
    (Registry.describe (guestSchema name column) ⟨"", "Guest"⟩ {}).1 =
      .ok (guestType name column) := rfl

/-- Under a separator that a configuration accepts, a name leads to the column of its field in every
described type whose field names do not repeat, exactly when the separator does not stand in it. -/
theorem Registry.describe_columnPath_self_iff {σ : Type} {c : Config σ} {asked sep : String}
    (accepted : c.setSeparator asked = .ok sep) (name : String) :
    (∀ s registry type t, Registry.Reachable s registry →
      (Registry.describe s type registry).1 = .ok t → (t.fields.map (·.name)).Nodup →
      ∀ f ∈ t.fields, f.name = name →
        t.columnPath sep name = some f.column ∧ t.columnOrSelf sep name = f.column) ↔
      ¬ sep.toList <:+: name.toList := by
  constructor
  · intro law
    have some_sep := Config.setSeparator_ne_empty accepted
    have names : ((guestType name "").fields.map (·.name)).Nodup := List.nodup_singleton name
    have flat : ∀ f ∈ (guestType name "").fields, f.nested? = none :=
      List.forall_mem_singleton.mpr rfl
    have led := law _ _ _ _ .empty (describe_guest name "") names _ List.mem_cons_self rfl
    exact (TypeDescriptor.columnPath_self_iff_of_flat some_sep names flat List.mem_cons_self).mp
      led.1
  · intro whole s registry type t _ _ names f hf same
    have found := TypeDescriptor.field?_eq_of_nodup names hf
    rw [same] at found
    exact ⟨TypeDescriptor.columnPath_of_field? whole found,
      TypeDescriptor.columnOrSelf_of_field? whole found⟩

theorem columnPath_firstName_dotted :
    (({} : Config Unit).setSeparator ".") = .ok "." ∧
      (guestType "first_name" "given").columnPath "." "first_name" = some "given" ∧
      (guestType "first_name" "given").columnOrSelf "." "first_name" = "given" := by
  have accepted : (({} : Config Unit).setSeparator ".") = .ok "." := rfl
  have whole : ¬ ".".toList <:+: "first_name".toList := by decide
  exact ⟨accepted, (Registry.describe_columnPath_self_iff accepted "first_name").mpr whole _ _ _ _
    .empty (describe_guest "first_name" "given") (by decide) _ List.mem_cons_self rfl⟩

/-- The separator stands in the name: its field is not found, and queries ask for the name. -/
theorem columnPath_firstName_underscored :
    (({} : Config Unit).setSeparator "_") = .ok "_" ∧
      (Registry.describe (guestSchema "first_name" "given") ⟨"", "Guest"⟩ {}).1 =
        .ok (guestType "first_name" "given") ∧
      ((guestType "first_name" "given").fields.map fun f => (f.name, f.column)) =
        [("first_name", "given")] ∧
      (guestType "first_name" "given").columnPath "_" "first_name" = none ∧
      (guestType "first_name" "given").columnOrSelf "_" "first_name" = "first_name" := by
  have inside : "_".toList <:+: "first_name".toList := by decide
  have flat : ∀ f ∈ (guestType "first_name" "given").fields, f.nested? = none :=
    List.forall_mem_singleton.mpr rfl
  have lost := TypeDescriptor.columnPath_eq_none_of_flat (by decide) flat inside
  refine ⟨rfl, describe_guest _ _, rfl, lost, ?_⟩
  rw [TypeDescriptor.columnOrSelf, lost, Option.getD_none]

end RecordMapper
