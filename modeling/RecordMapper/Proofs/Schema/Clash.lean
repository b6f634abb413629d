import RecordMapper.Proofs.Schema.Described

/-!
Name clashes at one record level. Describing a type refuses every clash among the columns of its
fields and those that its sub-entities write. The columns of sub-entity fields inside sub-entities
are looked up at the same level as well, and they are the only names that are not compared.
-/

namespace RecordMapper

namespace TypeDescriptor

theorem flatColumns_sublist_columnsOf (t : TypeDescriptor) :
    t.flatColumns.Sublist (t.fields.flatMap columnsOf) := by
  rw [flatColumns_eq_flatMap]
  induction t.fields with
  | nil => exact .slnil
  | cons f fs ih =>
    rw [List.flatMap_cons, List.flatMap_cons]
    refine List.Sublist.append ?_ ih
    cases access : f.access with
    | value role codec | embedded child => simp [flatColumnsOfAccess, columnsOf, access]
    | subEntity child => simp [flatColumnsOfAccess, columnsOf, access]

theorem Formed.flatColumns_nodup {t : TypeDescriptor} (formed : t.Formed) : t.flatColumns.Nodup :=
  formed.columnsOf_nodup.sublist t.flatColumns_sublist_columnsOf

theorem Formed.levelNames_nodup_iff {t : TypeDescriptor} (formed : t.Formed) :
    t.levelNames.Nodup ↔
      t.innerColumns.Nodup ∧ ∀ c ∈ t.innerColumns, c ∉ t.fields.flatMap columnsOf := by
  rw [← t.levelNames_perm_columnsOf.nodup_iff, List.nodup_append]
  constructor
  · rintro ⟨-, inner, apart⟩
    exact ⟨inner, fun c hc mem => apart c mem c hc rfl⟩
  · rintro ⟨inner, apart⟩
    exact ⟨formed.columnsOf_nodup, inner, fun a ha b hb eq => apart b hb (eq ▸ ha)⟩

end TypeDescriptor

/-- A described type has no clash among the columns of its fields and those that its sub-entities
write. It has none at its whole level exactly when the columns of the sub-entity fields inside its
sub-entities are new as well. -/
theorem Registry.describe_levelNames_nodup_iff {s : Schema} {r : Registry} {type : TypeKey}
    {t : TypeDescriptor} (reachable : Reachable s r) (described : (describe s type r).1 = .ok t) :
    (t.fields.flatMap TypeDescriptor.columnsOf).Nodup ∧
      (t.levelNames.Nodup ↔ t.innerColumns.Nodup ∧
        ∀ c ∈ t.innerColumns, c ∉ t.fields.flatMap TypeDescriptor.columnsOf) := by
  obtain ⟨-, formed⟩ := reachable.formed described
  exact ⟨formed.columnsOf_nodup, formed.levelNames_nodup_iff⟩

/-- An owner with an embedded `place` and a sub-entity whose own sub-entity field has the given
column. -/
def branchedSchema (column : String) : Schema :=
  let text : FieldShape := .scalar (.typed .string)
  [{ key := ⟨"", "Point"⟩, embeddable := true, fields := [{ name := "mark", shape := text }] },
    { key := ⟨"", "Leaf"⟩, fields := [{ name := "note", shape := text }] },
    { key := ⟨"", "Branch"⟩,
      fields :=
        [{ name := "leaf", shape := .nested ⟨"", "Leaf"⟩ .required, column := some column }] },
    { key := ⟨"", "Owner"⟩,
      fields := [{ name := "place", shape := .nested ⟨"", "Point"⟩ .required },
        { name := "branch", shape := .nested ⟨"", "Branch"⟩ .required }] }]

def branchedType (column : String) : TypeDescriptor :=
  let text (name : String) : TypeDescriptor.Field :=
    ⟨name, name, false, none, .value .plain (.typed .string)⟩
  let describing (identity : Nat) (name : String) (fields : List TypeDescriptor.Field) :
      TypeDescriptor :=
    .mk identity ⟨"", name⟩ name ((branchedSchema column).freshWith ⟨"", name⟩ []) fields
  let point := describing 0 "Point" [text "mark"]
  let leaf := describing 1 "Leaf" [text "note"]
  let branch := describing 2 "Branch" [⟨"leaf", column, false, none, .subEntity leaf⟩]
  describing 3 "Owner"
    [⟨"place", "place", false, none, .embedded point⟩,
      ⟨"branch", "branch", false, none, .subEntity branch⟩]

theorem describe_branched_apart :
    (Registry.describe (branchedSchema "leaf") ⟨"", "Owner"⟩ {}).1 = .ok (branchedType "leaf") ∧
      ((branchedType "leaf").fields.flatMap TypeDescriptor.columnsOf).Nodup ∧
      (branchedType "leaf").levelNames.Nodup := by
  have described : (Registry.describe (branchedSchema "leaf") ⟨"", "Owner"⟩ {}).1 =
    .ok (branchedType "leaf") := rfl
  have columns := Registry.describe_levelNames_nodup_iff .empty described
  exact ⟨described, columns.1, columns.2.mpr (by decide)⟩

/-- The column of the inner sub-entity field is that of the embedded field, and nobody objects. -/
theorem describe_branched_clash :
    (Registry.describe (branchedSchema "place") ⟨"", "Owner"⟩ {}).1 = .ok (branchedType "place") ∧
      ¬ (branchedType "place").levelNames.Nodup :=
  ⟨rfl, by decide⟩

end RecordMapper
