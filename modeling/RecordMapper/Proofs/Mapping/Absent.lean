import RecordMapper.Proofs.Mapping.RoundTrip

/-!
Missing nested entities. A field without an entity leaves no entry in the record, and reading the
record leaves it without one, unless an entry of another field has a name that belongs to an
embedded type inside the field: such an entry is taken for the flat form of that type.
-/

namespace RecordMapper

theorem Entity.child?_congr {e e' : Entity} {place : Nat} (same : e'.slot? place = e.slot? place) :
    e'.child? place = e.child? place := by
  rw [child?, child?, same]

namespace TypeDescriptor

/-- A name of the embedded type of a field, or of an embedded type in the sub-entity of a field. -/
def HasEmbeddedColumn (f : Field) (c : String) : Prop :=
  ∃ g ∈ f :: levelFieldsOfAccess f.access, ∃ child, g.access = .embedded child ∧ child.HasColumn c

/-- The names of a nested type are those that the field brings to its level and those of embedded
types. -/
theorem hasColumn_nested_iff {f : Field} {child : TypeDescriptor} (nested : f.nested? = some child)
    {c : String} : child.HasColumn c ↔
      (∃ g ∈ levelFieldsOfAccess f.access, g.column = c) ∨ HasEmbeddedColumn f c := by
  unfold HasEmbeddedColumn
  rcases f.access_of_nested? nested with access | access
  · simp [levelFieldsOfAccess, access]
  · rw [hasColumn_iff]
    simp [levelFieldsOfAccess, access, levelNames]

/-- Of the columns that a field brings to its level, describing leaves out those of sub-entities. -/
theorem mem_columnsOf_of_brought {f g : Field} (brought : g ∈ levelFieldsOfAccess f.access)
    (valued : g.isSubEntity = false) : g.column ∈ columnsOf f := by
  cases access : f.access with
  | value role codec | embedded child => simp [levelFieldsOfAccess, access] at brought
  | subEntity child =>
    have inside : g ∈ child.levelFields := by simpa [levelFieldsOfAccess, access] using brought
    have flat : g.column ∈ child.flatColumns := by
      rw [flatColumns_eq_map_filter]
      exact List.mem_map_of_mem (List.mem_filter.mpr ⟨inside, by simp [valued]⟩)
    simp [columnsOf, access, flat]

section Writing

variable {type : TypeKey} {e : Entity}

/-- A field that leaves no entry keeps its columns free. -/
theorem Formed.find?_eq_none_of_absent {t : TypeDescriptor} (formed : t.Formed) {place : Nat}
    {f : Field} {child : TypeDescriptor} (hf : t.fields[place]? = some f)
    (nested : f.nested? = some child) (absent : e.child? place = none)
    {es : List (String × Value)} (entries : written e t = .ok es) (name : String) {c : String}
    (column : c ∈ columnsOf f) : Record.find? ⟨name, es⟩ c = none := by
  obtain ⟨own, hown, -⟩ := written_of_getElem? entries hf
  rw [Record.find?, formed.lookup_written entries hf hown column,
    writtenAccess_of_absent nested absent hown]
  rfl

end Writing

section Reading

variable {r : Record} {type : String}

/-- Where all names that a field has at its level are free, its entity is looked for by the names of
embedded types alone. -/
theorem nestedSource?_eq_none_iff {f : Field} {child : TypeDescriptor}
    (nested : f.nested? = some child) (own : r.find? f.column = none)
    (free : ∀ g ∈ levelFieldsOfAccess f.access, r.find? g.column = none) :
    child.nestedSource? f.column r = none ↔ ∀ c, HasEmbeddedColumn f c → r.find? c = none := by
  have missing : child.nestedSource? f.column r = none ↔ ¬ child.occursIn r = true := by
    simp [nestedSource?, own]
  rw [missing, occursIn_iff]
  constructor
  · intro none_of c column
    by_contra found
    have held : r.contains c = true := Option.isSome_iff_ne_none.mpr found
    exact none_of ⟨c, (hasColumn_nested_iff nested).mpr (.inr column), held⟩
  · rintro unheld ⟨c, column, held⟩
    have found : r.find? c ≠ none := Option.isSome_iff_ne_none.mp held
    rcases (hasColumn_nested_iff nested).mp column with ⟨g, hg, rfl⟩ | embedded
    · exact found (free g hg)
    · exact found (unheld c embedded)

theorem readAccess_kept {place : Nat} {name column : String} {converter : Option AttributeConverter}
    {access : FieldAccess TypeDescriptor} {e e' : Entity}
    (h : readAccess r type place name column converter access e = .ok e') :
    e' = e ∨ ∃ s, e' = e.withSlot place s := by
  cases access with
  | value role codec =>
    simp only [readAccess] at h
    split at h
    · exact .inl (Except.ok.inj h).symm
    · split at h
      · exact .inl (Except.ok.inj h).symm
      · obtain ⟨d, -, rfl⟩ := map_eq_ok_iff.mp h
        exact .inr ⟨_, rfl⟩
  | embedded child | subEntity child =>
    simp only [readAccess] at h
    split at h
    · exact .inl (Except.ok.inj h).symm
    · obtain ⟨c, -, rfl⟩ := map_eq_ok_iff.mp h
      exact .inr ⟨_, rfl⟩

/-- A nested field without a source stays as it was, and one with a source holds an entity. -/
theorem child?_readAccess {place : Nat} {f : Field} {child : TypeDescriptor} {e e' : Entity}
    (nested : f.nested? = some child) (room : place < e.slots.length)
    (absent : e.child? place = none)
    (h : readAccess r type place f.name f.column f.converter f.access e = .ok e') :
    e'.child? place = none ↔ child.nestedSource? f.column r = none := by
  have filled (c : Entity) : (e.withChild place (some c)).child? place = some c :=
    Entity.child?_eq_some_iff.mpr (Entity.slot?_withSlot_self _ room)
  rcases f.access_of_nested? nested with access | access
  all_goals
    simp only [readAccess, access] at h
    split at h
    next missing =>
      cases Except.ok.inj h
      exact iff_of_true absent missing
    next source found =>
      obtain ⟨c, -, rfl⟩ := map_eq_ok_iff.mp h
      simp [filled, found]

theorem readFields_before {fs : List Field} {place : Nat} {e e' : Entity}
    (h : readFields r type place fs e = .ok e') {j : Nat} (hj : j < place) :
    e'.slot? j = e.slot? j := by
  induction fs generalizing place e with
  | nil =>
    cases Except.ok.inj h
    rfl
  | cons f fs ih =>
    obtain ⟨e₁, first, rest⟩ := bind_eq_ok_iff.mp h
    rw [readField_eq] at first
    rw [ih rest (by omega)]
    rcases readAccess_kept first with rfl | ⟨s, rfl⟩
    · rfl
    · exact Entity.slot?_withSlot_of_ne s (by omega)

/-- Only the field at a place fills the slot there. -/
theorem child?_readFields {fs : List Field} {place i : Nat} {f : Field} {child : TypeDescriptor}
    {e e' : Entity} (hf : fs[i]? = some f) (nested : f.nested? = some child)
    (room : place + fs.length ≤ e.slots.length) (absent : e.child? (place + i) = none)
    (h : readFields r type place fs e = .ok e') :
    e'.child? (place + i) = none ↔ child.nestedSource? f.column r = none := by
  induction fs generalizing place i e with
  | nil => simp at hf
  | cons g fs ih =>
    obtain ⟨e₁, first, rest⟩ := bind_eq_ok_iff.mp h
    rw [readField_eq] at first
    rw [List.length_cons] at room
    cases i with
    | zero =>
      obtain rfl : g = f := by simpa using hf
      have kept : e'.child? place = e₁.child? place :=
        Entity.child?_congr (readFields_before rest (Nat.lt_succ_self place))
      rw [Nat.add_zero] at absent ⊢
      rw [kept]
      exact child?_readAccess nested (by omega) absent first
    | succ i =>
      rw [show place + (i + 1) = place + 1 + i by omega] at absent ⊢
      refine ih (by simpa using hf) ?_ ?_ rest
      · rcases readAccess_kept first with rfl | ⟨s, rfl⟩
        · omega
        · rw [Entity.length_slots_withSlot]
          omega
      · rw [← absent]
        rcases readAccess_kept first with rfl | ⟨s, rfl⟩
        · rfl
        · exact Entity.child?_congr (Entity.slot?_withSlot_of_ne s (by omega))

end Reading

end TypeDescriptor

/-- A nested field that a new instance and the entity leave without an entity is without one after
reading the record back exactly when no entry has a name of an embedded type inside the field. The
names of sub-entity fields inside a sub-entity, which describing does not compare, are left out. -/
theorem Registry.describe_toEntity_absent_iff {s : Schema} {registry : Registry}
    {type : TypeKey} {t : TypeDescriptor} (reachable : Reachable s registry)
    (described : (describe s type registry).1 = .ok t) {place : Nat} {f : TypeDescriptor.Field}
    {child : TypeDescriptor} (hf : t.fields[place]? = some f) (nested : f.nested? = some child)
    (fresh : t.newInstance.child? place = none) {e e' : Entity} (absent : e.child? place = none)
    {r : Record} (written : t.toRecord e = .ok r) (read : t.toEntity r = .ok e')
    (apart : ∀ g ∈ TypeDescriptor.levelFieldsOfAccess f.access, g.isSubEntity = true →
      r.find? g.column = none) :
    e'.child? place = none ↔
      ∀ c, TypeDescriptor.HasEmbeddedColumn f c → r.find? c = none := by
  obtain ⟨-, formed⟩ := reachable.formed described
  rw [formed.toRecord_eq] at written
  obtain ⟨es, entries, rfl⟩ := map_eq_ok_iff.mp written
  have free : ∀ c ∈ TypeDescriptor.columnsOf f, Record.find? ⟨t.name, es⟩ c = none := fun _ =>
    formed.find?_eq_none_of_absent hf nested absent entries t.name
  have brought : ∀ g ∈ TypeDescriptor.levelFieldsOfAccess f.access,
      Record.find? ⟨t.name, es⟩ g.column = none := by
    intro g hg
    cases sub : g.isSubEntity with
    | true => exact apart g hg sub
    | false => exact free _ (TypeDescriptor.mem_columnsOf_of_brought hg sub)
  have reads : TypeDescriptor.readFields ⟨t.name, es⟩ t.typeName 0 t.fields t.newInstance =
      .ok e' := by
    unfold TypeDescriptor.toEntity at read
    split at read
    · cases read
    · rwa [TypeDescriptor.readInto_eq] at read
  have filled := TypeDescriptor.child?_readFields hf nested (by simpa using formed.instance_slots)
    (by simpa using fresh) reads
  rw [Nat.zero_add] at filled
  exact filled.trans (TypeDescriptor.nestedSource?_eq_none_iff nested
    (free _ (TypeDescriptor.column_mem_columnsOf f)) brought)

/-- An owner with a branch that may be missing, where a leaf, as a sub-entity, and an embedded point
grow. -/
def budSchema : Schema :=
  let text : FieldShape := .scalar (.typed .string)
  [{ key := ⟨"", "Leaf"⟩, fields := [{ name := "word", shape := text }] },
    { key := ⟨"", "Point"⟩, embeddable := true, fields := [{ name := "mark", shape := text }] },
    { key := ⟨"", "Branch"⟩,
      fields := [{ name := "leaf", shape := .nested ⟨"", "Leaf"⟩ .required },
        { name := "place", shape := .nested ⟨"", "Point"⟩ .required }] },
    { key := ⟨"", "Owner"⟩,
      fields := [{ name := "note", shape := text },
        { name := "branch", shape := .nested ⟨"", "Branch"⟩ .optional }] }]

def budType : TypeDescriptor :=
  let text (name : String) : TypeDescriptor.Field :=
    ⟨name, name, false, none, .value .plain (.typed .string)⟩
  let describing (identity : Nat) (name : String) (fields : List TypeDescriptor.Field) :
      TypeDescriptor :=
    .mk identity ⟨"", name⟩ name (budSchema.freshWith ⟨"", name⟩ []) fields
  let leaf := describing 0 "Leaf" [text "word"]
  let point := describing 1 "Point" [text "mark"]
  let branch := describing 2 "Branch" [⟨"leaf", "leaf", false, none, .subEntity leaf⟩,
    ⟨"place", "place", false, none, .embedded point⟩]
  describing 3 "Owner" [text "note", ⟨"branch", "branch", false, none, .subEntity branch⟩]

def bud (note : String) : Entity :=
  .mk ⟨"", "Owner"⟩ [("note", .content (.string note)), ("branch", .child none)]

/-- The mark of the point is the one name that a missing branch could be read from. -/
theorem hasEmbeddedColumn_branch {f : TypeDescriptor.Field} {c : String}
    (hf : budType.fields[1]? = some f) (h : TypeDescriptor.HasEmbeddedColumn f c) : c = "mark" := by
  cases hf
  obtain ⟨g, hg, child, access, column⟩ := h
  simp only [TypeDescriptor.levelFieldsOfAccess, TypeDescriptor.levelFields,
    TypeDescriptor.levelFieldsOf, TypeDescriptor.levelFieldsOfField, List.append_nil,
    List.cons_append, List.nil_append, List.mem_cons, List.not_mem_nil, or_false] at hg
  rcases hg with rfl | rfl | rfl | rfl
  all_goals cases access
  cases column with
  | own mem => rw [List.mem_singleton.mp mem]
  | nested mem nested =>
    rw [List.mem_singleton.mp mem] at nested
    cases nested

theorem describe_bud_absent :
    (Registry.describe budSchema ⟨"", "Owner"⟩ {}).1 = .ok budType ∧
      budType.newInstance.child? 1 = none ∧ (bud "x").child? 1 = none ∧
      ∃ r e', budType.toRecord (bud "x") = .ok r ∧ r.isEmpty = false ∧ r.find? "leaf" = none ∧
        budType.toEntity r = .ok e' ∧ e'.child? 1 = none := by
  have described : (Registry.describe budSchema ⟨"", "Owner"⟩ {}).1 = .ok budType := rfl
  have written : budType.toRecord (bud "x") = .ok ⟨"Owner", [("note", .string "x")]⟩ := rfl
  have read : budType.toEntity ⟨"Owner", [("note", .string "x")]⟩ = .ok (bud "x") := rfl
  have field : budType.fields[1]? = some _ := rfl
  have free : Record.find? ⟨"Owner", [("note", .string "x")]⟩ "leaf" = none := rfl
  have stays := (Registry.describe_toEntity_absent_iff .empty described field rfl rfl
    (show (bud "x").child? 1 = none from rfl) written read (List.forall_mem_cons.mpr
      ⟨fun _ => free, List.forall_mem_cons.mpr ⟨nofun, List.forall_mem_singleton.mpr nofun⟩⟩)).mpr
  refine ⟨described, rfl, rfl, _, _, written, rfl, free, read, stays fun c column => ?_⟩
  rw [hasEmbeddedColumn_branch field column]
  rfl

/-- An owner with a text under the name of the mark of an embedded point that may be missing. -/
def placedSchema : Schema :=
  let text : FieldShape := .scalar (.typed .string)
  [{ key := ⟨"", "Point"⟩, embeddable := true, fields := [{ name := "mark", shape := text }] },
    { key := ⟨"", "Owner"⟩,
      fields := [{ name := "note", shape := text, column := some "mark" },
        { name := "place", shape := .nested ⟨"", "Point"⟩ .optional }] }]

def placedType : TypeDescriptor :=
  let describing (identity : Nat) (name : String) (fields : List TypeDescriptor.Field) :
      TypeDescriptor :=
    .mk identity ⟨"", name⟩ name (placedSchema.freshWith ⟨"", name⟩ []) fields
  let point := describing 0 "Point" [⟨"mark", "mark", false, none, .value .plain (.typed .string)⟩]
  describing 1 "Owner" [⟨"note", "mark", false, none, .value .plain (.typed .string)⟩,
    ⟨"place", "place", false, none, .embedded point⟩]

def placedOwner (note : String) (place : Option String) : Entity :=
  let point (mark : String) : Entity := .mk ⟨"", "Point"⟩ [("mark", .content (.string mark))]
  .mk ⟨"", "Owner"⟩ [("note", .content (.string note)), ("place", .child (place.map point))]

/-- The text of the owner is taken for the mark of the point that it does not have. -/
theorem describe_placed_mark :
    (Registry.describe placedSchema ⟨"", "Owner"⟩ {}).1 = .ok placedType ∧
      placedType.newInstance.child? 1 = none ∧ (placedOwner "x" none).child? 1 = none ∧
      ∃ r, placedType.toRecord (placedOwner "x" none) = .ok r ∧ r.isEmpty = false ∧
        placedType.toEntity r = .ok (placedOwner "x" (some "x")) ∧
        ((placedOwner "x" (some "x")).child? 1).isSome = true :=
  ⟨rfl, rfl, rfl, ⟨"Owner", [("mark", .string "x")]⟩, rfl, rfl, rfl, rfl⟩

end RecordMapper
