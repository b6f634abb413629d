import RecordMapper.Proofs.Mapping.RoundTrip
import RecordMapper.Proofs.Schema.Columns
import RecordMapper.Proofs.Schema.Declared
import RecordMapper.Proofs.Value.Parts

/-!
What reading depends on. The names that are looked up for a described type are the columns declared
for its fields and for those of the types nested in it, at whatever depth. Two records that hold the
same under these columns are read alike, and a record has an entry for the type when it holds one of
them.
-/

namespace RecordMapper

open Relation TypeDescriptor

namespace TypeDescriptor

theorem readAccess_nested {f : Field} {child : TypeDescriptor} (nested : f.nested? = some child)
    (r : Record) (type : String) (place : Nat) (e : Entity) :
    readAccess r type place f.name f.column f.converter f.access e =
      match child.nestedSource? f.column r with
      | none => .ok e
      | some source =>
        (readInto source child child.newInstance).map fun c => e.withChild place (some c) := by
  rcases f.access_of_nested? nested with access | access
  all_goals
    rw [access]
    rfl

theorem readFields_congr {r r' : Record} {type : String} {fs : List Field} {place : Nat}
    {e : Entity} (each : ∀ f ∈ fs, ∀ place e,
      readAccess r' type place f.name f.column f.converter f.access e =
        readAccess r type place f.name f.column f.converter f.access e) :
    readFields r' type place fs e = readFields r type place fs e := by
  induction fs generalizing place e with
  | nil => rfl
  | cons f fs ih =>
    rw [readFields, readFields, readField_eq, readField_eq, each f List.mem_cons_self]
    cases readAccess r type place f.name f.column f.converter f.access e with
    | error failure => rfl
    | ok e =>
      rw [ok_bind, ok_bind]
      exact ih fun g hg => each g (List.mem_cons_of_mem _ hg)

section Agreement

variable {r r' : Record} {t child : TypeDescriptor} {f : Field}

theorem occursIn_congr (agree : ∀ c, t.HasColumn c → r'.find? c = r.find? c) :
    t.occursIn r' = t.occursIn r := by
  have contained : ∀ c, t.HasColumn c → r'.contains c = r.contains c := by
    intro c column
    rw [Record.contains, Record.contains, agree c column]
  rw [Bool.eq_iff_iff, occursIn_iff, occursIn_iff]
  constructor
  · rintro ⟨c, column, held⟩
    exact ⟨c, column, contained c column ▸ held⟩
  · rintro ⟨c, column, held⟩
    exact ⟨c, column, (contained c column).symm ▸ held⟩

/-- From two records that agree on the names of a field and its nested type, the nested entity is
read from nowhere, from the child record that both hold, or from each record itself. -/
theorem nestedSource?_cases (own : r'.find? f.column = r.find? f.column)
    (agree : ∀ c, child.HasColumn c → r'.find? c = r.find? c) :
    child.nestedSource? f.column r' = child.nestedSource? f.column r ∨
      child.nestedSource? f.column r' = some r' ∧ child.nestedSource? f.column r = some r := by
  unfold nestedSource?
  rw [own, occursIn_congr agree]
  split
  next => exact .inl rfl
  next =>
    split
    next => exact .inr ⟨rfl, rfl⟩
    next => exact .inl rfl

theorem readAccess_congr_of_reads (own : r'.find? f.column = r.find? f.column)
    (agree : ∀ child, f.nested? = some child → ∀ c, child.HasColumn c → r'.find? c = r.find? c)
    (reads : ∀ child, f.nested? = some child → ∀ e, readInto r' child e = readInto r child e)
    {type : String} {place : Nat} (e : Entity) :
    readAccess r' type place f.name f.column f.converter f.access e =
      readAccess r type place f.name f.column f.converter f.access e := by
  cases access : f.access with
  | value role codec => simp only [readAccess, own]
  | embedded child | subEntity child =>
    have nested : f.nested? = some child := by simp [FieldDescriptor.nested?, access]
    rw [← access, readAccess_nested nested, readAccess_nested nested]
    rcases nestedSource?_cases own (agree child nested) with same | ⟨outside', outside⟩
    · rw [same]
    · simp only [outside', outside, reads child nested]

/-- Reading a type depends only on the entries that it names. -/
theorem readInto_congr (agree : ∀ c, t.HasColumn c → r'.find? c = r.find? c) (e : Entity) :
    readInto r' t e = readInto r t e := by
  induction t using nestedInduction generalizing e with
  | step t ih =>
    rw [readInto_eq, readInto_eq]
    refine readFields_congr fun f hf place e => ?_
    have inner : ∀ child, f.nested? = some child → ∀ c, child.HasColumn c →
        r'.find? c = r.find? c := fun child nested c column => agree c (.nested hf nested column)
    exact readAccess_congr_of_reads (agree f.column (.own hf)) inner
      (fun child nested => ih f hf child nested (inner child nested)) e

/-- So does reading a field. -/
theorem readAccess_congr (agree : ∀ c ∈ allColumnsOfField f, r'.find? c = r.find? c)
    {type : String} {place : Nat} (e : Entity) :
    readAccess r' type place f.name f.column f.converter f.access e =
      readAccess r type place f.name f.column f.converter f.access e := by
  have inner : ∀ child, f.nested? = some child → ∀ c, child.HasColumn c →
      r'.find? c = r.find? c := fun child nested c column =>
    agree c (mem_allColumnsOfField_of_nested nested column)
  exact readAccess_congr_of_reads (agree f.column (column_mem_allColumnsOfField f)) inner
    (fun child nested => readInto_congr (inner child nested)) e

end Agreement

theorem hasColumn_iff_own_or_nested {t : TypeDescriptor} {c : String} :
    t.HasColumn c ↔ (∃ f ∈ t.fields, f.column = c) ∨ ∃ child, t.Nests child ∧ child.HasColumn c := by
  constructor
  · intro column
    cases column with
    | own mem => exact .inl ⟨_, mem, rfl⟩
    | nested mem nested inner => exact .inr ⟨_, ⟨_, mem, nested⟩, inner⟩
  · rintro (⟨f, mem, rfl⟩ | ⟨child, ⟨f, mem, nested⟩, inner⟩)
    · exact .own mem
    · exact .nested mem nested inner

end TypeDescriptor

/-- A column that is declared for a field of the type or of a type nested in it. -/
def Schema.NamesColumn (s : Schema) (type : TypeKey) (column : String) : Prop :=
  ∃ owner, ReflTransGen s.Embeds type owner ∧
    ∃ d, s.find? owner = some d ∧ ∃ f ∈ d.fields, Registry.columnOf f = column

namespace Schema

variable {s : Schema} {type : TypeKey} {d : TypeDeclaration} {t : TypeDescriptor} {c : String}

theorem namesColumn_iff : s.NamesColumn type c ↔
    (∃ d, s.find? type = some d ∧ ∃ f ∈ d.fields, Registry.columnOf f = c) ∨
      ∃ child, s.Embeds type child ∧ s.NamesColumn child c := by
  constructor
  · rintro ⟨owner, reached, own⟩
    rcases ReflTransGen.cases_head_iff.mp reached with rfl | ⟨child, embeds, below⟩
    · exact .inl own
    · exact .inr ⟨child, embeds, owner, below, own⟩
  · rintro (own | ⟨child, embeds, owner, below, own⟩)
    · exact ⟨type, .refl, own⟩
    · exact ⟨owner, .head embeds below, own⟩

theorem Declares.column_eq {f : FieldDeclaration} {field : Field} (declares : s.Declares f field) :
    field.column = Registry.columnOf f := by
  rw [declares.1]
  rfl

theorem Mirrors.exists_column_iff (mirrors : s.Mirrors d t) :
    (∃ field ∈ t.fields, field.column = c) ↔ ∃ f ∈ d.fields, Registry.columnOf f = c := by
  constructor
  · rintro ⟨field, mem, rfl⟩
    obtain ⟨f, hf, declares⟩ := exists_of_forall₂ mirrors.fields.flip mem
    exact ⟨f, hf, (Declares.column_eq declares).symm⟩
  · rintro ⟨f, mem, rfl⟩
    obtain ⟨field, hfield, declares⟩ := exists_of_forall₂ mirrors.fields mem
    exact ⟨field, hfield, declares.column_eq⟩

theorem Holds.exists_nested_iff {f : FieldDeclaration} {field : Field}
    (holds : s.Holds f field.access) {child : TypeKey} :
    (∃ u, field.nested? = some u ∧ u.key = child) ↔ ∃ presence, f.shape = .nested child presence := by
  rw [FieldDescriptor.nested?]
  generalize field.access = access at holds
  cases holds with
  | scalar shape | sequence shape | mapping shape => simp [shape]
  | embedded shape kind | subEntity shape kind => simp [shape]

theorem Mirrors.embeds_iff (mirrors : s.Mirrors d t) {child : TypeKey} :
    s.Embeds t.key child ↔ ∃ u, t.Nests u ∧ u.key = child := by
  constructor
  · rintro ⟨d', found, f, mem, shaped⟩
    obtain rfl : d = d' := Option.some.inj (mirrors.declared.symm.trans found)
    obtain ⟨field, hfield, declares⟩ := exists_of_forall₂ mirrors.fields mem
    obtain ⟨u, nested, key⟩ := declares.2.exists_nested_iff.mpr shaped
    exact ⟨u, ⟨field, hfield, nested⟩, key⟩
  · rintro ⟨u, ⟨field, mem, nested⟩, key⟩
    obtain ⟨f, hf, declares⟩ := exists_of_forall₂ mirrors.fields.flip mem
    exact ⟨d, mirrors.declared, f, hf, declares.2.exists_nested_iff.mp ⟨u, nested, key⟩⟩

/-- The names that are looked up for a type are the columns declared for it. -/
theorem hasColumn_iff_namesColumn (mirrors : ∀ u, ReflTransGen Nests t u → ∃ d, s.Mirrors d u) :
    t.HasColumn c ↔ s.NamesColumn t.key c := by
  induction t using nestedInduction with
  | step t ih =>
    obtain ⟨d, mirrored⟩ := mirrors t .refl
    have own : (∃ f ∈ t.fields, f.column = c) ↔
        ∃ d, s.find? t.key = some d ∧ ∃ f ∈ d.fields, Registry.columnOf f = c := by
      simp [mirrored.declared, mirrored.exists_column_iff]
    have inner (u : TypeDescriptor) (nests : t.Nests u) :
        u.HasColumn c ↔ s.NamesColumn u.key c := by
      obtain ⟨f, mem, nested⟩ := nests
      exact ih f mem u nested fun v below => mirrors v (.head ⟨f, mem, nested⟩ below)
    rw [hasColumn_iff_own_or_nested, namesColumn_iff, own]
    refine or_congr_right ⟨?_, ?_⟩
    · rintro ⟨u, nests, column⟩
      exact ⟨u.key, mirrored.embeds_iff.mpr ⟨u, nests, rfl⟩, (inner u nests).mp column⟩
    · rintro ⟨child, embeds, column⟩
      obtain ⟨u, nests, rfl⟩ := mirrored.embeds_iff.mp embeds
      exact ⟨u, nests, (inner u nests).mpr column⟩

end Schema

namespace Registry

variable {s : Schema} {registry : Registry} {type : TypeKey} {t : TypeDescriptor}

theorem Reachable.hasColumn_iff (reachable : Reachable s registry)
    (described : (Registry.describe s type registry).1 = .ok t) {c : String} :
    t.HasColumn c ↔ s.NamesColumn type c := by
  obtain ⟨rfl, -⟩ := reachable.formed described
  have known := reachable.find?_describe described
  exact Schema.hasColumn_iff_namesColumn fun u =>
    (reachable.describe t.key).faithful.mirrors_of_nests known

/-- Two records with entries that hold the same under every column declared for the type, at
whatever depth, are read as the same entity or fail alike; and a record belongs to the type exactly
when it has an entry under one of these columns. -/
theorem describe_toEntity_congr (reachable : Reachable s registry)
    (described : (Registry.describe s type registry).1 = .ok t) :
    (∀ r r' : Record, r.isEmpty = false → r'.isEmpty = false →
      (∀ c, s.NamesColumn type c → r'.find? c = r.find? c) → t.toEntity r' = t.toEntity r) ∧
    ∀ r : Record, t.occursIn r = true ↔ ∃ c ∈ r.names, s.NamesColumn type c := by
  have names (c : String) := reachable.hasColumn_iff described (c := c)
  refine ⟨fun r r' some_entry some_entry' agree => ?_, fun r => ?_⟩
  · have same : ∀ c, t.HasColumn c → r'.find? c = r.find? c :=
      fun c column => agree c ((names c).mp column)
    rw [toEntity, toEntity, some_entry, some_entry']
    exact readInto_congr same t.newInstance
  · rw [occursIn_iff]
    constructor
    · rintro ⟨c, column, held⟩
      exact ⟨c, Record.contains_iff.mp held, (names c).mp column⟩
    · rintro ⟨c, mem, column⟩
      exact ⟨c, (names c).mpr column, Record.contains_iff.mpr mem⟩

end Registry

/-- Two records of an owner with all entries in place: under another name, in another order and with
other entries that belong to nobody. -/
theorem describe_toEntity_congr_branched :
    let r : Record := ⟨"Owner", [("mark", .string "m"), ("note", .string "n"), ("key", .null)]⟩
    let r' : Record := ⟨"Other", [("note", .string "n"), ("place.mark", .string "x"),
      ("mark", .string "m")]⟩
    (Registry.describe (branchedSchema "leaf") ⟨"", "Owner"⟩ {}).1 = .ok (branchedType "leaf") ∧
      (∀ c, (branchedSchema "leaf").NamesColumn ⟨"", "Owner"⟩ c → r'.find? c = r.find? c) ∧
      (branchedType "leaf").toEntity r' = (branchedType "leaf").toEntity r ∧
      (branchedType "leaf").toEntity r = .ok (branchedOwner "m" "n") := by
  intro r r'
  have described : (Registry.describe (branchedSchema "leaf") ⟨"", "Owner"⟩ {}).1 =
    .ok (branchedType "leaf") := rfl
  have agree : ∀ c, (branchedSchema "leaf").NamesColumn ⟨"", "Owner"⟩ c →
      r'.find? c = r.find? c := by
    intro c named
    have column := (Registry.Reachable.empty.hasColumn_iff described).mpr named
    have mem : c ∈ ["place", "mark", "branch", "leaf", "note"] := mem_allColumns_iff.mpr column
    simp only [List.mem_cons, List.not_mem_nil, or_false] at mem
    rcases mem with rfl | rfl | rfl | rfl | rfl <;> rfl
  have alike := (Registry.describe_toEntity_congr .empty described).1 r r' rfl rfl agree
  exact ⟨described, agree, alike, rfl⟩

end RecordMapper
