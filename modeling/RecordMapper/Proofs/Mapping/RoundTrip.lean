import RecordMapper.Proofs.Mapping.Populated

/-!
Reading back what was written. At a level without repeated names every entry is found by the field
that wrote it, a sub-entity finds no record under its own column and reads from its owner's record,
and an embedded entity finds the record it was written to.
-/

namespace RecordMapper

namespace TypeDescriptor

theorem readField_eq (r : Record) (type : String) (place : Nat) (f : Field) (e : Entity) :
    readField r type place f e =
      readAccess r type place f.name f.column f.converter f.access e := by
  cases f
  rfl

theorem readInto_eq (r : Record) (t : TypeDescriptor) (e : Entity) :
    readInto r t e = readFields r t.typeName 0 t.fields e := by
  cases t
  rfl

/-- Fields that each replace their own slot, whatever the other slots hold, replace all of them. -/
theorem readFields_ok {r : Record} {type : String} {fs : List Field} {place : Nat}
    {P : Nat → Slot Entity → Prop}
    (each : ∀ i f, fs[i]? = some f → ∃ s, P (place + i) s ∧ ∀ e,
      readAccess r type (place + i) f.name f.column f.converter f.access e =
        .ok (e.withSlot (place + i) s))
    {e : Entity} (room : place + fs.length ≤ e.slots.length) :
    ∃ e', readFields r type place fs e = .ok e' ∧ e'.type = e.type ∧
      (∀ j, j < place → e'.slot? j = e.slot? j) ∧
      ∀ i, i < fs.length → ∃ s, P (place + i) s ∧ e'.slot? (place + i) = some s := by
  induction fs generalizing place e with
  | nil => exact ⟨e, rfl, rfl, fun _ _ => rfl, fun i hi => absurd hi (Nat.not_lt_zero i)⟩
  | cons f fs ih =>
    rw [List.length_cons] at room
    obtain ⟨s, hs, first⟩ := each 0 f rfl
    rw [Nat.add_zero] at hs first
    have tail : ∀ i g, fs[i]? = some g → ∃ s, P (place + 1 + i) s ∧ ∀ e,
        readAccess r type (place + 1 + i) g.name g.column g.converter g.access e =
          .ok (e.withSlot (place + 1 + i) s) := by
      intro i g hg
      rw [show place + 1 + i = place + (i + 1) by omega]
      exact each (i + 1) g (by simpa using hg)
    obtain ⟨e', rest, type_eq, before, after⟩ := ih tail (e := e.withSlot place s)
      (by rw [Entity.length_slots_withSlot]; omega)
    -- The fields behind leave the slot of the first one as it was filled.
    refine ⟨e', ?_, type_eq, fun j hj => ?_, fun i hi => ?_⟩
    · rw [readFields, readField_eq, first, ok_bind, rest]
    · rw [before j (by omega), Entity.slot?_withSlot_of_ne s (by omega)]
    · cases i with
      | zero =>
        refine ⟨s, hs, ?_⟩
        rw [Nat.add_zero, before place (by omega)]
        exact Entity.slot?_withSlot_self s (by omega)
      | succ i =>
        rw [show place + (i + 1) = place + 1 + i by omega]
        exact after i (by simpa using hi)

theorem occursIn_eq_any (r : Record) (t : TypeDescriptor) :
    t.occursIn r = t.fields.any fun f => r.contains f.column || occursInAccess r f.access := by
  have fields : ∀ fs : List Field, occursInFields r fs =
      fs.any fun f => r.contains f.column || occursInAccess r f.access := by
    intro fs
    induction fs with
    | nil => rfl
    | cons f fs ih =>
      have own : occursInField r f = (r.contains f.column || occursInAccess r f.access) := by
        cases f
        rfl
      rw [occursInFields, ih, own, List.any_cons]
  cases t with
  | mk identity type name instance_ fs => exact fields fs

/-- A record belongs to a type when it has an entry under a name of the type. -/
theorem occursIn_iff {t : TypeDescriptor} {r : Record} :
    t.occursIn r = true ↔ ∃ c, t.HasColumn c ∧ r.contains c = true := by
  induction t using nestedInduction with
  | step t ih =>
    rw [occursIn_eq_any, List.any_eq_true]
    constructor
    · rintro ⟨f, hf, occurs⟩
      rcases (Bool.or_eq_true _ _).mp occurs with own | inner
      · exact ⟨f.column, .own hf, own⟩
      cases access : f.access with
      | value role codec => simp [occursInAccess, access] at inner
      | embedded child | subEntity child =>
        have nested : f.nested? = some child := by simp [FieldDescriptor.nested?, access]
        obtain ⟨c, column, held⟩ := (ih f hf child nested).mp
          (by simpa [occursInAccess, access] using inner)
        exact ⟨c, .nested hf nested column, held⟩
    · rintro ⟨c, column, held⟩
      cases column with
      | own mem => exact ⟨_, mem, by simp [held]⟩
      | @nested _ child f _ mem nested inner =>
        have occurs := (ih f mem child nested).mpr ⟨c, inner, held⟩
        refine ⟨f, mem, ?_⟩
        rcases f.access_of_nested? nested with access | access
        · simp [occursInAccess, access, occurs]
        · simp [occursInAccess, access, occurs]

theorem occursIn_of_contains {t : TypeDescriptor} {r : Record} {column : String}
    (mem : column ∈ t.flatColumns) (held : r.contains column = true) : t.occursIn r = true := by
  have level := t.levelNames_perm.subset (List.mem_append_left _ mem)
  exact occursIn_iff.mpr ⟨column, hasColumn_iff.mpr (.inl level), held⟩

theorem Populated.written_ne_nil {t : TypeDescriptor} {e : Entity} {es : List (String × Value)}
    (h : t.Populated e) (separated : t.Separated) (inhabited : t.fields ≠ [])
    (entries : written e t = .ok es) : es ≠ [] := by
  induction t using nestedInduction generalizing e es with
  | step t ih =>
    obtain ⟨f, fs, eq⟩ := List.exists_cons_of_ne_nil inhabited
    have hf : t.fields[0]? = some f := by simp [eq]
    have mem : f ∈ t.fields := List.mem_of_getElem? hf
    obtain ⟨own, hown, sub⟩ := written_of_getElem? entries hf
    -- The first field leaves one, in a sub-entity by way of the first field there.
    have some_own : own ≠ [] := by
      cases access : f.access with
      | value role codec =>
        obtain ⟨d, content, restorable⟩ := h.content hf access
        obtain ⟨w, value, present, -⟩ := restorable.recordValue
        rw [access, writtenAccess_value h.instance_type content value present] at hown
        cases Except.ok.inj hown
        exact List.cons_ne_nil _ _
      | embedded child =>
        obtain ⟨c, held, populated⟩ := h.child hf (f.nested?_of_embedded access)
        rw [access, writtenAccess_embedded h.instance_type held] at hown
        obtain ⟨inner, -, rfl⟩ := map_eq_ok_iff.mp hown
        exact List.cons_ne_nil _ _
      | subEntity child =>
        have nested := f.nested?_of_subEntity access
        obtain ⟨c, held, populated⟩ := h.child hf nested
        rw [access, writtenAccess_subEntity h.instance_type held] at hown
        exact ih f mem child nested populated (separated.nested mem nested)
          (separated.fields_ne_nil mem access) hown
    obtain ⟨entry, first⟩ := List.exists_mem_of_ne_nil own some_own
    exact List.ne_nil_of_mem (sub first)

theorem Populated.occursIn {t : TypeDescriptor} {e : Entity} {es : List (String × Value)}
    {r : Record} (h : t.Populated e) (separated : t.Separated) (inhabited : t.fields ≠ [])
    (entries : written e t = .ok es) (holds : r.Holds es) : t.occursIn r = true := by
  obtain ⟨entry, mem⟩ := List.exists_mem_of_ne_nil es (h.written_ne_nil separated inhabited entries)
  have column := written_names_subset entries (List.mem_map_of_mem mem)
  exact occursIn_of_contains column (holds.contains mem)

/-- What a slot has to be after reading the field at its place. -/
def RestoredAt (t : TypeDescriptor) (e : Entity) (place : Nat) (s : Slot Entity) : Prop :=
  ∀ f, t.fields[place]? = some f →
    (∀ role codec, f.access = .value role codec → ∃ d, e.content? place = some d ∧ s = .content d) ∧
    ∀ child, f.nested? = some child → ∃ c c', e.child? place = some c ∧ s = .child (some c') ∧
      child.SameFields c c'

theorem SameFields.of_restoredAt {t : TypeDescriptor} {e e' : Entity} (type : e'.type = e.type)
    (restored : ∀ place, place < t.fields.length →
      ∃ s, t.RestoredAt e place s ∧ e'.slot? place = some s) : t.SameFields e e' := by
  have bound : ∀ {place f}, t.fields[place]? = some f → place < t.fields.length := fun hf =>
    (List.getElem?_eq_some_iff.mp hf).1
  refine .mk type ?_ ?_ ?_
  · intro place f role codec hf access
    obtain ⟨s, hs, slot⟩ := restored place (bound hf)
    obtain ⟨d, content, rfl⟩ := (hs f hf).1 role codec access
    rw [content, Entity.content?_eq_some_iff.mpr slot]
  · intro place f child hf nested
    obtain ⟨s, hs, slot⟩ := restored place (bound hf)
    obtain ⟨c, c', held, rfl, -⟩ := (hs f hf).2 child nested
    rw [held, Entity.child?_eq_some_iff.mpr slot]
    rfl
  · intro place f child c c' hf nested held held'
    obtain ⟨s, hs, slot⟩ := restored place (bound hf)
    obtain ⟨d, d', hd, rfl, same⟩ := (hs f hf).2 child nested
    obtain rfl := Option.some.inj (held.symm.trans hd)
    obtain rfl := Option.some.inj (held'.symm.trans (Entity.child?_eq_some_iff.mpr slot))
    exact same

theorem restoredAt_child {t child : TypeDescriptor} {e c c' : Entity} {place : Nat} {f : Field}
    (hf : t.fields[place]? = some f) (nested : f.nested? = some child)
    (held : e.child? place = some c) (same : child.SameFields c c') :
    t.RestoredAt e place (.child (some c')) := by
  intro g hg
  obtain rfl := Option.some.inj (hf.symm.trans hg)
  refine ⟨fun role codec access => ?_, fun child' nested' => ?_⟩
  · simp [FieldDescriptor.nested?, access] at nested
  · obtain rfl := Option.some.inj (nested.symm.trans nested')
    exact ⟨c, c', held, rfl, same⟩

/-- A populated entity is read back from every record that holds its entries and has none under the
columns of its sub-entities, into any instance of the type. -/
theorem readInto_written {t : TypeDescriptor} {e : Entity} {es : List (String × Value)} {r : Record}
    (formed : t.Formed) (separated : t.Separated) (populated : t.Populated e)
    (entries : written e t = .ok es) (holds : r.Holds es)
    (absent : ∀ c ∈ t.subEntityColumns, r.find? c = none) {fresh : Entity}
    (instance_ : fresh.type = t.key) (room : t.fields.length ≤ fresh.slots.length) :
    ∃ e', readInto r t fresh = .ok e' ∧ t.SameFields e e' := by
  induction t using nestedInduction generalizing e es r fresh with
  | step t ih =>
    have type_eq := populated.instance_type
    have each : ∀ place f, t.fields[place]? = some f → ∃ s, t.RestoredAt e (0 + place) s ∧ ∀ fresh,
        readAccess r t.typeName (0 + place) f.name f.column f.converter f.access fresh =
          .ok (fresh.withSlot (0 + place) s) := by
      intro place f hf
      rw [Nat.zero_add]
      have mem := List.mem_of_getElem? hf
      obtain ⟨own, hown, sub⟩ := written_of_getElem? entries hf
      cases access : f.access with
      | value role codec =>
        obtain ⟨d, content, restorable⟩ := populated.content hf access
        obtain ⟨w, value, present, back⟩ := restorable.recordValue
        rw [access, writtenAccess_value type_eq content value present] at hown
        cases Except.ok.inj hown
        refine ⟨.content d, ?_, fun fresh => ?_⟩
        · intro g hg
          obtain rfl := Option.some.inj (hf.symm.trans hg)
          exact ⟨fun _ _ _ => ⟨d, content, rfl⟩, fun child nested => by
            simp [FieldDescriptor.nested?, access] at nested⟩
        · simp [readAccess, holds _ (sub List.mem_cons_self), present, back, inField,
            Except.mapError, Except.map, Entity.withContent]
      | embedded child =>
        have nested := f.nested?_of_embedded access
        obtain ⟨c, held, inside⟩ := populated.child hf nested
        rw [access, writtenAccess_embedded type_eq held] at hown
        obtain ⟨inner, hinner, rfl⟩ := map_eq_ok_iff.mp hown
        have found : r.find? f.column = some (.record f.column inner) :=
          holds _ (sub List.mem_cons_self)
        have apart := separated.nested mem nested
        -- The embedded entity has a record of its own, with its entries and no others.
        have inner_holds := holds_written apart.flatColumns_nodup hinner f.column
        have inner_absent : ∀ c ∈ child.subEntityColumns,
            Record.find? ⟨f.column, inner⟩ c = none :=
          fun _ hc => apart.find?_written_eq_none hinner f.column hc
        have inner_formed := formed.nested mem nested
        obtain ⟨c', read, same⟩ := ih f mem child nested inner_formed apart inside hinner
          inner_holds inner_absent inner_formed.instance_type inner_formed.instance_slots
        refine ⟨.child (some c'), restoredAt_child hf nested held same, fun fresh => ?_⟩
        simp [readAccess, nestedSource?, found, read, Except.map, Entity.withChild]
      | subEntity child =>
        have nested := f.nested?_of_subEntity access
        obtain ⟨c, held, inside⟩ := populated.child hf nested
        rw [access, writtenAccess_subEntity type_eq held] at hown
        have apart := separated.nested mem nested
        -- A sub-entity shares the record of its owner, which has no entry under its column.
        have unseen : r.find? f.column = none :=
          absent _ (column_mem_subEntityColumns mem access)
        have occurs : child.occursIn r = true :=
          inside.occursIn apart (separated.fields_ne_nil mem access) hown (holds.subset sub)
        have inner_formed := formed.nested mem nested
        obtain ⟨c', read, same⟩ := ih f mem child nested inner_formed apart inside hown
          (holds.subset sub) (fun c hc => absent c (subEntityColumns_subset mem access hc))
          inner_formed.instance_type inner_formed.instance_slots
        refine ⟨.child (some c'), restoredAt_child hf nested held same, fun fresh => ?_⟩
        simp [readAccess, nestedSource?, unseen, occurs, read, Except.map, Entity.withChild]
    obtain ⟨e', read, type', -, restored⟩ := readFields_ok each
      (show 0 + t.fields.length ≤ fresh.slots.length by omega)
    refine ⟨e', by rw [readInto_eq, read], .of_restoredAt ?_ fun place hp => ?_⟩
    · rw [type', instance_, type_eq]
    · simpa using restored place hp

/-- The record of a populated entity that has an entry stands for the entity again. -/
theorem Formed.toEntity_written {t : TypeDescriptor} {e : Entity} {es : List (String × Value)}
    (formed : t.Formed) (separated : t.Separated) (populated : t.Populated e)
    (entries : written e t = .ok es) (some_entry : es ≠ []) :
    ∃ e', t.toEntity ⟨t.name, es⟩ = .ok e' ∧ t.SameFields e e' := by
  have holds := holds_written formed.flatColumns_nodup entries t.name
  have absent : ∀ c ∈ t.subEntityColumns, Record.find? ⟨t.name, es⟩ c = none :=
    fun _ hc => separated.find?_written_eq_none entries t.name hc
  obtain ⟨e', read, same⟩ := readInto_written formed separated populated entries
    holds absent formed.instance_type formed.instance_slots
  refine ⟨e', ?_, same⟩
  simp [toEntity, Record.isEmpty, some_entry, read]

end TypeDescriptor

/-- Whatever has been described before: a populated entity of a described type without repeated
names is written, and unless its record is empty, as only that of a type without fields is, reading
it gives an entity with the same fields. -/
theorem Registry.describe_roundTrip {s : Schema} {registry : Registry} {type : TypeKey}
    {t : TypeDescriptor} (reachable : Reachable s registry)
    (described : (describe s type registry).1 = .ok t) (separated : t.Separated) {e : Entity}
    (populated : t.Populated e) :
    ∃ r, t.toRecord e = .ok r ∧ (t.fields ≠ [] → r.isEmpty = false) ∧
      (r.isEmpty = false → ∃ e', t.toEntity r = .ok e' ∧ t.SameFields e e') := by
  obtain ⟨-, formed⟩ := reachable.formed described
  obtain ⟨es, entries⟩ := populated.exists_written
  have empty_iff : (Record.isEmpty ⟨t.name, es⟩ = false) ↔ es ≠ [] := by simp [Record.isEmpty]
  refine ⟨⟨t.name, es⟩, by rw [formed.toRecord_eq, entries]; rfl, fun inhabited => ?_, fun held => ?_⟩
  · exact empty_iff.mpr (populated.written_ne_nil separated inhabited entries)
  · exact formed.toEntity_written separated populated entries (empty_iff.mp held)

/-- An owner whose sub-entity has a sub-entity of its own. -/
def branchedOwner (mark note : String) : Entity :=
  let point : Entity := .mk ⟨"", "Point"⟩ [("mark", .content (.string mark))]
  let leaf : Entity := .mk ⟨"", "Leaf"⟩ [("note", .content (.string note))]
  let branch : Entity := .mk ⟨"", "Branch"⟩ [("leaf", .child (some leaf))]
  .mk ⟨"", "Owner"⟩ [("place", .child (some point)), ("branch", .child (some branch))]

theorem separated_branched : (branchedType "leaf").Separated := by
  have point : ∀ f ∈ (branchedType "leaf").levelFields, ∀ child, f.access = .embedded child →
      child.levelFields = [⟨"mark", "mark", false, none, .value .plain (.typed .string)⟩] := by
    simp [branchedType, TypeDescriptor.levelFields, TypeDescriptor.levelFieldsOf,
      TypeDescriptor.levelFieldsOfField, TypeDescriptor.levelFieldsOfAccess]
  refine .of_embedded (by decide) ?_ fun f hf child access => ?_
  · simp [branchedType, TypeDescriptor.levelFields, TypeDescriptor.levelFieldsOf,
      TypeDescriptor.levelFieldsOfField, TypeDescriptor.levelFieldsOfAccess, TypeDescriptor.fields]
  · have fields := point f hf child access
    refine .of_embedded ?_ ?_ ?_ <;> simp [TypeDescriptor.levelNames, fields]

theorem populated_of_texts {t : TypeDescriptor} {e : Entity} (instance_type : e.type = t.key)
    (texts : ∀ place f, t.fields[place]? = some f → f.converter = none ∧
      (∃ role, f.access = .value role (.typed .string)) ∧
        ∃ text, e.content? place = some (.string text)) : t.Populated e := by
  refine .of_forall instance_type fun place f hf => ?_
  obtain ⟨converter, ⟨role, access⟩, text, content⟩ := texts place f hf
  rw [access]
  exact ⟨.string text, content, .string text, rfl, rfl, rfl, by simp [converter]⟩

theorem populated_text {t : TypeDescriptor} {name : String} (text : String)
    (fields : t.fields = [⟨name, name, false, none, .value .plain (.typed .string)⟩]) :
    t.Populated (.mk t.key [(name, .content (.string text))]) := by
  refine populated_of_texts rfl fun place f hf => ?_
  rw [fields] at hf
  cases place with
  | zero =>
    cases hf
    exact ⟨rfl, ⟨_, rfl⟩, text, rfl⟩
  | succ place => simp at hf

theorem populated_branched (mark note : String) :
    (branchedType "leaf").Populated (branchedOwner mark note) := by
  refine .of_forall rfl fun place f hf => ?_
  match place with
  | 0 =>
    cases hf
    exact ⟨_, rfl, populated_text mark rfl⟩
  | 1 =>
    cases hf
    refine ⟨_, rfl, .of_forall rfl fun place f hf => ?_⟩
    cases place with
    | zero =>
      cases hf
      exact ⟨_, rfl, populated_text note rfl⟩
    | succ place => simp [TypeDescriptor.fields] at hf
  | place + 2 => simp [branchedType, TypeDescriptor.fields] at hf

theorem describe_roundTrip_branched :
    (Registry.describe (branchedSchema "leaf") ⟨"", "Owner"⟩ {}).1 = .ok (branchedType "leaf") ∧
      (branchedType "leaf").Separated ∧
      (branchedType "leaf").Populated (branchedOwner "m" "n") ∧
      ∃ r, (branchedType "leaf").toRecord (branchedOwner "m" "n") = .ok r ∧ r.isEmpty = false ∧
        ∃ e', (branchedType "leaf").toEntity r = .ok e' ∧
          (branchedType "leaf").SameFields (branchedOwner "m" "n") e' := by
  have described : (Registry.describe (branchedSchema "leaf") ⟨"", "Owner"⟩ {}).1 =
      .ok (branchedType "leaf") := rfl
  have populated := populated_branched "m" "n"
  obtain ⟨r, written, some_entry, back⟩ :=
    Registry.describe_roundTrip .empty described separated_branched populated
  have held := some_entry nofun
  exact ⟨described, separated_branched, populated, r, written, held, back held⟩

end RecordMapper
