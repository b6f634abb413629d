import RecordMapper.Proofs.Mapping.Populated
import RecordMapper.Proofs.Text.Separator
import RecordMapper.Mapping.Path

/-!
Searching the record of an entity. A name without the separator leads to the column of the first
field of that name, and under it stands the value of that field.
-/

namespace RecordMapper

namespace TypeDescriptor

/-- The name stands as a whole, and for a field that holds a value and stores it as it is. -/
structure Plain (t : TypeDescriptor) (sep name : String) : Prop where
  whole : ¬ sep.toList <:+: name.toList
  stored : ∃ f role codec, t.field? name = some f ∧ f.access = .value role codec ∧
    f.converter = none

/-- The value that an entity has in the first field of a name. -/
def fieldValue? (t : TypeDescriptor) (e : Entity) (name : String) : Option Value := do
  let place ← t.fields.findIdx? (·.name == name)
  let f ← t.fields[place]?
  let d ← e.content? place
  match f.access with
  | .value _ codec => (codec.get d).toOption
  | .embedded _ | .subEntity _ => none

/-- The first field of a name answers, with its column or for what comes behind its name. -/
theorem columnPathOf_eq (sep name : String) (rest : Option String) (fs : List Field) :
    columnPathOf sep name rest fs =
      (fs.find? (·.name == name)).map fun f =>
        rest.elim (some f.column) (columnPathInAccess sep f.column · f.access) := by
  induction fs with
  | nil => rfl
  | cons f fs ih =>
    have own : columnPathOfField sep name rest f =
        if f.name == name then
          some (rest.elim (some f.column) (columnPathInAccess sep f.column · f.access))
        else none := by
      cases f
      cases rest <;> rfl
    by_cases same : f.name = name
    · simp [columnPathOf, own, same]
    · simp [columnPathOf, own, same, ih]

/-- The column path of a name that stands as a whole. -/
theorem columnPath_of_field? {t : TypeDescriptor} {sep name : String} {f : Field}
    (whole : ¬ sep.toList <:+: name.toList) (found : t.field? name = some f) :
    t.columnPath sep name = some f.column := by
  have uncut : Text.cutOnce? sep name = none := Text.cutOnce?_eq_none_iff.mpr whole
  cases t with
  | mk identity type record instance_ fs =>
    have own : fs.find? (·.name == name) = some f := found
    simp [columnPath, uncut, columnPathOf_eq, own]

theorem columnOrSelf_of_field? {t : TypeDescriptor} {sep name : String} {f : Field}
    (whole : ¬ sep.toList <:+: name.toList) (found : t.field? name = some f) :
    t.columnOrSelf sep name = f.column := by
  rw [columnOrSelf, columnPath_of_field? whole found, Option.getD_some]

/-- Where names do not repeat, each field is found by its name. -/
theorem field?_eq_of_nodup {t : TypeDescriptor} {f : Field} (names : (t.fields.map (·.name)).Nodup)
    (hf : f ∈ t.fields) : t.field? f.name = some f := by
  cases found : t.field? f.name with
  | none =>
    have unnamed := List.find?_eq_none.mp found f hf
    simp at unnamed
  | some g =>
    have hg := List.mem_of_find?_eq_some found
    have same : g.name = f.name := by simpa using List.find?_some found
    rw [List.inj_on_of_nodup_map names hg hf same]

theorem exists_place_of_field? {t : TypeDescriptor} {name : String} {f : Field}
    (found : t.field? name = some f) :
    ∃ place, t.fields.findIdx? (·.name == name) = some place ∧ t.fields[place]? = some f := by
  obtain ⟨named, place, bound, rfl, before⟩ := List.find?_eq_some_iff_getElem.mp found
  refine ⟨place, List.findIdx?_eq_some_iff_getElem.mpr ⟨bound, named, fun j hj => ?_⟩, by simp⟩
  simpa using before j hj

/-- A plain field of a populated entity has a value, which its record holds under its column. -/
theorem Plain.exists_value {t : TypeDescriptor} {sep name : String} {e : Entity}
    {es : List (String × Value)} (plain : t.Plain sep name) (formed : t.Formed)
    (populated : t.Populated e) (entries : written e t = .ok es) :
    ∃ v, t.fieldValue? e name = some v ∧
      Record.find? ⟨t.name, es⟩ (t.columnOrSelf sep name) = some v := by
  obtain ⟨f, role, codec, found, access, unconverted⟩ := plain.stored
  obtain ⟨place, first, hf⟩ := exists_place_of_field? found
  obtain ⟨d, content, v, got, present, -⟩ := populated.content hf access
  obtain ⟨own, hown, sub⟩ := written_of_getElem? entries hf
  have value : recordValue codec f.converter d = .ok v := by
    simp [recordValue, got, ok_bind, unconverted, pure, Except.pure]
  rw [access, writtenAccess_value populated.instance_type content value present] at hown
  cases Except.ok.inj hown
  have holds := holds_written formed.flatColumns_nodup entries t.name
  refine ⟨v, ?_, ?_⟩
  · simp [fieldValue?, first, hf, content, access, got, Except.toOption]
  · rw [columnOrSelf_of_field? plain.whole found]
    exact holds _ (sub List.mem_cons_self)

theorem Plain.findPath?_eq {t : TypeDescriptor} {sep name : String} {e : Entity}
    {es : List (String × Value)} (plain : t.Plain sep name) (formed : t.Formed)
    (populated : t.Populated e) (entries : written e t = .ok es) :
    Record.findPath? ⟨t.name, es⟩ sep (t.columnOrSelf sep name) = t.fieldValue? e name := by
  obtain ⟨v, value, found⟩ := plain.exists_value formed populated entries
  rw [Record.findPath?_of_find? found, value]

end TypeDescriptor

end RecordMapper
