import RecordMapper.Proofs.Mapping.Origin
import RecordMapper.Mapping.Reading

/-!
Fully populated entities. Each of their contents leaves a value that reads back, and each of their
nested fields holds a populated entity, so they are always written, every field with an entry.
-/

namespace RecordMapper

/-- A content whose value, converted or not, is not null and stands for the content again. -/
def Restorable (codec : FieldCodec) (converter : Option AttributeConverter) (d : Datum) : Prop :=
  ∃ v, codec.get d = .ok v ∧ v.isNull = false ∧ codec.set v = .ok d ∧
    ∀ c, converter = some c → ∃ w, c.toRecordValue v = .ok w ∧ w.isNull = false ∧
      c.toEntityValue w = .ok v

theorem Restorable.recordValue {codec : FieldCodec} {converter : Option AttributeConverter}
    {d : Datum} (h : Restorable codec converter d) :
    ∃ w, RecordMapper.recordValue codec converter d = .ok w ∧ w.isNull = false ∧
      TypeDescriptor.entityContent codec converter w = .ok d := by
  obtain ⟨v, got, present, set, converted⟩ := h
  cases converter with
  | none =>
    refine ⟨v, ?_, present, ?_⟩
    · simp [RecordMapper.recordValue, got, ok_bind, pure, Except.pure]
    · simpa [TypeDescriptor.entityContent, pure, Except.pure, ok_bind] using set
  | some c =>
    obtain ⟨w, written, kept, back⟩ := converted c rfl
    refine ⟨w, ?_, kept, ?_⟩
    · simp [RecordMapper.recordValue, got, ok_bind, present, written]
    · simpa [TypeDescriptor.entityContent, back, ok_bind] using set

theorem Entity.contentAs_eq {e : Entity} {type : TypeKey} {place : Nat} {d : Datum}
    (instance_ : e.type = type) (content : e.content? place = some d) :
    e.contentAs type place = .ok d := by
  simp [contentAs, slotAs, content?_eq_some_iff.mp content, instance_]

theorem Entity.childAs_eq {e child : Entity} {type : TypeKey} {place : Nat}
    (instance_ : e.type = type) (held : e.child? place = some child) :
    e.childAs type place = .ok (some child) := by
  simp [childAs, slotAs, child?_eq_some_iff.mp held, instance_]

namespace TypeDescriptor

/-- An entity of the type all of whose contents are restorable and whose nested fields all hold a
populated entity. -/
inductive Populated : TypeDescriptor → Entity → Prop
  | mk {t : TypeDescriptor} {e : Entity} (instance_type : e.type = t.key)
      (contents : ∀ place f role codec, t.fields[place]? = some f → f.access = .value role codec →
        ∃ d, e.content? place = some d ∧ Restorable codec f.converter d)
      (held : ∀ place f child, t.fields[place]? = some f → f.nested? = some child →
        (e.child? place).isSome)
      (nested : ∀ place f child c, t.fields[place]? = some f → f.nested? = some child →
        e.child? place = some c → child.Populated c) : Populated t e

/-- Two entities of the type that have the same contents in all declared fields, down to those of
their nested entities. -/
inductive SameFields : TypeDescriptor → Entity → Entity → Prop
  | mk {t : TypeDescriptor} {e e' : Entity} (instance_type : e'.type = e.type)
      (contents : ∀ place f role codec, t.fields[place]? = some f → f.access = .value role codec →
        e'.content? place = e.content? place)
      (held : ∀ place f child, t.fields[place]? = some f → f.nested? = some child →
        (e'.child? place).isSome = (e.child? place).isSome)
      (nested : ∀ place f child c c', t.fields[place]? = some f → f.nested? = some child →
        e.child? place = some c → e'.child? place = some c' → child.SameFields c c') :
      SameFields t e e'

theorem Populated.of_forall {t : TypeDescriptor} {e : Entity} (instance_type : e.type = t.key)
    (fields : ∀ (place : Nat) (f : Field), t.fields[place]? = some f →
      match f.access with
      | .value _ codec => ∃ d, e.content? place = some d ∧ Restorable codec f.converter d
      | .embedded child | .subEntity child => ∃ c, e.child? place = some c ∧ child.Populated c) :
    t.Populated e := by
  have inner : ∀ place f child, t.fields[place]? = some f → f.nested? = some child →
      ∃ c, e.child? place = some c ∧ child.Populated c := by
    intro place f child hf nested
    have field := fields place f hf
    rcases f.access_of_nested? nested with access | access
    · simpa [access] using field
    · simpa [access] using field
  refine .mk instance_type ?_ ?_ ?_
  · intro place f role codec hf access
    simpa [access] using fields place f hf
  · intro place f child hf nested
    obtain ⟨c, held, -⟩ := inner place f child hf nested
    simp [held]
  · intro place f child c hf nested held
    obtain ⟨c', held', populated⟩ := inner place f child hf nested
    obtain rfl := Option.some.inj (held.symm.trans held')
    exact populated

theorem Populated.instance_type {t : TypeDescriptor} {e : Entity} (h : t.Populated e) :
    e.type = t.key := by
  cases h with
  | mk instance_ => exact instance_

theorem Populated.content {t : TypeDescriptor} {e : Entity} {place : Nat} {f : Field}
    {role : ValueRole} {codec : FieldCodec} (h : t.Populated e) (hf : t.fields[place]? = some f)
    (access : f.access = .value role codec) :
    ∃ d, e.content? place = some d ∧ Restorable codec f.converter d := by
  cases h with
  | mk _ contents => exact contents place f role codec hf access

theorem Populated.child {t child : TypeDescriptor} {e : Entity} {place : Nat} {f : Field}
    (h : t.Populated e) (hf : t.fields[place]? = some f) (nested : f.nested? = some child) :
    ∃ c, e.child? place = some c ∧ child.Populated c := by
  cases h with
  | mk _ _ held inner =>
    obtain ⟨c, hc⟩ := Option.isSome_iff_exists.mp (held place f child hf nested)
    exact ⟨c, hc, inner place f child c hf nested hc⟩

theorem exists_writtenFields {type : TypeKey} {e : Entity} (identifiers : Bool) {fs : List Field}
    {place : Nat} (each : ∀ i f, fs[i]? = some f →
      ∃ own, writtenAccess type e (place + i) f.name f.column f.converter f.access = .ok own) :
    ∃ es, writtenFields type e identifiers place fs = .ok es := by
  induction fs generalizing place with
  | nil => exact ⟨[], rfl⟩
  | cons f fs ih =>
    have later : ∀ i g, fs[i]? = some g → ∃ own, writtenAccess type e (place + 1 + i) g.name
        g.column g.converter g.access = .ok own := by
      intro i g hg
      rw [show place + 1 + i = place + (i + 1) by omega]
      exact each (i + 1) g (by simpa using hg)
    obtain ⟨rest, hrest⟩ := ih later
    have own : ∃ own, writtenField type e identifiers place f = .ok own := by
      rw [writtenField_eq]
      split
      · simpa using each 0 f rfl
      · exact ⟨[], rfl⟩
    obtain ⟨own, hown⟩ := own
    exact ⟨own ++ rest, writtenFields_cons_eq_ok_iff.mpr ⟨own, rest, hown, hrest, rfl⟩⟩

theorem writtenAccess_value {type : TypeKey} {e : Entity} {place : Nat} {name column : String}
    {converter : Option AttributeConverter} {role : ValueRole} {codec : FieldCodec} {d : Datum}
    {w : Value} (instance_ : e.type = type) (content : e.content? place = some d)
    (value : recordValue codec converter d = .ok w) (present : w.isNull = false) :
    writtenAccess type e place name column converter (.value role codec) =
      .ok [(column, w)] := by
  simp [writtenAccess, Entity.contentAs_eq instance_ content, ok_bind, value, inField,
    Except.mapError, present, pure, Except.pure]

theorem writtenAccess_embedded {type : TypeKey} {e c : Entity} {place : Nat}
    {name column : String} {converter : Option AttributeConverter} {child : TypeDescriptor}
    (instance_ : e.type = type) (held : e.child? place = some c) :
    writtenAccess type e place name column converter (.embedded child) =
      (written c child).map fun es => [(column, .record column es)] := by
  simp only [writtenAccess, Entity.childAs_eq instance_ held, inField, Except.mapError, ok_bind]
  cases written c child <;> rfl

theorem writtenAccess_subEntity {type : TypeKey} {e c : Entity} {place : Nat}
    {name column : String} {converter : Option AttributeConverter} {child : TypeDescriptor}
    (instance_ : e.type = type) (held : e.child? place = some c) :
    writtenAccess type e place name column converter (.subEntity child) = written c child := by
  simp only [writtenAccess, Entity.childAs_eq instance_ held, inField, Except.mapError, ok_bind]

/-- Writing a populated entity never fails. -/
theorem Populated.exists_written {t : TypeDescriptor} {e : Entity} (h : t.Populated e) :
    ∃ es, written e t = .ok es := by
  induction t using nestedInduction generalizing e with
  | step t ih =>
    have each : ∀ place f, t.fields[place]? = some f → ∃ own,
        writtenAccess t.key e (0 + place) f.name f.column f.converter f.access = .ok own := by
      intro place f hf
      rw [Nat.zero_add]
      have mem := List.mem_of_getElem? hf
      cases access : f.access with
      | value role codec =>
        obtain ⟨d, content, restorable⟩ := h.content hf access
        obtain ⟨w, value, present, -⟩ := restorable.recordValue
        exact ⟨_, writtenAccess_value h.instance_type content value present⟩
      | embedded child =>
        have nested := f.nested?_of_embedded access
        obtain ⟨c, held, populated⟩ := h.child hf nested
        obtain ⟨es, hes⟩ := ih f mem child nested populated
        rw [writtenAccess_embedded h.instance_type held, hes]
        exact ⟨_, rfl⟩
      | subEntity child =>
        have nested := f.nested?_of_subEntity access
        obtain ⟨c, held, populated⟩ := h.child hf nested
        rw [writtenAccess_subEntity h.instance_type held]
        exact ih f mem child nested populated
    obtain ⟨identifiers, first⟩ := exists_writtenFields true each
    obtain ⟨others, second⟩ := exists_writtenFields false each
    exact ⟨_, written_eq_ok_iff.mpr ⟨identifiers, others, first, second, rfl⟩⟩

end TypeDescriptor

end RecordMapper
