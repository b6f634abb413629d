import RecordMapper.Proofs.Outcome
import RecordMapper.Proofs.Record.Entries
import RecordMapper.Proofs.Schema.Clash
import RecordMapper.Mapping.Writing

/-!
The entries of an entity as a list: the identifier first, the other fields in declaration order, the
entries of a sub-entity in place and those of an embedded entity in a record of their own. A record
is written by putting exactly these entries, and none of them replaces another.
-/

namespace RecordMapper.TypeDescriptor

mutual

/-- The entries that an entity has at the level of its type. -/
def written (e : Entity) : TypeDescriptor → Except Failure (List (String × Value))
  | mk _ type _ _ fields => do
    let identifiers ← writtenFields type e true 0 fields
    let others ← writtenFields type e false 0 fields
    pure (identifiers ++ others)
termination_by structural t => t

/-- The entries of the identifier fields, or of the others, from a place on. -/
def writtenFields (type : TypeKey) (e : Entity) (identifiers : Bool) (place : Nat) :
    List Field → Except Failure (List (String × Value))
  | [] => .ok []
  | f :: fs => do
    let own ← writtenField type e identifiers place f
    let rest ← writtenFields type e identifiers (place + 1) fs
    pure (own ++ rest)
termination_by structural fs => fs

def writtenField (type : TypeKey) (e : Entity) (identifiers : Bool) (place : Nat) :
    Field → Except Failure (List (String × Value))
  | ⟨name, column, isId, converter, access⟩ =>
    if isId == identifiers then writtenAccess type e place name column converter access else .ok []
termination_by structural f => f

def writtenAccess (type : TypeKey) (e : Entity) (place : Nat) (name column : String)
    (converter : Option AttributeConverter) :
    FieldAccess TypeDescriptor → Except Failure (List (String × Value))
  | .value _ codec => do
    let v ← inField type.name name (e.contentAs type place >>= recordValue codec converter)
    pure (if v.isNull then [] else [(column, v)])
  | .embedded t => do
    match ← inField type.name name (e.childAs type place) with
    | none => pure []
    | some child => return [(column, .record column (← written child t))]
  | .subEntity t => do
    match ← inField type.name name (e.childAs type place) with
    | none => pure []
    | some child => written child t
termination_by structural a => a

end

theorem writtenField_eq (type : TypeKey) (e : Entity) (identifiers : Bool) (place : Nat)
    (f : Field) : writtenField type e identifiers place f =
      if f.isId == identifiers then writtenAccess type e place f.name f.column f.converter f.access
      else .ok [] := by
  cases f
  rfl

theorem written_eq_bind (t : TypeDescriptor) (e : Entity) :
    written e t = writtenFields t.key e true 0 t.fields >>= fun identifiers =>
      writtenFields t.key e false 0 t.fields >>= fun others => pure (identifiers ++ others) := by
  cases t
  rfl

theorem written_eq_ok_iff {t : TypeDescriptor} {e : Entity} {es : List (String × Value)} :
    written e t = .ok es ↔ ∃ identifiers others,
      writtenFields t.key e true 0 t.fields = .ok identifiers ∧
        writtenFields t.key e false 0 t.fields = .ok others ∧ identifiers ++ others = es := by
  rw [written_eq_bind]
  exact bind_append_eq_ok_iff

theorem writtenFields_cons_eq_ok_iff {type : TypeKey} {e : Entity} {identifiers : Bool}
    {place : Nat} {f : Field} {fs : List Field} {es : List (String × Value)} :
    writtenFields type e identifiers place (f :: fs) = .ok es ↔ ∃ own rest,
      writtenField type e identifiers place f = .ok own ∧
        writtenFields type e identifiers (place + 1) fs = .ok rest ∧ own ++ rest = es := by
  rw [writtenFields]
  exact bind_append_eq_ok_iff

theorem count_writtenAccess_le {type : TypeKey} {e : Entity} {place : Nat} {name column : String}
    {converter : Option AttributeConverter} {access : FieldAccess TypeDescriptor}
    {es : List (String × Value)}
    (nested : ∀ child, access = .subEntity child → ∀ e es, written e child = .ok es →
      ∀ c, (es.map (·.1)).count c ≤ child.flatColumns.count c)
    (h : writtenAccess type e place name column converter access = .ok es) (c : String) :
    (es.map (·.1)).count c ≤ (flatColumnsOfAccess column access).count c := by
  cases access with
  | value role codec =>
    obtain ⟨v, -, hv⟩ := bind_eq_ok_iff.mp h
    cases Except.ok.inj hv
    split <;> simp [flatColumnsOfAccess]
  | embedded child =>
    obtain ⟨found, -, hf⟩ := bind_eq_ok_iff.mp h
    cases found with
    | none =>
      cases Except.ok.inj hf
      simp
    | some inner =>
      obtain ⟨fs, -, hfs⟩ := bind_eq_ok_iff.mp hf
      cases Except.ok.inj hfs
      simp [flatColumnsOfAccess]
  | subEntity child =>
    obtain ⟨found, -, hf⟩ := bind_eq_ok_iff.mp h
    cases found with
    | none =>
      cases Except.ok.inj hf
      simp
    | some inner => exact nested child rfl inner es hf c

/-- Every field is written in one of the two passes, so both together use no name more often than
there are columns of that name. -/
theorem count_writtenFields_le {type : TypeKey} {e : Entity} {c : String} {fs : List Field}
    (each : ∀ f ∈ fs, ∀ place es,
      writtenAccess type e place f.name f.column f.converter f.access = .ok es →
        (es.map (·.1)).count c ≤ (flatColumnsOfAccess f.column f.access).count c)
    {place : Nat} {identifiers others : List (String × Value)}
    (first : writtenFields type e true place fs = .ok identifiers)
    (second : writtenFields type e false place fs = .ok others) :
    (identifiers.map (·.1)).count c + (others.map (·.1)).count c ≤ (flatColumnsOf fs).count c := by
  induction fs generalizing place identifiers others with
  | nil =>
    cases Except.ok.inj first
    cases Except.ok.inj second
    simp
  | cons f fs ih =>
    obtain ⟨own₁, rest₁, hown₁, hrest₁, rfl⟩ := writtenFields_cons_eq_ok_iff.mp first
    obtain ⟨own₂, rest₂, hown₂, hrest₂, rfl⟩ := writtenFields_cons_eq_ok_iff.mp second
    have later := ih (fun g hg => each g (List.mem_cons_of_mem _ hg)) hrest₁ hrest₂
    have here : (own₁.map (·.1)).count c + (own₂.map (·.1)).count c ≤
        (flatColumnsOfField f).count c := by
      rw [writtenField_eq] at hown₁ hown₂
      rw [flatColumnsOfField_eq]
      -- The field has entries in one of the two passes and none in the other.
      cases pass : f.isId with
      | true =>
        have bound := each f List.mem_cons_self place own₁ (by simpa [pass] using hown₁)
        obtain rfl : [] = own₂ := by simpa [pass] using hown₂
        simpa using bound
      | false =>
        have bound := each f List.mem_cons_self place own₂ (by simpa [pass] using hown₂)
        obtain rfl : [] = own₁ := by simpa [pass] using hown₁
        simpa using bound
    simp only [flatColumnsOf, List.map_append, List.count_append]
    omega

theorem count_written_le {t : TypeDescriptor} {e : Entity} {es : List (String × Value)}
    (h : written e t = .ok es) (c : String) :
    (es.map (·.1)).count c ≤ t.flatColumns.count c := by
  induction t using nestedInduction generalizing e es c with
  | step t ih =>
    obtain ⟨identifiers, others, first, second, rfl⟩ := written_eq_ok_iff.mp h
    have bound := count_writtenFields_le (c := c) (fun f hf place es he =>
      count_writtenAccess_le (fun child access e es hw c =>
        ih f hf child (f.nested?_of_subEntity access) hw c) he c) first second
    rw [flatColumns_eq_flatMap, ← flatColumnsOf_eq_flatMap, List.map_append, List.count_append]
    exact bound

theorem written_names_subset {t : TypeDescriptor} {e : Entity} {es : List (String × Value)}
    (h : written e t = .ok es) : es.map (·.1) ⊆ t.flatColumns := by
  intro c hc
  have used := List.count_pos_iff.mpr hc
  have bound := count_written_le h c
  exact List.count_pos_iff.mp (by omega)

/-- Where the written columns of a level do not clash, no written name repeats. -/
theorem written_names_nodup {t : TypeDescriptor} {e : Entity} {es : List (String × Value)}
    (distinct : t.flatColumns.Nodup) (h : written e t = .ok es) : (es.map (·.1)).Nodup := by
  rw [List.nodup_iff_count_le_one] at distinct ⊢
  intro c
  have bound := count_written_le h c
  have once := distinct c
  omega

/-- A record of the entries of one level gives each of them back. -/
theorem holds_written {t : TypeDescriptor} {e : Entity} {es : List (String × Value)}
    (distinct : t.flatColumns.Nodup) (h : written e t = .ok es) (name : String) :
    (Record.mk name es).Holds es :=
  Record.holds_of_nodup (written_names_nodup distinct h)

/-- Such a record has nothing under the columns of sub-entities. -/
theorem Separated.find?_written_eq_none {t : TypeDescriptor} {e : Entity}
    {es : List (String × Value)} (separated : t.Separated) (h : written e t = .ok es)
    (name : String) {column : String} (mem : column ∈ t.subEntityColumns) :
    Record.find? ⟨name, es⟩ column = none := by
  refine lookup_eq_none_iff.mpr fun used => ?_
  have own := written_names_subset h used
  exact separated.not_mem_flatColumns mem own

theorem writeInto_eq_bind (t : TypeDescriptor) (e : Entity) (r : Record) :
    writeInto e t r = writeFields t.key e true 0 t.fields r >>=
      writeFields t.key e false 0 t.fields := by
  cases t
  rfl

theorem writeField_eq (type : TypeKey) (e : Entity) (identifiers : Bool) (place : Nat) (f : Field)
    (r : Record) : writeField type e identifiers place f r =
      if f.isId == identifiers then writeAccess type e place f.name f.column f.converter f.access r
      else .ok r := by
  cases f
  rfl

theorem writeAccess_eq {type : TypeKey} {e : Entity} {place : Nat} {name column : String}
    {converter : Option AttributeConverter} {access : FieldAccess TypeDescriptor} {r : Record}
    (nested : ∀ child, access = .embedded child ∨ access = .subEntity child →
      child.flatColumns.Nodup ∧ ∀ e r, writeInto e child r = (written e child).map r.putAll) :
    writeAccess type e place name column converter access r =
      (writtenAccess type e place name column converter access).map r.putAll := by
  cases access with
  | value role codec =>
    simp only [writeAccess, writtenAccess]
    cases inField type.name name (e.contentAs type place >>= recordValue codec converter) with
    | error failure => rfl
    | ok v =>
      cases null : v.isNull with
      | true => simp [ok_bind, null, pure, Except.pure, Except.map]
      | false => simp [ok_bind, null, pure, Except.pure, Except.map]
  | embedded child =>
    obtain ⟨distinct, writes⟩ := nested child (.inl rfl)
    simp only [writeAccess, writtenAccess]
    cases inField type.name name (e.childAs type place) with
    | error failure => rfl
    | ok found =>
      cases found with
      | none => rfl
      | some inner =>
        simp only [ok_bind, writes]
        cases entries : written inner child with
        | error failure => rfl
        | ok es =>
          have whole := Record.putAll_empty column (written_names_nodup distinct entries)
          simp [Except.map, ok_bind, whole, pure, Except.pure, Value.ofRecord]
  | subEntity child =>
    obtain ⟨-, writes⟩ := nested child (.inr rfl)
    simp only [writeAccess, writtenAccess]
    cases inField type.name name (e.childAs type place) with
    | error failure => rfl
    | ok found =>
      cases found with
      | none => rfl
      | some inner => exact writes inner r

theorem writeFields_eq {type : TypeKey} {e : Entity} {identifiers : Bool} {fs : List Field}
    (each : ∀ f ∈ fs, ∀ place r,
      writeAccess type e place f.name f.column f.converter f.access r =
        (writtenAccess type e place f.name f.column f.converter f.access).map r.putAll)
    (place : Nat) (r : Record) :
    writeFields type e identifiers place fs r =
      (writtenFields type e identifiers place fs).map r.putAll := by
  induction fs generalizing place r with
  | nil => rfl
  | cons f fs ih =>
    have own : writeField type e identifiers place f r =
        (writtenField type e identifiers place f).map r.putAll := by
      rw [writeField_eq, writtenField_eq]
      split
      · exact each f List.mem_cons_self place r
      · rfl
    have rest := ih fun g hg => each g (List.mem_cons_of_mem _ hg)
    rw [writeFields, writtenFields, own]
    cases writtenField type e identifiers place f with
    | error failure => rfl
    | ok es =>
      simp only [Except.map, ok_bind, rest]
      cases writtenFields type e identifiers (place + 1) fs with
      | error failure => rfl
      | ok fs => simp [ok_bind, pure, Except.pure, Record.putAll_append]

/-- Writing an entity puts exactly its entries into the record, in their order. -/
theorem Formed.writeInto_eq {t : TypeDescriptor} (formed : t.Formed) (e : Entity) (r : Record) :
    writeInto e t r = (written e t).map r.putAll := by
  induction t using nestedInduction generalizing e r with
  | step t ih =>
    have each : ∀ f ∈ t.fields, ∀ place r,
        writeAccess t.key e place f.name f.column f.converter f.access r =
          (writtenAccess t.key e place f.name f.column f.converter f.access).map r.putAll := by
      intro f hf place r
      refine writeAccess_eq fun child access => ?_
      have nested : f.nested? = some child := by
        rcases access with access | access
        · exact f.nested?_of_embedded access
        · exact f.nested?_of_subEntity access
      exact ⟨(formed.nested hf nested).flatColumns_nodup,
        ih f hf child nested (formed.nested hf nested)⟩
    rw [writeInto_eq_bind, written_eq_bind, writeFields_eq each]
    cases writtenFields t.key e true 0 t.fields with
    | error failure => rfl
    | ok identifiers =>
      simp only [Except.map, ok_bind, writeFields_eq each]
      cases writtenFields t.key e false 0 t.fields with
      | error failure => rfl
      | ok others => simp [ok_bind, pure, Except.pure, Record.putAll_append]

theorem Formed.toRecord_eq {t : TypeDescriptor} (formed : t.Formed) (e : Entity) :
    t.toRecord e = (written e t).map fun es => ⟨t.name, es⟩ := by
  rw [toRecord, formed.writeInto_eq]
  cases entries : written e t with
  | error failure => rfl
  | ok es =>
    have whole := Record.putAll_empty t.name
      (written_names_nodup formed.flatColumns_nodup entries)
    simp [Except.map, whole]

end RecordMapper.TypeDescriptor
