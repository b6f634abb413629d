import RecordMapper.Proofs.Mapping.RoundTrip
import RecordMapper.Proofs.Schema.Declared

/-!
The entries of an entity as a plain list, read off the entity without a writer: the identifier field
first, then the other fields in declaration order. Whatever is written is this list, at every level,
and no entry of it takes the place of another.
-/

namespace RecordMapper

open Relation

namespace TypeDescriptor

/-- The value of an entry, unless the value of the field or the converted value is null. -/
def entryValue? (codec : FieldCodec) (converter : Option AttributeConverter) (d : Datum) :
    Option Value := do
  let v ← (codec.get d).toOption
  if v.isNull then none
  else
    let converted ← match converter with
      | none => some v
      | some c => (c.toRecordValue v).toOption
    if converted.isNull then none else some converted

/-- The parts in order, those with the mark before those without. -/
def markedFirst {α : Type} (parts : List (Bool × List α)) : List α :=
  (parts.filter (·.1)).flatMap (·.2) ++ (parts.filter (!·.1)).flatMap (·.2)

mutual

/-- The entries of an entity, those of its identifier before those of its other fields. -/
def layout (e : Entity) : TypeDescriptor → List (String × Value)
  | mk _ _ _ _ fields => markedFirst (layoutOf e 0 fields)

/-- The entries of each field from a place on, marked where the field is the identifier. -/
def layoutOf (e : Entity) (place : Nat) : List Field → List (Bool × List (String × Value))
  | [] => []
  | f :: fs => layoutOfField e place f :: layoutOf e (place + 1) fs

def layoutOfField (e : Entity) (place : Nat) : Field → Bool × List (String × Value)
  | ⟨_, column, isId, converter, access⟩ => (isId, layoutOfAccess e place column converter access)

def layoutOfAccess (e : Entity) (place : Nat) (column : String)
    (converter : Option AttributeConverter) :
    FieldAccess TypeDescriptor → List (String × Value)
  | .value _ codec =>
    match (e.content? place).bind (entryValue? codec converter) with
    | some v => [(column, v)]
    | none => []
  | .embedded t =>
    match e.child? place with
    | some child => [(column, .record column (layout child t))]
    | none => []
  | .subEntity t =>
    match e.child? place with
    | some child => layout child t
    | none => []

end

theorem layoutOfField_eq (e : Entity) (place : Nat) (f : Field) :
    layoutOfField e place f = (f.isId, layoutOfAccess e place f.column f.converter f.access) := by
  cases f
  rfl

theorem layout_eq (e : Entity) (t : TypeDescriptor) :
    layout e t = markedFirst (layoutOf e 0 t.fields) := by
  cases t
  rfl

/-- An entity that is present inside another one, at whatever depth, with the type it has there. -/
inductive Inside : TypeDescriptor → Entity → TypeDescriptor → Entity → Prop
  | refl (t : TypeDescriptor) (e : Entity) : Inside t e t e
  | nested {t child u : TypeDescriptor} {e inner below : Entity} {place : Nat} {f : Field}
    (field : t.fields[place]? = some f) (nested : f.nested? = some child)
    (present : e.child? place = some inner) (deeper : Inside child inner u below) :
    Inside t e u below

theorem Inside.nests {t u : TypeDescriptor} {e below : Entity} (inside : Inside t e u below) :
    ReflTransGen Nests t u := by
  induction inside with
  | refl => exact .refl
  | nested field nested _ _ ih => exact .head ⟨_, List.mem_of_getElem? field, nested⟩ ih

/-- A value that a field leaves is that of its entry, or null where it has none. -/
theorem entryValue?_of_recordValue {codec : FieldCodec} {converter : Option AttributeConverter}
    {d : Datum} {v : Value} (h : recordValue codec converter d = .ok v) :
    entryValue? codec converter d = if v.isNull then none else some v := by
  obtain ⟨given, got, h⟩ := bind_eq_ok_iff.mp h
  simp only [entryValue?, got, Except.toOption, Option.bind_eq_bind, Option.bind_some]
  cases null : given.isNull with
  | true =>
    rw [null] at h
    cases h
    simp [null]
  | false =>
    rw [null] at h
    cases converter with
    | none =>
      cases h
      simp [null]
    | some c =>
      have converted : c.toRecordValue given = .ok v := h
      simp [converted]

section Written

variable {type : TypeKey} {e : Entity}

theorem layoutOfAccess_of_written {place : Nat} {name column : String}
    {converter : Option AttributeConverter} {access : FieldAccess TypeDescriptor}
    {own : List (String × Value)}
    (nested : ∀ child, access = .embedded child ∨ access = .subEntity child →
      ∀ c es, written c child = .ok es → layout c child = es)
    (h : writtenAccess type e place name column converter access = .ok own) :
    layoutOfAccess e place column converter access = own := by
  cases access with
  | value role codec =>
    obtain ⟨d, v, content, value, rfl⟩ := of_writtenAccess_value h
    rw [layoutOfAccess, content, Option.bind_some, entryValue?_of_recordValue value]
    cases v.isNull <;> rfl
  | embedded child =>
    have inside := of_writtenAccess_embedded h
    rw [layoutOfAccess]
    cases held : e.child? place with
    | none =>
      rw [held] at inside
      exact inside.symm
    | some c =>
      rw [held] at inside
      obtain ⟨inner, entries, rfl⟩ := inside
      rw [← nested child (.inl rfl) c inner entries]
  | subEntity child =>
    have inside := of_writtenAccess_subEntity h
    rw [layoutOfAccess]
    cases held : e.child? place with
    | none =>
      rw [held] at inside
      exact inside.symm
    | some c =>
      rw [held] at inside
      exact nested child (.inr rfl) c own inside

/-- One pass of the writer leaves the parts of the fields that it is for. -/
theorem layoutOf_of_written {identifiers : Bool} {fs : List Field} {place : Nat}
    {es : List (String × Value)}
    (each : ∀ f ∈ fs, ∀ place own,
      writtenAccess type e place f.name f.column f.converter f.access = .ok own →
        layoutOfAccess e place f.column f.converter f.access = own)
    (h : writtenFields type e identifiers place fs = .ok es) :
    ((layoutOf e place fs).filter (·.1 == identifiers)).flatMap (·.2) = es := by
  induction fs generalizing place es with
  | nil =>
    cases Except.ok.inj h
    rfl
  | cons f fs ih =>
    obtain ⟨own, rest, hown, hrest, rfl⟩ := writtenFields_cons_eq_ok_iff.mp h
    have later := ih (fun g hg => each g (List.mem_cons_of_mem _ hg)) hrest
    rw [layoutOf, layoutOfField_eq, List.filter_cons]
    rw [writtenField_eq] at hown
    split at hown
    next pass =>
      rw [if_pos pass, List.flatMap_cons, later, each f List.mem_cons_self place own hown]
    next other =>
      cases Except.ok.inj hown
      rw [if_neg other, later, List.nil_append]

theorem layout_of_written {t : TypeDescriptor} {es : List (String × Value)}
    (h : written e t = .ok es) : layout e t = es := by
  induction t using nestedInduction generalizing e es with
  | step t ih =>
    have each : ∀ f ∈ t.fields, ∀ place own,
        writtenAccess t.key e place f.name f.column f.converter f.access = .ok own →
          layoutOfAccess e place f.column f.converter f.access = own := by
      intro f hf place own hown
      refine layoutOfAccess_of_written (fun child access c es entries => ?_) hown
      have nested : f.nested? = some child := by
        rcases access with access | access
        · exact f.nested?_of_embedded access
        · exact f.nested?_of_subEntity access
      exact ih f hf child nested entries
    obtain ⟨identifiers, others, first, second, rfl⟩ := written_eq_ok_iff.mp h
    have marked := layoutOf_of_written each first
    have unmarked := layoutOf_of_written each second
    simp only [beq_true, beq_false] at marked unmarked
    rw [layout_eq, markedFirst, marked, unmarked]

/-- What is present inside a written entity is written as well. -/
theorem Inside.written {t u : TypeDescriptor} {below : Entity} {es : List (String × Value)}
    (inside : Inside t e u below) (h : written e t = .ok es) :
    ∃ inner, TypeDescriptor.written below u = .ok inner := by
  induction inside generalizing es with
  | refl => exact ⟨es, h⟩
  | nested field nested present _ ih =>
    obtain ⟨own, hown, -⟩ := written_of_getElem? h field
    rcases FieldDescriptor.access_of_nested? nested with access | access
    · rw [access] at hown
      have held := of_writtenAccess_embedded hown
      rw [present] at held
      obtain ⟨inner, entries, -⟩ := held
      exact ih entries
    · rw [access] at hown
      have held := of_writtenAccess_subEntity hown
      rw [present] at held
      exact ih held

end Written

theorem Inside.formed {t u : TypeDescriptor} {e below : Entity} (inside : Inside t e u below)
    (formed : t.Formed) : u.Formed := by
  induction inside with
  | refl => exact formed
  | nested field nested _ _ ih => exact ih (formed.nested (List.mem_of_getElem? field) nested)

/-- How an entity is written: into whatever record, its entries are put one after the other, and in
a new record none of them meets an entry of its name. -/
structure Lays (t : TypeDescriptor) (e : Entity) : Prop where
  puts : ∀ r, t.writeInto e r = .ok (r.putAll (layout e t))
  names : ((layout e t).map (·.1)).Nodup
  fresh : ∀ name before entry after, layout e t = before ++ entry :: after →
    (((Record.empty name).putAll before).exchange entry.1 entry.2).1 = none

theorem Formed.lays {t : TypeDescriptor} {e : Entity} {es : List (String × Value)}
    (formed : t.Formed) (h : written e t = .ok es) : t.Lays e := by
  obtain rfl := layout_of_written h
  have distinct := written_names_nodup formed.flatColumns_nodup h
  refine ⟨fun r => by rw [formed.writeInto_eq, h]; rfl, distinct,
    fun name before entry after split => ?_⟩
  rw [split, List.map_append, List.map_cons] at distinct
  obtain ⟨earlier, -, apart⟩ := List.nodup_append.mp distinct
  have new : entry.1 ∉ before.map (·.1) := fun mem => apart _ mem _ List.mem_cons_self rfl
  rw [Record.putAll_empty name earlier, Record.exchange, writeEntry_of_not_mem entry.2 new]

end TypeDescriptor

open TypeDescriptor in
/-- A written entity of a described type is the record of its entries under the logical name of the
declared type. The type mirrors its declaration, as does that of every entity inside, and at every
level the names differ and no put replaces an entry. -/
theorem Registry.toRecord_layout {s : Schema} {registry : Registry} {type : TypeKey}
    {t : TypeDescriptor} (reachable : Reachable s registry)
    (described : (describe s type registry).1 = .ok t) {e : Entity} {r : Record}
    (wrote : t.toRecord e = .ok r) :
    (∃ d, s.find? type = some d ∧ r = ⟨d.name, layout e t⟩) ∧
      ∀ u below, Inside t e u below → (∃ d, s.Mirrors d u) ∧ u.Lays below := by
  obtain ⟨key, formed⟩ := reachable.formed described
  have known := reachable.find?_describe described
  have mirrors : ∀ {u}, ReflTransGen Nests t u → ∃ d, s.Mirrors d u :=
    (reachable.describe type).faithful.mirrors_of_nests known
  rw [formed.toRecord_eq] at wrote
  obtain ⟨es, entries, rfl⟩ := map_eq_ok_iff.mp wrote
  refine ⟨?_, fun u below inside => ⟨mirrors inside.nests, ?_⟩⟩
  · obtain ⟨d, mirrored⟩ := mirrors .refl
    exact ⟨d, key ▸ mirrored.declared, by rw [layout_of_written entries, mirrored.name]⟩
  · obtain ⟨inner, written⟩ := inside.written entries
    exact (inside.formed formed).lays written

/-- An owner with its identifier behind the other fields: a remark that may be missing, an embedded
point and a leaf that is a sub-entity. -/
def codedSchema : Schema :=
  let text : FieldShape := .scalar (.typed .string)
  [{ key := ⟨"", "Point"⟩, embeddable := true, fields := [{ name := "mark", shape := text }] },
    { key := ⟨"", "Leaf"⟩, fields := [{ name := "note", shape := text }] },
    { key := ⟨"", "Owner"⟩,
      fields := [{ name := "remark", shape := .scalar (.typed (.option .string)) },
        { name := "place", shape := .nested ⟨"", "Point"⟩ .required },
        { name := "leaf", shape := .nested ⟨"", "Leaf"⟩ .required },
        { name := "code", shape := text, column := some "_id", isId := true }] }]

def codedType : TypeDescriptor :=
  let text (name : String) : TypeDescriptor.Field :=
    ⟨name, name, false, none, .value .plain (.typed .string)⟩
  let describing (identity : Nat) (name : String) (fields : List TypeDescriptor.Field) :
      TypeDescriptor :=
    .mk identity ⟨"", name⟩ name (codedSchema.freshWith ⟨"", name⟩ []) fields
  let point := describing 0 "Point" [text "mark"]
  let leaf := describing 1 "Leaf" [text "note"]
  describing 2 "Owner"
    [⟨"remark", "remark", false, none, .value .plain (.typed (.option .string))⟩,
      ⟨"place", "place", false, none, .embedded point⟩, ⟨"leaf", "leaf", false, none, .subEntity leaf⟩,
      ⟨"code", "_id", true, none, .value .plain (.typed .string)⟩]

def codedOwner (code mark note : String) : Entity :=
  let point : Entity := .mk ⟨"", "Point"⟩ [("mark", .content (.string mark))]
  let leaf : Entity := .mk ⟨"", "Leaf"⟩ [("note", .content (.string note))]
  .mk ⟨"", "Owner"⟩ [("remark", .content .absent), ("place", .child (some point)),
    ("leaf", .child (some leaf)), ("code", .content (.string code))]

/-- The identifier comes first, then a record of the embedded entity and, in place, the entry of the
sub-entity. The missing remark has no entry. -/
theorem toRecord_layout_coded :
    (Registry.describe codedSchema ⟨"", "Owner"⟩ {}).1 = .ok codedType ∧
      codedType.toRecord (codedOwner "c" "m" "n") = .ok ⟨"Owner",
        [("_id", .string "c"), ("place", .record "place" [("mark", .string "m")]),
          ("note", .string "n")]⟩ ∧
      codedType.Lays (codedOwner "c" "m" "n") := by
  have described : (Registry.describe codedSchema ⟨"", "Owner"⟩ {}).1 = .ok codedType := rfl
  have wrote : codedType.toRecord (codedOwner "c" "m" "n") = .ok ⟨"Owner",
    [("_id", .string "c"), ("place", .record "place" [("mark", .string "m")]),
      ("note", .string "n")]⟩ := rfl
  have whole := Registry.toRecord_layout .empty described wrote
  exact ⟨described, wrote, (whole.2 _ _ (.refl _ _)).2⟩

end RecordMapper
