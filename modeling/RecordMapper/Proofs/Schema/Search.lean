import Mathlib.Data.List.Perm.Subperm
import RecordMapper.Proofs.Schema.Formed
import RecordMapper.Proofs.Schema.WellFormed

/-!
Describing without a registry: every nested type is described anew wherever it occurs. The search
succeeds for the well-formed types and for no others, and what it gives for such a type does not
depend on the types around it. A path of types that are described inside each other is never longer
than the schema.
-/

namespace RecordMapper

open Relation

/-- What a search gives: its outcome and, in order, the types whose own search succeeds on the way,
the nested ones first. -/
structure Searched (α : Type) where
  outcome : Except Failure α
  completed : List TypeKey

namespace Searched

variable {α β : Type}

def ofExcept (outcome : Except Failure α) : Searched α := ⟨outcome, []⟩

def bind (x : Searched α) (next : α → Searched β) : Searched β :=
  match x.outcome with
  | .error failure => ⟨.error failure, x.completed⟩
  | .ok a => ⟨(next a).outcome, x.completed ++ (next a).completed⟩

/-- Completes a type once its fields are found. -/
def complete (x : Searched (List TypeDescriptor.Field)) (type : TypeKey) (name : String)
    (newInstance : Thunk Entity) : Searched TypeDescriptor :=
  x.bind fun fields => ⟨.ok (.mk 0 type name newInstance fields), [type]⟩

theorem bind_eq_ok {x : Searched α} {next : α → Searched β} {b : β}
    (h : (x.bind next).outcome = .ok b) :
    ∃ a, x.outcome = .ok a ∧ (next a).outcome = .ok b := by
  unfold bind at h
  cases outcome : x.outcome with
  | error failure => simp [outcome] at h
  | ok a => exact ⟨a, rfl, by simpa [outcome] using h⟩

theorem bind_eq_error {x : Searched α} {next : α → Searched β} {failure : Failure}
    (h : (x.bind next).outcome = .error failure) :
    x.outcome = .error failure ∨ ∃ a, x.outcome = .ok a ∧ (next a).outcome = .error failure := by
  unfold bind at h
  cases outcome : x.outcome with
  | error other => exact .inl (by simpa [outcome] using h)
  | ok a => exact .inr ⟨a, rfl, by simpa [outcome] using h⟩

theorem outcome_bind_of_ok {x : Searched α} {next : α → Searched β} {a : α}
    (h : x.outcome = .ok a) : (x.bind next).outcome = (next a).outcome := by
  rw [bind, h]

end Searched

/-- The field that a declared field with the given content is described as. -/
def FieldDeclaration.described (f : FieldDeclaration) (access : FieldAccess TypeDescriptor) :
    TypeDescriptor.Field :=
  ⟨f.name, Registry.columnOf f, f.isId, f.converter, access⟩

namespace Schema

/-- The content of a nested field. -/
def accessTo (s : Schema) (f : FieldDeclaration) (t : TypeDescriptor) :
    FieldAccess TypeDescriptor :=
  if s.kindOf f = .embedded then .embedded t else .subEntity t

/-- The declaration of a type and the contents of its new instances, unless the type is refused
before its fields are looked at. -/
def accept (s : Schema) (owners : List TypeKey) (type : TypeKey) :
    Except Failure (TypeDeclaration × List (Nat × Datum)) :=
  match s.find? type with
  | none => .error (.undeclaredType type.name)
  | some d =>
    if owners.contains type then .error (.selfEmbedding type.name)
    else
      match d.factory with
      | none => .error (.noFactory type.name)
      | some contents =>
        if 1 < d.fields.countP (·.isId) then .error (.manyIdentifiers type.name)
        else .ok (d, contents)

def searchAccess (s : Schema) (search : TypeKey → Searched TypeDescriptor) (type : TypeKey)
    (f : FieldDeclaration) : Searched (FieldAccess TypeDescriptor) :=
  match f.shape with
  | .scalar codec => .ofExcept (.ok (.value .plain codec))
  | .sequence codec => .ofExcept (.ok (.value .collection codec))
  | .mapping codec => .ofExcept (.ok (.value .map codec))
  | .nested child _ =>
    if f.isId then .ofExcept (.error (.nestedIdentifier type.name f.name))
    else (search child).bind fun t => .ofExcept (.ok (s.accessTo f t))

def searchFields (s : Schema) (search : TypeKey → Searched TypeDescriptor) (type : TypeKey) :
    List String → List FieldDeclaration → Searched (List TypeDescriptor.Field)
  | _, [] => .ofExcept (.ok [])
  | taken, f :: fs =>
    (s.searchAccess search type f).bind fun access =>
      let columns := TypeDescriptor.columnsOf (f.described access)
      match Registry.firstClash? taken columns with
      | some column => .ofExcept (.error (.columnClash type.name column))
      | none =>
        (s.searchFields search type (columns ++ taken) fs).bind fun fields =>
          .ofExcept (.ok (f.described access :: fields))

/-- Searches for a type inside the types in `owners`, as many levels down as `depth` says. -/
def searchAt (s : Schema) : Nat → List TypeKey → TypeKey → Searched TypeDescriptor
  | 0, _, type => .ofExcept (.error (.selfEmbedding type.name))
  | depth + 1, owners, type =>
    (Searched.ofExcept (s.accept owners type)).bind fun (d, contents) =>
      (s.searchFields (s.searchAt depth (type :: owners)) type [] d.fields).complete
        type d.name (s.freshWith type contents)

def search (s : Schema) (type : TypeKey) : Searched TypeDescriptor :=
  s.searchAt (s.length + 1) [] type

variable {s : Schema}

theorem accept_eq_ok_iff {owners : List TypeKey} {type : TypeKey} {d : TypeDeclaration}
    {contents : List (Nat × Datum)} :
    s.accept owners type = .ok (d, contents) ↔ s.find? type = some d ∧ type ∉ owners ∧
      d.factory = some contents ∧ d.fields.countP (·.isId) ≤ 1 := by
  unfold accept
  cases found : s.find? type with
  | none => simp
  | some e =>
    by_cases owned : owners.contains type = true
    · simp only [owned, if_true, reduceCtorEq, false_iff]
      rintro ⟨-, outside, -⟩
      exact outside (List.contains_iff_mem.mp owned)
    · have outside : type ∉ owners := fun mem => owned (List.contains_iff_mem.mpr mem)
      dsimp only
      rw [if_neg owned]
      constructor
      · intro h
        split at h
        next => cases h
        next factory =>
          split at h
          next => cases h
          next single =>
            cases h
            exact ⟨rfl, outside, factory, Nat.le_of_not_lt single⟩
      · rintro ⟨⟨⟩, -, factory, single⟩
        simp [factory, Nat.not_lt.mpr single]

theorem kind_of_accept_eq_error {owners : List TypeKey} {type : TypeKey} {failure : Failure}
    (h : s.accept owners type = .error failure) : failure.kind = .mapping := by
  unfold accept at h
  repeat' split at h
  all_goals cases h <;> rfl

theorem kindOf_nested {f : FieldDeclaration} {child : TypeKey} {presence : Presence}
    (shape : f.shape = .nested child presence) :
    s.kindOf f = .embedded ∨ s.kindOf f = .subEntity := by
  simp only [kindOf, shape]
  split
  next => exact .inl rfl
  next => exact .inr rfl

theorem nested?_accessTo (s : Schema) (f : FieldDeclaration) (t : TypeDescriptor) :
    (f.described (s.accessTo f t)).nested? = some t := by
  unfold FieldDeclaration.described accessTo
  split <;> rfl

/-- A descriptor that is right for a type: the type is well-formed, the descriptor is formed and
writes the columns that the declaration says. -/
structure Describes (s : Schema) (type : TypeKey) (t : TypeDescriptor) : Prop where
  key : t.key = type
  wellFormed : s.WellFormed type
  formed : t.Formed
  writes : ∃ d, s.find? type = some d ∧ s.Writes d.fields t.flatColumns

/-- A field that is right for its declaration. -/
structure FieldFits (s : Schema) (f : FieldDeclaration) (field : TypeDescriptor.Field) : Prop where
  values : ∀ child presence, f.shape = .nested child presence →
    f.isId = false ∧ s.WellFormed child
  takes : s.Takes f (TypeDescriptor.columnsOf field)
  writes : ∀ fs columns, s.Writes fs columns →
    s.Writes (f :: fs) (TypeDescriptor.flatColumnsOfField field ++ columns)
  isId : field.isId = f.isId
  nested : ∀ child, field.nested? = some child → child.Formed

/-- Fields that are right for their declarations and clash neither among themselves nor with the
columns in `taken`. -/
structure Fits (s : Schema) (taken : List String) (fs : List FieldDeclaration)
    (fields : List TypeDescriptor.Field) : Prop where
  each : List.Forall₂ s.FieldFits fs fields
  formed : Registry.FieldsFormed taken fields

theorem FieldFits.value {f : FieldDeclaration} {role : ValueRole} {codec : FieldCodec}
    (flat : ∀ child presence, f.shape ≠ .nested child presence) :
    s.FieldFits f (f.described (.value role codec)) := by
  have kind : s.kindOf f ≠ .subEntity := by
    intro sub
    obtain ⟨child, presence, shape⟩ := kindOf_eq_subEntity sub
    exact flat child presence shape
  refine ⟨fun child presence shape => absurd shape (flat child presence), .own kind,
    fun fs columns rest => .own kind rest, rfl, fun child nested => ?_⟩
  cases nested

theorem FieldFits.nested_field {f : FieldDeclaration} {child : TypeKey} {presence : Presence}
    {t : TypeDescriptor} (shape : f.shape = .nested child presence) (plain : f.isId = false)
    (describes : s.Describes child t) : s.FieldFits f (f.described (s.accessTo f t)) := by
  have values : ∀ child presence, f.shape = .nested child presence →
      f.isId = false ∧ s.WellFormed child := by
    intro other presence' shape'
    cases shape.symm.trans shape'
    exact ⟨plain, describes.wellFormed⟩
  have formed : ∀ c, (f.described (s.accessTo f t)).nested? = some c → c.Formed := by
    intro c nested
    rw [nested?_accessTo] at nested
    exact Option.some.inj nested ▸ describes.formed
  obtain ⟨d, found, inside⟩ := describes.writes
  rcases kindOf_nested (s := s) shape with embedded | sub
  · have own : s.kindOf f ≠ .subEntity := by simp [embedded]
    have access : s.accessTo f t = .embedded t := if_pos embedded
    rw [access] at formed ⊢
    exact ⟨values, .own own, fun fs columns rest => .own own rest, rfl, formed⟩
  · have access : s.accessTo f t = .subEntity t := if_neg (by simp [sub])
    rw [access] at formed ⊢
    exact ⟨values, .subEntity shape sub found inside,
      fun fs columns rest => .subEntity shape sub found inside rest, rfl, formed⟩

theorem Fits.takes {taken : List String} {fs : List FieldDeclaration}
    {fields : List TypeDescriptor.Field} (fits : s.Fits taken fs fields) :
    List.Forall₂ s.Takes fs (fields.map TypeDescriptor.columnsOf) :=
  List.forall₂_map_right_iff.mpr (fits.each.imp fun _ _ field => field.takes)

theorem Fits.writes {taken : List String} {fs : List FieldDeclaration}
    {fields : List TypeDescriptor.Field} (fits : s.Fits taken fs fields) :
    s.Writes fs (TypeDescriptor.flatColumnsOf fields) := by
  have each := fits.each
  clear fits
  induction each with
  | nil => exact .nil
  | cons first _ ih => exact first.writes _ _ ih

theorem Fits.countP_isId {taken : List String} {fs : List FieldDeclaration}
    {fields : List TypeDescriptor.Field} (fits : s.Fits taken fs fields) :
    fields.countP (·.isId) = fs.countP (·.isId) := by
  have each := fits.each
  clear fits
  induction each with
  | nil => rfl
  | cons first _ ih => rw [List.countP_cons, List.countP_cons, ih, first.isId]

theorem Fits.values {taken : List String} {fs : List FieldDeclaration}
    {fields : List TypeDescriptor.Field} (fits : s.Fits taken fs fields) {f : FieldDeclaration}
    {child : TypeKey} {presence : Presence} (hf : f ∈ fs)
    (shape : f.shape = .nested child presence) : f.isId = false ∧ s.WellFormed child := by
  have each := fits.each
  clear fits
  induction each with
  | nil => cases hf
  | cons first _ ih =>
    rcases List.mem_cons.mp hf with rfl | hf
    · exact first.values child presence shape
    · exact ih hf

section Search

variable {search : TypeKey → Searched TypeDescriptor} {type : TypeKey}

theorem searchAccess_fits
    (children : ∀ child t, (search child).outcome = .ok t → s.Describes child t)
    {f : FieldDeclaration} {access : FieldAccess TypeDescriptor}
    (h : (s.searchAccess search type f).outcome = .ok access) :
    s.FieldFits f (f.described access) := by
  unfold searchAccess at h
  split at h
  case h_1 | h_2 | h_3 =>
    next shape =>
      cases h
      exact .value (by simp [shape])
  case h_4 child presence shape =>
    split at h
    next => cases h
    next plain =>
      obtain ⟨t, found, h⟩ := Searched.bind_eq_ok h
      cases h
      exact .nested_field shape (by simpa using plain) (children child t found)

theorem searchFields_fits
    (children : ∀ child t, (search child).outcome = .ok t → s.Describes child t)
    {fs : List FieldDeclaration} {taken : List String} {fields : List TypeDescriptor.Field}
    (h : (s.searchFields search type taken fs).outcome = .ok fields) : s.Fits taken fs fields := by
  induction fs generalizing taken fields with
  | nil =>
    cases h
    exact ⟨.nil, .nil⟩
  | cons f fs ih =>
    obtain ⟨access, found, h⟩ := Searched.bind_eq_ok h
    have fits := searchAccess_fits children found
    dsimp only at h
    split at h
    next => cases h
    next clash =>
      obtain ⟨rest, searched, h⟩ := Searched.bind_eq_ok h
      cases h
      have later := ih searched
      exact ⟨.cons fits later.each, .cons clash fits.nested later.formed⟩

/-- A search that succeeds gives a descriptor that is right for a well-formed type. -/
theorem searchAt_describes {depth : Nat} {owners : List TypeKey} {t : TypeDescriptor}
    (h : (s.searchAt depth owners type).outcome = .ok t) : s.Describes type t := by
  induction depth generalizing owners type t with
  | zero => cases h
  | succ depth ih =>
    obtain ⟨⟨d, contents⟩, accepted, h⟩ := Searched.bind_eq_ok h
    obtain ⟨found, -, factory, single⟩ := accept_eq_ok_iff.mp accepted
    obtain ⟨fields, searched, h⟩ := Searched.bind_eq_ok h
    have fits := searchFields_fits (fun child t hc => ih hc) searched
    cases h
    have distinct : (fields.map TypeDescriptor.columnsOf).flatten.Nodup := by
      rw [← List.flatMap_def]
      exact fits.formed.columns
    have valid : s.Valid type d :=
      { declared := found
        factory := by rw [factory, Option.isSome_some]
        identifiers := single
        values := fun f hf child presence shape => (fits.values hf shape).1
        columns := ⟨_, fits.takes, distinct⟩ }
    have children : ∀ child, s.Embeds type child → s.WellFormed child := by
      rintro child ⟨e, found', f, hf, presence, shape⟩
      cases found.symm.trans found'
      exact (fits.values hf shape).2
    have formed := Registry.formed_mk contents found single fits.each.length_eq.symm
      fits.countP_isId fits.formed 0
    exact ⟨rfl, .of_children valid children, formed, d, found, fits.writes⟩

theorem searchAccess_ok {f : FieldDeclaration}
    (values : ∀ child presence, f.shape = .nested child presence →
      f.isId = false ∧ ∃ t, (search child).outcome = .ok t) :
    ∃ access, (s.searchAccess search type f).outcome = .ok access := by
  unfold searchAccess
  split
  case h_1 | h_2 | h_3 => exact ⟨_, rfl⟩
  case h_4 child presence shape =>
    obtain ⟨plain, t, found⟩ := values child presence shape
    rw [if_neg (by simp [plain]), Searched.outcome_bind_of_ok found]
    exact ⟨_, rfl⟩

theorem searchFields_ok
    (children : ∀ child t, (search child).outcome = .ok t → s.Describes child t)
    {fs : List FieldDeclaration} {columns : List (List String)}
    (takes : List.Forall₂ s.Takes fs columns)
    (values : ∀ f ∈ fs, ∀ child presence, f.shape = .nested child presence →
      f.isId = false ∧ ∃ t, (search child).outcome = .ok t)
    {taken : List String} (distinct : columns.flatten.Nodup)
    (fresh : ∀ c ∈ columns.flatten, c ∉ taken) :
    ∃ fields, (s.searchFields search type taken fs).outcome = .ok fields := by
  induction takes generalizing taken with
  | nil => exact ⟨[], rfl⟩
  | @cons f own fs later takesOwn _ ih =>
    obtain ⟨access, found⟩ : ∃ access, (s.searchAccess search type f).outcome = .ok access :=
      searchAccess_ok (values f List.mem_cons_self)
    have fits := searchAccess_fits children found
    have same : TypeDescriptor.columnsOf (f.described access) = own :=
      fits.takes.functional takesOwn
    rw [List.flatten_cons] at distinct fresh
    obtain ⟨distinctOwn, distinctLater, apart⟩ := List.nodup_append.mp distinct
    have clash : Registry.firstClash? taken own = none :=
      Registry.firstClash?_eq_none_iff.mpr
        ⟨distinctOwn, fun c hc => fresh c (List.mem_append_left _ hc)⟩
    obtain ⟨rest, searched⟩ :
        ∃ rest, (s.searchFields search type (own ++ taken) fs).outcome = .ok rest := by
      refine ih (fun g hg => values g (List.mem_cons_of_mem _ hg)) distinctLater fun c hc mem => ?_
      rcases List.mem_append.mp mem with inOwn | old
      · exact apart c inOwn c hc rfl
      · exact fresh c (List.mem_append_right _ hc) old
    refine ⟨f.described access :: rest, ?_⟩
    rw [searchFields, Searched.outcome_bind_of_ok found]
    simp only [same, clash]
    rw [Searched.outcome_bind_of_ok searched]
    rfl

end Search

/-- A type that is looked at inside its owners, `depth` levels above the end: the owners are
distinct, they lead to the type, and with the levels left there are more than the types. -/
structure Situated (s : Schema) (depth : Nat) (owners : List TypeKey) (type : TypeKey) : Prop where
  distinct : owners.Nodup
  room : s.length < depth + owners.length
  path : ∀ owner ∈ owners, TransGen s.Embeds owner type

namespace Situated

variable {depth : Nat} {owners : List TypeKey} {type child : TypeKey}

theorem start (s : Schema) (type : TypeKey) : s.Situated (s.length + 1) [] type :=
  ⟨.nil, by simp, by simp⟩

theorem nested (situated : s.Situated (depth + 1) owners type) (outside : type ∉ owners)
    (embeds : s.Embeds type child) : s.Situated depth (type :: owners) child := by
  refine ⟨List.nodup_cons.mpr ⟨outside, situated.distinct⟩, ?_, fun owner ho => ?_⟩
  · have room := situated.room
    rw [List.length_cons]
    omega
  · rcases List.mem_cons.mp ho with rfl | ho
    · exact .single embeds
    · exact (situated.path owner ho).tail embeds

theorem not_mem (situated : s.Situated depth owners type)
    (acyclic : ¬ TransGen s.Embeds type type) : type ∉ owners :=
  fun mem => acyclic (situated.path type mem)

/-- The owners are declared and distinct, so there are no more of them than declarations. -/
theorem length_owners_le (situated : s.Situated depth owners type) :
    owners.length ≤ s.length := by
  have declared : owners ⊆ s.map (·.key) := by
    intro owner ho
    obtain ⟨_, embeds, -⟩ := TransGen.head'_iff.mp (situated.path owner ho)
    obtain ⟨d, found⟩ := embeds.declared
    have key : d.key = owner := by simpa using List.find?_some found
    exact List.mem_map.mpr ⟨d, List.mem_of_find?_eq_some found, key⟩
  simpa using (List.subperm_of_subset situated.distinct declared).length_le

theorem depth_pos (situated : s.Situated depth owners type) : 0 < depth := by
  have owners := situated.length_owners_le
  have room := situated.room
  omega

end Situated

theorem searchFields_congr {search other : TypeKey → Searched TypeDescriptor} {type : TypeKey}
    {fs : List FieldDeclaration}
    (same : ∀ f ∈ fs, ∀ child presence, f.shape = .nested child presence →
      search child = other child) (taken : List String) :
    s.searchFields search type taken fs = s.searchFields other type taken fs := by
  induction fs generalizing taken with
  | nil => rfl
  | cons f fs ih =>
    have own : s.searchAccess search type f = s.searchAccess other type f := by
      unfold searchAccess
      cases shape : f.shape with
      | scalar codec | sequence codec | mapping codec => rfl
      | nested child presence => simp only [same f List.mem_cons_self child presence shape]
    have later := ih fun g hg => same g (List.mem_cons_of_mem _ hg)
    simp only [searchFields, own, later]

namespace WellFormed

variable {type : TypeKey}

/-- The search for a well-formed type succeeds inside whatever owners. -/
theorem searchAt_ok (wellFormed : s.WellFormed type) {depth : Nat} {owners : List TypeKey}
    (situated : s.Situated depth owners type) :
    ∃ t, (s.searchAt depth owners type).outcome = .ok t := by
  induction depth generalizing owners type with
  | zero => exact absurd situated.depth_pos (Nat.lt_irrefl 0)
  | succ depth ih =>
    obtain ⟨d, valid⟩ := wellFormed.valid
    have outside := situated.not_mem wellFormed.acyclic
    obtain ⟨contents, factory⟩ := Option.isSome_iff_exists.mp valid.factory
    have accepted : s.accept owners type = .ok (d, contents) :=
      accept_eq_ok_iff.mpr ⟨valid.declared, outside, factory, valid.identifiers⟩
    obtain ⟨columns, takes, distinct⟩ := valid.columns
    have values : ∀ f ∈ d.fields, ∀ child presence, f.shape = .nested child presence →
        f.isId = false ∧ ∃ t, (s.searchAt depth (type :: owners) child).outcome = .ok t := by
      intro f hf child presence shape
      have embeds := Embeds.of_mem valid.declared hf shape
      exact ⟨valid.values f hf child presence shape,
        ih (wellFormed.of_embeds embeds) (situated.nested outside embeds)⟩
    obtain ⟨fields, searched⟩ : ∃ fields, (s.searchFields (s.searchAt depth (type :: owners))
        type [] d.fields).outcome = .ok fields :=
      searchFields_ok (fun _ _ => searchAt_describes) takes values distinct (by simp)
    refine ⟨.mk 0 type d.name (s.freshWith type contents) fields, ?_⟩
    rw [searchAt, Searched.outcome_bind_of_ok accepted]
    exact Searched.outcome_bind_of_ok searched

/-- What the search for a well-formed type gives does not depend on its owners. -/
theorem searchAt_eq (wellFormed : s.WellFormed type) {depth other : Nat}
    {owners others : List TypeKey} (situated : s.Situated depth owners type)
    (elsewhere : s.Situated other others type) :
    s.searchAt depth owners type = s.searchAt other others type := by
  induction depth generalizing other owners others type with
  | zero => exact absurd situated.depth_pos (Nat.lt_irrefl 0)
  | succ depth ih =>
    obtain ⟨other, rfl⟩ := Nat.exists_eq_succ_of_ne_zero (Nat.ne_of_gt elsewhere.depth_pos)
    obtain ⟨d, valid⟩ := wellFormed.valid
    obtain ⟨contents, factory⟩ := Option.isSome_iff_exists.mp valid.factory
    have outside := situated.not_mem wellFormed.acyclic
    have outside' := elsewhere.not_mem wellFormed.acyclic
    have accepted : ∀ path, type ∉ path → s.accept path type = .ok (d, contents) :=
      fun path free => accept_eq_ok_iff.mpr ⟨valid.declared, free, factory, valid.identifiers⟩
    have fields : s.searchFields (s.searchAt depth (type :: owners)) type [] d.fields =
        s.searchFields (s.searchAt other (type :: others)) type [] d.fields := by
      refine searchFields_congr (fun f hf child presence shape => ?_) []
      have embeds := Embeds.of_mem valid.declared hf shape
      exact ih (wellFormed.of_embeds embeds) (situated.nested outside embeds)
        (elsewhere.nested outside' embeds)
    rw [searchAt, searchAt, accepted owners outside, accepted others outside']
    simp only [Searched.bind, Searched.ofExcept, fields]

end WellFormed

theorem kind_of_searchFields_eq_error {search : TypeKey → Searched TypeDescriptor}
    {type : TypeKey} {fs : List FieldDeclaration} {taken : List String} {failure : Failure}
    (children : ∀ child failure, (search child).outcome = .error failure →
      failure.kind = .mapping)
    (h : (s.searchFields search type taken fs).outcome = .error failure) :
    failure.kind = .mapping := by
  induction fs generalizing taken with
  | nil => cases h
  | cons f fs ih =>
    rcases Searched.bind_eq_error h with own | ⟨access, -, h⟩
    · unfold searchAccess at own
      split at own
      case h_1 | h_2 | h_3 => cases own
      case h_4 child presence _ =>
        split at own
        next =>
          cases own
          rfl
        next =>
          rcases Searched.bind_eq_error own with inner | ⟨t, -, h⟩
          · exact children child failure inner
          · cases h
    · dsimp only at h
      split at h
      next =>
        cases h
        rfl
      next =>
        rcases Searched.bind_eq_error h with later | ⟨rest, -, h⟩
        · exact ih later
        · cases h

theorem kind_of_searchAt_eq_error {depth : Nat} {owners : List TypeKey} {type : TypeKey}
    {failure : Failure} (h : (s.searchAt depth owners type).outcome = .error failure) :
    failure.kind = .mapping := by
  induction depth generalizing owners type failure with
  | zero =>
    cases h
    rfl
  | succ depth ih =>
    rcases Searched.bind_eq_error h with refused | ⟨⟨d, contents⟩, -, h⟩
    · exact kind_of_accept_eq_error refused
    · rcases Searched.bind_eq_error h with fields | ⟨_, -, h⟩
      · exact kind_of_searchFields_eq_error (fun child failure hc => ih hc) fields
      · cases h

theorem search_ok_iff {type : TypeKey} :
    (∃ t, (s.search type).outcome = .ok t) ↔ s.WellFormed type :=
  ⟨fun ⟨_, h⟩ => (searchAt_describes h).wellFormed,
    fun wellFormed => wellFormed.searchAt_ok (.start s type)⟩

end Schema

end RecordMapper
