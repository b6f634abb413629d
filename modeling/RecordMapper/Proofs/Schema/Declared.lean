import RecordMapper.Proofs.Schema.Cached

/-!
What a descriptor takes from the declaration of its type: the logical name and, one for one and in
their order, the fields. The same holds of every descriptor inside it.
-/

namespace RecordMapper

open Relation

namespace Schema

/-- What the declaration of a field lets it hold. -/
inductive Holds (s : Schema) (f : FieldDeclaration) : FieldAccess TypeDescriptor → Prop
  | scalar {codec : FieldCodec} (shape : f.shape = .scalar codec) : Holds s f (.value .plain codec)
  | sequence {codec : FieldCodec} (shape : f.shape = .sequence codec) :
    Holds s f (.value .collection codec)
  | mapping {codec : FieldCodec} (shape : f.shape = .mapping codec) : Holds s f (.value .map codec)
  | embedded {t : TypeDescriptor} {presence : Presence} (shape : f.shape = .nested t.key presence)
    (kind : s.kindOf f = .embedded) : Holds s f (.embedded t)
  | subEntity {t : TypeDescriptor} {presence : Presence} (shape : f.shape = .nested t.key presence)
    (kind : s.kindOf f = .subEntity) : Holds s f (.subEntity t)

/-- A field with the names, the role and the content that its declaration says. -/
def Declares (s : Schema) (f : FieldDeclaration) (field : TypeDescriptor.Field) : Prop :=
  field = f.described field.access ∧ s.Holds f field.access

/-- A descriptor of the declared type that has its logical name and its fields, of which at most one
is the identifier. -/
structure Mirrors (s : Schema) (d : TypeDeclaration) (t : TypeDescriptor) : Prop where
  declared : s.find? t.key = some d
  name : t.name = d.name
  fields : List.Forall₂ s.Declares d.fields t.fields
  identifiers : d.fields.countP (·.isId) ≤ 1

variable {s : Schema} {f : FieldDeclaration}

theorem Holds.of_content {access : FieldAccess TypeDescriptor}
    (h : s.Holds f (TypeDescriptor.contentOfAccess access)) : s.Holds f access := by
  cases access with
  | value role codec => exact h
  | embedded t =>
    cases h with
    | embedded shape kind => exact .embedded (by simpa using shape) kind
  | subEntity t =>
    cases h with
    | subEntity shape kind => exact .subEntity (by simpa using shape) kind

theorem Declares.of_content {field : TypeDescriptor.Field}
    (h : s.Declares f (TypeDescriptor.contentOfField field)) : s.Declares f field := by
  obtain ⟨described, holds⟩ := h
  cases field with
  | mk name column isId converter access =>
    cases described
    exact ⟨rfl, holds.of_content⟩

theorem Mirrors.of_content {d : TypeDeclaration} {t : TypeDescriptor}
    (mirrors : s.Mirrors d t.content) : s.Mirrors d t := by
  have fields := mirrors.fields
  rw [TypeDescriptor.fields_content, List.forall₂_map_right_iff] at fields
  have name : t.content.name = t.name := by cases t; rfl
  exact ⟨by simpa using mirrors.declared, name ▸ mirrors.name,
    fields.imp fun _ _ => Declares.of_content, mirrors.identifiers⟩

section Search

variable {search : TypeKey → Searched TypeDescriptor} {type : TypeKey}

theorem searchAccess_holds
    (children : ∀ child t, (search child).outcome = .ok t → t.key = child)
    {access : FieldAccess TypeDescriptor}
    (h : (s.searchAccess search type f).outcome = .ok access) : s.Holds f access := by
  unfold searchAccess at h
  split at h
  next codec shape => cases h; exact .scalar shape
  next codec shape => cases h; exact .sequence shape
  next codec shape => cases h; exact .mapping shape
  next child presence shape =>
    split at h
    next => cases h
    next =>
      obtain ⟨t, found, h⟩ := Searched.bind_eq_ok h
      cases h
      rw [← children child t found] at shape
      rcases kindOf_nested (s := s) shape with kind | kind
      · rw [accessTo, if_pos kind]
        exact .embedded shape kind
      · rw [accessTo, if_neg (by simp [kind])]
        exact .subEntity shape kind

theorem searchFields_declares
    (children : ∀ child t, (search child).outcome = .ok t → t.key = child)
    {fs : List FieldDeclaration} {taken : List String} {fields : List TypeDescriptor.Field}
    (h : (s.searchFields search type taken fs).outcome = .ok fields) :
    List.Forall₂ s.Declares fs fields := by
  induction fs generalizing taken fields with
  | nil =>
    cases h
    exact .nil
  | cons f fs ih =>
    obtain ⟨access, found, h⟩ := Searched.bind_eq_ok h
    have holds := searchAccess_holds children found
    dsimp only at h
    split at h
    next => cases h
    next =>
      obtain ⟨rest, searched, h⟩ := Searched.bind_eq_ok h
      cases h
      exact .cons ⟨rfl, holds⟩ (ih searched)

theorem searchAt_mirrors {depth : Nat} {owners : List TypeKey} {t : TypeDescriptor}
    (h : (s.searchAt depth owners type).outcome = .ok t) : ∃ d, s.Mirrors d t := by
  have key := (searchAt_describes h).key
  cases depth with
  | zero => cases h
  | succ depth =>
    obtain ⟨⟨d, contents⟩, accepted, h⟩ := Searched.bind_eq_ok h
    obtain ⟨found, -, -, single⟩ := accept_eq_ok_iff.mp accepted
    obtain ⟨fields, searched, h⟩ := Searched.bind_eq_ok h
    cases h
    have each := searchFields_declares (fun child t hc => (searchAt_describes hc).key) searched
    exact ⟨d, found, rfl, each, single⟩

end Search

end Schema

/-- A descriptor that a registry keeps mirrors a declaration, and so does every descriptor in it. -/
theorem Registry.Faithful.mirrors_of_nests {s : Schema} {r : Registry} (faithful : Faithful s r)
    {type : TypeKey} {t u : TypeDescriptor} (known : r.find? type = some t)
    (reached : ReflTransGen TypeDescriptor.Nests t u) : ∃ d, s.Mirrors d u := by
  have kept := faithful.find?_of_nests known reached
  obtain ⟨d, mirrors⟩ := Schema.searchAt_mirrors (faithful.content _ _ kept)
  exact ⟨d, mirrors.of_content⟩

end RecordMapper
