import Mathlib.Logic.Relation
import Mathlib.Data.List.Forall2
import RecordMapper.Schema.Registry

/-!
Which declared types can be described, without reference to a search: no type below them lies on a
cycle of nested fields, and every type below them is valid by itself. The columns that a sub-entity
writes are those of its declared fields, through sub-entities at any depth.
-/

namespace RecordMapper

open Relation

namespace Schema

/-- One type has a nested field of the other. -/
def Embeds (s : Schema) (type child : TypeKey) : Prop :=
  ∃ d, s.find? type = some d ∧ ∃ f ∈ d.fields, ∃ presence, f.shape = .nested child presence

/-- The columns that fields write into the record of their type: their own and, in place of a
sub-entity, those that its fields write. -/
inductive Writes (s : Schema) : List FieldDeclaration → List String → Prop
  | nil : Writes s [] []
  | own {f : FieldDeclaration} {fs : List FieldDeclaration} {columns : List String}
      (kind : s.kindOf f ≠ .subEntity) (rest : Writes s fs columns) :
      Writes s (f :: fs) (Registry.columnOf f :: columns)
  | subEntity {f : FieldDeclaration} {fs : List FieldDeclaration} {child : TypeKey}
      {presence : Presence} {d : TypeDeclaration} {inner columns : List String}
      (shape : f.shape = .nested child presence) (kind : s.kindOf f = .subEntity)
      (found : s.find? child = some d) (inside : Writes s d.fields inner)
      (rest : Writes s fs columns) : Writes s (f :: fs) (inner ++ columns)

/-- The columns that a field takes at the level of its type: its own and, for a sub-entity, those
that the sub-entity writes there. -/
inductive Takes (s : Schema) (f : FieldDeclaration) : List String → Prop
  | own (kind : s.kindOf f ≠ .subEntity) : Takes s f [Registry.columnOf f]
  | subEntity {child : TypeKey} {presence : Presence} {d : TypeDeclaration} {inner : List String}
      (shape : f.shape = .nested child presence) (kind : s.kindOf f = .subEntity)
      (found : s.find? child = some d) (inside : Writes s d.fields inner) :
      Takes s f (Registry.columnOf f :: inner)

/-- A declaration that is right by itself: a factory, at most one identifier, no nested identifier
and distinct columns at its level. -/
structure Valid (s : Schema) (type : TypeKey) (d : TypeDeclaration) : Prop where
  declared : s.find? type = some d
  factory : d.factory.isSome
  identifiers : d.fields.countP (·.isId) ≤ 1
  values : ∀ f ∈ d.fields, ∀ child presence, f.shape = .nested child presence → f.isId = false
  columns : ∃ taken, List.Forall₂ s.Takes d.fields taken ∧ taken.flatten.Nodup

/-- No type that is reached through nested fields, the type itself included, reaches itself, and
all of them are valid. -/
def WellFormed (s : Schema) (type : TypeKey) : Prop :=
  ∀ other, ReflTransGen s.Embeds type other →
    ¬ TransGen s.Embeds other other ∧ ∃ d, s.Valid other d

variable {s : Schema}

theorem Embeds.of_mem {type child : TypeKey} {d : TypeDeclaration} {f : FieldDeclaration}
    {presence : Presence} (found : s.find? type = some d) (hf : f ∈ d.fields)
    (shape : f.shape = .nested child presence) : s.Embeds type child :=
  ⟨d, found, f, hf, presence, shape⟩

theorem Embeds.declared {type child : TypeKey} (embeds : s.Embeds type child) :
    ∃ d, s.find? type = some d := by
  obtain ⟨d, found, -⟩ := embeds
  exact ⟨d, found⟩

theorem kindOf_eq_subEntity {f : FieldDeclaration} (kind : s.kindOf f = .subEntity) :
    ∃ child presence, f.shape = .nested child presence := by
  unfold kindOf at kind
  split at kind
  case h_1 | h_2 | h_3 => cases kind
  case h_4 child presence shape => exact ⟨child, presence, shape⟩

theorem Writes.functional {fs : List FieldDeclaration} {a b : List String} (ha : s.Writes fs a)
    (hb : s.Writes fs b) : a = b := by
  induction ha generalizing b with
  | nil =>
    cases hb
    rfl
  | own kind _ ih =>
    cases hb with
    | own _ rest => rw [ih rest]
    | subEntity _ sub => exact absurd sub kind
  | subEntity shape kind found _ _ inside rest =>
    cases hb with
    | own own => exact absurd kind own
    | subEntity shape' _ found' inside' rest' =>
      cases shape.symm.trans shape'
      cases found.symm.trans found'
      rw [inside inside', rest rest']

theorem Takes.functional {f : FieldDeclaration} {a b : List String} (ha : s.Takes f a)
    (hb : s.Takes f b) : a = b := by
  cases ha with
  | own kind =>
    cases hb with
    | own => rfl
    | subEntity _ sub => exact absurd sub kind
  | subEntity shape kind found inside =>
    cases hb with
    | own own => exact absurd kind own
    | subEntity shape' _ found' inside' =>
      cases shape.symm.trans shape'
      cases found.symm.trans found'
      rw [inside.functional inside']

namespace WellFormed

variable {type child : TypeKey}

theorem acyclic (wellFormed : s.WellFormed type) : ¬ TransGen s.Embeds type type :=
  (wellFormed type .refl).1

theorem valid (wellFormed : s.WellFormed type) : ∃ d, s.Valid type d :=
  (wellFormed type .refl).2

theorem of_embeds (wellFormed : s.WellFormed type) (embeds : s.Embeds type child) :
    s.WellFormed child :=
  fun other reached => wellFormed other (.head embeds reached)

/-- A valid type whose nested types are well-formed lies on no cycle: the next type on a cycle
would reach it, and nothing that a well-formed type reaches lies on one. -/
theorem of_children {d : TypeDeclaration} (valid : s.Valid type d)
    (children : ∀ child, s.Embeds type child → s.WellFormed child) : s.WellFormed type := by
  intro other reached
  rcases reached.cases_head with rfl | ⟨child, embeds, below⟩
  · refine ⟨fun cycle => ?_, d, valid⟩
    obtain ⟨child, embeds, back⟩ := TransGen.head'_iff.mp cycle
    exact (children child embeds type back).1 cycle
  · exact children child embeds other below

end WellFormed

end Schema

end RecordMapper
