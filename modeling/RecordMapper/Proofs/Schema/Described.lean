import Mathlib.Data.List.Range
import RecordMapper.Proofs.Schema.Search

/-!
A registry describes as the search without it does. Whatever it keeps has the content that the
search finds, with everything that the search completes on the way, so looking a type up never
changes an outcome. Describing other types in between, failed attempts included, never breaks this,
and every descriptor that is kept or returned is formed.
-/

namespace RecordMapper

open TypeDescriptor Schema

namespace Registry

/-- The registries that describing types of a schema leads to from the empty one. -/
inductive Reachable (s : Schema) : Registry → Prop
  | empty : Reachable s {}
  | describe {r : Registry} (previous : Reachable s r) (type : TypeKey) :
      Reachable s (describe s type r).2

/-- Every descriptor of the one registry is a descriptor of the other. -/
def Extends (r r' : Registry) : Prop := ∀ type t, r.find? type = some t → r'.find? type = some t

/-- A descriptor that is the one kept for its type. -/
def Keeps (r : Registry) (t : TypeDescriptor) : Prop := r.find? t.key = some t

/-- A registry that keeps what searches find and complete, one descriptor per type, each descriptor
numbered by its place and together with its nested descriptors. -/
structure Faithful (s : Schema) (r : Registry) : Prop where
  content : ∀ type t, r.find? type = some t → (s.search type).outcome = .ok t.content
  completed : ∀ type t, r.find? type = some t →
    ∀ other ∈ (s.search type).completed, r.contains other
  nested : ∀ type t, r.find? type = some t →
    ∀ f ∈ t.fields, ∀ child, f.nested? = some child → r.Keeps child
  types : (r.descriptors.map (·.1)).Nodup
  identities : r.descriptors.map (·.2.identity) = List.range r.size

/-- A faithful registry in which none of the types being described has a descriptor yet. -/
structure Ready (s : Schema) (owners : List TypeKey) (r : Registry) : Prop where
  faithful : Faithful s r
  pending : ∀ owner ∈ owners, r.find? owner = none

/-- A description from a registry on that agrees with a search, and what it leaves behind: a ready
registry with what was there and what the search completes, where the result has property `P`. -/
structure Refines {α β : Type} (s : Schema) (owners : List TypeKey) (r : Registry)
    (content : α → β) (P : α → Registry → Prop) (x : Except Failure α × Registry)
    (y : Searched β) : Prop where
  outcome : x.1.map content = y.outcome
  ready : Ready s owners x.2
  grown : r.Extends x.2
  contains : ∀ type, x.2.contains type ↔ r.contains type ∨ type ∈ y.completed
  result : ∀ a, x.1 = .ok a → P a x.2

/-- Goes on from the result of a description in the registry it leaves. -/
def Describing.bind {α β : Type} (x : Except Failure α × Registry) (next : α → Describing β) :
    Except Failure β × Registry :=
  match x with
  | (.error failure, r) => (.error failure, r)
  | (.ok a, r) => next a r

/-- Keeps the descriptor of a type once its fields are described. -/
def Describing.complete (x : Except Failure (List TypeDescriptor.Field) × Registry)
    (type : TypeKey) (name : String) (newInstance : Thunk Entity) :
    Except Failure TypeDescriptor × Registry :=
  Describing.bind x fun fields r =>
    let (t, r) := r.keep type fun identity => .mk identity type name newInstance fields
    (.ok t, r)

/-- One level of describing, with the levels below given. -/
def describeStep (s : Schema) (describe : List TypeKey → TypeKey → Describing TypeDescriptor)
    (owners : List TypeKey) (type : TypeKey) : Describing TypeDescriptor := fun r =>
  match r.find? type with
  | some t => (.ok t, r)
  | none =>
    match s.accept owners type with
    | .error failure => (.error failure, r)
    | .ok (d, contents) =>
      Describing.complete (describeFields s (describe (type :: owners)) type [] d.fields r)
        type d.name (s.freshWith type contents)

theorem describeAt_succ (s : Schema) (depth : Nat) :
    describeAt s (depth + 1) = describeStep s (describeAt s depth) := by
  funext owners type r
  rw [describeAt, describeStep, accept]
  cases r.find? type with
  | some t => rfl
  | none =>
    cases s.find? type with
    | none => rfl
    | some d =>
      by_cases owned : owners.contains type = true
      · simp only [owned, if_true]
      cases factory : d.factory with
      | none => simp only [owned, factory, Bool.false_eq_true, if_false]
      | some contents =>
        by_cases several : 1 < d.fields.countP (·.isId)
        · simp only [owned, factory, several, Bool.false_eq_true, if_true, if_false]
        · simp only [owned, factory, several, Bool.false_eq_true, if_false]
          rcases describeFields s (describeAt s depth (type :: owners)) type [] d.fields r with
            ⟨failure | fields, r₁⟩ <;> rfl

theorem describeFields_cons (s : Schema) (describe : TypeKey → Describing TypeDescriptor)
    (type : TypeKey) (taken : List String) (f : FieldDeclaration) (fs : List FieldDeclaration)
    (r : Registry) :
    describeFields s describe type taken (f :: fs) r =
      Describing.bind (describeAccess s describe type f r) fun access r =>
        match firstClash? taken (columnsOf (f.described access)) with
        | some column => (.error (.columnClash type.name column), r)
        | none =>
          Describing.bind
            (describeFields s describe type (columnsOf (f.described access) ++ taken) fs r)
            fun fields r => (.ok (f.described access :: fields), r) := by
  rw [describeFields]
  rcases describeAccess s describe type f r with ⟨failure | access, r₁⟩
  · rfl
  · dsimp only [Describing.bind, FieldDeclaration.described]
    cases firstClash? taken _ with
    | some column => rfl
    | none => rcases describeFields s describe type _ fs r₁ with ⟨failure | fields, r₂⟩ <;> rfl

theorem describeAccess_nested (s : Schema) (describe : TypeKey → Describing TypeDescriptor)
    (type : TypeKey) {f : FieldDeclaration} {child : TypeKey} {presence : Presence}
    (shape : f.shape = .nested child presence) (plain : f.isId = false) (r : Registry) :
    describeAccess s describe type f r =
      Describing.bind (describe child r) fun t r => (.ok (s.accessTo f t), r) := by
  simp only [describeAccess, shape, plain]
  rcases describe child r with ⟨failure | t, r₁⟩ <;> rfl

theorem find?_keep (r : Registry) (type other : TypeKey) (make : Nat → TypeDescriptor) :
    (r.keep type make).2.find? other =
      (r.find? other).or (if type = other then some (make r.size) else none) := by
  simp only [find?, keep, List.find?_append, Option.map_or, List.find?_singleton]
  congr 1
  by_cases same : type = other
  · simp [same]
  · simp [same]

/-- What is found afterwards was there before or is the new descriptor. -/
theorem find?_keep_cases {r : Registry} {type other : TypeKey} {make : Nat → TypeDescriptor}
    {t : TypeDescriptor} (h : (r.keep type make).2.find? other = some t) :
    r.find? other = some t ∨ (other = type ∧ t = make r.size) := by
  rw [find?_keep, Option.or_eq_some_iff] at h
  rcases h with old | ⟨-, new⟩
  · exact .inl old
  · by_cases same : type = other
    · rw [if_pos same] at new
      exact .inr ⟨same.symm, (Option.some.inj new).symm⟩
    · rw [if_neg same] at new
      cases new

theorem Extends.refl (r : Registry) : r.Extends r := fun _ _ h => h

theorem Extends.trans {r₁ r₂ r₃ : Registry} (first : r₁.Extends r₂) (second : r₂.Extends r₃) :
    r₁.Extends r₃ :=
  fun type t h => second type t (first type t h)

theorem Extends.keep (r : Registry) (type : TypeKey) (make : Nat → TypeDescriptor) :
    r.Extends (r.keep type make).2 := by
  intro other t h
  rw [find?_keep, h, Option.some_or]

theorem Extends.contains {r r' : Registry} (grown : r.Extends r') {type : TypeKey}
    (h : r.contains type) : r'.contains type := by
  obtain ⟨t, known⟩ := Option.isSome_iff_exists.mp h
  exact Option.isSome_iff_exists.mpr ⟨t, grown type t known⟩

theorem contains_keep (r : Registry) (type other : TypeKey) (make : Nat → TypeDescriptor) :
    (r.keep type make).2.contains other ↔ r.contains other ∨ other = type := by
  rw [contains, contains, find?_keep, Option.isSome_or, Bool.or_eq_true]
  refine or_congr_right ?_
  by_cases same : type = other
  · simp [same]
  · simp [same, Ne.symm same]

theorem contains_iff_mem_types {r : Registry} {type : TypeKey} :
    r.contains type ↔ type ∈ r.descriptors.map (·.1) := by
  simp [contains, find?, List.mem_map]

section Refining

variable {s : Schema} {owners : List TypeKey} {r : Registry} {α β γ δ : Type}

theorem Faithful.empty : Faithful s {} :=
  ⟨by simp [find?], by simp [find?], by simp [find?], .nil, rfl⟩

theorem Faithful.describes {type : TypeKey} {t : TypeDescriptor} (faithful : Faithful s r)
    (known : r.find? type = some t) : s.Describes type t.content :=
  searchAt_describes (faithful.content type t known)

theorem Faithful.keeps {type : TypeKey} {t : TypeDescriptor} (faithful : Faithful s r)
    (known : r.find? type = some t) : r.Keeps t := by
  have key : t.key = type := by simpa using (faithful.describes known).key
  rw [Keeps, key, known]

theorem Ready.cons {type : TypeKey} (ready : Ready s owners r) (unknown : r.find? type = none) :
    Ready s (type :: owners) r :=
  ⟨ready.faithful, List.forall_mem_cons.mpr ⟨unknown, ready.pending⟩⟩

theorem Ready.tail {type : TypeKey} (ready : Ready s (type :: owners) r) : Ready s owners r :=
  ⟨ready.faithful, fun owner ho => ready.pending owner (List.mem_cons_of_mem _ ho)⟩

/-- Once a type is described, its owners are still without descriptors. -/
theorem Ready.keep {type : TypeKey} {make : Nat → TypeDescriptor}
    (ready : Ready s (type :: owners) r) (outside : type ∉ owners)
    (content : (s.search type).outcome = .ok (make r.size).content)
    (identity : (make r.size).identity = r.size)
    (completed : ∀ other ∈ (s.search type).completed, r.contains other ∨ other = type)
    (nested : ∀ f ∈ (make r.size).fields, ∀ child, f.nested? = some child → r.Keeps child) :
    Ready s owners (r.keep type make).2 := by
  have faithful := ready.faithful
  have unknown := ready.pending type List.mem_cons_self
  have grown := Extends.keep r type make
  refine ⟨⟨?_, ?_, ?_, ?_, ?_⟩, ?_⟩
  · intro other t h
    rcases find?_keep_cases h with old | ⟨rfl, rfl⟩
    · exact faithful.content other t old
    · exact content
  · intro other t h inner mem
    rcases find?_keep_cases h with old | ⟨rfl, rfl⟩
    · exact grown.contains (faithful.completed other t old inner mem)
    · exact (contains_keep ..).mpr (completed inner mem)
  · intro other t h f hf child hn
    rcases find?_keep_cases h with old | ⟨rfl, rfl⟩
    · exact grown _ _ (faithful.nested other t old f hf child hn)
    · exact grown _ _ (nested f hf child hn)
  · have new : type ∉ r.descriptors.map (·.1) := by
      rw [← contains_iff_mem_types, contains, unknown]
      exact Bool.false_ne_true
    have types : (r.keep type make).2.descriptors.map (·.1) =
        (r.descriptors.map (·.1)).concat type := by
      simp [Registry.keep]
    exact types ▸ faithful.types.concat new
  · have size : (r.keep type make).2.size = r.size + 1 := by simp [Registry.keep, Registry.size]
    rw [size, List.range_succ, ← faithful.identities]
    simp [Registry.keep, identity]
  · intro owner ho
    have other : type ≠ owner := fun same => outside (same ▸ ho)
    rw [find?_keep, if_neg other, ready.tail.pending owner ho]
    rfl

theorem Refines.pure {content : α → β} {P : α → Registry → Prop} {x : Except Failure α}
    {y : Except Failure β} (ready : Ready s owners r) (outcome : x.map content = y)
    (result : ∀ a, x = .ok a → P a r) :
    Refines s owners r content P (x, r) (.ofExcept y) :=
  ⟨outcome, ready, .refl r, fun type => by simp [Searched.ofExcept], result⟩

theorem Refines.fail {content : α → β} {P : α → Registry → Prop} (ready : Ready s owners r)
    (failure : Failure) :
    Refines s owners r content P (.error failure, r) (.ofExcept (.error failure)) :=
  .pure ready rfl fun a h => by cases h

theorem Refines.bind {content : α → β} {P : α → Registry → Prop} {content' : γ → δ}
    {Q : γ → Registry → Prop} {x : Except Failure α × Registry} {y : Searched β}
    {next : α → Describing γ} {searchNext : β → Searched δ}
    (first : Refines s owners r content P x y)
    (rest : ∀ a r₁, Ready s owners r₁ → r.Extends r₁ → P a r₁ →
      Refines s owners r₁ content' Q (next a r₁) (searchNext (content a))) :
    Refines s owners r content' Q (Describing.bind x next) (y.bind searchNext) := by
  obtain ⟨outcome, ready, grown, contains, result⟩ := first
  rcases x with ⟨failure | a, r₁⟩
  · rw [Searched.bind, ← outcome]
    exact ⟨rfl, ready, grown, contains, fun b h => by cases h⟩
  · have later := rest a r₁ ready grown (result a rfl)
    rw [Searched.bind, ← outcome]
    refine ⟨later.outcome, later.ready, grown.trans later.grown, fun type => ?_, later.result⟩
    have step := later.contains type
    rw [contains type, or_assoc, ← List.mem_append] at step
    exact step

/-- The nested descriptors of fields are the ones kept for their types. -/
def KeepsNested (fields : List TypeDescriptor.Field) (r : Registry) : Prop :=
  ∀ f ∈ fields, ∀ child, f.nested? = some child → r.Keeps child

section Fields

variable {describe : TypeKey → Describing TypeDescriptor}
  {search : TypeKey → Searched TypeDescriptor} {type : TypeKey}

theorem describeAccess_refines {f : FieldDeclaration}
    (children : ∀ child presence, f.shape = .nested child presence → ∀ r, Ready s owners r →
      Refines s owners r content (fun t r => r.Keeps t) (describe child r) (search child))
    (ready : Ready s owners r) :
    Refines s owners r contentOfAccess (fun access => KeepsNested [f.described access])
      (describeAccess s describe type f r) (s.searchAccess search type f) := by
  unfold searchAccess
  cases shape : f.shape with
  | scalar codec | sequence codec | mapping codec =>
    simp only [describeAccess, shape]
    refine .pure ready rfl fun access h => ?_
    cases h
    simp [KeepsNested, FieldDeclaration.described, FieldDescriptor.nested?]
  | nested child presence =>
    cases plain : f.isId with
    | true =>
      simp only [describeAccess, shape, plain]
      exact .fail ready _
    | false =>
      rw [describeAccess_nested s describe type shape plain]
      refine (children child presence shape r ready).bind fun t r₁ ready₁ _ kept => ?_
      refine .pure ready₁ ?_ fun access h g hg c hn => ?_
      · unfold accessTo
        split <;> rfl
      · cases h
        rw [List.mem_singleton.mp hg, nested?_accessTo] at hn
        exact Option.some.inj hn ▸ kept

theorem describeFields_refines {fs : List FieldDeclaration}
    (children : ∀ f ∈ fs, ∀ child presence, f.shape = .nested child presence →
      ∀ r, Ready s owners r →
        Refines s owners r content (fun t r => r.Keeps t) (describe child r) (search child))
    (taken : List String) (ready : Ready s owners r) :
    Refines s owners r (List.map contentOfField) KeepsNested
      (describeFields s describe type taken fs r) (s.searchFields search type taken fs) := by
  induction fs generalizing taken r with
  | nil => exact .pure ready rfl fun fields h => by cases h; simp [KeepsNested]
  | cons f fs ih =>
    rw [describeFields_cons, searchFields]
    refine (describeAccess_refines (children f List.mem_cons_self) ready).bind
      fun access r₁ ready₁ _ own => ?_
    have columns : columnsOf (f.described (contentOfAccess access)) =
        columnsOf (f.described access) := columnsOf_contentOfField (f.described access)
    simp only [columns]
    cases firstClash? taken (columnsOf (f.described access)) with
    | some column => exact .fail ready₁ _
    | none =>
      have later := ih (fun g hg => children g (List.mem_cons_of_mem _ hg))
        (columnsOf (f.described access) ++ taken) ready₁
      refine later.bind fun fields r₂ ready₂ grown kept => ?_
      refine .pure ready₂ rfl fun all h g hg child hn => ?_
      cases h
      rcases List.mem_cons.mp hg with rfl | hg
      · exact grown _ _ (own _ List.mem_cons_self child hn)
      · exact kept g hg child hn

end Fields

/-- When the fields are described, the descriptor of their type is kept. -/
theorem Refines.complete {type : TypeKey} {name : String} {newInstance : Thunk Entity}
    {x : Except Failure (List TypeDescriptor.Field) × Registry}
    {y : Searched (List TypeDescriptor.Field)}
    (fields : Refines s (type :: owners) r (List.map contentOfField) KeepsNested x y)
    (outside : type ∉ owners)
    (alone : ∀ t, (y.complete type name newInstance).outcome = .ok t →
      y.complete type name newInstance = s.search type) :
    Refines s owners r content (fun t r => r.Keeps t)
      (Describing.complete x type name newInstance) (y.complete type name newInstance) := by
  obtain ⟨outcome, ready, grown, contains, result⟩ := fields
  rcases x with ⟨failure | built, r₁⟩
  · rw [Searched.complete, Searched.bind, ← outcome]
    exact ⟨rfl, ready.tail, grown, contains, fun t h => by cases h⟩
  · have whole : y.complete type name newInstance =
        ⟨.ok (.mk 0 type name newInstance (built.map contentOfField)), y.completed ++ [type]⟩ := by
      rw [Searched.complete, Searched.bind, ← outcome]
      rfl
    rw [whole] at alone ⊢
    have search := alone _ rfl
    have unknown := ready.pending type List.mem_cons_self
    have nested : KeepsNested built r₁ := result built rfl
    let make := fun identity => TypeDescriptor.mk identity type name newInstance built
    change Refines s owners r content _ (.ok (make r₁.size), (r₁.keep type make).2) _
    refine ⟨?_, ready.keep outside ?_ rfl ?_ nested, grown.trans (Extends.keep _ _ _), ?_, ?_⟩
    · exact congrArg Except.ok (content_mk ..)
    · rw [← search, content_mk]
    · intro other mem
      rw [← search] at mem
      rcases List.mem_append.mp mem with inner | self
      · exact .inl ((contains other).mpr (.inr inner))
      · exact .inr (List.mem_singleton.mp self)
    · intro other
      rw [contains_keep, contains other, or_assoc]
      refine or_congr_right ?_
      rw [List.mem_append, List.mem_singleton]
    · intro t h
      cases h
      have key : (make r₁.size).key = type := rfl
      rw [Keeps, find?_keep, key, if_pos rfl, unknown]
      rfl

theorem describeAt_refines {depth : Nat} {type : TypeKey} (situated : s.Situated depth owners type)
    (ready : Ready s owners r) :
    Refines s owners r content (fun t r => r.Keeps t) (describeAt s depth owners type r)
      (s.searchAt depth owners type) := by
  induction depth generalizing owners type r with
  | zero => exact absurd situated.depth_pos (Nat.lt_irrefl 0)
  | succ depth ih =>
    rw [describeAt_succ, describeStep]
    cases known : r.find? type with
    | some t =>
      -- The search would succeed here too: nothing that a described type embeds leads back to an
      -- owner.
      have found := ready.faithful.content type t known
      have same : s.searchAt (depth + 1) owners type = s.search type :=
        (searchAt_describes found).wellFormed.searchAt_eq situated (.start s type)
      rw [same]
      refine ⟨found.symm, ready, .refl r, fun other => ?_, fun u h => ?_⟩
      · exact ⟨.inl, fun h => h.elim id (ready.faithful.completed type t known other)⟩
      · cases h
        exact ready.faithful.keeps known
    | none =>
      cases accepted : s.accept owners type with
      | error failure =>
        rw [searchAt, accepted]
        exact .fail ready failure
      | ok acceptance =>
        obtain ⟨d, contents⟩ := acceptance
        obtain ⟨declared, outside, -⟩ := accept_eq_ok_iff.mp accepted
        have children : ∀ f ∈ d.fields, ∀ child presence, f.shape = .nested child presence →
            ∀ r, Ready s (type :: owners) r →
              Refines s (type :: owners) r content (fun t r => r.Keeps t)
                (describeAt s depth (type :: owners) child r)
                (s.searchAt depth (type :: owners) child) :=
          fun f hf child presence shape r ready =>
            ih (situated.nested outside (.of_mem declared hf shape)) ready
        have fields : Refines s (type :: owners) r (List.map contentOfField) KeepsNested
            (describeFields s (describeAt s depth (type :: owners)) type [] d.fields r)
            (s.searchFields (s.searchAt depth (type :: owners)) type [] d.fields) :=
          describeFields_refines children [] (ready.cons known)
        have searched : s.searchAt (depth + 1) owners type =
            (s.searchFields (s.searchAt depth (type :: owners)) type [] d.fields).complete
              type d.name (s.freshWith type contents) := by
          rw [searchAt, accepted]
          rfl
        rw [searched]
        refine fields.complete outside fun t found => ?_
        rw [← searched] at found ⊢
        exact (searchAt_describes found).wellFormed.searchAt_eq situated (.start s type)

end Refining

theorem Reachable.faithful {s : Schema} {r : Registry} (reachable : Reachable s r) :
    Faithful s r := by
  induction reachable with
  | empty => exact .empty
  | describe _ type ih =>
    exact (describeAt_refines (.start s type) ⟨ih, by simp⟩).ready.faithful

section Reachable

variable {s : Schema} {r : Registry} {type : TypeKey} {t : TypeDescriptor}

theorem Reachable.refines (reachable : Reachable s r) (type : TypeKey) :
    Refines s [] r content (fun t r => r.Keeps t) (Registry.describe s type r) (s.search type) :=
  describeAt_refines (.start s type) ⟨reachable.faithful, by simp⟩

theorem Reachable.describes (reachable : Reachable s r)
    (described : (Registry.describe s type r).1 = .ok t) : s.Describes type t.content := by
  have agree := (reachable.refines type).outcome
  rw [described] at agree
  exact searchAt_describes agree.symm

theorem Reachable.formed (reachable : Reachable s r)
    (described : (Registry.describe s type r).1 = .ok t) : t.key = type ∧ t.Formed := by
  have describes := reachable.describes described
  exact ⟨by simpa using describes.key, describes.formed.of_content⟩

theorem Reachable.find?_describe (reachable : Reachable s r)
    (described : (Registry.describe s type r).1 = .ok t) :
    (Registry.describe s type r).2.find? type = some t := by
  have keeps : (Registry.describe s type r).2.Keeps t :=
    (reachable.refines type).result t described
  rwa [Keeps, (reachable.formed described).1] at keeps

theorem describe_of_find? (known : r.find? type = some t) : describe s type r = (.ok t, r) := by
  simp [describe, describeAt, known]

end Reachable

end Registry

end RecordMapper
