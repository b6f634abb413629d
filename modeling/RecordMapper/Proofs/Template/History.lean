import RecordMapper.Proofs.Store.Keyed
import RecordMapper.Proofs.Template.Saving

/-!
Histories of the entities of one type. What a call changes follows from what the calls before it
have changed, and a store that mirrors the history has under each key the record of the entity that
the history holds there.
-/

namespace RecordMapper

/-- What a call does under one identifier. -/
inductive Change where
  | stored (e : Entity)
  | deleted (id : Value)

/-- The operations on entities of a type. -/
inductive Call where
  | insert (e : Entity)
  | insertAll (es : List Entity)
  | update (e : Entity)
  | updateAll (es : List Entity)
  | deleteById (id : Value)
  | findAll

/-- The entities that a call writes. -/
def Call.entities : Call → List Entity
  | .insert e | .update e => [e]
  | .insertAll es | .updateAll es => es
  | .deleteById _ | .findAll => []

def Call.run {σ : Type} (template : Template σ) (type : TypeKey) : Call → Action σ Unit
  | .insert e => (fun _ => ()) <$> template.insert type e
  | .insertAll es => (fun _ => ()) <$> template.insertAll type es
  | .update e => (fun _ => ()) <$> template.update type e
  | .updateAll es => (fun _ => ()) <$> template.updateAll type es
  | .deleteById id => template.deleteById type id
  | .findAll => (fun _ => ()) <$> template.findAll type

namespace TypeDescriptor

/-- The entity that a history, newest change first, leaves under an identifier. -/
def holder? (t : TypeDescriptor) (k : Value) : List Change → Option Entity
  | [] => none
  | .stored e :: past =>
    if (t.storedId? e).any (· == k) then some e else t.holder? k past
  | .deleted id :: past => if k == id then none else t.holder? k past

/-- Whether a history leaves an entity under the identifier of the given one. -/
def holds (t : TypeDescriptor) (past : List Change) (e : Entity) : Bool :=
  (t.storedId? e).any fun id => (t.holder? id past).isSome

/-- Updates one by one, up to the first entity that there is none to replace by. -/
def updated (t : TypeDescriptor) (past : List Change) : List Entity → List Change
  | [] => past
  | e :: es => if t.holds past e then t.updated (.stored e :: past) es else past

/-- The history after a call. An insert stores, an update replaces what there is, and a null
identifier deletes nothing. -/
def after (t : TypeDescriptor) (past : List Change) : Call → List Change
  | .insert e => .stored e :: past
  | .insertAll es => (es.map .stored).reverse ++ past
  | .update e => t.updated past [e]
  | .updateAll es => t.updated past es
  | .deleteById id => if id.isNull then past else .deleted id :: past
  | .findAll => past

/-- An entity that is written and read back and whose record has an identifier without
floating-point numbers. -/
structure Savable (t : TypeDescriptor) (e : Entity) : Prop where
  recorded : t.toRecord e = .ok (t.recordOf e)
  restored : ∃ e', t.toEntity (t.recordOf e) = .ok e'
  identified : ∃ id, t.storedId? e = some id ∧ id.FloatFree

/-- The records are those of savable entities, one for each identifier under which the history
leaves an entity. -/
structure Mirrors (t : TypeDescriptor) (column : String) (past : List Change) (rs : List Record) :
    Prop where
  savable : ∀ r ∈ rs, ∃ e, t.Savable e ∧ r = t.recordOf e
  under : ∀ k : Value, k.FloatFree →
    rs.filter (Record.hasKey column k) = ((t.holder? k past).map t.recordOf).toList

variable {t : TypeDescriptor} {column : String} {past : List Change} {e : Entity} {k : Value}
  {rs new : List Record}

theorem storedId?_eq_find? (identifier : t.id?.map (·.column) = some column) (e : Entity) :
    t.storedId? e = (t.recordOf e).find? column := by
  obtain ⟨f, found, rfl⟩ := Option.map_eq_some_iff.mp identifier
  simp [storedId?, found]

theorem Savable.floatFree (savable : t.Savable e) {id : Value} (own : t.storedId? e = some id) :
    id.FloatFree := by
  obtain ⟨v, stored, free⟩ := savable.identified
  cases own.symm.trans stored
  exact free

/-- The identifier is the key that a store finds in the record. -/
theorem Savable.exists_key (identifier : t.id?.map (·.column) = some column)
    (savable : t.Savable e) :
    ∃ id, (t.recordOf e).find? column = some id ∧ id.FloatFree := by
  obtain ⟨id, own, free⟩ := savable.identified
  exact ⟨id, storedId?_eq_find? identifier e ▸ own, free⟩

namespace Mirrors

variable {store : MemoryStore} {name : String}

theorem nil (t : TypeDescriptor) (column : String) : t.Mirrors column [] [] :=
  ⟨by simp, fun _ _ => rfl⟩

section

variable (identifier : t.id?.map (·.column) = some column)
include identifier

theorem keyed (h : t.Mirrors column past rs) : Record.Keyed column rs := by
  refine ⟨fun r hr => ?_, fun k free => ?_⟩
  · obtain ⟨e, savable, rfl⟩ := h.savable r hr
    exact savable.exists_key identifier
  · rw [h.under k free]
    cases t.holder? k past <;> simp

theorem stored (h : t.Mirrors column past rs) (savable : t.Savable e)
    (overwrites : (t.recordOf e).Overwrites column rs new) :
    t.Mirrors column (.stored e :: past) new := by
  refine ⟨fun r hr => ?_, fun k free => ?_⟩
  · rcases overwrites.mem r hr with rfl | old
    · exact ⟨e, savable, rfl⟩
    · exact h.savable r old
  · rw [overwrites.under k free, h.under k free, holder?, storedId?_eq_find? identifier]
    unfold Record.hasKey
    split <;> rfl

theorem deleted (h : t.Mirrors column past rs) (id : Value) :
    t.Mirrors column (.deleted id :: past) (rs.filter fun r => !r.hasKey column id) := by
  refine ⟨fun r hr => h.savable r (List.mem_of_mem_filter hr), fun k free => ?_⟩
  rw [Record.filter_hasKey_without (h.keyed identifier) id free, h.under k free, holder?]
  split <;> rfl

theorem exists_put (h : t.Mirrors column past rs) (keeps : store.Keeps name column rs)
    (savable : t.Savable e) (named : (t.recordOf e).name = name) (now : Instant) :
    ∃ new, (store.put now (t.recordOf e) none).Keeps name column new ∧
      t.Mirrors column (.stored e :: past) new := by
  obtain ⟨id, own, free⟩ := savable.exists_key identifier
  obtain ⟨new, kept, overwrites⟩ := keeps.put_overwrites (h.keyed identifier) named own free now
  exact ⟨new, kept, h.stored identifier savable overwrites⟩

/-- An update finds a record exactly when the history holds an entity under the identifier. -/
theorem update_cases {id : Value} (h : t.Mirrors column past rs)
    (keeps : store.Keeps name column rs) (savable : t.Savable e) (own : t.storedId? e = some id)
    (named : (t.recordOf e).name = name) (now : Instant) :
    (t.holds past e = true ∧ (store.update now (t.recordOf e)).1 = .ok (t.recordOf e) ∧
        ∃ new, (store.update now (t.recordOf e)).2.Keeps name column new ∧
          t.Mirrors column (.stored e :: past) new) ∨
      (t.holds past e = false ∧ (store.update now (t.recordOf e)).2.Keeps name column rs ∧
        (store.update now (t.recordOf e)).1 = .error (.noSuchRecord name column id)) := by
  have held : t.holds past e = (t.holder? id past).isSome := by
    rw [holds, own, Option.any_some]
  have free := savable.floatFree own
  have under := h.under id free
  rw [storedId?_eq_find? identifier] at own
  rcases keeps.update_cases (h.keyed identifier) named own free now with
    ⟨missing, kept, failed⟩ | ⟨present, answer, new, kept, overwrites⟩
  · refine .inr ⟨?_, kept, failed⟩
    rw [missing] at under
    rw [held]
    cases holder : t.holder? id past with
    | none => rfl
    | some e => simp [holder] at under
  · refine .inl ⟨?_, answer, new, kept, h.stored identifier savable overwrites⟩
    rw [under] at present
    rw [held]
    cases holder : t.holder? id past with
    | none => simp [holder] at present
    | some e => rfl

/-- Entities stored one after the other, newest first in the history. -/
theorem exists_putAll {es : List Entity} (h : t.Mirrors column past rs)
    (keeps : store.Keeps name column rs) (savable : ∀ e ∈ es, t.Savable e)
    (named : ∀ e ∈ es, (t.recordOf e).name = name) (clock : Clock) :
    ∃ new, (MemoryStore.putAll clock (es.map t.recordOf) store).Keeps name column new ∧
      t.Mirrors column ((es.map .stored).reverse ++ past) new := by
  induction es generalizing past store rs clock with
  | nil => exact ⟨rs, keeps, h⟩
  | cons e es ih =>
    obtain ⟨mid, kept, mirrors⟩ := h.exists_put identifier keeps (savable e List.mem_cons_self)
      (named e List.mem_cons_self) (clock 0)
    have rest := ih mirrors kept (fun e he => savable e (List.mem_cons_of_mem _ he))
      (fun e he => named e (List.mem_cons_of_mem _ he)) (clock.after 1)
    simpa [MemoryStore.putAll] using rest

end

end Mirrors

end TypeDescriptor

end RecordMapper
