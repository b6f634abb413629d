import RecordMapper.Proofs.Mapping.RoundTrip
import RecordMapper.Proofs.Pipeline.Passing
import RecordMapper.Template.Entity

/-!
Saving populated entities. With listeners that let everything pass, a batch leaves the record of
each of its entities at the end of the store's table, in input order and on either path.
-/

namespace RecordMapper

open RecordMapper.Action

/-- The record that an entity is written to. -/
def TypeDescriptor.recordOf (t : TypeDescriptor) (e : Entity) : Record :=
  match t.toRecord e with
  | .ok r => r
  | .error _ => .empty t.name

/-- The value in the identifier's column of the record of an entity. -/
def TypeDescriptor.storedId? (t : TypeDescriptor) (e : Entity) : Option Value :=
  t.id?.bind fun f => (t.recordOf e).find? f.column

/-- The listener never refuses and leaves the store at a place alone. -/
def Listener.Obliging {σ : Type} (p : RecordManager.Place σ) (l : Listener σ) : Prop :=
  ∀ ev w, (l ev w).1 = .ok () ∧ p.find (l ev w).2 = p.find w

/-- The template writes to the memory store at a place, past listeners that let everything pass. -/
structure Template.InMemory {σ : Type} (template : Template σ) (p : RecordManager.Place σ) :
    Prop where
  lawful : p.Lawful
  manager : ∃ database bulk, template.manager = .memory database p bulk
  obliging : ∀ l ∈ template.workflow, Listener.Obliging p l

/-- The template writes to the memory store at a place, past listeners that never refuse and leave
the records of a name alone. -/
structure Template.Serves {σ : Type} (template : Template σ) (p : RecordManager.Place σ)
    (name : String) : Prop where
  lawful : p.Lawful
  manager : ∃ database bulk, template.manager = .memory database p bulk
  sparing : ∀ l ∈ template.workflow, Listener.Sparing p name l

/-- The session knows the type, and the store at a place keeps these records of it. -/
structure Stocked {σ : Type} (p : RecordManager.Place σ) (t : TypeDescriptor) (sep column : String)
    (rs : List Record) (s : Session σ) : Prop where
  separator : s.separator = sep
  described : s.registry.find? t.key = some t
  keeps : (p.find s.world).Keeps t.name column rs

section

variable {σ : Type} {p : RecordManager.Place σ} {t : TypeDescriptor} {sep column : String}
  {rs : List Record} {s : Session σ}

theorem Listener.Obliging.sparing {l : Listener σ} (h : Listener.Obliging p l) (name : String) :
    Listener.Sparing p name l := by
  intro ev w
  obtain ⟨passes, same⟩ := h ev w
  exact ⟨passes, by rw [same], by rw [same]⟩

theorem Template.InMemory.serves {template : Template σ} (h : template.InMemory p)
    (name : String) : template.Serves p name :=
  ⟨h.lawful, h.manager, fun l hl => (h.obliging l hl).sparing name⟩

theorem Template.Serves.exists_ends_select {template : Template σ} {name : String}
    (serves : template.Serves p name) (s : Session σ) (q : SelectQuery) :
    ∃ world, (template.manager.select q).Ends s
      ((p.find s.world).select s.now s.separator q) { s.after 1 with world } ∧
        p.find world = p.find s.world := by
  obtain ⟨lawful, ⟨database, bulk, manager⟩, -⟩ := serves
  rw [manager]
  exact RecordManager.Place.exists_ends_select lawful database bulk s q

theorem Stocked.of_spared {s' : Session σ} (h : Stocked p t sep column rs s)
    (spared : s.Spared p t.name s') : Stocked p t sep column rs s' := by
  rw [spared.eq]
  exact ⟨h.separator, h.described, h.keeps.of_alike spared.store⟩

theorem Stocked.after (h : Stocked p t sep column rs s) (readings : Nat) :
    Stocked p t sep column rs (s.after readings) := ⟨h.separator, h.described, h.keeps⟩

theorem Stocked.exists_ends_run {α : Type} (step : MemoryStore.Step α) {a : α}
    {after : List Record} (lawful : p.Lawful) (h : Stocked p t sep column rs s)
    (answer : (step (p.find s.world)).1 = .ok a)
    (keeps : (step (p.find s.world)).2.Keeps t.name column after) :
    ∃ s', (p.run step).Ends s a s' ∧ Stocked p t sep column after s' := by
  obtain ⟨world, ran, left⟩ := RecordManager.Place.exists_ends_run step lawful answer
  exact ⟨_, ran, h.separator, h.described, left ▸ keeps⟩

theorem Stocked.exists_ends_prepare {ls : Workflow σ} {e : Entity} {r : Record}
    (obliging : ∀ l ∈ ls, Listener.Obliging p l) (h : Stocked p t sep column rs s)
    (recorded : t.toRecord e = .ok r) :
    ∃ s', (Workflow.prepare ls t e).Ends s r s' ∧ Stocked p t sep column rs s' := by
  obtain ⟨s', prepared, spared⟩ := Workflow.exists_ends_prepare
    (fun l hl => (obliging l hl).sparing t.name) recorded s
  exact ⟨s', prepared, h.of_spared spared⟩

theorem Stocked.exists_ends_complete {ls : Workflow σ} {r : Record} {e : Entity}
    (obliging : ∀ l ∈ ls, Listener.Obliging p l) (h : Stocked p t sep column rs s)
    (read : t.toEntity r = .ok e) :
    ∃ s', (Workflow.complete ls t r).Ends s e s' ∧ Stocked p t sep column rs s' := by
  obtain ⟨s', completed, spared⟩ := Workflow.exists_ends_complete
    (fun l hl => (obliging l hl).sparing t.name) read s
  exact ⟨s', completed, h.of_spared spared⟩

/-- An entity that is written as a record of its type and read back from it. -/
structure TypeDescriptor.Storable (t : TypeDescriptor) (e : Entity) : Prop where
  recorded : t.toRecord e = .ok (t.recordOf e)
  named : (t.recordOf e).name = t.name
  restored : ∃ e', t.toEntity (t.recordOf e) = .ok e' ∧ t.SameFields e e'

variable {template : Template σ} {es : List Entity}

/-- Inserting one by one: the records of the entities so far are stored. -/
theorem Stocked.exists_ends_insertEach (inMemory : template.InMemory p)
    (h : Stocked p t sep column [] s) (storable : ∀ e ∈ es, t.Storable e)
    (apart : (es.map t.recordOf).Pairwise (Record.Apart column)) :
    ∃ saved s', (es.mapM (template.insert t.key)).Ends s saved s' ∧
      Stocked p t sep column (es.map t.recordOf) s' ∧ List.Forall₂ t.SameFields es saved := by
  obtain ⟨lawful, ⟨database, bulk, manager⟩, obliging⟩ := inMemory
  have each : ∀ front e back, es = front ++ e :: back → ∀ s,
      Stocked p t sep column (front.map t.recordOf) s → ∃ e' s',
        (template.insert t.key e).Ends s e' s' ∧
          Stocked p t sep column ((front ++ [e]).map t.recordOf) s' ∧ t.SameFields e e' := by
    intro front e back split s stocked
    obtain ⟨recorded, named, e', read, same⟩ := storable e (by simp [split])
    have new : ∀ stored ∈ front.map t.recordOf, stored.Apart column (t.recordOf e) := by
      intro stored mem
      rw [split, List.map_append] at apart
      have across := (List.pairwise_append.mp apart).2.2
      exact across stored mem _ List.mem_cons_self
    obtain ⟨s₁, prepared, stocked₁⟩ := stocked.exists_ends_prepare obliging recorded
    obtain ⟨s₂, inserted, stocked₂⟩ := (stocked₁.after 1).exists_ends_run
      (MemoryStore.insert s₁.now (t.recordOf e)) lawful rfl (stocked₁.keeps.put named new _)
    obtain ⟨s₃, completed, stocked₃⟩ := stocked₂.exists_ends_complete obliging read
    refine ⟨e', s₃, ?_, by simpa using stocked₃, same⟩
    refine (ends_describe stocked.described).bind (prepared.bind (Ends.bind ?_ completed))
    rw [manager]
    exact (ends_now s₁).bind inserted
  exact exists_ends_mapM (fun done => Stocked p t sep column (done.map t.recordOf)) each h

/-- The bulk path calls the store once, between all preparations and all completions. -/
theorem Template.exists_ends_insertBulk {type : TypeKey} {I J : Session σ → Prop}
    {R : Entity → Entity → Prop}
    (describes : ∃ s', (Action.describe template.schema type).Ends s t s' ∧ I s')
    (prepares : ∀ e ∈ es, ∀ s, I s → ∃ s',
      (Workflow.prepare template.workflow t e).Ends s (t.recordOf e) s' ∧ I s')
    (inserts : ∀ s, I s → ∃ s',
      (template.manager.insertAll (es.map t.recordOf)).Ends s (es.map t.recordOf) s' ∧ J s')
    (completes : ∀ e ∈ es, ∀ s, J s → ∃ e' s',
      (Workflow.complete template.workflow t (t.recordOf e)).Ends s e' s' ∧ J s' ∧ R e e') :
    ∃ saved s', (template.insertBulk type es).Ends s saved s' ∧ J s' ∧
      List.Forall₂ R es saved := by
  obtain ⟨s₁, described, h₁⟩ := describes
  obtain ⟨s₂, prepared, h₂⟩ := exists_ends_mapM_map prepares h₁
  obtain ⟨s₃, inserted, h₃⟩ := inserts s₂ h₂
  obtain ⟨saved, s₄, completed, h₄, related⟩ := exists_ends_mapM_of_forall completes h₃
  refine ⟨saved, s₄, described.bind (prepared.bind (inserted.bind ?_)), h₄, related⟩
  simpa [List.mapM_map, Function.comp_def] using completed

theorem Stocked.exists_ends_insertBulk (inMemory : template.InMemory p)
    (h : Stocked p t sep column [] s) (storable : ∀ e ∈ es, t.Storable e)
    (apart : (es.map t.recordOf).Pairwise (Record.Apart column)) :
    ∃ saved s', (template.insertBulk t.key es).Ends s saved s' ∧
      Stocked p t sep column (es.map t.recordOf) s' ∧ List.Forall₂ t.SameFields es saved := by
  obtain ⟨lawful, ⟨database, bulk, manager⟩, obliging⟩ := inMemory
  have named : ∀ r ∈ es.map t.recordOf, r.name = t.name := by
    intro r hr
    obtain ⟨e, he, rfl⟩ := List.mem_map.mp hr
    exact (storable e he).named
  -- Preparing leaves the store empty, completing leaves it full: only the one call changes it.
  refine Template.exists_ends_insertBulk (I := Stocked p t sep column [])
    ⟨s, ends_describe h.described, h⟩ (fun e he s stocked => ?_) (fun s stocked => ?_)
    (fun e he s stocked => ?_)
  · exact stocked.exists_ends_prepare obliging (storable e he).recorded
  · obtain ⟨s', stored, stocked'⟩ := (stocked.after _).exists_ends_run
      (MemoryStore.insertAll s.clock (es.map t.recordOf)) lawful rfl
      (stocked.keeps.insertAll named apart _)
    rw [manager]
    exact ⟨s', (ends_readings _ s).bind stored, stocked'⟩
  · obtain ⟨e', read, same⟩ := (storable e he).restored
    obtain ⟨s', completed, stocked'⟩ := stocked.exists_ends_complete obliging read
    exact ⟨e', s', completed, stocked', same⟩

theorem Stocked.exists_ends_insertAll (inMemory : template.InMemory p)
    (h : Stocked p t sep column [] s) (storable : ∀ e ∈ es, t.Storable e)
    (apart : (es.map t.recordOf).Pairwise (Record.Apart column)) :
    ∃ saved s', (template.insertAll t.key es).Ends s saved s' ∧
      Stocked p t sep column (es.map t.recordOf) s' ∧ List.Forall₂ t.SameFields es saved := by
  rw [Template.insertAll]
  split
  · exact h.exists_ends_insertBulk inMemory storable apart
  · exact h.exists_ends_insertEach inMemory storable apart

end

end RecordMapper
