import RecordMapper.Proofs.Template.History

/-!
Calls and what they leave. Every operation on entities of a type leads from a store that mirrors a
history to one that mirrors the history after it, whether it succeeds or fails.
-/

namespace RecordMapper

open RecordMapper.Action

/-- The registry gives the descriptor for its type, after whatever it has described before. -/
structure Registry.Accepts (schema : Schema) (t : TypeDescriptor) (r : Registry) : Prop where
  reachable : Reachable schema r
  described : (describe schema t.key r).1 = .ok t

/-- The session accepts the type, and the store at a place mirrors a history of it. -/
structure Mirrored {σ : Type} (schema : Schema) (p : RecordManager.Place σ) (t : TypeDescriptor)
    (column : String) (past : List Change) (s : Session σ) : Prop where
  accepts : s.registry.Accepts schema t
  stored : ∃ rs, (p.find s.world).Keeps t.name column rs ∧ t.Mirrors column past rs

namespace Registry.Accepts

variable {schema : Schema} {t : TypeDescriptor} {r : Registry}

theorem formed (h : r.Accepts schema t) : t.Formed := (h.reachable.formed h.described).2

theorem find?_describe (h : r.Accepts schema t) :
    (describe schema t.key r).2.find? t.key = some t := h.reachable.find?_describe h.described

theorem describe (h : r.Accepts schema t) : (describe schema t.key r).2.Accepts schema t :=
  ⟨h.reachable.describe t.key, by rw [describe_of_find? h.find?_describe]⟩

end Registry.Accepts

theorem TypeDescriptor.Formed.name_of_toRecord {t : TypeDescriptor} (formed : t.Formed) {e : Entity}
    {r : Record} (recorded : t.toRecord e = .ok r) : r.name = t.name := by
  rw [formed.toRecord_eq] at recorded
  obtain ⟨es, -, rfl⟩ := map_eq_ok_iff.mp recorded
  rfl

theorem TypeDescriptor.idCondition_eq {column : String} (t : TypeDescriptor)
    (identifier : t.id?.map (·.column) = some column) {id : Value} (present : id.isNull = false) :
    t.idCondition id = .ok (.equals column id) := by
  obtain ⟨f, found, rfl⟩ := Option.map_eq_some_iff.mp identifier
  simp [idCondition, present, found]

namespace Mirrored

variable {σ : Type} {template : Template σ} {schema : Schema} {p : RecordManager.Place σ}
  {t : TypeDescriptor} {column : String} {past : List Change} {s : Session σ} {e : Entity}
  {es : List Entity}

theorem of_spared {s' : Session σ} (h : Mirrored schema p t column past s)
    (spared : s.Spared p t.name s') : Mirrored schema p t column past s' := by
  obtain ⟨rs, keeps, mirrors⟩ := h.stored
  rw [spared.eq]
  exact ⟨h.accepts, rs, keeps.of_alike spared.store, mirrors⟩

theorem after (h : Mirrored schema p t column past s) (readings : Nat) :
    Mirrored schema p t column past (s.after readings) := ⟨h.accepts, h.stored⟩

theorem exists_ends_describe (h : Mirrored schema p t column past s) :
    ∃ s', (Action.describe schema t.key).Ends s t s' ∧ Mirrored schema p t column past s' :=
  ⟨_, ends_describe_of h.accepts.described, h.accepts.describe, h.stored⟩

section Store

variable {α : Type} (step : MemoryStore.Step α) {later : List Change} {rs : List Record}

theorem exists_ends_run {a : α} (h : Mirrored schema p t column past s) (lawful : p.Lawful)
    (answer : (step (p.find s.world)).1 = .ok a)
    (keeps : (step (p.find s.world)).2.Keeps t.name column rs)
    (mirrors : t.Mirrors column later rs) :
    ∃ s', (p.run step).Ends s a s' ∧ Mirrored schema p t column later s' := by
  obtain ⟨world, ran, left⟩ := RecordManager.Place.exists_ends_run step lawful answer
  exact ⟨_, ran, h.accepts, rs, left ▸ keeps, mirrors⟩

theorem exists_fails_run {failure : Failure} (h : Mirrored schema p t column past s)
    (lawful : p.Lawful) (answer : (step (p.find s.world)).1 = .error failure)
    (keeps : (step (p.find s.world)).2.Keeps t.name column rs)
    (mirrors : t.Mirrors column later rs) :
    ∃ s', (p.run step).Fails s failure s' ∧ Mirrored schema p t column later s' := by
  obtain ⟨world, ran, left⟩ := RecordManager.Place.exists_fails_run step lawful answer
  exact ⟨_, ran, h.accepts, rs, left ▸ keeps, mirrors⟩

end Store

section Flow

variable {ls : Workflow σ} {action : Record → Action σ Record} {later : List Change}

/-- The pipeline does to the history what the action at its middle does. -/
theorem exists_ends_flow (sparing : ∀ l ∈ ls, Listener.Sparing p t.name l)
    (h : Mirrored schema p t column past s) (savable : t.Savable e)
    (acts : ∀ s, Mirrored schema p t column past s → ∃ s',
      (action (t.recordOf e)).Ends s (t.recordOf e) s' ∧ Mirrored schema p t column later s') :
    ∃ e' s', (Workflow.flow ls schema t.key e action).Ends s e' s' ∧
      Mirrored schema p t column later s' := by
  obtain ⟨e', read⟩ := savable.restored
  obtain ⟨s₁, described, h₁⟩ := h.exists_ends_describe
  obtain ⟨s₂, prepared, spared₂⟩ := Workflow.exists_ends_prepare sparing savable.recorded s₁
  obtain ⟨s₃, acted, h₃⟩ := acts s₂ (h₁.of_spared spared₂)
  obtain ⟨s₄, completed, spared₄⟩ := Workflow.exists_ends_complete sparing read s₃
  exact ⟨e', s₄, described.bind (prepared.bind (acted.bind completed)), h₃.of_spared spared₄⟩

theorem exists_fails_flow {failure : Failure} (sparing : ∀ l ∈ ls, Listener.Sparing p t.name l)
    (h : Mirrored schema p t column past s) (savable : t.Savable e)
    (acts : ∀ s, Mirrored schema p t column past s → ∃ s',
      (action (t.recordOf e)).Fails s failure s' ∧ Mirrored schema p t column later s') :
    ∃ s', (Workflow.flow ls schema t.key e action).Fails s failure s' ∧
      Mirrored schema p t column later s' := by
  obtain ⟨s₁, described, h₁⟩ := h.exists_ends_describe
  obtain ⟨s₂, prepared, spared₂⟩ := Workflow.exists_ends_prepare sparing savable.recorded s₁
  obtain ⟨s₃, acted, h₃⟩ := acts s₂ (h₁.of_spared spared₂)
  exact ⟨s₃, described.bind_fails (prepared.bind_fails (acted.bind _)), h₃⟩

end Flow

theorem exists_ends_select (serves : template.Serves p t.name)
    (h : Mirrored schema p t column past s) (q : SelectQuery) :
    ∃ s', (template.manager.select q).Ends s
      ((p.find s.world).select s.now s.separator q) s' ∧ Mirrored schema p t column past s' := by
  obtain ⟨world, selected, left⟩ := serves.exists_ends_select s q
  obtain ⟨rs, keeps, mirrors⟩ := h.stored
  exact ⟨_, selected, h.accepts, rs, left ▸ keeps, mirrors⟩

theorem exists_ends_toEntity (h : Mirrored template.schema p t column past s) {r : Record}
    (read : t.toEntity r = .ok e) :
    ∃ s', (template.toEntity t.key r).Ends s e s' ∧
      Mirrored template.schema p t column past s' := by
  obtain ⟨s', described, h'⟩ := h.exists_ends_describe
  exact ⟨s', described.bind (ends_ofExcept read s'), h'⟩

theorem exists_ends_findAll (serves : template.Serves p t.name)
    (h : Mirrored template.schema p t column past s) :
    ∃ found s', (template.findAll t.key).Ends s found s' ∧
      Mirrored template.schema p t column past s' := by
  obtain ⟨s₁, described, h₁⟩ := h.exists_ends_describe
  obtain ⟨rs, keeps, mirrors⟩ := h₁.stored
  obtain ⟨s₂, selected, h₂⟩ := h₁.exists_ends_select serves { name := t.name }
  rw [keeps.select] at selected
  have each : ∀ r ∈ rs.filter (admits s₁.separator none), ∀ s,
      Mirrored template.schema p t column past s → ∃ e s',
        (template.toEntity t.key r).Ends s e s' ∧
          Mirrored template.schema p t column past s' ∧ True := by
    intro r hr s here
    obtain ⟨e, savable, rfl⟩ := mirrors.savable r (List.mem_of_mem_filter hr)
    obtain ⟨e', read⟩ := savable.restored
    obtain ⟨s', converted, h'⟩ := here.exists_ends_toEntity read
    exact ⟨e', s', converted, h', trivial⟩
  obtain ⟨found, s₃, converted, h₃, -⟩ := exists_ends_mapM_of_forall each h₂
  exact ⟨found, s₃, described.bind (selected.bind converted), h₃⟩

section Calls

variable (serves : template.Serves p t.name) (identifier : t.id?.map (·.column) = some column)
include serves identifier

theorem exists_ends_put (h : Mirrored schema p t column past s) (savable : t.Savable e) :
    ∃ s', (template.manager.insert (t.recordOf e)).Ends s (t.recordOf e) s' ∧
      Mirrored schema p t column (.stored e :: past) s' := by
  obtain ⟨lawful, ⟨database, bulk, manager⟩, -⟩ := serves
  obtain ⟨rs, keeps, mirrors⟩ := h.stored
  have named := h.accepts.formed.name_of_toRecord savable.recorded
  obtain ⟨new, kept, mirrored⟩ := mirrors.exists_put identifier keeps savable named s.now
  obtain ⟨s', inserted, h'⟩ :=
    (h.after 1).exists_ends_run (MemoryStore.insert s.now (t.recordOf e)) lawful rfl kept mirrored
  rw [manager]
  exact ⟨s', (ends_now s).bind inserted, h'⟩

theorem exists_ends_insert (h : Mirrored template.schema p t column past s)
    (savable : t.Savable e) :
    ∃ e' s', (template.insert t.key e).Ends s e' s' ∧
      Mirrored template.schema p t column (.stored e :: past) s' :=
  h.exists_ends_flow serves.sparing savable fun _ here =>
    here.exists_ends_put serves identifier savable

theorem replace_cases {id : Value} (h : Mirrored schema p t column past s) (savable : t.Savable e)
    (own : t.storedId? e = some id) :
    (t.holds past e = true ∧ ∃ s',
        (template.manager.update (t.recordOf e)).Ends s (t.recordOf e) s' ∧
          Mirrored schema p t column (.stored e :: past) s') ∨
      (t.holds past e = false ∧ ∃ s',
        (template.manager.update (t.recordOf e)).Fails s (.noSuchRecord t.name column id) s' ∧
          Mirrored schema p t column past s') := by
  obtain ⟨lawful, ⟨database, bulk, manager⟩, -⟩ := serves
  obtain ⟨rs, keeps, mirrors⟩ := h.stored
  have named := h.accepts.formed.name_of_toRecord savable.recorded
  rw [manager]
  rcases mirrors.update_cases identifier keeps savable own named s.now with
    ⟨holds, answer, new, kept, mirrored⟩ | ⟨missing, kept, answer⟩
  · obtain ⟨s', updated, h'⟩ :=
      (h.after 1).exists_ends_run (MemoryStore.update s.now (t.recordOf e)) lawful answer kept
        mirrored
    exact .inl ⟨holds, s', (ends_now s).bind updated, h'⟩
  · obtain ⟨s', failed, h'⟩ :=
      (h.after 1).exists_fails_run (MemoryStore.update s.now (t.recordOf e)) lawful answer kept
        mirrors
    exact .inr ⟨missing, s', (ends_now s).bind_fails failed, h'⟩

/-- An update replaces what the history has under the identifier, and fails where it has nothing. -/
theorem update_cases {id : Value} (h : Mirrored template.schema p t column past s)
    (savable : t.Savable e) (own : t.storedId? e = some id) :
    (t.holds past e = true ∧ ∃ e' s', (template.update t.key e).Ends s e' s' ∧
        Mirrored template.schema p t column (.stored e :: past) s') ∨
      (t.holds past e = false ∧ ∃ s',
        (template.update t.key e).Fails s (.noSuchRecord t.name column id) s' ∧
          Mirrored template.schema p t column past s') := by
  -- The split is on the history and not on the store: listeners run before the store is asked.
  cases holds : t.holds past e with
  | true =>
    refine .inl ⟨rfl, h.exists_ends_flow serves.sparing savable fun s here => ?_⟩
    rcases here.replace_cases serves identifier savable own with ⟨-, done⟩ | ⟨missing, -⟩
    · exact done
    · simp [holds] at missing
  | false =>
    refine .inr ⟨rfl, h.exists_fails_flow serves.sparing savable fun s here => ?_⟩
    rcases here.replace_cases serves identifier savable own with ⟨present, -⟩ | ⟨-, done⟩
    · simp [holds] at present
    · exact done

theorem updateAll_leaves (h : Mirrored template.schema p t column past s)
    (savable : ∀ e ∈ es, t.Savable e) :
    ∃ s', (template.updateAll t.key es).Leaves s s' ∧
      Mirrored template.schema p t column (t.updated past es) s' := by
  unfold Template.updateAll
  induction es generalizing past s with
  | nil => exact ⟨s, (Ends.pure [] s).leaves, h⟩
  | cons e es ih =>
    rw [List.mapM_cons, TypeDescriptor.updated]
    obtain ⟨id, own, -⟩ := (savable e List.mem_cons_self).identified
    rcases h.update_cases serves identifier (savable e List.mem_cons_self) own with
      ⟨holds, e', s₁, updated, h₁⟩ | ⟨missing, s₁, failed, h₁⟩
    · obtain ⟨s₂, rest, h₂⟩ := ih h₁ fun e he => savable e (List.mem_cons_of_mem _ he)
      rw [if_pos holds]
      exact ⟨s₂, updated.bind_leaves (rest.map (e' :: ·)), h₂⟩
    · rw [if_neg (by simp [missing])]
      exact ⟨s₁, (failed.bind _).leaves, h₁⟩

theorem exists_ends_insertBulk (h : Mirrored template.schema p t column past s)
    (savable : ∀ e ∈ es, t.Savable e) :
    ∃ saved s', (template.insertBulk t.key es).Ends s saved s' ∧
      Mirrored template.schema p t column ((es.map .stored).reverse ++ past) s' := by
  obtain ⟨lawful, ⟨database, bulk, manager⟩, sparing⟩ := serves
  -- All pre phases come first and all post phases last; the history changes in between, at once.
  have prepares : ∀ e ∈ es, ∀ s, Mirrored template.schema p t column past s → ∃ s',
      (Workflow.prepare template.workflow t e).Ends s (t.recordOf e) s' ∧
        Mirrored template.schema p t column past s' := by
    intro e he s here
    obtain ⟨s', prepared, spared⟩ :=
      Workflow.exists_ends_prepare sparing (savable e he).recorded s
    exact ⟨s', prepared, here.of_spared spared⟩
  have inserts : ∀ s, Mirrored template.schema p t column past s → ∃ s',
      (template.manager.insertAll (es.map t.recordOf)).Ends s (es.map t.recordOf) s' ∧
        Mirrored template.schema p t column ((es.map .stored).reverse ++ past) s' := by
    intro s here
    obtain ⟨rs, keeps, mirrors⟩ := here.stored
    have named : ∀ e ∈ es, (t.recordOf e).name = t.name := fun e he =>
      here.accepts.formed.name_of_toRecord (savable e he).recorded
    obtain ⟨new, kept, mirrored⟩ :=
      mirrors.exists_putAll identifier keeps.counted savable named s.clock
    obtain ⟨s', inserted, h'⟩ := (here.after _).exists_ends_run
      (MemoryStore.insertAll s.clock (es.map t.recordOf)) lawful rfl kept mirrored
    rw [manager]
    exact ⟨s', (ends_readings _ s).bind inserted, h'⟩
  have completes : ∀ e ∈ es, ∀ s,
      Mirrored template.schema p t column ((es.map .stored).reverse ++ past) s → ∃ e' s',
        (Workflow.complete template.workflow t (t.recordOf e)).Ends s e' s' ∧
          Mirrored template.schema p t column ((es.map .stored).reverse ++ past) s' ∧ True := by
    intro e he s here
    obtain ⟨e', read⟩ := (savable e he).restored
    obtain ⟨s', completed, spared⟩ := Workflow.exists_ends_complete sparing read s
    exact ⟨e', s', completed, here.of_spared spared, trivial⟩
  obtain ⟨saved, s', inserted, h', -⟩ := Template.exists_ends_insertBulk h.exists_ends_describe
    prepares inserts (R := fun _ _ => True) completes
  exact ⟨saved, s', inserted, h'⟩

theorem exists_ends_insertEach (h : Mirrored template.schema p t column past s)
    (savable : ∀ e ∈ es, t.Savable e) :
    ∃ saved s', (es.mapM (template.insert t.key)).Ends s saved s' ∧
      Mirrored template.schema p t column ((es.map .stored).reverse ++ past) s' := by
  have each : ∀ front e back, es = front ++ e :: back → ∀ s,
      Mirrored template.schema p t column ((front.map .stored).reverse ++ past) s → ∃ e' s',
        (template.insert t.key e).Ends s e' s' ∧
          Mirrored template.schema p t column (((front ++ [e]).map .stored).reverse ++ past) s' ∧
            True := by
    intro front e back split s here
    obtain ⟨e', s', inserted, h'⟩ :=
      here.exists_ends_insert serves identifier (savable e (by simp [split]))
    exact ⟨e', s', inserted, by simpa using h', trivial⟩
  obtain ⟨saved, s', inserted, h', -⟩ := exists_ends_mapM (fun front =>
    Mirrored template.schema p t column ((front.map .stored).reverse ++ past)) each h
  exact ⟨saved, s', inserted, h'⟩

theorem exists_ends_insertAll (h : Mirrored template.schema p t column past s)
    (savable : ∀ e ∈ es, t.Savable e) :
    ∃ saved s', (template.insertAll t.key es).Ends s saved s' ∧
      Mirrored template.schema p t column ((es.map .stored).reverse ++ past) s' := by
  rw [Template.insertAll]
  split
  · exact h.exists_ends_insertBulk serves identifier savable
  · exact h.exists_ends_insertEach serves identifier savable

theorem deleteById_leaves (h : Mirrored template.schema p t column past s) (id : Value) :
    ∃ s', (template.deleteById t.key id).Leaves s s' ∧
      Mirrored template.schema p t column (t.after past (.deleteById id)) s' := by
  obtain ⟨s₁, described, h₁⟩ := h.exists_ends_describe
  rw [TypeDescriptor.after]
  cases null : id.isNull with
  | true =>
    have refused : t.idCondition id = .error (.required "id") := by
      simp [TypeDescriptor.idCondition, null]
    exact ⟨s₁, (described.bind_fails ((fails_ofExcept refused s₁).bind _)).leaves, h₁⟩
  | false =>
    obtain ⟨lawful, ⟨database, bulk, manager⟩, -⟩ := serves
    obtain ⟨rs, keeps, mirrors⟩ := h₁.stored
    have condition := t.idCondition_eq identifier null
    obtain ⟨s₂, deleted, h₂⟩ := (h₁.after 1).exists_ends_run
      (MemoryStore.delete s₁.now s₁.separator
        { name := t.name, condition := some (.equals column id) }) lawful rfl
      (keeps.delete_equals (mirrors.keyed identifier) s₁.now s₁.separator id)
      (mirrors.deleted identifier id)
    have deletes : (template.delete { name := t.name, condition := some (.equals column id) }).Ends
        s₁ () s₂ := by
      rw [Template.delete, manager]
      exact (ends_now s₁).bind ((ends_separator _).bind deleted)
    exact ⟨s₂, (described.bind ((ends_ofExcept condition s₁).bind deletes)).leaves, h₂⟩

/-- Every call leads to the history after it, also where it fails. -/
theorem run_leaves (h : Mirrored template.schema p t column past s) (c : Call)
    (savable : ∀ e ∈ c.entities, t.Savable e) :
    ∃ s', (c.run template t.key).Leaves s s' ∧
      Mirrored template.schema p t column (t.after past c) s' := by
  cases c with
  | insert e =>
    obtain ⟨e', s', inserted, h'⟩ :=
      h.exists_ends_insert serves identifier (savable e List.mem_cons_self)
    exact ⟨s', inserted.leaves.map _, h'⟩
  | insertAll es =>
    obtain ⟨saved, s', inserted, h'⟩ := h.exists_ends_insertAll serves identifier savable
    exact ⟨s', inserted.leaves.map _, h'⟩
  | update e =>
    rw [TypeDescriptor.after, TypeDescriptor.updated]
    obtain ⟨id, own, -⟩ := (savable e List.mem_cons_self).identified
    rcases h.update_cases serves identifier (savable e List.mem_cons_self) own with
      ⟨holds, e', s', updated, h'⟩ | ⟨missing, s', failed, h'⟩
    · rw [if_pos holds]
      exact ⟨s', updated.leaves.map _, h'⟩
    · rw [if_neg (by simp [missing])]
      exact ⟨s', failed.leaves.map _, h'⟩
  | updateAll es =>
    obtain ⟨s', updated, h'⟩ := h.updateAll_leaves serves identifier savable
    exact ⟨s', updated.map _, h'⟩
  | deleteById id => exact h.deleteById_leaves serves identifier id
  | findAll =>
    obtain ⟨found, s', listed, h'⟩ := h.exists_ends_findAll serves
    exact ⟨s', listed.leaves.map _, h'⟩

end Calls

end Mirrored

end RecordMapper
