import RecordMapper.Proofs.Store.Memory
import RecordMapper.Proofs.Store.Session
import RecordMapper.Pipeline.Workflow
import RecordMapper.Store.Manager

/-!
The pipeline past listeners that let everything pass. Whatever else they do to the world, as long as
they leave the records of one name alone, so do the parts before and behind the store's action.
-/

namespace RecordMapper

open RecordMapper.Action

/-- Two stores have the same records of a name, under the same key column. -/
structure MemoryStore.Alike (name : String) (a b : MemoryStore) : Prop where
  key : b.keyColumn name = a.keyColumn name
  table : b.table name = a.table name

theorem MemoryStore.Keeps.of_alike {name column : String} {rs : List Record} {a b : MemoryStore}
    (h : a.Keeps name column rs) (alike : a.Alike name b) : b.Keeps name column rs :=
  ⟨alike.key.trans h.key, alike.table.trans h.table⟩

namespace RecordManager.Place

variable {σ : Type} {p : Place σ}

/-- A place gives back the store that was put there. -/
def Lawful (p : Place σ) : Prop := ∀ m w, p.find (p.replace m w) = m

variable {α : Type} (step : MemoryStore.Step α) {s : Session σ}

theorem exists_ends_run {a : α} (lawful : p.Lawful) (answer : (step (p.find s.world)).1 = .ok a) :
    ∃ world, (p.run step).Ends s a { s with world } ∧
      p.find world = (step (p.find s.world)).2 := by
  refine ⟨p.replace (step (p.find s.world)).2 s.world, ends_onWorld _ ?_, lawful _ _⟩
  simp [answer]

theorem exists_fails_run {failure : Failure} (lawful : p.Lawful)
    (answer : (step (p.find s.world)).1 = .error failure) :
    ∃ world, (p.run step).Fails s failure { s with world } ∧
      p.find world = (step (p.find s.world)).2 := by
  refine ⟨p.replace (step (p.find s.world)).2 s.world, ?_, lawful _ _⟩
  exact fails_onWorld _ (Prod.ext answer rfl)

/-- A select leaves the store as it is, and reads the clock once. -/
theorem exists_ends_select (lawful : p.Lawful) (database : DatabaseType) (bulk : Bool)
    (s : Session σ) (q : SelectQuery) :
    ∃ world, ((memory database p bulk).select q).Ends s
      ((p.find s.world).select s.now s.separator q) { s.after 1 with world } ∧
        p.find world = p.find s.world := by
  obtain ⟨world, selected, left⟩ := exists_ends_run
    (fun store => (.ok (store.select s.now s.separator q), store)) (s := s.after 1) lawful rfl
  exact ⟨world, (ends_now s).bind ((ends_separator _).bind selected), left⟩

end RecordManager.Place

/-- The listener never refuses and leaves the records of a name in the store at a place alone. -/
def Listener.Sparing {σ : Type} (p : RecordManager.Place σ) (name : String) (l : Listener σ) :
    Prop :=
  ∀ ev w, (l ev w).1 = .ok () ∧ (p.find w).Alike name (p.find (l ev w).2)

/-- Only the world has changed, and in it not the records of a name. -/
structure Session.Spared {σ : Type} (p : RecordManager.Place σ) (name : String)
    (s s' : Session σ) : Prop where
  eq : s' = { s with world := s'.world }
  store : (p.find s.world).Alike name (p.find s'.world)

section

variable {σ : Type} {p : RecordManager.Place σ} {name : String} {s s' s'' : Session σ}

theorem Session.Spared.refl (s : Session σ) : s.Spared p name s := ⟨rfl, rfl, rfl⟩

theorem Session.Spared.trans (first : s.Spared p name s') (second : s'.Spared p name s'') :
    s.Spared p name s'' := by
  refine ⟨?_, second.store.key.trans first.store.key, second.store.table.trans first.store.table⟩
  rw [second.eq, first.eq]

namespace Workflow

variable {ls : Workflow σ} {t : TypeDescriptor}

theorem exists_ends_fire (sparing : ∀ l ∈ ls, Listener.Sparing p name l) (ev : Event)
    (s : Session σ) : ∃ s', (fire ev ls).Ends s () s' ∧ s.Spared p name s' := by
  induction ls generalizing s with
  | nil => exact ⟨s, .pure () s, .refl s⟩
  | cons l ls ih =>
    obtain ⟨passes, alike⟩ := sparing l List.mem_cons_self ev s.world
    obtain ⟨s', rest, spared⟩ := ih (fun l hl => sparing l (List.mem_cons_of_mem _ hl))
      { s with world := (l ev s.world).2 }
    have here : s.Spared p name { s with world := (l ev s.world).2 } := ⟨rfl, alike⟩
    refine ⟨s', (ends_onWorld (a := ()) _ ?_).bind rest, here.trans spared⟩
    show (Except.mapError _ (l ev s.world).1, _) = _
    rw [passes]
    rfl

theorem exists_ends_prepare (sparing : ∀ l ∈ ls, Listener.Sparing p name l) {e : Entity}
    {r : Record} (recorded : t.toRecord e = .ok r) (s : Session σ) :
    ∃ s', (prepare ls t e).Ends s r s' ∧ s.Spared p name s' := by
  obtain ⟨s₁, announced, spared₁⟩ := exists_ends_fire sparing (.preEntity e) s
  obtain ⟨s₂, shown, spared₂⟩ := exists_ends_fire sparing (.preRecord r) s₁
  refine ⟨s₂, announced.bind ?_, spared₁.trans spared₂⟩
  exact (ends_ofExcept recorded s₁).bind (shown.bind (.pure r s₂))

theorem exists_ends_complete (sparing : ∀ l ∈ ls, Listener.Sparing p name l) {r : Record}
    {e : Entity} (read : t.toEntity r = .ok e) (s : Session σ) :
    ∃ s', (complete ls t r).Ends s e s' ∧ s.Spared p name s' := by
  obtain ⟨s₁, announced, spared₁⟩ := exists_ends_fire sparing (.postRecord r) s
  obtain ⟨s₂, shown, spared₂⟩ := exists_ends_fire sparing (.postEntity e) s₁
  refine ⟨s₂, announced.bind ?_, spared₁.trans spared₂⟩
  exact (ends_ofExcept read s₁).bind (shown.bind (.pure e s₂))

end Workflow

end

end RecordMapper
