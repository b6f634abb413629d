import RecordMapper.Proofs.Pipeline.Steady
import RecordMapper.Proofs.Template.Lookup

/-!
Batches on the two paths. A bulk path prepares the whole batch, stores it in one call and completes
it; without one, each entity goes all the way before the next. What is saved agrees when nothing
fails; what is stored when something does is different.
-/

namespace RecordMapper

open RecordMapper.Action

theorem Clock.after_after (c : Clock) (m n : Nat) : (c.after m).after n = c.after (m + n) :=
  funext fun i => congrArg c (Nat.add_assoc m n i).symm

namespace Table

theorem mem_of_mem_upsert {column : String} {new stored : StoredRecord} {t : Table}
    (h : stored ∈ t.upsert column new) : stored = new ∨ stored ∈ t := by
  rcases upsert_cases column new t with
    ⟨-, added⟩ | ⟨key, front, old, back, -, split, -, -, replaced⟩
  · rw [added] at h
    exact (List.mem_append.mp h).symm.imp_left List.mem_singleton.mp
  · rw [replaced] at h
    rw [split]
    rcases List.mem_append.mp h with before | rest
    · exact .inr (List.mem_append_left _ before)
    · rcases List.mem_cons.mp rest with rfl | behind
      · exact .inl rfl
      · exact .inr (by simp [behind])

end Table

namespace MemoryStore

variable {name : String} {rs : List Record} {m : MemoryStore} {a b : Clock}

theorem putAll_concat (clock : Clock) (rs : List Record) (r : Record) (m : MemoryStore) :
    m.putAll clock (rs ++ [r]) = (m.putAll clock rs).put (clock rs.length) r none := by
  induction rs generalizing clock m with
  | nil => rfl
  | cons first rs ih =>
    rw [List.cons_append, putAll, putAll, ih, Clock.after, Nat.add_comm, List.length_cons]

/-- A bulk insert leaves what inserting record by record leaves, but for the count of batches. -/
theorem insertAll_eq (clock : Clock) (rs : List Record) (m : MemoryStore) :
    insertAll clock rs m =
      (.ok rs, { m.putAll clock rs with bulkInserts := m.bulkInserts + 1 }) := by
  have counted : ∀ (rs : List Record) (clock : Clock) (m : MemoryStore),
      ({ m with bulkInserts := m.bulkInserts + 1 } : MemoryStore).putAll clock rs =
        { m.putAll clock rs with bulkInserts := m.bulkInserts + 1 } := by
    intro rs
    induction rs with
    | nil => exact fun clock m => rfl
    | cons r rs ih => exact fun clock m => ih (clock.after 1) (m.put (clock 0) r none)
  exact congrArg (Prod.mk _) (counted rs clock m)

/-- So many readings of either clock find the same records of a name expired, each reading as many
as the same reading of the other. -/
def ExpiresAlike (m : MemoryStore) (name : String) (readings : Nat) (a b : Clock) : Prop :=
  ∀ i < readings, ∀ stored ∈ m.table name, stored.isExpired (a i) = stored.isExpired (b i)

theorem ExpiresAlike.put {r : Record} {readings : Nat}
    (alike : m.ExpiresAlike name (readings + 1) a b) (named : r.name = name) :
    (m.put (a 0) r none).ExpiresAlike name readings (a.after 1) (b.after 1) := by
  intro i below stored mem
  rw [MemoryStore.put, named, table_setTable] at mem
  -- What is stored without a time to live expires at no reading.
  rcases Table.mem_of_mem_upsert mem with rfl | old
  · rfl
  · exact alike (1 + i) (by omega) stored (List.mem_of_mem_filter old)

/-- Storing the same records leaves the same, whatever else tells the clocks apart. -/
theorem putAll_congr (named : ∀ r ∈ rs, r.name = name)
    (alike : m.ExpiresAlike name rs.length a b) : m.putAll a rs = m.putAll b rs := by
  induction rs generalizing m a b with
  | nil => rfl
  | cons r rs ih =>
    have own := named r List.mem_cons_self
    have first : m.put (a 0) r none = m.put (b 0) r none := by
      have live : (m.table name).live (a 0) = (m.table name).live (b 0) := by
        refine List.filter_congr fun stored mem => ?_
        rw [alike 0 (by simp) stored mem]
      rw [MemoryStore.put, MemoryStore.put, own, live]
    have rest := ih (fun r hr => named r (List.mem_cons_of_mem _ hr)) (alike.put own)
    rw [putAll, putAll, rest, first]

end MemoryStore

namespace Workflow

variable {σ : Type} {ls : Workflow σ} {t : TypeDescriptor} {s s' : Session σ} {e e' : Entity}

/-- The part before the store lets the entity pass. -/
def Prepares (ls : Workflow σ) (t : TypeDescriptor) (s : Session σ) (e : Entity) : Prop :=
  ∃ r s', (ls.prepare t e).Ends s r s'

/-- Around a store that gives back what it is given, the pipeline turns the one entity into the
other. -/
def Saves (ls : Workflow σ) (t : TypeDescriptor) (s : Session σ) (e e' : Entity) : Prop :=
  ∃ s', (ls.flowWith t e pure).Ends s e' s'

theorem toRecord_of_prepare {r : Record} (h : (ls.prepare t e).Ends s r s') :
    t.toRecord e = .ok r := by
  obtain ⟨-, s₁, -, h⟩ := h.of_bind
  obtain ⟨r', s₂, converted, h⟩ := h.of_bind
  obtain ⟨-, s₃, -, h⟩ := h.of_bind
  obtain rfl : r' = r := Except.ok.inj (congrArg Prod.fst h)
  exact converted.of_ofExcept

theorem eq_recordOf_of_prepare {r : Record} (h : (ls.prepare t e).Ends s r s') :
    r = t.recordOf e := by
  rw [TypeDescriptor.recordOf, toRecord_of_prepare h]

theorem Saves.parts (h : ls.Saves t s e e') : ∃ s₁ s₂,
    (ls.prepare t e).Ends s (t.recordOf e) s₁ ∧ (ls.complete t (t.recordOf e)).Ends s₁ e' s₂ := by
  obtain ⟨s₂, flowed⟩ := h
  obtain ⟨r, s₁, prepared, rest⟩ := flowed.of_bind
  obtain rfl := eq_recordOf_of_prepare prepared
  exact ⟨s₁, s₂, prepared, rest⟩

theorem Saves.name_recordOf (h : ls.Saves t s e e') (formed : t.Formed) :
    (t.recordOf e).name = t.name := by
  obtain ⟨_, _, prepared, -⟩ := h.parts
  exact formed.name_of_toRecord (toRecord_of_prepare prepared)

theorem flowWith_eq (ls : Workflow σ) (t : TypeDescriptor) (e : Entity)
    (action : Record → Action σ Record) :
    ls.flowWith t e action = (ls.prepare t e >>= action) >>= ls.complete t :=
  (bind_assoc ..).symm

theorem Saves.unique {e'' : Entity} (h : ls.Saves t s e e') (h' : ls.Saves t s e e'') :
    e' = e'' := by
  obtain ⟨s₁, first⟩ := h
  obtain ⟨s₂, second⟩ := h'
  exact Except.ok.inj (congrArg Prod.fst (first.symm.trans second))

end Workflow

/-- The session accepts the type and has a clock, and where the store at a place is left alone it is
the given one. -/
structure Session.Holds {σ : Type} (alone : Prop) (schema : Schema) (p : RecordManager.Place σ)
    (t : TypeDescriptor) (clock : Clock) (m : MemoryStore) (s : Session σ) : Prop where
  accepts : s.registry.Accepts schema t
  clock : s.clock = clock
  store : alone → p.find s.world = m

section

variable {σ : Type} {alone : Prop} {schema : Schema} {p : RecordManager.Place σ}
  {t : TypeDescriptor} {database : DatabaseType} {bulk : Bool} {ls : Workflow σ} {clock : Clock}
  {m : MemoryStore} {s s₀ s₁ s' : Session σ} {e e' : Entity} {es : List Entity} {r : Record}
  {failure : Failure}

namespace Session.Holds

theorem of_untouched (h : s.Holds alone schema p t clock m) (same : s.Untouched alone p s') :
    s'.Holds alone schema p t clock m := by
  rw [same.eq]
  exact ⟨h.accepts, h.clock, fun left => (same.store left).trans (h.store left)⟩

theorem exists_ends_describe (h : s.Holds alone schema p t clock m) :
    ∃ s', (Action.describe schema t.key).Ends s t s' ∧ s'.Holds alone schema p t clock m :=
  ⟨_, ends_describe_of h.accepts.described, h.accepts.describe, h.clock, h.store⟩

/-- A step of the store that succeeds on every store, behind so many readings of the clock. -/
theorem exists_ends_run {α : Type} {a : α} (h : s.Holds alone schema p t clock m)
    (step : MemoryStore.Step α) (lawful : p.Lawful) (readings : Nat)
    (answer : ∀ m, (step m).1 = .ok a) :
    ∃ s', (p.run step).Ends (s.after readings) a s' ∧
      s'.Holds alone schema p t (clock.after readings) (step m).2 := by
  obtain ⟨world, ran, left⟩ :=
    RecordManager.Place.exists_ends_run step (s := s.after readings) lawful (answer _)
  refine ⟨_, ran, h.accepts, congrArg (Clock.after · readings) h.clock, fun quiet => ?_⟩
  rw [← h.store quiet]
  exact left

theorem exists_ends {α : Type} {x : Action σ α} {a : α} (h : s.Holds alone schema p t clock m)
    (steady : x.Steady alone p) (once : x.Ends s₀ a s₁) :
    ∃ s', x.Ends s a s' ∧ s'.Holds alone schema p t clock m := by
  obtain ⟨s', ended, same⟩ := steady.exists_ends once s
  exact ⟨s', ended, h.of_untouched same⟩

theorem exists_fails {α : Type} {x : Action σ α} (h : s.Holds alone schema p t clock m)
    (steady : x.Steady alone p) (once : x.Fails s₀ failure s₁) :
    ∃ s', x.Fails s failure s' ∧ s'.Holds alone schema p t clock m := by
  obtain ⟨s', failed, same⟩ := steady.exists_fails once s
  exact ⟨s', failed, h.of_untouched same⟩

theorem start (h : s.Holds alone schema p t clock m) :
    s.Holds alone schema p t (clock.after ([] : List Entity).length)
      (m.putAll clock (([] : List Entity).map t.recordOf)) := by
  have unread : clock.after 0 = clock := funext fun i => congrArg clock (Nat.zero_add i)
  rw [List.length_nil, unread]
  exact h

/-- One entity more has been stored, at the instant of its own reading. -/
theorem concat
    (h : s.Holds alone schema p t ((clock.after es.length).after 1)
      ((m.putAll clock (es.map t.recordOf)).put (clock es.length) (t.recordOf e) none)) :
    s.Holds alone schema p t (clock.after (es ++ [e]).length)
      (m.putAll clock ((es ++ [e]).map t.recordOf)) := by
  rw [List.map_append, List.map_singleton, MemoryStore.putAll_concat, List.length_map,
    List.length_append, List.length_singleton, ← Clock.after_after]
  exact h

section Steady

variable (steady : ∀ l ∈ ls, Listener.Steady l)
  (leaves : alone → ∀ l ∈ ls, Listener.LeavesAlone p l)

include steady leaves

theorem exists_ends_prepare (h : s.Holds alone schema p t clock m)
    (prepares : ls.Prepares t s₀ e) :
    ∃ s', (ls.prepare t e).Ends s (t.recordOf e) s' ∧ s'.Holds alone schema p t clock m := by
  obtain ⟨r, s₁, once⟩ := prepares
  obtain rfl := Workflow.eq_recordOf_of_prepare once
  exact h.exists_ends (Workflow.steady_prepare steady leaves t e) once

theorem exists_ends_prepareAll (h : s.Holds alone schema p t clock m)
    (prepares : ∀ e ∈ es, ls.Prepares t s₀ e) :
    ∃ s₁ s₂, (Action.describe schema t.key).Ends s t s₁ ∧
      (es.mapM (ls.prepare t)).Ends s₁ (es.map t.recordOf) s₂ ∧
      s₂.Holds alone schema p t clock m := by
  obtain ⟨s₁, described, h₁⟩ := h.exists_ends_describe
  obtain ⟨s₂, prepared, h₂⟩ := exists_ends_mapM_map
    (fun e he s here => here.exists_ends_prepare steady leaves (prepares e he)) h₁
  exact ⟨s₁, s₂, described, prepared, h₂⟩

theorem exists_fails_insertBulk {front back : List Entity} (h : s.Holds alone schema p t clock m)
    (prepares : ∀ x ∈ front, ls.Prepares t s₀ x)
    (fails : (ls.prepare t e).Fails s₀ failure s₁) (manager : RecordManager σ) :
    ∃ s', ((⟨schema, manager, ls⟩ : Template σ).insertBulk t.key (front ++ e :: back)).Fails s
        failure s' ∧ s'.Holds alone schema p t clock m := by
  obtain ⟨s₂, described, h₂⟩ := h.exists_ends_describe
  have each : ∀ done x rest, front = done ++ x :: rest → ∀ s, s.Holds alone schema p t clock m →
      ∃ r s', (ls.prepare t x).Ends s r s' ∧ s'.Holds alone schema p t clock m := by
    intro done x rest split s here
    exact ⟨_, here.exists_ends_prepare steady leaves (prepares x (by simp [split]))⟩
  obtain ⟨s₃, failed, h₃⟩ := exists_fails_mapM (fun _ s => s.Holds alone schema p t clock m) each
    (fun s here => here.exists_fails (Workflow.steady_prepare steady leaves t e) fails) h₂
  exact ⟨s₃, described.bind_fails (failed.bind _), h₃⟩

variable (lawful : p.Lawful)

include lawful

/-- The record of an entity that is let pass is stored, whatever becomes of it afterwards. -/
theorem exists_ends_put (h : s.Holds alone schema p t clock m) (prepares : ls.Prepares t s₀ e) :
    ∃ s', (do (RecordManager.memory database p bulk).insert (← ls.prepare t e)).Ends s
        (t.recordOf e) s' ∧
      s'.Holds alone schema p t (clock.after 1) (m.put (clock 0) (t.recordOf e) none) := by
  obtain ⟨s₁, prepared, h₁⟩ := h.exists_ends_prepare steady leaves prepares
  obtain ⟨s₂, inserted, h₂⟩ :=
    h₁.exists_ends_run (MemoryStore.insert (clock 0) (t.recordOf e)) lawful 1 fun _ => rfl
  rw [← h₁.clock] at inserted
  exact ⟨s₂, prepared.bind ((ends_now s₁).bind inserted), h₂⟩

theorem exists_ends_insert (h : s.Holds alone schema p t clock m) (saves : ls.Saves t s₀ e e') :
    ∃ s', ((⟨schema, .memory database p bulk, ls⟩ : Template σ).insert t.key e).Ends s e' s' ∧
      s'.Holds alone schema p t (clock.after 1) (m.put (clock 0) (t.recordOf e) none) := by
  obtain ⟨_, _, once, twice⟩ := saves.parts
  obtain ⟨s₁, described, h₁⟩ := h.exists_ends_describe
  obtain ⟨s₂, stored, h₂⟩ := h₁.exists_ends_put steady leaves lawful ⟨_, _, once⟩
  obtain ⟨s₃, completed, h₃⟩ := h₂.exists_ends (Workflow.steady_complete steady leaves t _) twice
  refine ⟨s₃, described.bind ?_, h₃⟩
  rw [Workflow.flowWith_eq]
  exact stored.bind completed

theorem exists_fails_insert (h : s.Holds alone schema p t clock m)
    (fails : (ls.flowWith t e pure).Fails s₀ failure s₁) :
    ∃ s', ((⟨schema, .memory database p bulk, ls⟩ : Template σ).insert t.key e).Fails s failure s' ∧
      (¬ ls.Prepares t s₀ e → s'.Holds alone schema p t clock m) ∧
      (ls.Prepares t s₀ e →
        s'.Holds alone schema p t (clock.after 1) (m.put (clock 0) (t.recordOf e) none)) := by
  obtain ⟨s₁, described, h₁⟩ := h.exists_ends_describe
  -- What is refused before the store never reaches it; behind it, the record is there.
  rcases fails.of_bind with once | ⟨r, s₂, once, twice⟩
  · obtain ⟨s₂, failed, h₂⟩ := h₁.exists_fails (Workflow.steady_prepare steady leaves t e) once
    refine ⟨s₂, described.bind_fails (failed.bind _), fun _ => h₂, ?_⟩
    rintro ⟨r, s₃, ended⟩
    exact absurd ended (once.not_ends _ _)
  · obtain rfl := Workflow.eq_recordOf_of_prepare once
    have prepares : ls.Prepares t s₀ e := ⟨_, _, once⟩
    obtain ⟨s₂, stored, h₂⟩ := h₁.exists_ends_put steady leaves lawful prepares
    obtain ⟨s₃, failed, h₃⟩ :=
      h₂.exists_fails (Workflow.steady_complete steady leaves t _) twice
    refine ⟨s₃, described.bind_fails ?_, fun refused => absurd prepares refused, fun _ => h₃⟩
    rw [Workflow.flowWith_eq]
    exact stored.bind_fails failed

theorem exists_ends_insertEach (database : DatabaseType) (bulk : Bool)
    (h : s.Holds alone schema p t clock m) (saves : ∀ e ∈ es, ∃ e', ls.Saves t s₀ e e') :
    ∃ saved s', (es.mapM
        ((⟨schema, .memory database p bulk, ls⟩ : Template σ).insert t.key)).Ends s saved s' ∧
      s'.Holds alone schema p t (clock.after es.length) (m.putAll clock (es.map t.recordOf)) ∧
      List.Forall₂ (ls.Saves t s₀) es saved := by
  refine exists_ends_mapM (fun done s => s.Holds alone schema p t (clock.after done.length)
    (m.putAll clock (done.map t.recordOf))) (fun front e back split s here => ?_) h.start
  obtain ⟨e', saved⟩ := saves e (by simp [split])
  obtain ⟨s', inserted, next⟩ := here.exists_ends_insert steady leaves lawful saved
  exact ⟨e', s', inserted, next.concat, saved⟩

theorem exists_fails_insertEach {front back : List Entity} (h : s.Holds alone schema p t clock m)
    (saves : ∀ x ∈ front, ∃ x', ls.Saves t s₀ x x')
    (fails : (ls.flowWith t e pure).Fails s₀ failure s₁) :
    ∃ s', ((front ++ e :: back).mapM
        ((⟨schema, .memory database p bulk, ls⟩ : Template σ).insert t.key)).Fails s failure s' ∧
      (¬ ls.Prepares t s₀ e → alone → p.find s'.world = m.putAll clock (front.map t.recordOf)) ∧
      (ls.Prepares t s₀ e → alone →
        p.find s'.world = m.putAll clock ((front ++ [e]).map t.recordOf)) := by
  refine exists_fails_mapM (fun done s => s.Holds alone schema p t (clock.after done.length)
    (m.putAll clock (done.map t.recordOf))) (fun done x rest split s here => ?_)
    (fun s here => ?_) h.start
  · obtain ⟨x', saved⟩ := saves x (by simp [split])
    obtain ⟨s', inserted, next⟩ := here.exists_ends_insert steady leaves lawful saved
    exact ⟨x', s', inserted, next.concat⟩
  · obtain ⟨s', failed, before, behind⟩ := here.exists_fails_insert steady leaves lawful fails
    exact ⟨s', failed, fun refused => (before refused).store, fun prepares =>
      (behind prepares).concat.store⟩

theorem exists_ends_insertBulk (database : DatabaseType) (bulk : Bool)
    (h : s.Holds alone schema p t clock m) (saves : ∀ e ∈ es, ∃ e', ls.Saves t s₀ e e') :
    ∃ saved s',
      ((⟨schema, .memory database p bulk, ls⟩ : Template σ).insertBulk t.key es).Ends s saved s' ∧
        s'.Holds alone schema p t (clock.after es.length)
          (MemoryStore.insertAll clock (es.map t.recordOf) m).2 ∧
        List.Forall₂ (ls.Saves t s₀) es saved := by
  refine Template.exists_ends_insertBulk (I := fun s => s.Holds alone schema p t clock m)
    h.exists_ends_describe (fun e he s here => ?_) (fun s here => ?_) (fun e he s here => ?_)
  · obtain ⟨e', saved⟩ := saves e he
    obtain ⟨_, _, once, -⟩ := saved.parts
    exact here.exists_ends_prepare steady leaves ⟨_, _, once⟩
  · obtain ⟨s', stored, next⟩ := here.exists_ends_run
      (MemoryStore.insertAll clock (es.map t.recordOf)) lawful es.length fun _ => rfl
    rw [← here.clock, ← List.length_map (f := t.recordOf)] at stored
    exact ⟨s', (ends_readings _ s).bind stored, next⟩
  · obtain ⟨e', saved⟩ := saves e he
    obtain ⟨_, _, -, twice⟩ := saved.parts
    obtain ⟨s', completed, next⟩ :=
      here.exists_ends (Workflow.steady_complete steady leaves t _) twice
    exact ⟨e', s', completed, next, saved⟩

end Steady

end Session.Holds

end

/-- Counts the events, and refuses some items before the store and some behind it. -/
def particular : Listener (MemoryStore × Nat) := fun ev w =>
  let labelled (text : String) := ev.record?.any (Record.hasKey "label" (.string text))
  let refused := match ev.phase with
    | .preRecord => labelled "early"
    | .postRecord => labelled "late"
    | _ => false
  (if refused then .error "refused" else .ok (), (w.1, w.2 + 1))

def leasedItem : Integer := ⟨.u8, 1, by decide, by decide⟩

def lastingItem : Integer := ⟨.i32, 9, by decide, by decide⟩

/-- The first item expires at the tenth instant. -/
def leasedStore : MemoryStore :=
  { database := .document
    tables := [("Item", [⟨itemType.recordOf (item leasedItem "x"), some ⟨10⟩⟩,
      ⟨itemType.recordOf (item lastingItem "y"), none⟩])] }

/-- Without an assumption on the clocks the order can differ: the leased item is replaced in its
place where the first of two records comes in time, and follows the other item where it does not. -/
example :
    let two : Integer := ⟨.u8, 2, by decide, by decide⟩
    let batch := [item leasedItem "b", item two "c"].map itemType.recordOf
    ((leasedStore.putAll (fun i => ⟨8 + 4 * i⟩) batch).table "Item").map (·.record) =
        [item leasedItem "b", item lastingItem "y", item two "c"].map itemType.recordOf ∧
      ((leasedStore.putAll (fun _ => ⟨12⟩) batch).table "Item").map (·.record) =
        [item lastingItem "y", item leasedItem "b", item two "c"].map itemType.recordOf :=
  ⟨rfl, rfl⟩

/-- The clock moves on by one at each reading. -/
def leasedSession : Session (MemoryStore × Nat) :=
  { itemSession with clock := fun i => ⟨9 + i⟩, world := (leasedStore, 0) }

end RecordMapper
