import RecordMapper.Proofs.Query.Forms
import RecordMapper.Proofs.Repository.Finder

/-!
The forms of one query on a repository. Where a finder, an existence check and a delete share all
but the prefix of their names, they ask the store for the same records: they refuse the same
arguments, the check tells whether the finder selects anything, and the delete removes what it
selects.
-/

namespace RecordMapper

open RecordMapper.Action

/-- The shape in which a form is declared; the finders list what they find. -/
def QueryKind.shape : QueryKind → ReturnShape
  | find | get => .list
  | existence => .boolean
  | delete => .unit

namespace MemoryStore

variable {now later : Instant} {sep : String} {s : MemoryStore} {q : SelectQuery}

/-- A select without a limit answers, in some order, the live records that the condition admits. -/
theorem select_perm (unlimited : q.limit = none) :
    (s.select now sep q).Perm
      ((((s.table q.name).live now).filter fun stored =>
        admits sep q.condition stored.record).map (·.record)) := by
  simp only [select, unlimited]
  refine (List.mergeSort_perm _ _).trans ?_
  rw [List.filter_map]
  rfl

/-- The first record of a select tells whether there is one. -/
theorem isEmpty_select_limit (unlimited : q.limit = none) :
    (s.select now sep { q with limit := some 1 }).isEmpty = (s.select now sep q).isEmpty := by
  simp only [select, unlimited]
  cases (List.mergeSort _ _) <;> rfl

theorem table_delete (now : Instant) (sep : String) (dq : DeleteQuery) (s : MemoryStore) :
    (MemoryStore.delete now sep dq s).2.table dq.name =
      ((s.table dq.name).live now).filter fun stored => !admits sep dq.condition stored.record :=
  table_setTable s dq.name _

/-- Behind a delete, nothing that its condition admits is left, now or later. -/
theorem select_delete (unlimited : q.limit = none) (later : Instant) :
    (MemoryStore.delete now sep ⟨q.name, q.condition⟩ s).2.select later sep q = [] := by
  refine ((select_perm unlimited).trans (.of_eq ?_)).eq_nil
  have kept := table_delete now sep ⟨q.name, q.condition⟩ s
  rw [List.map_eq_nil_iff, kept, List.filter_eq_nil_iff]
  intro stored mem
  have stays := (List.mem_filter.mp (List.mem_filter.mp mem).1).2
  simpa using stays

/-- Of the live records of a name, those that were found are gone and the others stay, and nothing
else has changed. -/
structure Removes (now : Instant) (name : String) (found : List Record) (s s' : MemoryStore) :
    Prop where
  split : ∃ matched : StoredRecord → Bool,
    s'.table name = ((s.table name).live now).filter (!matched ·) ∧
      ((((s.table name).live now).filter matched).map (·.record)).Perm found
  others : ∀ other, other ≠ name → s'.table other = s.table other
  keys : s'.keys = s.keys

theorem removes_delete (unlimited : q.limit = none) :
    s.Removes now q.name (s.select now sep q)
      (MemoryStore.delete now sep ⟨q.name, q.condition⟩ s).2 :=
  ⟨⟨fun stored => admits sep q.condition stored.record, table_delete now sep _ s,
    (select_perm unlimited).symm⟩, fun _ apart => table_setTable_of_ne s _ apart, rfl⟩

end MemoryStore

namespace Repository

variable {σ : Type} {p : RecordManager.Place σ} {r : Repository σ} {s : Session σ}
  {name : String} {m : MethodName} {shape : ReturnShape} {args : List Value} {tree : Condition}
  {failure : Failure}

theorem fails_condition (refused : m.bind args = .error failure) (s : Session σ) :
    (r.condition m args).Fails s failure s :=
  (fails_ofExcept refused s).bind _

theorem ends_deleteQuery (bound : m.bind args = .ok tree) (s : Session σ) :
    (r.deleteQuery m args).Ends s
      ⟨(r.query s.separator m.sorts tree).name, (r.query s.separator m.sorts tree).condition⟩ s :=
  (ends_condition bound s).bind (.pure _ s)

/-- Arguments that cannot be bound are refused before the store is asked. -/
theorem fails_invoke (binds : r.definition.Binds name shape)
    (parsed : MethodName.parse name = .ok m) (refused : m.bind args = .error failure)
    (s : Session σ) : (r.invoke name args).Fails s failure s := by
  obtain ⟨identity, declared⟩ := binds.exists_method? parsed
  have select : (r.selectQuery m args).Fails s failure s :=
    (ends_separator s).bind_fails ((fails_condition refused s).bind _)
  have delete : (r.deleteQuery m args).Fails s failure s :=
    (fails_condition refused s).bind _
  unfold invoke
  rw [declared]
  cases kind : m.kind <;> simp only [kind]
  case delete => exact delete.bind _
  case existence => exact select.bind _
  case find => exact select.bind _
  case get => exact select.bind _

/-- The repository works on the memory store at a place. -/
structure OnMemory (r : Repository σ) (p : RecordManager.Place σ) : Prop where
  lawful : p.Lawful
  manager : ∃ database bulk, r.template.manager = .memory database p bulk

theorem OnMemory.exists_ends_select (memory : r.OnMemory p) (s : Session σ) (q : SelectQuery) :
    ∃ world, (r.template.manager.select q).Ends s ((p.find s.world).select s.now s.separator q)
      { s.after 1 with world } ∧ p.find world = p.find s.world := by
  obtain ⟨lawful, database, bulk, manager⟩ := memory
  rw [manager]
  exact RecordManager.Place.exists_ends_select lawful database bulk s q

theorem OnMemory.exists_ends_delete (memory : r.OnMemory p) (s : Session σ) (dq : DeleteQuery) :
    ∃ world, (r.template.delete dq).Ends s () { s.after 1 with world } ∧
      p.find world = (MemoryStore.delete s.now s.separator dq (p.find s.world)).2 := by
  obtain ⟨lawful, database, bulk, manager⟩ := memory
  obtain ⟨world, deleted, left⟩ := RecordManager.Place.exists_ends_run
    (MemoryStore.delete s.now s.separator dq) (s := s.after 1) lawful rfl
  refine ⟨world, ?_, left⟩
  rw [Template.delete, manager]
  exact (ends_now s).bind ((ends_separator _).bind deleted)

/-- A finder selects, and then converts what it has found. -/
theorem OnMemory.run_find (memory : r.OnMemory p) (binds : r.definition.Binds name .list)
    (parsed : MethodName.parse name = .ok m) (finder : m.kind = .find ∨ m.kind = .get)
    (bound : m.bind args = .ok tree) (s : Session σ) :
    ∃ world, p.find world = p.find s.world ∧ (r.invoke name args).run.run s =
      (QueryResult.list <$> ((p.find s.world).select s.now s.separator
        (r.query s.separator m.sorts tree)).mapM (r.template.toEntity r.type)).run.run
          { s.after 1 with world } := by
  obtain ⟨identity, declared⟩ := binds.exists_method? parsed
  obtain ⟨world, selected, left⟩ := memory.exists_ends_select s
    (r.query s.separator m.sorts tree)
  refine ⟨world, left, ?_⟩
  have invoked : r.invoke name args =
      r.selectQuery m args >>= r.adapt .list := by
    unfold invoke
    rw [declared]
    rcases finder with kind | kind <;> simp only [kind]
  rw [invoked, (ends_query bound s).run_bind]
  simp only [adapt, Template.select, map_bind]
  exact selected.run_bind _

/-- An existence check tells whether the finder of the same query selects anything. -/
theorem OnMemory.ends_exists (memory : r.OnMemory p) (binds : r.definition.Binds name .boolean)
    (parsed : MethodName.parse name = .ok m) (existence : m.kind = .existence)
    (bound : m.bind args = .ok tree) (s : Session σ) :
    ∃ world, p.find world = p.find s.world ∧ (r.invoke name args).Ends s
      (.boolean !((p.find s.world).select s.now s.separator
        (r.query s.separator m.sorts tree)).isEmpty) { s.after 1 with world } := by
  obtain ⟨identity, declared⟩ := binds.exists_method? parsed
  obtain ⟨world, selected, left⟩ := memory.exists_ends_select s
    { r.query s.separator m.sorts tree with limit := some 1 }
  refine ⟨world, left, ?_⟩
  unfold invoke
  rw [declared]
  simp only [existence]
  have answered := selected.bind (f := fun found => pure (QueryResult.boolean !found.isEmpty))
    (.pure _ _)
  rw [MemoryStore.isEmpty_select_limit rfl] at answered
  exact (ends_query bound s).bind answered

theorem OnMemory.ends_delete (memory : r.OnMemory p) (binds : r.definition.Binds name .unit)
    (parsed : MethodName.parse name = .ok m) (deletes : m.kind = .delete)
    (bound : m.bind args = .ok tree) (s : Session σ) :
    ∃ world, (r.invoke name args).Ends s .unit { s.after 1 with world } ∧
      p.find world = (MemoryStore.delete s.now s.separator
        ⟨(r.query s.separator m.sorts tree).name, (r.query s.separator m.sorts tree).condition⟩
          (p.find s.world)).2 := by
  obtain ⟨identity, declared⟩ := binds.exists_method? parsed
  obtain ⟨world, deleted, left⟩ := memory.exists_ends_delete s
    ⟨(r.query s.separator m.sorts tree).name,
      (r.query s.separator m.sorts tree).condition⟩
  refine ⟨world, ?_, left⟩
  unfold invoke
  rw [declared]
  simp only [deletes]
  exact (ends_deleteQuery bound s).bind (deleted.bind (.pure _ _))

/-- What the forms of a query do in a session where all of them ask the store for the same: the
finders convert what they select, the check tells whether that is anything, and the delete removes
it. From then on nothing is found, whatever else happens to the clock and to the registry. -/
structure Agree (r : Repository σ) (p : RecordManager.Place σ) (b : String) (args : List Value)
    (s : Session σ) (q : SelectQuery) : Prop where
  finds : ∀ k : QueryKind, k = .find ∨ k = .get → ∃ world, p.find world = p.find s.world ∧
    (r.invoke (k.keyword ++ b) args).run.run s =
      (QueryResult.list <$> ((p.find s.world).select s.now s.separator q).mapM
        (r.template.toEntity r.type)).run.run { s.after 1 with world }
  checks : ∃ world, p.find world = p.find s.world ∧
    (r.invoke (QueryKind.existence.keyword ++ b) args).Ends s
      (.boolean !((p.find s.world).select s.now s.separator q).isEmpty) { s.after 1 with world }
  deletes : ∃ world,
    (r.invoke (QueryKind.delete.keyword ++ b) args).Ends s .unit { s.after 1 with world } ∧
    (p.find s.world).Removes s.now q.name ((p.find s.world).select s.now s.separator q)
      (p.find world) ∧
    ∀ s' : Session σ, p.find s'.world = p.find world → s'.separator = s.separator →
      (∃ world', p.find world' = p.find s'.world ∧
        (r.invoke (QueryKind.existence.keyword ++ b) args).Ends s' (.boolean false)
          { s'.after 1 with world := world' }) ∧
      ∀ k : QueryKind, k = .find ∨ k = .get → ∃ world', p.find world' = p.find s'.world ∧
        (r.invoke (k.keyword ++ b) args).Ends s' (.list []) { s'.after 1 with world := world' }

theorem OnMemory.agree {b : String} {clauses : List Clause} {connectors : List Connector}
    {sorts : List SortKey} (memory : r.OnMemory p)
    (binds : ∀ k : QueryKind, r.definition.Binds (k.keyword ++ b) k.shape)
    (reads : ∀ k : QueryKind, MethodName.parse (k.keyword ++ b) =
      .ok ⟨k.keyword ++ b, k, clauses, connectors, sorts⟩)
    (bound : ∀ k : QueryKind,
      MethodName.bind ⟨k.keyword ++ b, k, clauses, connectors, sorts⟩ args = .ok tree)
    (s : Session σ) : r.Agree p b args s (r.query s.separator sorts tree) := by
  have finds (k : QueryKind) (finder : k = .find ∨ k = .get) (s : Session σ) := by
    have listed : r.definition.Binds (k.keyword ++ b) .list := by
      rcases finder with rfl | rfl
      · exact binds .find
      · exact binds .get
    exact memory.run_find listed (reads k) finder (bound k) s
  have checks := memory.ends_exists (binds .existence) (reads .existence) rfl (bound .existence)
  obtain ⟨world, deleted, left⟩ :=
    memory.ends_delete (binds .delete) (reads .delete) rfl (bound .delete) s
  have nothing (s' : Session σ) (after : p.find s'.world = p.find world)
      (same : s'.separator = s.separator) : (p.find s'.world).select s'.now s'.separator
        (r.query s'.separator sorts tree) = [] := by
    rw [after, left, same]
    exact MemoryStore.select_delete rfl s'.now
  refine ⟨fun k finder => finds k finder s, checks s, world, deleted, ?_,
    fun s' after same => ⟨?_, fun k finder => ?_⟩⟩
  · rw [left]
    exact MemoryStore.removes_delete rfl
  · obtain ⟨world', kept, answered⟩ := checks s'
    rw [nothing s' after same] at answered
    exact ⟨world', kept, answered⟩
  · obtain ⟨world', kept, ran⟩ := finds k finder s'
    rw [nothing s' after same] at ran
    exact ⟨world', kept, ran⟩

/-- Behind the four prefixes, a name compiles alike or not at all. A repository of a memory store
that declares all four forms refuses the same arguments in each, before it asks the store, and with
all others they agree on the records. -/
theorem forms_agree (b : String) :
    ((∃ kind, ∀ (k : QueryKind) (c : Compiler), c.Reachable → ∃ failure,
        (c.compile (k.keyword ++ b)).1 = .error failure ∧ failure.kind = kind) ∨
      ∃ clauses connectors sorts arity, ∀ (k : QueryKind) (c : Compiler), c.Reachable →
        ∃ compiled, (c.compile (k.keyword ++ b)).1 = .ok compiled ∧
          compiled.method = ⟨k.keyword ++ b, k, clauses, connectors, sorts⟩ ∧
          compiled.method.arity = arity) ∧
    ∀ {σ : Type} {p : RecordManager.Place σ} {template : Template σ} {type : TypeKey}
      {d : RepositoryDefinition} {c : Compiler} {methods : List (String × ReturnShape)}
      {s₀ s₁ : Session σ} {r : Repository σ},
      p.Lawful → (∃ database bulk, template.manager = .memory database p bulk) → c.Reachable →
      (RepositoryDefinition.withCompiler c methods).1 = .ok d →
      (∀ k : QueryKind, (k.keyword ++ b, k.shape) ∈ methods) →
      (ofTemplate template d type).Ends s₀ r s₁ →
      ∃ m, MethodName.parse (QueryKind.find.keyword ++ b) = .ok m ∧
        ∀ (args : List Value) (s : Session σ),
          (∃ failure, m.bind args = .error failure ∧ ∀ k : QueryKind, ∃ refusal,
            (r.invoke (k.keyword ++ b) args).Fails s refusal s ∧ refusal.kind = failure.kind) ∨
          ∃ tree, m.bind args = .ok tree ∧
            r.Agree p b args s (r.query s.separator m.sorts tree) := by
  refine ⟨Compiler.compile_forms b, ?_⟩
  intro σ p template type d c methods s₀ s₁ r lawful manager compiler defined declared opened
  obtain ⟨t, -, -, rfl⟩ := of_ends_ofTemplate opened
  have memory : OnMemory ⟨template, d, type, t⟩ p := ⟨lawful, manager⟩
  have binds (k : QueryKind) : d.Binds (k.keyword ++ b) k.shape :=
    RepositoryDefinition.withCompiler_ok compiler defined (declared k)
  obtain ⟨kind, unread⟩ | ⟨clauses, connectors, sorts, reads⟩ := MethodName.parse_forms b
  · obtain ⟨compiled, -, reading⟩ := binds .find
    obtain ⟨failure, failed, -⟩ := unread .find
    cases failed.symm.trans reading
  · let m (k : QueryKind) : MethodName := ⟨k.keyword ++ b, k, clauses, connectors, sorts⟩
    refine ⟨m .find, reads .find, fun args s => ?_⟩
    obtain ⟨kind, refused⟩ | ⟨tree, bound⟩ :=
      MethodName.uniform_bind (m := m) (fun _ => rfl) (fun _ => rfl) args
    · obtain ⟨failure, first, rfl⟩ := refused .find
      refine .inl ⟨failure, first, fun k => ?_⟩
      obtain ⟨refusal, refuses, same⟩ := refused k
      exact ⟨refusal, fails_invoke (binds k) (reads k) refuses s, same⟩
    · exact .inr ⟨tree, bound .find, memory.agree binds reads bound s⟩

end Repository

def wholeStore : RecordManager.Place MemoryStore := ⟨id, fun store _ => store⟩

def peopleForms (d : RepositoryDefinition) : Repository MemoryStore :=
  { peopleRepository with definition := d }

/-- The store holds two persons, of whom one is looked for. -/
def stockedSession : Session MemoryStore :=
  { peopleSession with
    world := { database := .document, tables := [("Person",
      [⟨personType.recordOf (person "1" "Ada" "London"), none⟩,
        ⟨personType.recordOf (person "2" "Alan" "Bath"), none⟩])] } }

def adaOrMiddle : Condition :=
  .or (.leaf ⟨"name", .equals, .single (.string "Ada")⟩)
    (.leaf ⟨"city", .between, .pair (.string "M") (.string "P")⟩)

theorem select_adaOrMiddle (d : RepositoryDefinition) :
    ((wholeStore.find stockedSession.world).select stockedSession.now stockedSession.separator
      ((peopleForms d).query stockedSession.separator byNameOrCity.sorts adaOrMiddle)).isEmpty =
        false := by
  -- The query does not depend on the definition.
  have found : ((wholeStore.find stockedSession.world).select stockedSession.now
      stockedSession.separator (peopleRepository.query stockedSession.separator
        byNameOrCity.sorts adaOrMiddle)).isEmpty = false := by
    decide +kernel
  exact found

theorem forms_agree_people :
    ∃ (r : Repository MemoryStore) (w w' w'' : MemoryStore),
      let args : List Value := [.string "Ada", .string "M", .string "P"]
      (r.invoke (QueryKind.existence.keyword ++ "NameOrCityBetween") args).Ends stockedSession
        (.boolean true) { stockedSession.after 1 with world := w } ∧
      (r.invoke (QueryKind.delete.keyword ++ "NameOrCityBetween") args).Ends stockedSession
        .unit { stockedSession.after 1 with world := w' } ∧
      (r.invoke (QueryKind.existence.keyword ++ "NameOrCityBetween") args).Ends
        { stockedSession.after 1 with world := w' } (.boolean false)
        { stockedSession.after 1 with world := w'' } := by
  have lawful : wholeStore.Lawful := fun _ _ => rfl
  let methods := QueryKind.all.map fun k => (k.keyword ++ "NameOrCityBetween", k.shape)
  have compiles : (RepositoryDefinition.withCompiler {} methods).1.toOption.isSome = true := by
    decide +kernel
  obtain ⟨d, some_definition⟩ := Option.isSome_iff_exists.mp compiles
  have defined := toOption_eq_some_iff.mp some_definition
  have declared (k : QueryKind) : (k.keyword ++ "NameOrCityBetween", k.shape) ∈ methods :=
    List.mem_map_of_mem (by cases k <;> decide)
  have opened : (Repository.ofTemplate peopleRepository.template d ⟨"", "Person"⟩).Ends
    { peopleSession with registry := {} } (peopleForms d) peopleSession := rfl
  obtain ⟨m, parsed, outcomes⟩ := (Repository.forms_agree "NameOrCityBetween").2 lawful
    ⟨.document, true, rfl⟩ .empty defined declared opened
  obtain rfl : byNameOrCity = m := Except.ok.inj (parse_byNameOrCity.symm.trans parsed)
  obtain ⟨failure, refused, -⟩ | ⟨tree, bound, agree⟩ :=
    outcomes [.string "Ada", .string "M", .string "P"] stockedSession
  · cases refused
  · obtain rfl : adaOrMiddle = tree := Except.ok.inj bound
    obtain ⟨w, -, found⟩ := agree.checks
    rw [select_adaOrMiddle] at found
    obtain ⟨w', deleted, -, after⟩ := agree.deletes
    obtain ⟨⟨w'', -, gone⟩, -⟩ := after { stockedSession.after 1 with world := w' } rfl rfl
    exact ⟨peopleForms d, w, w', w'', found, deleted, gone⟩

end RecordMapper
