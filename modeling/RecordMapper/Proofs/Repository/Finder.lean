import RecordMapper.Proofs.Mapping.Search
import RecordMapper.Proofs.Query.Binding
import RecordMapper.Proofs.Query.Tokens
import RecordMapper.Proofs.Repository.Definition
import RecordMapper.Proofs.Template.Saving
import RecordMapper.Repository.Invocation

/-!
Finders. What a repository finds among the entities that were saved is what its clauses accept of
them, judged on the values of their own fields, in the order of saving.
-/

namespace RecordMapper

open RecordMapper.Action

namespace TypeDescriptor

/-- The calls that filter entities of the type as they are: finders without an order, whose clauses
are on plain fields, with as many arguments as they need and none of these null. -/
structure Answers (t : TypeDescriptor) (sep : String) (m : MethodName) (args : List Value) :
    Prop where
  finder : m.kind = .find ∨ m.kind = .get
  unsorted : m.sorts = []
  plain : ∀ c ∈ m.clauses, t.Plain sep c.field
  enough : m.arity ≤ args.length
  given : ∀ v ∈ args.take m.arity, v.isNull = false

variable {t : TypeDescriptor} {sep : String} {e : Entity}

theorem Formed.recordOf_eq (formed : t.Formed) (populated : t.Populated e) :
    ∃ es, written e t = .ok es ∧ t.toRecord e = .ok ⟨t.name, es⟩ ∧ t.recordOf e = ⟨t.name, es⟩ := by
  obtain ⟨es, entries⟩ := populated.exists_written
  have recorded : t.toRecord e = .ok ⟨t.name, es⟩ := by
    rw [formed.toRecord_eq, entries]
    rfl
  exact ⟨es, entries, recorded, by rw [recordOf, recorded]⟩

theorem Populated.storable (populated : t.Populated e) (formed : t.Formed)
    (separated : t.Separated) (inhabited : t.fields ≠ []) : t.Storable e := by
  obtain ⟨es, entries, recorded, record⟩ := formed.recordOf_eq populated
  have some_entry := populated.written_ne_nil separated inhabited entries
  obtain ⟨e', read, same⟩ := formed.toEntity_written separated populated entries some_entry
  rw [← record] at read recorded
  exact ⟨recorded, by rw [record], e', read, same⟩

theorem Formed.judges_recordOf {m : MethodName} (formed : t.Formed) (populated : t.Populated e)
    (plain : ∀ c ∈ m.clauses, t.Plain sep c.field) :
    MethodName.Judges (fun leaf =>
      Criterion.test sep { leaf with field := t.columnOrSelf sep leaf.field } (t.recordOf e))
      (t.fieldValue? e) m.clauses := by
  obtain ⟨es, entries, -, record⟩ := formed.recordOf_eq populated
  intro c hc operand
  have value := (plain c hc).findPath?_eq formed populated entries
  simp only [Criterion.test, record, value]
  cases t.fieldValue? e c.field <;> rfl

end TypeDescriptor

namespace Repository

variable {σ : Type} {p : RecordManager.Place σ} {repository : Repository σ}
  {s : Session σ}

/-- The query for a condition on fields and an order by fields. -/
def query (r : Repository σ) (sep : String) (sorts : List SortKey) (tree : Condition) :
    SelectQuery :=
  { name := r.descriptor.name
    condition := some (tree.mapFields (r.descriptor.columnOrSelf sep))
    sorts := sorts.map fun k => { k with field := r.descriptor.columnOrSelf sep k.field } }

section

variable {m : MethodName} {args : List Value} {tree : Condition}

theorem ends_condition (bound : m.bind args = .ok tree) (s : Session σ) :
    (repository.condition m args).Ends s
      (tree.mapFields (repository.descriptor.columnOrSelf s.separator)) s :=
  (ends_ofExcept bound s).bind ((ends_separator s).bind (.pure _ s))

theorem ends_query (bound : m.bind args = .ok tree) (s : Session σ) :
    (repository.selectQuery m args).Ends s (repository.query s.separator m.sorts tree) s :=
  (ends_separator s).bind ((ends_condition bound s).bind (.pure _ s))

end

theorem exists_ends_select {template : Template σ} {t : TypeDescriptor} {sep column : String}
    {es : List Entity} (inMemory : template.InMemory p)
    (stocked : Stocked p t sep column (es.map t.recordOf) s)
    (storable : ∀ e ∈ es, t.Storable e) (condition : Condition) :
    ∃ found s', (template.select t.key { name := t.name, condition := some condition }).Ends s
      found s' ∧ List.Forall₂ t.SameFields
        (es.filter fun e => condition.test sep (t.recordOf e)) found := by
  have admitted : (p.find s.world).select s.now s.separator
      { name := t.name, condition := some condition } =
        (es.filter fun e => condition.test sep (t.recordOf e)).map t.recordOf := by
    rw [stocked.keeps.select, List.filter_map, stocked.separator]
    rfl
  obtain ⟨world, chosen, left⟩ := (inMemory.serves t.name).exists_ends_select s
    { name := t.name, condition := some condition }
  rw [admitted] at chosen
  have stocked₁ : Stocked p t sep column (es.map t.recordOf) { s.after 1 with world } :=
    ⟨stocked.separator, stocked.described, left ▸ stocked.keeps⟩
  have convert : ∀ front e back,
      (es.filter fun e => condition.test sep (t.recordOf e)) = front ++ e :: back → ∀ s,
      Stocked p t sep column (es.map t.recordOf) s → ∃ e' s',
        (template.toEntity t.key (t.recordOf e)).Ends s e' s' ∧
          Stocked p t sep column (es.map t.recordOf) s' ∧ t.SameFields e e' := by
    intro front e back split s stocked
    have mem : e ∈ es := List.mem_of_mem_filter (by rw [split]; simp)
    obtain ⟨e', read, same⟩ := (storable e mem).restored
    exact ⟨e', s, (ends_describe stocked.described).bind (ends_ofExcept read s), stocked, same⟩
  obtain ⟨found, s₂, converted, -, same⟩ :=
    exists_ends_mapM (fun _ => Stocked p t sep column (es.map t.recordOf)) convert stocked₁
  exact ⟨found, s₂, chosen.bind (by simpa [List.mapM_map, Function.comp_def] using converted), same⟩

/-- A call that answers for plain fields finds what its clauses accept. -/
theorem exists_ends_invoke {method : String} {m : MethodName} {args : List Value}
    {sep column : String} {es : List Entity} (inMemory : repository.template.InMemory p)
    (formed : repository.descriptor.Formed)
    (type : repository.type = repository.descriptor.key)
    (binds : repository.definition.Binds method .list) (parsed : MethodName.parse method = .ok m)
    (answers : repository.descriptor.Answers sep m args)
    (stocked : Stocked p repository.descriptor sep column (es.map repository.descriptor.recordOf) s)
    (populated : ∀ e ∈ es, repository.descriptor.Populated e)
    (storable : ∀ e ∈ es, repository.descriptor.Storable e) :
    ∃ found s', (repository.invoke method args).Ends s (.list found) s' ∧
      List.Forall₂ repository.descriptor.SameFields
        (es.filter fun e => m.accepts (repository.descriptor.fieldValue? e) args) found := by
  have some_clause := MethodName.clauses_ne_nil_of_parse parsed
  obtain ⟨tree, bound, decides⟩ :=
    MethodName.bind_ok some_clause answers.enough answers.given
  -- On the stored records, the condition on columns decides what the clauses say about fields.
  have accepted : ∀ e ∈ es,
      (tree.mapFields (repository.descriptor.columnOrSelf s.separator)).test sep
        (repository.descriptor.recordOf e) =
          m.accepts (repository.descriptor.fieldValue? e) args := by
    intro e he
    rw [Condition.test_eq_eval, Condition.eval_mapFields, stocked.separator]
    exact decides _ _ (formed.judges_recordOf (populated e he) answers.plain)
  obtain ⟨found, s', selected, same⟩ := exists_ends_select inMemory stocked storable
    (tree.mapFields (repository.descriptor.columnOrSelf s.separator))
  rw [List.filter_congr accepted] at same
  refine ⟨found, s', ?_, same⟩
  obtain ⟨identity, declared⟩ := binds.exists_method? parsed
  rw [← type] at selected
  have query : (repository.selectQuery m args).Ends s
      (repository.query s.separator m.sorts tree) s := ends_query bound s
  rw [Repository.query, answers.unsorted] at query
  have listed := query.bind (f := repository.adapt .list) (selected.map QueryResult.list)
  unfold invoke
  rw [declared]
  rcases answers.finder with kind | kind
  · simp only [kind]
    exact listed
  · simp only [kind]
    exact listed

theorem of_ends_ofTemplate {template : Template σ} {d : RepositoryDefinition} {type : TypeKey}
    {s' : Session σ} (opened : (ofTemplate template d type).Ends s repository s') :
    ∃ t, (Registry.describe template.schema type s.registry).1 = .ok t ∧
      s' = { s with registry := (Registry.describe template.schema type s.registry).2 } ∧
      repository = ⟨template, d, type, t⟩ := by
  obtain ⟨t, s₁, describes, rest⟩ := Ends.of_bind opened
  obtain ⟨described, left⟩ := describes.of_describe
  obtain ⟨made, same⟩ := Prod.mk.inj rest
  exact ⟨t, described, same.symm.trans left, (Except.ok.inj made).symm⟩

end Repository

def peopleSchema : Schema :=
  let text : FieldShape := .scalar (.typed .string)
  [{ key := ⟨"", "Person"⟩,
     fields := [{ name := "id", shape := text, isId := true }, { name := "name", shape := text },
      { name := "city", shape := text }] }]

def personType : TypeDescriptor :=
  let text (name column : String) (isId : Bool) : TypeDescriptor.Field :=
    ⟨name, column, isId, none, .value .plain (.typed .string)⟩
  .mk 0 ⟨"", "Person"⟩ "Person" (peopleSchema.freshWith ⟨"", "Person"⟩ [])
    [text "id" "_id" true, text "name" "name" false, text "city" "city" false]

def person (id name city : String) : Entity :=
  .mk ⟨"", "Person"⟩
    [("id", .content (.string id)), ("name", .content (.string name)),
      ("city", .content (.string city))]

def byNameOrCity : MethodName :=
  { name := "findByNameOrCityBetween"
    kind := .find
    clauses := [⟨"name", .equals⟩, ⟨"city", .between⟩]
    connectors := [.or]
    sorts := [] }

def peopleRepository : Repository MemoryStore :=
  { template := ⟨peopleSchema, .memory .document ⟨id, fun store _ => store⟩ true, []⟩
    definition := ⟨[("findByNameOrCityBetween", ⟨⟨0, byNameOrCity⟩, .list⟩)]⟩
    type := ⟨"", "Person"⟩
    descriptor := personType }

def peopleSession : Session MemoryStore :=
  { separator := "."
    clock := fun _ => ⟨0⟩
    registry := (Registry.describe peopleSchema ⟨"", "Person"⟩ {}).2
    world := { database := .document } }

theorem parse_byNameOrCity : MethodName.parse "findByNameOrCityBetween" = .ok byNameOrCity :=
  toOption_eq_some_iff.mp (by decide +kernel)

theorem defined_people :
    (RepositoryDefinition.withCompiler {} [("findByNameOrCityBetween", .list)]).1 =
      .ok peopleRepository.definition := by
  simp [RepositoryDefinition.withCompiler, RepositoryDefinition.declareAll,
    RepositoryDefinition.declare, RepositoryDefinition.method?, Compiler.compile, Compiler.lookup?,
    Compiler.allocate, Compiler.offer, lookup, parse_byNameOrCity, byNameOrCity,
    ReturnShape.accepts, peopleRepository]

theorem separated_person : personType.Separated := by
  have values : ∀ f ∈ personType.levelFields, f.nested? = none := by
    simp [personType, TypeDescriptor.levelFields, TypeDescriptor.levelFieldsOf,
      TypeDescriptor.levelFieldsOfField, TypeDescriptor.levelFieldsOfAccess,
      FieldDescriptor.nested?]
  refine .of_embedded (by decide) (fun f hf child access => ?_) fun f hf child access => ?_
  · have := values f hf
    simp [f.nested?_of_subEntity access] at this
  · have := values f hf
    simp [f.nested?_of_embedded access] at this

theorem populated_person (id name city : String) : personType.Populated (person id name city) := by
  refine populated_of_texts rfl fun place f hf => ?_
  match place with
  | 0 | 1 | 2 =>
    cases hf
    exact ⟨rfl, ⟨_, rfl⟩, _, rfl⟩
  | place + 3 => simp [personType, TypeDescriptor.fields] at hf

theorem answers_byNameOrCity :
    personType.Answers "." byNameOrCity [.string "Ada", .string "M", .string "P"] := by
  refine ⟨.inl rfl, rfl, fun c hc => ?_, by decide, by decide⟩
  rcases List.mem_pair.mp hc with rfl | rfl
  · exact ⟨by decide, _, _, _, rfl, rfl, rfl⟩
  · exact ⟨by decide, _, _, _, rfl, rfl, rfl⟩

end RecordMapper
