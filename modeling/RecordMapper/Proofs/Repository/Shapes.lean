import RecordMapper.Proofs.Repository.Forms
import RecordMapper.Proofs.Record.Equality

/-!
What a finder makes of one reply of the store. Every shape converts the same records: all of them at
once, the first ones of equal records, one after the other on demand, or a single one.
-/

namespace RecordMapper

open RecordMapper.Action

/-- The records that are equal to no record before them. -/
def firstRecords (rs : List Record) : List Record :=
  (rs.zipIdx.filter fun x => !(rs.take x.2).any (· == x.1)).map (·.1)

theorem firstRecords_concat (rs : List Record) (r : Record) : firstRecords (rs ++ [r]) =
    firstRecords rs ++ if rs.any (· == r) then [] else [r] := by
  have earlier : ∀ x ∈ rs.zipIdx, (rs ++ [r]).take x.2 = rs.take x.2 := by
    intro x hx
    obtain ⟨inside, -⟩ := List.mem_zipIdx' (x := x.1) (i := x.2) hx
    exact List.take_append_of_le_length (by omega)
  rw [firstRecords, firstRecords, List.zipIdx_append, List.filter_append, List.map_append,
    List.filter_congr fun x hx => by rw [earlier x hx]]
  congr 1
  cases known : rs.any (· == r) <;> simp [List.zipIdx_cons, known]

theorem firstRecords_subset (rs : List Record) : firstRecords rs ⊆ rs := by
  intro r hr
  obtain ⟨x, hx, rfl⟩ := List.mem_map.mp hr
  exact List.fst_mem_of_mem_zipIdx (List.mem_of_mem_filter hx)

theorem distinctRecords_concat (rs : List Record) (r : Record) : distinctRecords (rs ++ [r]) =
    if (distinctRecords rs).any (·.sameKey r) then distinctRecords rs
    else distinctRecords rs ++ [r] := by
  rw [distinctRecords, List.foldl_append]
  rfl

/-- Equal records have the same hash, so that a hash table tells records apart as equality does. -/
theorem Record.sameKey_eq {a b : Record} (ha : a.FloatFree) (hb : b.FloatFree)
    (left : a.names.Nodup) (right : b.names.Nodup) : a.sameKey b = (a == b) := by
  cases same : a == b with
  | false => simp [sameKey, same]
  | true =>
    have hashes := hashWords_congr ha hb ((beq_iff_cmp left right).mp same)
    simp [sameKey, same, hashes]

/-- A record that is equal to one of the records is equal to a first one. -/
theorem any_firstRecords {rs : List Record} (free : ∀ x ∈ rs, x.FloatFree) {r : Record} :
    (firstRecords rs).any (· == r) = rs.any (· == r) := by
  induction rs using List.reverseRecOn with
  | nil => rfl
  | append_singleton rs x ih =>
    have before := ih fun y hy => free y (List.mem_append_left _ hy)
    rw [firstRecords_concat, List.any_append, List.any_append, before]
    cases known : rs.any (· == x) with
    | false => rfl
    | true =>
      -- The record is left out, and what equals it equals the earlier one as well.
      obtain ⟨y, hy, same⟩ := List.any_eq_true.mp known
      cases meets : x == r with
      | false => simp [meets]
      | true =>
        have through := Record.beq_trans (free y (List.mem_append_left _ hy))
          (free x (by simp)) same meets
        have found : rs.any (· == r) = true := List.any_eq_true.mpr ⟨y, hy, through⟩
        simp [found]

/-- Looking a record up among those kept so far finds what comparing it with all of them finds. -/
theorem distinctRecords_eq {rs : List Record} (free : ∀ x ∈ rs, x.FloatFree)
    (apart : ∀ x ∈ rs, x.names.Nodup) : distinctRecords rs = firstRecords rs := by
  induction rs using List.reverseRecOn with
  | nil => rfl
  | append_singleton rs r ih =>
    have earlier : ∀ x ∈ rs, x ∈ rs ++ [r] := fun x hx => List.mem_append_left _ hx
    have before := ih (fun x hx => free x (earlier x hx)) fun x hx => apart x (earlier x hx)
    have keys : (firstRecords rs).any (·.sameKey r) = (firstRecords rs).any (· == r) := by
      rw [Bool.eq_iff_iff, List.any_eq_true, List.any_eq_true]
      refine exists_congr fun x => and_congr_right fun hx => ?_
      have old := earlier x (firstRecords_subset rs hx)
      rw [Record.sameKey_eq (free x old) (free r (by simp)) (apart x old) (apart r (by simp))]
    rw [distinctRecords_concat, firstRecords_concat, before, keys,
      any_firstRecords fun x hx => free x (earlier x hx)]
    split <;> simp

/-- A whole number and a floating-point number that are equal but feed a hash differently stay
beside each other. -/
example :
    let odd : Integer := ⟨.i64, 9007199254740993, by decide, by decide⟩
    let a : Record := ⟨"Box", [("x", .int odd)]⟩
    let b : Record := ⟨"Box", [("x", .f64 (.finite false 1 53))]⟩
    (a == b) = true ∧ (distinctRecords [a, b]).length = 2 := by decide +kernel

namespace Action

variable {σ α β : Type} {s s' : Session σ}

theorem run_map {x : Action σ α} {outcome : Except Failure α} (ran : x.run.run s = (outcome, s'))
    (f : α → β) : (f <$> x).run.run s = (outcome.map f, s') := by
  rw [map_eq_pure_bind, run_bind ran]
  cases outcome <;> rfl

theorem run_ofExcept (x : Except Failure α) (s : Session σ) :
    (ofExcept x).run.run s = (x, s) := by
  cases x <;> rfl

/-- Actions that leave the session alone have the outcomes of their elements. -/
theorem run_mapM {f : α → Action σ β} {g : α → Except Failure β}
    (each : ∀ x, (f x).run.run s = (g x, s)) (xs : List α) :
    (xs.mapM f).run.run s = (xs.mapM g, s) := by
  induction xs with
  | nil => rfl
  | cons x xs ih =>
    rw [List.mapM_cons, List.mapM_cons, run_bind (each x)]
    cases g x with
    | error failure => rfl
    | ok b =>
      have rest : (xs.mapM f >>= fun bs => (pure (b :: bs) : Action σ (List β))).run.run s =
          ((xs.mapM g).map (b :: ·), s) := by
        rw [run_bind ih]
        cases xs.mapM g <;> rfl
      refine rest.trans ?_
      cases xs.mapM g <;> rfl

end Action

section Shapes

variable {σ : Type} {template : Template σ} {type : TypeKey} {t : TypeDescriptor}
  {s s' : Session σ}

theorem Template.run_toEntity (known : s.registry.find? type = some t) (r : Record) :
    (template.toEntity type r).run.run s = (t.toEntity r, s) :=
  ((ends_describe known).run_bind _).trans (run_ofExcept _ s)

namespace EntityStream

/-- A stream that converts, one call after the other, to the given outcomes, each of which it counts
until it is called for. -/
inductive Yields (template : Template σ) (t : TypeDescriptor) :
    EntityStream → List (Except Failure Entity) → Prop
  | done {stream : EntityStream} (last : stream.next? template = none)
    (empty : stream.remaining = 0) : Yields template t stream []
  | next {stream rest : EntityStream} {x : Action σ Entity} {outcome : Except Failure Entity}
    {outcomes : List (Except Failure Entity)} (step : stream.next? template = some (x, rest))
    (counted : stream.remaining = rest.remaining + 1)
    (converts : ∀ s : Session σ, s.registry.find? stream.type = some t →
      x.run.run s = (outcome, s))
    (later : Yields template t rest outcomes) : Yields template t stream (outcome :: outcomes)

theorem yields (template : Template σ) (type : TypeKey) (t : TypeDescriptor) (rs : List Record) :
    (EntityStream.mk type rs).Yields template t (rs.map t.toEntity) := by
  induction rs with
  | nil => exact .done rfl rfl
  | cons r rs ih => exact .next rfl rfl (fun _ known => Template.run_toEntity known r) ih

end EntityStream

/-- The shapes of at most one entity, with what they make of it. -/
def ReturnShape.wrap? : ReturnShape → Option (Option Entity → QueryResult)
  | .one => some .one
  | .optional => some .optional
  | _ => none

/-- What the records of a reply become in a shape. A Boolean and nothing are not among the shapes. -/
inductive Adapted (template : Template σ) (t : TypeDescriptor) (rs : List Record) :
    ReturnShape → Except Failure QueryResult → Prop
  | list : Adapted template t rs .list ((rs.mapM t.toEntity).map .list)
  | set : Adapted template t rs .set (((firstRecords rs).mapM t.toEntity).map .set)
  | stream {stream : EntityStream} (count : stream.remaining = rs.length)
    (yields : stream.Yields template t (rs.map t.toEntity))
    (collects : ∀ s : Session σ, s.registry.find? stream.type = some t →
      ((QueryResult.stream stream).toList template).run.run s = (rs.mapM t.toEntity, s)) :
    Adapted template t rs .stream (.ok (.stream stream))
  | none {shape : ReturnShape} {wrap : Option Entity → QueryResult}
    (single : shape.wrap? = some wrap) (empty : rs = []) :
    Adapted template t rs shape (.ok (wrap none))
  | one {shape : ReturnShape} {wrap : Option Entity → QueryResult} {r : Record}
    (single : shape.wrap? = some wrap) (only : rs = [r]) :
    Adapted template t rs shape ((t.toEntity r).map fun e => wrap (some e))
  | several {shape : ReturnShape} {wrap : Option Entity → QueryResult} {failure : Failure}
    (single : shape.wrap? = some wrap) (many : 2 ≤ rs.length)
    (kind : failure.kind = .nonUniqueResult) :
    Adapted template t rs shape (.error failure)

theorem Template.run_single {q : SelectQuery} {rs : List Record}
    (selected : (template.manager.select q).Ends s rs s')
    (known : s'.registry.find? type = some t) {shape : ReturnShape}
    {wrap : Option Entity → QueryResult} (single : shape.wrap? = some wrap) :
    ∃ outcome, (wrap <$> template.single type q).run.run s = (outcome, s') ∧
      Adapted template t rs shape outcome := by
  have ran : (template.single type q).run.run s = _ := selected.run_bind _
  rcases rs with _ | ⟨r, _ | ⟨r', rest⟩⟩
  · exact ⟨_, run_map ran wrap, .none single rfl⟩
  · have converted := run_map (ran.trans (run_map (Template.run_toEntity known r) some)) wrap
    refine ⟨_, converted, ?_⟩
    have whole : ((t.toEntity r).map some).map wrap =
        (t.toEntity r).map fun e => wrap (some e) := by
      cases t.toEntity r <;> rfl
    rw [whole]
    exact .one single rfl
  · exact ⟨_, run_map ran wrap, .several single (by simp) rfl⟩

namespace Repository

variable {r : Repository σ} {q : SelectQuery} {rs : List Record}

theorem run_adapt (selected : (r.template.manager.select q).Ends s rs s')
    (known : s'.registry.find? r.type = some t) (free : ∀ x ∈ rs, x.FloatFree)
    (apart : ∀ x ∈ rs, x.names.Nodup) {shape : ReturnShape} (flag : shape ≠ .boolean) (unit : shape ≠ .unit) :
    ∃ outcome, (r.adapt shape q).run.run s = (outcome, s') ∧
      Adapted r.template t rs shape outcome := by
  have converts := run_mapM fun x => (Template.run_toEntity known x :
    (r.template.toEntity r.type x).run.run s' = (t.toEntity x, s'))
  cases shape with
  | one => exact Template.run_single selected known rfl
  | optional => exact Template.run_single selected known rfl
  | list => exact ⟨_, run_map ((selected.run_bind _).trans (converts rs)) QueryResult.list, .list⟩
  | set =>
    have distinct := run_map (converts (firstRecords rs)) QueryResult.set
    rw [← distinctRecords_eq free apart] at distinct
    refine ⟨_, (selected.run_bind _).trans distinct, ?_⟩
    rw [distinctRecords_eq free apart]
    exact .set
  | stream =>
    refine ⟨_, selected.run_bind _, .stream rfl (EntityStream.yields _ _ _ rs) fun s known => ?_⟩
    exact run_mapM (Template.run_toEntity known) rs
  | boolean => exact absurd rfl flag
  | unit => exact absurd rfl unit

end Repository

end Shapes

namespace RepositoryDefinition

/-- Every method of the definition has a shape that its kind can return. -/
def Fitting (d : RepositoryDefinition) : Prop :=
  ∀ name binding, d.method? name = some binding →
    binding.shape.accepts binding.compiled.method.kind = true

theorem Fitting.declare {d d' : RepositoryDefinition} {name : String} {shape : ReturnShape}
    {c : Compiler} (fitting : d.Fitting) (declared : (d.declare name shape c).1 = .ok d') :
    d'.Fitting := by
  unfold RepositoryDefinition.declare at declared
  split at declared
  next => cases declared
  next compiled c' compiles =>
    split at declared
    next => cases declared
    next fits =>
      split at declared
      next => cases declared
      next =>
        cases declared
        intro other binding bound
        rw [method?, lookup_append, Option.or_eq_some_iff] at bound
        rcases bound with old | ⟨-, new⟩
        · exact fitting other binding old
        · obtain ⟨-, rfl⟩ := by simpa [lookup] using new
          simpa using fits

theorem Fitting.declareAll {d d' : RepositoryDefinition} {methods : List (String × ReturnShape)}
    {c : Compiler} (fitting : d.Fitting) (declared : (d.declareAll methods c).1 = .ok d') :
    d'.Fitting := by
  induction methods generalizing d c with
  | nil =>
    cases declared
    exact fitting
  | cons entry methods ih =>
    obtain ⟨name, shape⟩ := entry
    cases step : d.declare name shape c with
    | mk outcome c' =>
      cases outcome with
      | error failure => simp [RepositoryDefinition.declareAll, step] at declared
      | ok mid =>
        have first : (d.declare name shape c).1 = .ok mid := by rw [step]
        exact ih (fitting.declare first)
          (by simpa [RepositoryDefinition.declareAll, step] using declared)

theorem fitting_withCompiler {d : RepositoryDefinition} {methods : List (String × ReturnShape)}
    {c : Compiler} (defined : (withCompiler c methods).1 = .ok d) : d.Fitting :=
  Fitting.declareAll (fun _ _ bound => by cases bound) defined

end RepositoryDefinition

namespace Repository

variable {σ : Type} {r : Repository σ} {s s' : Session σ}

/-- Whatever was described before: a declared finder whose arguments bind makes of the records that
the store selects, each of which has its names once, what its shape says, and its shape is neither a
Boolean nor nothing. -/
theorem run_invoke_adapted {template : Template σ} {type : TypeKey} {d : RepositoryDefinition}
    {c : Compiler} {methods : List (String × ReturnShape)} {s₀ s₁ : Session σ}
    (defined : (RepositoryDefinition.withCompiler c methods).1 = .ok d)
    (registry : Registry.Reachable template.schema s₀.registry)
    (opened : (ofTemplate template d type).Ends s₀ r s₁) {method : String}
    {binding : MethodBinding} (declared : r.definition.method? method = some binding)
    (finder : binding.compiled.method.kind = .find ∨ binding.compiled.method.kind = .get)
    {args : List Value} {tree : Condition} (bound : binding.compiled.method.bind args = .ok tree)
    (grown : s₁.registry.Extends s.registry) {rs : List Record}
    (selected : (r.template.manager.select
      (r.query s.separator binding.compiled.method.sorts tree)).Ends s rs s')
    (kept : s.registry.Extends s'.registry) (free : ∀ x ∈ rs, x.FloatFree)
    (apart : ∀ x ∈ rs, x.names.Nodup) :
    (binding.shape ≠ .boolean ∧ binding.shape ≠ .unit) ∧
      ∃ outcome, (r.invoke method args).run.run s = (outcome, s') ∧
        Adapted r.template r.descriptor rs binding.shape outcome := by
  obtain ⟨t, described, rfl, rfl⟩ := of_ends_ofTemplate opened
  have known := kept _ _ (grown _ _ (registry.find?_describe described))
  have fits := RepositoryDefinition.fitting_withCompiler defined method binding declared
  have shapes : binding.shape ≠ .boolean ∧ binding.shape ≠ .unit := by
    constructor
    · intro shape
      rcases finder with kind | kind <;> simp [shape, kind, ReturnShape.accepts] at fits
    · intro shape
      rcases finder with kind | kind <;> simp [shape, kind, ReturnShape.accepts] at fits
  obtain ⟨outcome, ran, adapted⟩ := run_adapt selected known free apart shapes.1 shapes.2
  refine ⟨shapes, outcome, ?_, adapted⟩
  have invoked : (⟨template, d, type, t⟩ : Repository σ).invoke method args =
      selectQuery ⟨template, d, type, t⟩ binding.compiled.method args >>=
        adapt ⟨template, d, type, t⟩ binding.shape := by
    unfold invoke
    rw [declared]
    rcases finder with kind | kind <;> simp only [kind]
  rw [invoked, (ends_query bound s).run_bind]
  exact ran

end Repository

/-- Finders by one plain field, in every shape but an instance, which is an optional one's twin. -/
def twinMethods : List (String × ReturnShape) :=
  [("findByCity", .list), ("getByCity", .set), ("findByName", .stream), ("getByName", .optional)]

def finderBy (name : String) (kind : QueryKind) (field : String) : MethodName :=
  { name, kind, clauses := [⟨field, .equals⟩], connectors := [], sorts := [] }

def personRow (id name city : String) : Record :=
  ⟨"Person", [("_id", .string id), ("name", .string name), ("city", .string city)]⟩

/-- A person twice, the second time with the entries in another order, before another person. The
key column is one that none of them has. -/
def twinRows : List Record :=
  [personRow "1" "Ada" "London",
    ⟨"Person", [("city", .string "London"), ("name", .string "Ada"), ("_id", .string "1")]⟩,
    personRow "2" "Grace" "London"]

def twinSession : Session MemoryStore :=
  { peopleSession with
    world :=
      { database := .document
        keys := [("Person", "code")]
        tables := [("Person", Table.lasting twinRows)] } }

theorem floatFree_twinRows : ∀ r ∈ twinRows, r.FloatFree := by
  simp only [twinRows, personRow, List.forall_mem_cons]
  refine ⟨.record ?_, .record ?_, .record ?_, by simp⟩ <;> simp only [List.forall_mem_cons]
  all_goals exact ⟨.string _, .string _, .string _, by simp⟩

theorem run_invoke_adapted_people :
    ∃ d, (RepositoryDefinition.withCompiler {} twinMethods).1 = .ok d ∧
      let r := peopleForms d
      let left := twinSession.after 1
      let ada := person "1" "Ada" "London"
      let grace := person "2" "Grace" "London"
      (r.invoke "findByCity" [.string "London"]).run.run twinSession =
        (.ok (.list [ada, ada, grace]), left) ∧
      (r.invoke "getByCity" [.string "London"]).run.run twinSession =
        (.ok (.set [ada, grace]), left) ∧
      (∃ stream, (r.invoke "findByName" [.string "Ada"]).run.run twinSession =
          (.ok (.stream stream), left) ∧ stream.remaining = 2 ∧
        stream.Yields r.template personType [.ok ada, .ok ada]) ∧
      (r.invoke "getByName" [.string "Grace"]).run.run twinSession =
        (.ok (.optional (some grace)), left) ∧
      ∃ failure, (r.invoke "getByName" [.string "Ada"]).run.run twinSession =
        (.error failure, left) ∧ failure.kind = .nonUniqueResult := by
  have compiles : (RepositoryDefinition.withCompiler {} twinMethods).1.toOption.isSome = true := by
    decide +kernel
  obtain ⟨d, some_definition⟩ := Option.isSome_iff_exists.mp compiles
  have defined := toOption_eq_some_iff.mp some_definition
  have opened : (Repository.ofTemplate peopleRepository.template d ⟨"", "Person"⟩).Ends
    { peopleSession with registry := {} } (peopleForms d) peopleSession := rfl
  have lawful : wholeStore.Lawful := fun _ _ => rfl
  have distinct : ∀ r ∈ twinRows, r.names.Nodup := by decide
  have call (name : String) (kind : QueryKind) (shape : ReturnShape) (field text : String)
      (declared : (name, shape) ∈ twinMethods) (finder : kind = .find ∨ kind = .get)
      (read : MethodName.parse name = .ok (finderBy name kind field))
      (plain : personType.columnOrSelf "." field = field) :
      ∃ outcome, ((peopleForms d).invoke name [.string text]).run.run twinSession =
          (outcome, twinSession.after 1) ∧
        Adapted peopleRepository.template personType
          (twinRows.filter (admits "." (some (.equals field (.string text))))) shape outcome := by
    obtain ⟨identity, method⟩ :=
      (RepositoryDefinition.withCompiler_ok .empty defined declared).exists_method? read
    have bound : (finderBy name kind field).bind [.string text] =
      .ok (.equals field (.string text)) := rfl
    have keeps : (wholeStore.find twinSession.world).Keeps "Person" "code" twinRows := ⟨rfl, rfl⟩
    have query : (peopleForms d).query "." [] (.equals field (.string text)) =
        { name := "Person", condition := some (.equals field (.string text)) } := by
      have own : (peopleForms d).descriptor.columnOrSelf "." field = field := plain
      simp only [Repository.query, Condition.equals, Condition.mapFields, own]
      rfl
    obtain ⟨world, selected, same⟩ := RecordManager.Place.exists_ends_select lawful .document true
      twinSession ((peopleForms d).query "." [] (.equals field (.string text)))
    obtain rfl : world = twinSession.world := same
    rw [query, keeps.select, ← query] at selected
    obtain ⟨-, outcome, ran, adapted⟩ := Repository.run_invoke_adapted defined .empty opened
      (s := twinSession) method finder bound (.refl _) selected (.refl _)
      (fun x hx => floatFree_twinRows x (List.mem_of_mem_filter hx))
      fun x hx => distinct x (List.mem_of_mem_filter hx)
    exact ⟨outcome, ran, adapted⟩
  have byCity : twinRows.filter (admits "." (some (.equals "city" (.string "London")))) =
    twinRows := by with_unfolding_all rfl
  have byName : twinRows.filter (admits "." (some (.equals "name" (.string "Ada")))) =
    twinRows.take 2 := by with_unfolding_all rfl
  have byOther : twinRows.filter (admits "." (some (.equals "name" (.string "Grace")))) =
    twinRows.drop 2 := by with_unfolding_all rfl
  refine ⟨d, defined, ?_, ?_, ?_, ?_, ?_⟩
  · obtain ⟨outcome, ran, adapted⟩ := call "findByCity" .find .list "city" "London"
      (by decide) (.inl rfl) (toOption_eq_some_iff.mp (by decide +kernel)) rfl
    rw [byCity] at adapted
    cases adapted with
    | list => exact ran
    | none single | one single | several single => cases single
  · obtain ⟨outcome, ran, adapted⟩ := call "getByCity" .get .set "city" "London"
      (by decide) (.inr rfl) (toOption_eq_some_iff.mp (by decide +kernel)) rfl
    rw [byCity] at adapted
    cases adapted with
    | set => exact ran
    | none single | one single | several single => cases single
  · obtain ⟨outcome, ran, adapted⟩ := call "findByName" .find .stream "name" "Ada"
      (by decide) (.inl rfl) (toOption_eq_some_iff.mp (by decide +kernel)) rfl
    rw [byName] at adapted
    cases adapted with
    | stream count yields => exact ⟨_, ran, count, yields⟩
    | none single | one single | several single => cases single
  · obtain ⟨outcome, ran, adapted⟩ := call "getByName" .get .optional "name" "Grace"
      (by decide) (.inr rfl) (toOption_eq_some_iff.mp (by decide +kernel)) rfl
    rw [byOther] at adapted
    cases adapted with
    | none single empty => cases empty
    | one single only =>
      cases single
      cases only
      exact ran
    | several single many => exact absurd many (by decide)
  · obtain ⟨outcome, ran, adapted⟩ := call "getByName" .get .optional "name" "Ada"
      (by decide) (.inr rfl) (toOption_eq_some_iff.mp (by decide +kernel)) rfl
    rw [byName] at adapted
    cases adapted with
    | none single empty => cases empty
    | one single only => cases only
    | several single many kind => exact ⟨_, ran, kind⟩

end RecordMapper
