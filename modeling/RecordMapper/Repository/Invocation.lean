import RecordMapper.Mapping.Path
import RecordMapper.Repository.Definition
import RecordMapper.Repository.Result

/-!
Repositories answer the query methods they declare. The field names of a method are turned into
column paths before the query reaches the store.
-/

namespace RecordMapper

structure Repository (σ : Type) where
  template : Template σ
  definition : RepositoryDefinition
  type : TypeKey
  descriptor : TypeDescriptor

/-- A hash table takes two records for one key where they feed its hash the same and are equal. -/
def Record.sameKey (a b : Record) : Bool := a.hashWords == b.hashWords && a == b

/-- The records that are not among the keys of a hash table when they come. Each one that is kept
becomes a key. -/
def distinctRecords (rs : List Record) : List Record :=
  rs.foldl (fun seen r => if seen.any (·.sameKey r) then seen else seen ++ [r]) []

namespace Repository

variable {σ : Type}

/-- A repository of a type, which is described at once. -/
def ofTemplate (t : Template σ) (d : RepositoryDefinition) (type : TypeKey) : Action σ (Repository σ) := do
  let descriptor ← Action.describe t.schema type
  pure ⟨t, d, type, descriptor⟩

/-- The condition of a call on the columns of the type. -/
def condition (r : Repository σ) (m : MethodName) (args : List Value) : Action σ Condition := do
  let c ← Action.ofExcept (m.bind args)
  let sep ← Action.separator
  pure (c.mapFields (r.descriptor.columnOrSelf sep))

def selectQuery (r : Repository σ) (m : MethodName) (args : List Value) : Action σ SelectQuery := do
  let sep ← Action.separator
  let sorts := m.sorts.map fun k => { k with field := r.descriptor.columnOrSelf sep k.field }
  let c ← r.condition m args
  pure { name := r.descriptor.name, condition := some c, sorts := sorts }

def deleteQuery (r : Repository σ) (m : MethodName) (args : List Value) : Action σ DeleteQuery := do
  let c ← r.condition m args
  pure { name := r.descriptor.name, condition := some c }

/-- Brings what a query selects into a shape. -/
def adapt (r : Repository σ) (shape : ReturnShape) (q : SelectQuery) : Action σ QueryResult :=
  let t := r.template
  match shape with
  | .one => .one <$> t.single r.type q
  | .optional => .optional <$> t.single r.type q
  | .list => .list <$> t.select r.type q
  | .set => do
    let records ← t.manager.select q
    .set <$> (distinctRecords records).mapM (t.toEntity r.type)
  | .stream => do
    let records ← t.manager.select q
    pure (.stream ⟨r.type, records⟩)
  | .boolean | .unit => throw (.finderShape shape)

/-- Calls a declared method with positional arguments. -/
def invoke (r : Repository σ) (method : String) (args : List Value) : Action σ QueryResult := do
  match r.definition.method? method with
  | none => throw (.undeclaredMethod method r.descriptor.typeName)
  | some binding =>
    let m := binding.compiled.method
    match m.kind with
    | .delete =>
      let q ← r.deleteQuery m args
      r.template.delete q
      pure .unit
    | .existence =>
      let q ← r.selectQuery m args
      let found ← r.template.manager.select { q with limit := some 1 }
      pure (.boolean !found.isEmpty)
    | .find | .get =>
      let q ← r.selectQuery m args
      r.adapt binding.shape q

end Repository

end RecordMapper
