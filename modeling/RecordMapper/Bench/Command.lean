import RecordMapper.Schema.Form
import RecordMapper.Template.Async

/-! Commands to templates, which give entities by forms; forms are filled in when a command runs. -/

namespace RecordMapper.Bench

inductive TemplateCommand where
  | insert (form : Form)
  | insertFor (form : Form) (nanos : Nat)
  | insertAll (forms : List Form)
  | insertAllFor (forms : List Form) (nanos : Nat)
  | update (form : Form)
  | updateAll (forms : List Form)
  | delete (q : DeleteQuery)
  | deleteById (id : Value)
  | select (q : SelectQuery)
  | single (q : SelectQuery)
  | findById (id : Value)
  | findAll
  /-- A run of the pipeline without listeners, around an action that splices a patch into the record
  or refuses it. -/
  | flow (form : Form) (patch : Record) (refuse : Bool)

inductive Reply where
  | one (e : Option Entity)
  | many (es : List Entity)
  | nothing

variable {σ : Type}

/-- The record that an action returns when it is given one and a patch for it. -/
def patched (patch : Record) (refuse : Bool) (r : Record) : Action σ Record :=
  if refuse then throw (.reported .internal "refused") else pure (r.splice patch)

namespace TemplateCommand

def run (t : Template σ) (type : TypeKey) (c : TemplateCommand) : Action σ Reply := do
  let fill (f : Form) : Action σ Entity := Action.ofExcept (t.schema.fill type f)
  let one (x : Action σ Entity) : Action σ Reply := (fun e => .one (some e)) <$> x
  match c with
  | insert f => one (t.insert type (← fill f))
  | insertFor f nanos => one (t.insertFor type (← fill f) nanos)
  | insertAll fs => .many <$> t.insertAll type (← fs.mapM fill)
  | insertAllFor fs nanos => .many <$> t.insertAllFor type (← fs.mapM fill) nanos
  | update f => one (t.update type (← fill f))
  | updateAll fs => .many <$> t.updateAll type (← fs.mapM fill)
  | delete q =>
    t.delete q
    pure .nothing
  | deleteById id =>
    t.deleteById type id
    pure .nothing
  | select q => .many <$> t.select type q
  | single q => .one <$> t.single type q
  | findById id => .one <$> t.findById type id
  | findAll => .many <$> t.findAll type
  | flow f patch refuse => one (Workflow.flow [] t.schema type (← fill f) (patched patch refuse))

end TemplateCommand

inductive AsyncCommand where
  | insert (form : Form)
  | insertFor (form : Form) (nanos : Nat)
  | update (form : Form)
  | delete (q : DeleteQuery)
  | select (q : SelectQuery)

namespace AsyncCommand

def submit (t : AsyncTemplate σ) (type : TypeKey) (c : AsyncCommand) : Action σ AsyncOperation := do
  let fill (f : Form) : Action σ Entity := Action.ofExcept (t.schema.fill type f)
  match c with
  | insert f => t.insert type (← fill f)
  | insertFor f nanos => t.insertFor type (← fill f) nanos
  | update f => t.update type (← fill f)
  | delete q => pure (AsyncTemplate.delete q)
  | select q => pure (AsyncTemplate.select type q)

end AsyncCommand

end RecordMapper.Bench
