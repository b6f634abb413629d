import RecordMapper.Mapping.Reading
import RecordMapper.Pipeline.Event
import RecordMapper.Store.Session

/-!
The persist pipeline around every save and update: the input entity is announced, converted to a
record and the record announced; the action stores it; the record it returns is announced, converted
back, and the new entity announced and returned. The first failure ends the pipeline.
-/

namespace RecordMapper

abbrev Workflow (σ : Type) := List (Listener σ)

namespace Workflow

variable {σ : Type}

/-- Notifies the listeners in order, up to the first that refuses. -/
def fire (ev : Event) : Workflow σ → Action σ Unit
  | [] => pure ()
  | l :: ls => do
    Action.onWorld fun w =>
      let (verdict, w) := l ev w
      (verdict.mapError (.listener ev.phase ·), w)
    fire ev ls

/-- The part before the action. -/
def prepare (ls : Workflow σ) (t : TypeDescriptor) (e : Entity) : Action σ Record := do
  fire (.preEntity e) ls
  let r ← Action.ofExcept (t.toRecord e)
  fire (.preRecord r) ls
  pure r

/-- The part after the action, from the record it returned. -/
def complete (ls : Workflow σ) (t : TypeDescriptor) (r : Record) : Action σ Entity := do
  fire (.postRecord r) ls
  let e ← Action.ofExcept (t.toEntity r)
  fire (.postEntity e) ls
  pure e

def flowWith (ls : Workflow σ) (t : TypeDescriptor) (e : Entity)
    (action : Record → Action σ Record) : Action σ Entity := do
  let r ← prepare ls t e
  let stored ← action r
  complete ls t stored

/-- Runs the pipeline for an entity of a type that is described first. -/
def flow (ls : Workflow σ) (schema : Schema) (type : TypeKey) (e : Entity)
    (action : Record → Action σ Record) : Action σ Entity := do
  let t ← Action.describe schema type
  flowWith ls t e action

end Workflow

end RecordMapper
