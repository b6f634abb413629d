import RecordMapper.Template.Entity

/-!
Asynchronous operations. The part of the pipeline before the store runs when an operation is
submitted; the rest runs when the store completes it, unless the operation was cancelled before.
Cancelling does not keep the store from applying the operation.
-/

namespace RecordMapper

/-- The state of a submitted operation, left once and for all by the first to cancel or complete. -/
inductive Pending where
  | pending | cancelled | completed
  deriving DecidableEq

namespace Pending

def name : Pending → String
  | pending => "pending"
  | cancelled => "cancelled"
  | completed => "completed"

/-- Requests cancellation; whether the operation is cancelled afterwards. -/
def cancel : Pending → Bool × Pending
  | pending => (true, cancelled)
  | cancelled => (true, cancelled)
  | completed => (false, completed)

/-- Claims completion; whether the result may be reported. -/
def complete : Pending → Bool × Pending
  | pending => (true, completed)
  | p => (false, p)

def inspect (p : Pending) : String :=
  Text.members "PendingOperation" [("state", Text.quoted p.name)]

end Pending

/-- What the store is asked to do. -/
inductive StoreRequest where
  | insert (r : Record)
  | insertFor (r : Record) (nanos : Nat)
  | update (r : Record)
  | delete (q : DeleteQuery)
  | select (q : SelectQuery)

/-- What becomes of the store's reply. -/
inductive Completion where
  | entity (t : TypeDescriptor)
  | entities (type : TypeKey)
  | nothing

inductive AsyncResult where
  | entity (e : Entity)
  | entities (es : List Entity)
  | nothing

structure AsyncOperation where
  request : StoreRequest
  completion : Completion

/-- When a manager carries out an operation: some milliseconds after its submission, or when its
queue is run. -/
inductive Dispatch where
  | delayed (millis : Nat)
  | queued (name : String)
  deriving DecidableEq

structure AsyncManager (σ : Type) where
  manager : RecordManager σ
  dispatch : Dispatch

structure AsyncTemplate (σ : Type) where
  schema : Schema
  workflow : Workflow σ

/-- The records that a store replies with. -/
def RecordManager.perform {σ : Type} (m : RecordManager σ) : StoreRequest → Action σ (List Record)
  | .insert r => do return [← m.insert r]
  | .insertFor r nanos => do return [← m.insertFor r nanos]
  | .update r => do return [← m.update r]
  | .delete q => do
    m.delete q
    pure []
  | .select q => m.select q

namespace AsyncTemplate

variable {σ : Type}

/-- Runs the pipeline up to the store, for a request made of the record. -/
def submit (t : AsyncTemplate σ) (type : TypeKey) (e : Entity) (request : Record → StoreRequest) :
    Action σ AsyncOperation := do
  let d ← Action.describe t.schema type
  let r ← t.workflow.prepare d e
  pure ⟨request r, .entity d⟩

def insert (t : AsyncTemplate σ) (type : TypeKey) (e : Entity) : Action σ AsyncOperation :=
  t.submit type e .insert

def insertFor (t : AsyncTemplate σ) (type : TypeKey) (e : Entity) (nanos : Nat) :
    Action σ AsyncOperation := t.submit type e (.insertFor · nanos)

def update (t : AsyncTemplate σ) (type : TypeKey) (e : Entity) : Action σ AsyncOperation :=
  t.submit type e .update

def delete (q : DeleteQuery) : AsyncOperation := ⟨.delete q, .nothing⟩

def select (type : TypeKey) (q : SelectQuery) : AsyncOperation := ⟨.select q, .entities type⟩

/-- Turns the records that the store replied with into the result of an operation. -/
def finish (t : AsyncTemplate σ) : Completion → List Record → Action σ AsyncResult
  | .entity d, r :: _ => .entity <$> t.workflow.complete d r
  | .entity _, [] => pure .nothing
  | .entities type, rs => do
    let es ← rs.mapM fun r => do
      let d ← Action.describe t.schema type
      Action.ofExcept (d.toEntity r)
    pure (.entities es)
  | .nothing, _ => pure .nothing

/-- Lets the store carry out an operation and reports the result, unless the operation has been
cancelled; the state is looked at only when the store has replied. -/
def run (t : AsyncTemplate σ) (m : RecordManager σ) (op : AsyncOperation) (p : Pending)
    (s : Session σ) : (Option (Except Failure AsyncResult) × Pending) × Session σ :=
  let (reply, s) := (m.perform op.request).run.run s
  let (reports, p) := p.complete
  if reports then
    let (result, s) := (Action.ofExcept reply >>= t.finish op.completion).run.run s
    ((some result, p), s)
  else ((none, p), s)

end AsyncTemplate

end RecordMapper
