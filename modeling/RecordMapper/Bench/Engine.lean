import RecordMapper.Bench.Command
import RecordMapper.Bench.World
import RecordMapper.Engine.Config
import RecordMapper.Repository.Invocation

/-!
A bench: a built engine with its session, the repositories opened on it, and the asynchronous
operations submitted to it. Operations wait in the order of submission until they are carried out:
those of a queue when it is run, and the delayed ones when a caller waits until they are due.
-/

namespace RecordMapper.Bench

/-- A submitted operation that has not been carried out; `id` is the place of its state. -/
structure Job where
  id : Nat
  handle : String
  dispatch : Dispatch
  /-- When a delayed operation is carried out, in milliseconds of waiting. -/
  due : Nat
  manager : RecordManager World
  template : AsyncTemplate World
  operation : AsyncOperation

def Job.isDelayed (j : Job) : Bool :=
  match j.dispatch with
  | .delayed _ => true
  | .queued _ => false

def Job.isDueAt (time : Nat) (j : Job) : Bool := j.isDelayed && j.due ≤ time

def brokeOff {α : Type} : Except Failure α → Bool
  | .error failure => failure.kind == .abort
  | .ok _ => false

structure Report where
  handle : String
  result : Except Failure AsyncResult

structure Engine where
  schema : Schema
  config : Config World
  session : Session World
  compiler : Compiler := {}
  repositories : List (String × Repository World) := []
  jobs : List Job := []
  /-- The milliseconds that callers have waited. -/
  elapsed : Nat := 0
  /-- The state of every operation submitted so far. -/
  states : List Pending := []
  handles : List (String × Nat) := []
  /-- The oldest first. -/
  reports : List Report := []

namespace Engine

variable {α : Type}

/-- A step of the bench: its outcome, and the bench that it leaves. -/
abbrev Step (α : Type) := Engine → Except Failure α × Engine

def act (x : Action World α) : Step α := fun b =>
  let (outcome, session) := x.run.run b.session
  (outcome, { b with session })

def onWorld (change : World → World) (b : Engine) : Engine :=
  { b with session := { b.session with world := change b.session.world } }

/-- Runs a command on the template of a qualifier. -/
def command (q : Qualifier) (type : TypeKey) (c : TemplateCommand) : Step Reply := fun b =>
  act (do c.run (← Action.ofExcept (b.config.template b.schema q)) type) b

/-- Opens a repository under a name: its methods are compiled, then its template is looked up, then
its type is described. -/
def openRepository (name : String) (q : Qualifier) (type : TypeKey)
    (methods : List (String × ReturnShape)) : Step RepositoryDefinition := fun b =>
  let (definition, compiler) := RepositoryDefinition.withCompiler b.compiler methods
  let b := { b with compiler }
  let opened : Action World (Repository World) := do
    let d ← Action.ofExcept definition
    Repository.ofTemplate (← Action.ofExcept (b.config.template b.schema q)) d type
  match act opened b with
  | (.error failure, b) => (.error failure, b)
  | (.ok r, b) =>
    (.ok r.definition, { b with repositories := (writeEntry name r b.repositories).2 })

/-- Carries out an operation and reports its result, unless it has been cancelled. Nobody hears of a
delayed operation that breaks off: it stays as it was. -/
def carryOut (j : Job) (b : Engine) : Engine :=
  let state := (b.states[j.id]?).getD .pending
  let ((result, left), session) := j.template.run j.manager j.operation state b.session
  if j.isDelayed && result.any brokeOff then { b with session }
  else
    { b with
      session
      states := b.states.set j.id left
      reports := b.reports ++ (result.map fun r => ⟨j.handle, r⟩).toList }

/-- Carries out waiting operations in the given order. -/
def carryOutAll (chosen : List Job) (b : Engine) : Engine :=
  let left := b.jobs.filter fun j => !chosen.any (·.id == j.id)
  chosen.foldl (fun b j => b.carryOut j) { b with jobs := left }

/-- Carries out the operations of a queue, at most `limit` of them, and answers how many there were. -/
def runQueue (name : String) (limit : Option Nat) (b : Engine) : Nat × Engine :=
  let waiting := b.jobs.filter (·.dispatch == .queued name)
  let chosen :=
    match limit with
    | some n => waiting.take n
    | none => waiting
  (chosen.length, b.carryOutAll chosen)

/-- Lets time pass; delayed operations are carried out in the order in which they fall due. -/
def waitUntil (time : Nat) (b : Engine) : Engine :=
  let chosen := (b.jobs.filter (·.isDueAt time)).mergeSort fun i j => i.due ≤ j.due
  { b.carryOutAll chosen with elapsed := max b.elapsed time }

/-- Submits an operation under a handle. The caller of a delayed one may wait until it is due; one
without a delay is due at once. -/
def submit (handle : String) (q : Qualifier) (type : TypeKey) (c : AsyncCommand) (wait : Bool) :
    Step Unit := fun b =>
  match b.config.asyncManager q with
  | .error failure => (.error failure, b)
  | .ok m =>
    let t := b.config.asyncTemplate b.schema
    match act (c.submit t type) b with
    | (.error failure, b) => (.error failure, b)
    | (.ok operation, b) =>
      let id := b.states.length
      let due :=
        match m.dispatch with
        | .delayed millis => b.elapsed + millis
        | .queued _ => b.elapsed
      let b := { b with
        states := b.states ++ [.pending]
        handles := (writeEntry handle id b.handles).2
        jobs := b.jobs ++ [⟨id, handle, m.dispatch, due, m.manager, t, operation⟩] }
      (.ok (), if wait || due = b.elapsed then b.waitUntil due else b)

/-- The state of the operation that was last submitted under a handle. -/
def state? (handle : String) (b : Engine) : Option Pending := do b.states[(← lookup handle b.handles)]?

/-- Cancels the operation of a handle and answers whether it is cancelled. -/
def cancel? (handle : String) (b : Engine) : Option (Bool × Engine) := do
  let id ← lookup handle b.handles
  let (cancelled, state) := (← b.states[id]?).cancel
  return (cancelled, { b with states := b.states.set id state })

end Engine

end RecordMapper.Bench
