import RecordMapper.Schema.Registry
import RecordMapper.Calendar.Timestamp

/-!
Actions: what stores, listeners and everything above them do. An action may fail, and what it did
before it failed stays done.
-/

namespace RecordMapper

/-- The state an action works on: what the whole process shares, the registry, and the world of
stores and listeners. -/
structure Session (σ : Type) where
  separator : String
  clock : Clock
  registry : Registry
  world : σ

namespace Session

variable {σ : Type}

/-- What the next reading of the clock gives. -/
def now (s : Session σ) : Instant := s.clock 0

/-- The session once the clock has been read so many times. -/
def after (s : Session σ) (readings : Nat) : Session σ :=
  { s with clock := s.clock.after readings }

end Session

abbrev Action (σ α : Type) := ExceptT Failure (StateM (Session σ)) α

namespace Action

variable {σ α β : Type}

def separator : Action σ String := do return (← get).separator

/-- Reads the clock so many times. -/
def readings (count : Nat) : Action σ Clock := do
  let s ← get
  set (s.after count)
  pure s.clock

def now : Action σ Instant := do
  let s ← get
  set (s.after 1)
  pure s.now

/-- Lifts a step of the world. -/
def onWorld (step : σ → Except Failure α × σ) : Action σ α := do
  let s ← get
  let (x, world) := step s.world
  set { s with world }
  ofExcept x
where
  ofExcept : Except Failure α → Action σ α
  | .ok x => pure x
  | .error failure => throw failure

def ofExcept (x : Except Failure α) : Action σ α := onWorld.ofExcept x

/-- The outcome of an action, as an action that does not fail. -/
def attempt (x : Action σ α) : Action σ (Except Failure α) := fun s =>
  let (outcome, s) := x.run.run s
  (.ok outcome, s)

/-- Describes a type with the session's registry. -/
def describe (schema : Schema) (type : TypeKey) : Action σ TypeDescriptor := do
  let s ← get
  let (t, registry) := Registry.describe schema type s.registry
  set { s with registry }
  ofExcept t

end Action

end RecordMapper
