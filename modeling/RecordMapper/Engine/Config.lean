import RecordMapper.Template.Async

/-!
The configuration of an engine. It can be changed until the engine is built, and refuses every
change afterwards. The separator is not part of it but belongs to the whole process.
-/

namespace RecordMapper

/-- Which registry is meant. Handles on one registry are equal. -/
inductive RegistryHandle where
  /-- The registry of the process. -/
  | shared
  | own (id : Nat)
  deriving DecidableEq

structure Config (σ : Type) where
  configured : Bool := false
  registry : RegistryHandle := .shared
  workflow : Workflow σ := []
  managers : List (Qualifier × RecordManager σ) := []
  asyncManagers : List (Qualifier × AsyncManager σ) := []

/-- The last binding of a qualifier wins. -/
def bindQualifier {α : Type} (q : Qualifier) (x : α) (bound : List (Qualifier × α)) :
    List (Qualifier × α) := (q, x) :: bound.filter (·.1 != q)

namespace Config

variable {σ : Type}

def ensureOpen (c : Config σ) (s : Setting) : Except Failure Unit :=
  if c.configured then .error (.frozen s) else .ok ()

/-- The new separator of the process, if the configuration accepts it. -/
def setSeparator (c : Config σ) (sep : String) : Except Failure String := do
  c.ensureOpen .separator
  if sep.isEmpty then throw .emptySeparator
  pure sep

def setRegistry (c : Config σ) (registry : RegistryHandle) : Except Failure (Config σ) := do
  c.ensureOpen .registry
  pure { c with registry }

def useOwnRegistry (c : Config σ) : Except Failure (Config σ) := c.setRegistry (.own 0)

def addListener (c : Config σ) (l : Listener σ) : Except Failure (Config σ) := do
  c.ensureOpen .listener
  pure { c with workflow := c.workflow ++ [l] }

def bindManager (c : Config σ) (q : Qualifier) (m : RecordManager σ) :
    Except Failure (Config σ) := do
  c.ensureOpen .manager
  if m.database ≠ q.database then throw (.wrongDatabase "RecordManager" q)
  pure { c with managers := bindQualifier q m c.managers }

def bindAsyncManager (c : Config σ) (q : Qualifier) (m : AsyncManager σ) :
    Except Failure (Config σ) := do
  c.ensureOpen .asyncManager
  if m.manager.database ≠ q.database then throw (.wrongDatabase "AsyncRecordManager" q)
  pure { c with asyncManagers := bindQualifier q m c.asyncManagers }

/-- Everything that can be changed about an engine before it is built. -/
inductive Change (σ : Type) where
  | separator (sep : String)
  | registry (r : RegistryHandle)
  | listener (l : Listener σ)
  | manager (q : Qualifier) (m : RecordManager σ)
  | asyncManager (q : Qualifier) (m : AsyncManager σ)

def Change.setting : Change σ → Setting
  | separator _ => .separator
  | registry _ => .registry
  | listener _ => .listener
  | manager .. => .manager
  | asyncManager .. => .asyncManager

/-- Makes a change: the configuration after it, and the separator of the process. -/
def change (c : Config σ) (sep : String) : Change σ → Except Failure (Config σ × String)
  | .separator sep => return (c, ← c.setSeparator sep)
  | .registry r => return (← c.setRegistry r, sep)
  | .listener l => return (← c.addListener l, sep)
  | .manager q m => return (← c.bindManager q m, sep)
  | .asyncManager q m => return (← c.bindAsyncManager q m, sep)

def manager (c : Config σ) (q : Qualifier) : Except Failure (RecordManager σ) :=
  match c.managers.find? (·.1 == q) with
  | some (_, m) => .ok m
  | none => .error (.unbound "RecordManager" q)

def asyncManager (c : Config σ) (q : Qualifier) : Except Failure (AsyncManager σ) :=
  match c.asyncManagers.find? (·.1 == q) with
  | some (_, m) => .ok m
  | none => .error (.unbound "AsyncRecordManager" q)

def freeze (c : Config σ) : Config σ := { c with configured := true }

def template (c : Config σ) (schema : Schema) (q : Qualifier) : Except Failure (Template σ) := do
  return ⟨schema, ← c.manager q, c.workflow⟩

def asyncTemplate (c : Config σ) (schema : Schema) : AsyncTemplate σ := ⟨schema, c.workflow⟩

end Config

end RecordMapper
