import RecordMapper.Pipeline.Event
import RecordMapper.Store.Manager

/-!
The world of a bench: named memory stores, and probes that note every event they hear of and refuse
at most one of them.
-/

namespace RecordMapper.Bench

/-- Refuses the event of a phase that a probe hears of as the `nth` one. -/
structure Refusal where
  phase : Phase
  nth : Nat
  message : String

structure Probe where
  id : Nat
  name : String
  /-- The type whose entities are noted. -/
  watches : Option TypeKey
  refusal : Option Refusal

structure Note where
  probe : Probe
  event : Event

structure World where
  stores : List (String × MemoryStore) := []
  /-- The oldest first. -/
  notes : List Note := []

namespace World

/-- A store that the world does not hold is an empty document store. -/
def store (w : World) (name : String) : MemoryStore := (lookup name w.stores).getD ⟨.document, [], [], 0⟩

def setStore (w : World) (name : String) (s : MemoryStore) : World :=
  { w with stores := (writeEntry name s w.stores).2 }

def place (name : String) : RecordManager.Place World := ⟨(·.store name), fun s w => w.setStore name s⟩

/-- Opens a store of the given kind unless it is open, and names key columns of it. -/
def openStore (w : World) (name : String) (database : DatabaseType)
    (keys : List (String × String)) : World :=
  let s := (lookup name w.stores).getD ⟨database, [], [], 0⟩
  w.setStore name (keys.foldl (fun s key => s.withKey key.1 key.2) s)

/-- How many events of a phase a probe has heard of. -/
def heard (w : World) (p : Probe) (phase : Phase) : Nat :=
  w.notes.countP fun n => n.probe.id == p.id && n.event.phase == phase

end World

def Refusal.applies (r : Refusal) (p : Probe) (ev : Event) (w : World) : Bool :=
  ev.phase == r.phase && w.heard p r.phase == r.nth

/-- Notes an event, and refuses it if its turn has come. -/
def Probe.listener (p : Probe) : Listener World := fun ev w =>
  let w := { w with notes := w.notes ++ [⟨p, ev⟩] }
  match p.refusal with
  | some r => (if r.applies p ev w then .error r.message else .ok (), w)
  | none => (.ok (), w)

/-- The entity of an event, if its probe watches the type of it. -/
def Note.entity? (n : Note) : Option Entity := n.probe.watches.bind n.event.entity?

end RecordMapper.Bench
