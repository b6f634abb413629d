import RecordMapper.Pipeline.Phase
import RecordMapper.Schema.Entity
import RecordMapper.Value.Display

/-! Notifications of the persist pipeline and those who receive them. -/

namespace RecordMapper

inductive Event where
  | preEntity (e : Entity)
  | preRecord (r : Record)
  | postRecord (r : Record)
  | postEntity (e : Entity)

namespace Event

def phase : Event → Phase
  | preEntity _ => .preEntity
  | preRecord _ => .preRecord
  | postRecord _ => .postRecord
  | postEntity _ => .postEntity

def record? : Event → Option Record
  | preRecord r | postRecord r => some r
  | _ => none

/-- The entity of an entity phase, if it is of the given type. -/
def entity? (type : TypeKey) : Event → Option Entity
  | preEntity e | postEntity e => if e.type = type then some e else none
  | _ => none

def inspect (ev : Event) : String :=
  match ev.record? with
  | some r => toString ev.phase ++ "(" ++ r.inspect ++ ")"
  | none => toString ev.phase ++ "(entity)"

end Event

/-- A listener observes the events and may refuse one with a message. -/
abbrev Listener (σ : Type) := Event → σ → Except String Unit × σ

end RecordMapper
