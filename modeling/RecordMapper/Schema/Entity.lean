import RecordMapper.Field.Datum

/-! Entities of the application: instances of a type, with the contents of their fields. -/

namespace RecordMapper

/-- What tells types apart. Types of different origin may share their simple name. -/
structure TypeKey where
  origin : String
  name : String
  deriving DecidableEq

/-- The place of a field in an entity: a content, or another entity that may be missing. -/
inductive Slot (ε : Type) where
  | content (d : Datum)
  | child (e : Option ε)

/-- The slots stand in the order in which the fields are declared; two fields may share a name. -/
inductive Entity where
  | mk (type : TypeKey) (slots : List (String × Slot Entity))

namespace Entity

def type : Entity → TypeKey
  | mk t _ => t

def slots : Entity → List (String × Slot Entity)
  | mk _ slots => slots

def slot? (e : Entity) (place : Nat) : Option (Slot Entity) := e.slots[place]?.map (·.2)

def content? (e : Entity) (place : Nat) : Option Datum :=
  match e.slot? place with
  | some (.content d) => some d
  | _ => none

/-- The entity that a nested field holds. -/
def child? (e : Entity) (place : Nat) : Option Entity :=
  match e.slot? place with
  | some (.child c) => c
  | _ => none

def withSlot (e : Entity) (place : Nat) (s : Slot Entity) : Entity :=
  .mk e.type (e.slots.modify place fun slot => (slot.1, s))

def withContent (e : Entity) (place : Nat) (d : Datum) : Entity := e.withSlot place (.content d)

def withChild (e : Entity) (place : Nat) (c : Option Entity) : Entity :=
  e.withSlot place (.child c)

end Entity

end RecordMapper
