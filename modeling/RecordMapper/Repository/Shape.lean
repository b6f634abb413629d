/-! The shapes in which repository methods return what a store replied. -/

namespace RecordMapper

inductive ReturnShape where
  | one | optional | list | set | stream | boolean | unit
  deriving DecidableEq

namespace ReturnShape

def all : List ReturnShape := [one, optional, list, set, stream, boolean, unit]

def name : ReturnShape → String
  | one => "instance"
  | optional => "optional"
  | list => "list"
  | set => "set"
  | stream => "stream"
  | boolean => "boolean"
  | unit => "unit"

instance : ToString ReturnShape := ⟨name⟩

def ofName? (s : String) : Option ReturnShape := all.find? (·.name == s)

end ReturnShape

end RecordMapper
