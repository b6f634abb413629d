import RecordMapper.Query.Condition
import RecordMapper.Query.SortKey

/-! The requests handed to a store. -/

namespace RecordMapper

structure SelectQuery where
  name : String
  condition : Option Condition := none
  sorts : List SortKey := []
  limit : Option Nat := none

structure DeleteQuery where
  name : String
  condition : Option Condition := none

def whereText : Option Condition → String
  | some c => " where " ++ toString c
  | none => ""

def SelectQuery.text (q : SelectQuery) : String :=
  let order := if q.sorts.isEmpty then "" else " order by " ++ ", ".intercalate (q.sorts.map toString)
  let limit :=
    match q.limit with
    | some n => " limit " ++ toString n
    | none => ""
  "select from " ++ q.name ++ whereText q.condition ++ order ++ limit

instance : ToString SelectQuery := ⟨SelectQuery.text⟩

instance : ToString DeleteQuery := ⟨fun q => "delete from " ++ q.name ++ whereText q.condition⟩

/-- Whether a record passes an optional condition. -/
def admits (sep : String) (condition : Option Condition) (r : Record) : Bool :=
  match condition with
  | some c => c.test sep r
  | none => true

end RecordMapper
