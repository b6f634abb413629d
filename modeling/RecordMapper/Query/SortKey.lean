/-! Sort clauses. -/

namespace RecordMapper

inductive SortOrder where
  | ascending | descending
  deriving DecidableEq

instance : ToString SortOrder := ⟨fun
  | .ascending => "ASC"
  | .descending => "DESC"⟩

structure SortKey where
  field : String
  order : SortOrder
  deriving DecidableEq

instance : ToString SortKey := ⟨fun s => s.field ++ " " ++ toString s.order⟩

end RecordMapper
