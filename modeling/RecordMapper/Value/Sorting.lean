import RecordMapper.Value.Order

/-! Sorting values, and the least and the greatest of several. -/

namespace RecordMapper

/-- Values in ascending order, equal ones in the order given. -/
def sortValues (vs : List Value) : List Value := vs.mergeSort fun a b => a.cmp b != .gt

/-- The first of the least values. -/
def leastValue? : List Value → Option Value
  | [] => none
  | v :: vs => some (vs.foldl (fun least w => if w.cmp least == .lt then w else least) v)

/-- The last of the greatest values. -/
def greatestValue? : List Value → Option Value
  | [] => none
  | v :: vs => some (vs.foldl (fun greatest w => if w.cmp greatest == .lt then greatest else w) v)

end RecordMapper
