import RecordMapper.Value

/-!
The total order on values. Integers compare as whole numbers, other pairs of numbers in double
precision, values of different kinds by kind; records compare by name and then entry by entry in
name order, whatever the order in which their entries were written.
-/

namespace RecordMapper

/-- Puts an entry into a list sorted by name, after the entries of lesser names. -/
def insertByName {α : Type} (entry : String × α) : List (String × α) → List (String × α)
  | [] => [entry]
  | other :: rest =>
    if compare entry.1 other.1 == .gt then other :: insertByName entry rest
    else entry :: other :: rest

def sortByName {α : Type} (entries : List (String × α)) : List (String × α) :=
  entries.foldr insertByName []

namespace Value

mutual

/-- The value with the entries of its records, at every depth, in name order. -/
def canonical : Value → Value
  | .record name entries => .record name (sortByName (canonicalEntries entries))
  | .array items => .array (canonicalItems items)
  | .map pairs => .map (canonicalPairs pairs)
  | .null => .null
  | .bool b => .bool b
  | .int n => .int n
  | .f32 x => .f32 x
  | .f64 x => .f64 x
  | .char c => .char c
  | .string s => .string s

def canonicalEntry : String × Value → String × Value
  | (name, v) => (name, canonical v)

def canonicalEntries : List (String × Value) → List (String × Value)
  | [] => []
  | e :: es => canonicalEntry e :: canonicalEntries es

def canonicalItems : List Value → List Value
  | [] => []
  | v :: vs => canonical v :: canonicalItems vs

def canonicalPair : Value × Value → Value × Value
  | (k, v) => (canonical k, canonical v)

def canonicalPairs : List (Value × Value) → List (Value × Value)
  | [] => []
  | p :: ps => canonicalPair p :: canonicalPairs ps

end

/-- The order of values that are not two containers of one kind. -/
def compareScalars : Value → Value → Ordering
  | .int a, .int b => compare a.view b.view
  | .bool a, .bool b => compare a b
  | .char a, .char b => compare a b
  | .string a, .string b => compare a b
  | a, b =>
    match a.asDecimal?, b.asDecimal? with
    | some x, some y => x.cmp y
    | _, _ => compare a.rank b.rank

mutual

/-- The order of values whose record entries are in name order. -/
def compareCanonical : Value → Value → Ordering
  | .record n es, .record m fs => (compare n m).then (compareEntries es fs)
  | .array vs, .array ws => compareItems vs ws
  | .map ps, .map qs => comparePairs ps qs
  | a, b => compareScalars a b
termination_by structural a => a

def compareEntry : String × Value → String × Value → Ordering
  | (n, v), (m, w) => (compare n m).then (compareCanonical v w)
termination_by structural a => a

def compareEntries : List (String × Value) → List (String × Value) → Ordering
  | [], [] => .eq
  | [], _ :: _ => .lt
  | _ :: _, [] => .gt
  | e :: es, f :: fs => (compareEntry e f).then (compareEntries es fs)
termination_by structural a => a

def compareItems : List Value → List Value → Ordering
  | [], [] => .eq
  | [], _ :: _ => .lt
  | _ :: _, [] => .gt
  | v :: vs, w :: ws => (compareCanonical v w).then (compareItems vs ws)
termination_by structural a => a

def comparePair : Value × Value → Value × Value → Ordering
  | (k, v), (l, w) => (compareCanonical k l).then (compareCanonical v w)
termination_by structural a => a

def comparePairs : List (Value × Value) → List (Value × Value) → Ordering
  | [], [] => .eq
  | [], _ :: _ => .lt
  | _ :: _, [] => .gt
  | p :: ps, q :: qs => (comparePair p q).then (comparePairs ps qs)
termination_by structural a => a

end

def cmp (a b : Value) : Ordering := a.canonical.compareCanonical b.canonical

instance : Ord Value := ⟨cmp⟩

/-- Two values are the same when the order does not tell them apart. -/
instance : BEq Value := ⟨fun a b => a.cmp b == .eq⟩

/-- Whether two values can be compared by size: two numbers, or two values of one type. -/
def comparable (a b : Value) : Bool := (a.isNumber && b.isNumber) || a.typeName == b.typeName

end Value

/-- Writes a pair into a list sorted by key; an equal key keeps its place and takes the value. -/
def insertPair (key value : Value) : List (Value × Value) → List (Value × Value)
  | [] => [(key, value)]
  | (k, v) :: rest =>
    match key.cmp k with
    | .lt => (key, value) :: (k, v) :: rest
    | .eq => (k, value) :: rest
    | .gt => (k, v) :: insertPair key value rest

/-- The map that results from writing the pairs one after the other. -/
def Value.mapOf (pairs : List (Value × Value)) : Value :=
  .map (pairs.foldl (fun sorted p => insertPair p.1 p.2 sorted) [])

end RecordMapper
