import RecordMapper.Value.Order

/-!
What a value feeds into a hash: a sequence of words, so that two values have the same hash exactly
when their sequences agree. Whole numbers of every width, and floating-point numbers equal to one,
feed the same word.
-/

namespace RecordMapper

inductive HashWord where
  | rank (n : Nat)
  | length (n : Nat)
  | bool (b : Bool)
  | whole (n : Int)
  | bits (n : Nat)
  | char (c : Char)
  | text (s : String)
  deriving DecidableEq

namespace Value

/-- The word of a floating-point number: the whole number it equals, when that fits the common
integer view, else its bits in double precision. -/
def hashFloat (x : Binary) : HashWord :=
  match x.toInt? with
  | some n => if n.natAbs < 1 <<< 127 then .whole n else .bits (BinaryFormat.double.encode x)
  | none => .bits (BinaryFormat.double.encode x)

mutual

/-- The words of a value whose record entries are in name order. -/
def hashCanonical : Value → List HashWord
  | .null => [.rank 0]
  | .bool b => [.rank 1, .bool b]
  | .int n => [.rank 2, .whole n.view]
  | .f32 x => [.rank 2, hashFloat x]
  | .f64 x => [.rank 2, hashFloat x]
  | .char c => [.rank 3, .char c]
  | .string s => [.rank 4, .text s]
  | .record name entries => .rank 5 :: .text name :: .length entries.length :: hashEntries entries
  | .array items => .rank 6 :: .length items.length :: hashItems items
  | .map pairs => .rank 7 :: .length pairs.length :: hashPairs pairs

def hashEntry : String × Value → List HashWord
  | (name, v) => .text name :: hashCanonical v

def hashEntries : List (String × Value) → List HashWord
  | [] => []
  | e :: es => hashEntry e ++ hashEntries es

def hashItems : List Value → List HashWord
  | [] => []
  | v :: vs => hashCanonical v ++ hashItems vs

def hashPair : Value × Value → List HashWord
  | (k, v) => hashCanonical k ++ hashCanonical v

def hashPairs : List (Value × Value) → List HashWord
  | [] => []
  | p :: ps => hashPair p ++ hashPairs ps

end

def hashWords (v : Value) : List HashWord := v.canonical.hashCanonical

end Value

end RecordMapper
