import RecordMapper.Number.Binary
import RecordMapper.Number.Integer

/-!
Values: the one form in which entities, queries and stores exchange data. A record is a named list
of entries; as a value it is written out with its name and entries.
-/

namespace RecordMapper

inductive Value where
  | null
  | bool (b : Bool)
  | int (n : Integer)
  | f32 (x : Binary)
  | f64 (x : Binary)
  | char (c : Char)
  | string (s : String)
  | record (name : String) (entries : List (String × Value))
  | array (items : List Value)
  | map (pairs : List (Value × Value))

instance : Inhabited Value := ⟨.null⟩

/-- A named collection of entries in the order in which they were first written. -/
structure Record where
  name : String
  entries : List (String × Value) := []

instance : Inhabited Record := ⟨⟨"", []⟩⟩

namespace Value

def ofRecord (r : Record) : Value := .record r.name r.entries

def asRecord? : Value → Option Record
  | .record name entries => some ⟨name, entries⟩
  | _ => none

def isNull : Value → Bool
  | .null => true
  | _ => false

/-- The whole number of an integer of any width. -/
def asInteger? : Value → Option Int
  | .int n => some n.view
  | _ => none

/-- Any number in double precision. An `f32` is the same number widened: it then has the significand
and the neighbours that double precision gives it, hence also the text. -/
def asDecimal? : Value → Option Binary
  | .int n => some (BinaryFormat.double.ofInt n.view)
  | .f32 x => some (BinaryFormat.double.convert x)
  | .f64 x => some x
  | _ => none

def isInteger (v : Value) : Bool := v.asInteger?.isSome

def isNumber (v : Value) : Bool := v.asDecimal?.isSome

def typeName : Value → String
  | .null => "null"
  | .bool _ => "bool"
  | .int n => n.type.name
  | .f32 _ => "f32"
  | .f64 _ => "f64"
  | .char _ => "char"
  | .string _ => "string"
  | .record .. => "record"
  | .array _ => "array"
  | .map _ => "map"

/-- The place of a kind among values of different kinds; all numbers are of one kind. -/
def rank : Value → Nat
  | .null => 0
  | .bool _ => 1
  | .int _ | .f32 _ | .f64 _ => 2
  | .char _ => 3
  | .string _ => 4
  | .record .. => 5
  | .array _ => 6
  | .map _ => 7

/-- The value and the null left in its place. -/
def take (v : Value) : Value × Value := (v, .null)

end Value

end RecordMapper
