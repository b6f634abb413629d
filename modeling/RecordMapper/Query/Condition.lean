import RecordMapper.Record
import RecordMapper.Value.Display
import RecordMapper.Query.Like

/-!
Conditions on records: comparisons of one entry combined by `AND` and `OR`. An entry that is missing
and a comparison of incompatible kinds are false, as is an operand that does not fit its operator.
-/

namespace RecordMapper

inductive Operator where
  | equals | lessThan | greaterThan | lessThanEqual | greaterThanEqual | like | between
  deriving DecidableEq

namespace Operator

def all : List Operator :=
  [equals, lessThan, greaterThan, lessThanEqual, greaterThanEqual, like, between]

def name : Operator → String
  | equals => "EQUALS"
  | lessThan => "LESS_THAN"
  | greaterThan => "GREATER_THAN"
  | lessThanEqual => "LESS_THAN_EQUAL"
  | greaterThanEqual => "GREATER_THAN_EQUAL"
  | like => "LIKE"
  | between => "BETWEEN"

instance : ToString Operator := ⟨name⟩

def ofName? (s : String) : Option Operator := all.find? (·.name == s)

/-- How many arguments a clause with this operator consumes. -/
def arity : Operator → Nat
  | between => 2
  | _ => 1

end Operator

inductive Connector where
  | and | or
  deriving DecidableEq

instance : ToString Connector := ⟨fun
  | .and => "AND"
  | .or => "OR"⟩

inductive Operand where
  | single (v : Value)
  | pair (low high : Value)

/-- The operand's values from left to right. -/
def Operand.values : Operand → List Value
  | .single v => [v]
  | .pair low high => [low, high]

instance : ToString Operand := ⟨fun
  | .single v => toString v
  | .pair low high => "[" ++ toString low ++ ", " ++ toString high ++ "]"⟩

/-- A comparison of the entry at a path. -/
structure Criterion where
  field : String
  operator : Operator
  operand : Operand

namespace Criterion

instance : ToString Criterion := ⟨fun c =>
  "(" ++ c.field ++ " " ++ toString c.operator ++ " " ++ toString c.operand ++ ")"⟩

/-- Whether a value stands to a bound in one of the given orders; incomparable ones do not. -/
def ordered (allowed : List Ordering) (v bound : Value) : Bool :=
  v.comparable bound && allowed.contains (v.cmp bound)

/-- Whether a value satisfies the criterion, or why the engine has no program for its pattern. -/
def testValueBy (engine : Regular.Engine) (c : Criterion) (v : Value) : Except String Bool :=
  match c.operator, c.operand with
  | .equals, .single w => .ok (v == w)
  | .lessThan, .single w => .ok (ordered [.lt] v w)
  | .greaterThan, .single w => .ok (ordered [.gt] v w)
  | .lessThanEqual, .single w => .ok (ordered [.lt, .eq] v w)
  | .greaterThanEqual, .single w => .ok (ordered [.gt, .eq] v w)
  | .between, .pair low high => .ok (ordered [.gt, .eq] v low && ordered [.lt, .eq] v high)
  | .like, .single (.string pattern) =>
    match v with
    | .string text => Like.testBy engine text pattern
    | _ => .ok false
  | _, _ => .ok false

def testValue (c : Criterion) (v : Value) : Bool :=
  (c.testValueBy Regular.table v).toOption.getD false

theorem testValue_equals (field : String) (v w : Value) :
    testValue ⟨field, .equals, .single w⟩ v = (v == w) := rfl

def test (sep : String) (c : Criterion) (r : Record) : Bool :=
  match r.findPath? sep c.field with
  | some v => c.testValue v
  | none => false

end Criterion

inductive Condition where
  | leaf (c : Criterion)
  | and (l r : Condition)
  | or (l r : Condition)

namespace Condition

def combine (l : Condition) : Connector → Condition → Condition
  | .and, r => .and l r
  | .or, r => .or l r

def equals (field : String) (v : Value) : Condition := .leaf ⟨field, .equals, .single v⟩

/-- Whether a record satisfies the condition, its paths cut at `sep`. -/
def test (sep : String) : Condition → Record → Bool
  | .leaf c, record => c.test sep record
  | .and l r, record => l.test sep record && r.test sep record
  | .or l r, record => l.test sep record || r.test sep record

def mapFields (f : String → String) : Condition → Condition
  | .leaf c => .leaf { c with field := f c.field }
  | .and l r => .and (l.mapFields f) (r.mapFields f)
  | .or l r => .or (l.mapFields f) (r.mapFields f)

/-- The leaves from left to right. -/
def criteria : Condition → List Criterion
  | .leaf c => [c]
  | .and l r | .or l r => l.criteria ++ r.criteria

def text : Condition → String
  | .leaf c => toString c
  | .and l r => "(" ++ l.text ++ " AND " ++ r.text ++ ")"
  | .or l r => "(" ++ l.text ++ " OR " ++ r.text ++ ")"

instance : ToString Condition := ⟨text⟩

end Condition

end RecordMapper
