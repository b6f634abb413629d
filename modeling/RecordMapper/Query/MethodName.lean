import RecordMapper.Failure
import RecordMapper.Text.Letter

/-!
Query method names: a prefix, clauses joined by connectors, and an optional ordering part. A keyword
counts as one only in front of an upper-case character, and a connector only behind a non-empty
token.
-/

namespace RecordMapper

/-- What a query method does, as the beginning of its name says. -/
inductive QueryKind where
  | find | get | delete | existence
  deriving DecidableEq

namespace QueryKind

def all : List QueryKind := [find, get, delete, existence]

def keyword : QueryKind → String
  | find => "findBy"
  | get => "getBy"
  | delete => "deleteBy"
  | existence => "existsBy"

def label : QueryKind → String
  | find => "Find"
  | get => "Get"
  | delete => "Delete"
  | existence => "Exists"

end QueryKind

structure Clause where
  field : String
  operator : Operator
  deriving DecidableEq

instance : ToString Clause := ⟨fun c => c.field ++ " " ++ toString c.operator⟩

structure MethodName where
  name : String
  kind : QueryKind
  clauses : List Clause
  connectors : List Connector
  sorts : List SortKey
  deriving DecidableEq

/-- How many arguments clauses consume together. -/
def Clause.operands : List Clause → Nat
  | [] => 0
  | c :: cs => c.operator.arity + operands cs

namespace MethodName

def arity (m : MethodName) : Nat := Clause.operands m.clauses

def startsUpper : List Char → Bool
  | [] => false
  | c :: _ => Text.isUpper c

def stripPrefix? (start text : List Char) : Option (List Char) :=
  if start.isPrefixOf text then some (text.drop start.length) else none

def stripSuffix? (ending text : List Char) : Option (List Char) :=
  if ending.isSuffixOf text then some (text.take (text.length - ending.length)) else none

/-- What follows a keyword at the beginning of a text, when it starts in upper case. -/
def afterKeyword? (keyword : String) (text : List Char) : Option (List Char) :=
  (stripPrefix? keyword.toList text).filter startsUpper

def conditionConnectors : List (String × Connector) :=
  [("And", .and), ("Or", .or), ("AND", .and), ("OR", .or)]

def orderConnectors : List (String × Connector) := [("And", .and), ("AND", .and)]

/-- The first connector that a text begins with, and what follows it. -/
def connectorAt? (keywords : List (String × Connector)) (text : List Char) :
    Option (Connector × List Char) :=
  keywords.findSome? fun k => (afterKeyword? k.1 text).map (k.2, ·)

/-- A token with the connector in front of it, which only the first one lacks. -/
structure Token where
  connector : Option Connector
  text : List Char
  deriving DecidableEq

theorem length_of_connectorAt? {keywords : List (String × Connector)} {text rest : List Char}
    {connector : Connector} (h : connectorAt? keywords text = some (connector, rest)) :
    rest.length ≤ text.length := by
  obtain ⟨k, _, hk⟩ := List.exists_of_findSome?_eq_some h
  obtain ⟨r, hr, heq⟩ := Option.map_eq_some_iff.mp hk
  obtain ⟨rfl, rfl⟩ := Prod.mk.inj heq
  obtain ⟨hs, -⟩ := Option.filter_eq_some_iff.mp hr
  unfold stripPrefix? at hs
  split at hs
  · simp only [Option.some.injEq] at hs
    simp [← hs]
  · simp at hs

/-- Splits a text at its connectors, behind the connector and the characters read so far, the last
one first. -/
def tokens (keywords : List (String × Connector)) (connector : Option Connector)
    (read : List Char) : List Char → List Token
  | [] => [⟨connector, read.reverse⟩]
  | c :: cs =>
    match _hc : if read.isEmpty then none else connectorAt? keywords (c :: cs) with
    | some (next, rest) => ⟨connector, read.reverse⟩ :: tokens keywords (some next) [] rest
    | none => tokens keywords connector (c :: read) cs
termination_by text => 2 * text.length + (if read.isEmpty then 0 else 1)
decreasing_by
  · split at _hc
    · simp at _hc
    · rename_i hread
      have := length_of_connectorAt? _hc
      simp only [List.length_cons] at this
      simp [hread]
      omega
  · simp only [List.length_cons, List.isEmpty_cons]
    split <;> simp <;> omega

def tokenize (keywords : List (String × Connector)) (text : List Char) : List Token :=
  tokens keywords none [] text

/-- The parts before and after the first ordering keyword. -/
def splitOrder? : List Char → Option (List Char × List Char)
  | [] => none
  | c :: cs =>
    match afterKeyword? "OrderBy" (c :: cs) with
    | some order => some ([], order)
    | none => (splitOrder? cs).map fun parts => (c :: parts.1, parts.2)

/-- Operator suffixes in the order in which they are tried. -/
def suffixes : List (String × Operator) :=
  [("Between", .between), ("LessEqualThan", .lessThanEqual), ("GreaterEqualThan", .greaterThanEqual),
    ("LessThan", .lessThan), ("GreaterThan", .greaterThan), ("Like", .like)]

/-- The field part and the operator of a clause; without a suffix the operator is equality. -/
def splitSuffix (token : List Char) : List Char × Operator :=
  let found := suffixes.findSome? fun s => (stripSuffix? s.1.toList token).map (·, s.2)
  found.getD (token, .equals)

/-- The field part and the direction of a sort clause. -/
def splitDirection (token : List Char) : List Char × SortOrder :=
  match stripSuffix? "Desc".toList token with
  | some field => (field, .descending)
  | none => ((stripSuffix? "Asc".toList token).getD token, .ascending)

/-- A field name begins in lower case. -/
def fieldName (method : String) : List Char → Except Failure String
  | [] => .error (.noField method)
  | c :: cs => .ok (String.ofList (Text.toLower c ++ cs))

def clause (method : String) (t : Token) : Except Failure Clause :=
  let (field, operator) := splitSuffix t.text
  (fieldName method field).map (⟨·, operator⟩)

def sortKey (method : String) (t : Token) : Except Failure SortKey :=
  let (field, order) := splitDirection t.text
  (fieldName method field).map (⟨·, order⟩)

/-- The kind of a method and the part of its name behind the prefix. -/
def splitKind? (method : List Char) : Option (QueryKind × List Char) :=
  QueryKind.all.findSome? fun k => (stripPrefix? k.keyword.toList method).map (k, ·)

def parse (method : String) : Except Failure MethodName := do
  let some (kind, body) := splitKind? method.toList | throw (.noQueryPrefix method)
  let (condition, order) :=
    match splitOrder? body with
    | some (condition, order) => (condition, some order)
    | none => (body, none)
  if condition.isEmpty then throw (.noCondition method)
  let found := tokenize conditionConnectors condition
  let clauses ← found.mapM (clause method)
  let sorts ←
    match order with
    | some text => (tokenize orderConnectors text).mapM (sortKey method)
    | none => pure []
  return ⟨method, kind, clauses, found.filterMap (·.connector), sorts⟩

end MethodName

end RecordMapper
