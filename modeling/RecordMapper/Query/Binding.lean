import RecordMapper.Query.MethodName

/-!
Binding positional arguments to a compiled method name. The clauses are folded from left to right
into a condition, without precedence.
-/

namespace RecordMapper.MethodName

/-- Takes the next argument, the `index`-th of the call. -/
def nextArgument (method : String) (index : Nat) : List Value → Except Failure (Value × List Value)
  | [] => .error (.missingArgument method)
  | v :: rest =>
    if v.isNull then .error (.required ("argument " ++ toString index)) else .ok (v, rest)

/-- Takes the arguments of one operator. -/
def takeOperand (method : String) (operator : Operator) (index : Nat) (args : List Value) :
    Except Failure (Operand × List Value) :=
  match operator with
  | .between => do
    let (low, rest) ← nextArgument method index args
    let (high, rest) ← nextArgument method (index + 1) rest
    pure (.pair low high, rest)
  | _ => do
    let (v, rest) ← nextArgument method index args
    pure (.single v, rest)

/-- One leaf for each clause, in order. -/
def leaves (method : String) : List Clause → Nat → List Value → Except Failure (List Criterion)
  | [], _, _ => .ok []
  | c :: cs, index, args => do
    let (operand, rest) ← takeOperand method c.operator index args
    let others ← leaves method cs (index + c.operator.arity) rest
    pure (⟨c.field, c.operator, operand⟩ :: others)

/-- Joins further leaves to a condition, each by its connector. -/
def join (tree : Condition) : List Connector → List Criterion → Condition
  | k :: ks, c :: cs => join (tree.combine k (.leaf c)) ks cs
  | _, _ => tree

def bind (m : MethodName) (args : List Value) : Except Failure Condition := do
  match ← leaves m.name m.clauses 0 args with
  | c :: cs => pure (join (.leaf c) m.connectors cs)
  | [] => throw (.noCondition m.name)

/-- The select query of a call on the records of a name. -/
def select (m : MethodName) (record : String) (args : List Value) : Except Failure SelectQuery := do
  return { name := record, condition := some (← m.bind args), sorts := m.sorts }

/-- The delete query of a call, which has no use for the sort clauses. -/
def delete (m : MethodName) (record : String) (args : List Value) : Except Failure DeleteQuery := do
  return { name := record, condition := some (← m.bind args) }

end RecordMapper.MethodName
