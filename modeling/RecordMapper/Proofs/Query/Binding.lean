import RecordMapper.Proofs.Outcome
import RecordMapper.Query.Binding

/-!
What a bound condition decides. Each clause is judged on the arguments that the clauses before it
leave, and the verdicts are joined strictly from left to right.
-/

namespace RecordMapper

/-- Joins the verdict so far with the next one. -/
def Connector.apply : Connector → Bool → Bool → Bool
  | .and, a, b => a && b
  | .or, a, b => a || b

/-- Whether a value passes an operator on the first of the arguments, or on the first two. Values of
incomparable kinds pass no order. -/
def Operator.passes (v : Value) : Operator → List Value → Bool
  | .equals, w :: _ => v == w
  | .lessThan, w :: _ => v.comparable w && v.cmp w == .lt
  | .greaterThan, w :: _ => v.comparable w && v.cmp w == .gt
  | .lessThanEqual, w :: _ => v.comparable w && v.cmp w != .gt
  | .greaterThanEqual, w :: _ => v.comparable w && v.cmp w != .lt
  | .between, low :: high :: _ =>
    (v.comparable low && v.cmp low != .lt) && (v.comparable high && v.cmp high != .gt)
  | .like, .string pattern :: _ =>
    match v with
    | .string text => Like.test text pattern
    | _ => false
  | _, _ => false

/-- The verdict on a condition, from those on its leaves. -/
def Condition.eval (judge : Criterion → Bool) : Condition → Bool
  | .leaf c => judge c
  | .and l r => l.eval judge && r.eval judge
  | .or l r => l.eval judge || r.eval judge

namespace Condition

theorem test_eq_eval (sep : String) (c : Condition) (r : Record) :
    c.test sep r = c.eval fun leaf => leaf.test sep r := by
  induction c with
  | leaf c => rfl
  | and l r ihl ihr => simp [test, eval, ihl, ihr]
  | or l r ihl ihr => simp [test, eval, ihl, ihr]

theorem eval_mapFields (judge : Criterion → Bool) (f : String → String) (c : Condition) :
    (c.mapFields f).eval judge = c.eval fun leaf => judge { leaf with field := f leaf.field } := by
  induction c with
  | leaf c => rfl
  | and l r ihl ihr => simp [mapFields, eval, ihl, ihr]
  | or l r ihl ihr => simp [mapFields, eval, ihl, ihr]

theorem eval_combine (judge : Criterion → Bool) (l r : Condition) (k : Connector) :
    (l.combine k r).eval judge = k.apply (l.eval judge) (r.eval judge) := by
  cases k <;> rfl

end Condition

namespace Criterion

theorem testValue_single {operator : Operator} (one : operator ≠ .between) (field : String)
    (v w : Value) (rest : List Value) :
    testValue ⟨field, operator, .single w⟩ v = operator.passes v (w :: rest) := by
  cases operator with
  | equals => rfl
  | between => exact absurd rfl one
  | like => cases w <;> cases v <;> rfl
  | lessThan | greaterThan | lessThanEqual | greaterThanEqual =>
    simp only [testValue, testValueBy, ordered, Operator.passes]
    cases v.cmp w <;> rfl

theorem testValue_pair (field : String) (v low high : Value) (rest : List Value) :
    testValue ⟨field, .between, .pair low high⟩ v =
      Operator.between.passes v (low :: high :: rest) := by
  simp only [testValue, testValueBy, ordered, Operator.passes]
  cases v.cmp low <;> cases v.cmp high <;> rfl

end Criterion

namespace MethodName

/-- Whether each clause accepts the value of its field, on the arguments that are left for it. -/
def verdicts (value? : String → Option Value) : List Clause → List Value → List Bool
  | [], _ => []
  | c :: cs, args =>
    ((value? c.field).any fun v => c.operator.passes v args) ::
      verdicts value? cs (args.drop c.operator.arity)

/-- Whether the clauses accept the values of their fields: the first verdict, joined with each next
one by the connector in front of it. -/
def accepts (m : MethodName) (value? : String → Option Value) (args : List Value) : Bool :=
  match verdicts value? m.clauses args with
  | [] => false
  | first :: others =>
    (m.connectors.zip others).foldl (fun sofar next => next.1.apply sofar next.2) first

/-- A judge of leaves that looks at the values of the fields of the clauses. -/
def Judges (judge : Criterion → Bool) (value? : String → Option Value) (cs : List Clause) : Prop :=
  ∀ c ∈ cs, ∀ operand,
    judge ⟨c.field, c.operator, operand⟩ =
      (value? c.field).any (Criterion.testValue ⟨c.field, c.operator, operand⟩)

variable {args : List Value}

theorem exists_pair_of_length {α : Type} {xs : List α} (enough : 2 ≤ xs.length) :
    ∃ x y rest, xs = x :: y :: rest := by
  cases xs with
  | nil => simp at enough
  | cons x xs =>
    cases xs with
    | nil => simp at enough
    | cons y rest => exact ⟨x, y, rest, rfl⟩

/-- An operator takes its arguments from the front, and its operand compares as they do. -/
theorem takeOperand_ok (method : String) {operator : Operator} (index : Nat)
    (enough : operator.arity ≤ args.length)
    (given : ∀ v ∈ args.take operator.arity, v.isNull = false) :
    ∃ operand, takeOperand method operator index args = .ok (operand, args.drop operator.arity) ∧
      ∀ field, Criterion.testValue ⟨field, operator, operand⟩ =
        fun v => operator.passes v args := by
  by_cases two : operator = .between
  · subst two
    obtain ⟨low, high, rest, rfl⟩ := exists_pair_of_length enough
    have first : low.isNull = false := given low List.mem_cons_self
    have second : high.isNull = false := given high (by simp [Operator.arity])
    refine ⟨.pair low high, ?_, fun field => ?_⟩
    · simp [takeOperand, nextArgument, first, second, ok_bind, pure, Except.pure, Operator.arity]
    · funext v
      exact Criterion.testValue_pair field v low high rest
  · have one : operator.arity = 1 := by cases operator <;> first | rfl | exact absurd rfl two
    rw [one] at enough given ⊢
    obtain ⟨w, rest, rfl⟩ := List.exists_cons_of_length_pos enough
    have first : w.isNull = false := given w List.mem_cons_self
    refine ⟨.single w, ?_, fun field => ?_⟩
    · cases operator <;> first
        | exact absurd rfl two
        | simp [takeOperand, nextArgument, first, ok_bind, pure, Except.pure]
    · funext v
      exact Criterion.testValue_single two field v w rest

theorem leaves_ok (method : String) {cs : List Clause} (index : Nat)
    (enough : Clause.operands cs ≤ args.length)
    (given : ∀ v ∈ args.take (Clause.operands cs), v.isNull = false) :
    ∃ found, leaves method cs index args = .ok found ∧ ∀ judge value?, Judges judge value? cs →
      found.map judge = verdicts value? cs args := by
  induction cs generalizing index args with
  | nil => exact ⟨[], rfl, fun _ _ _ => rfl⟩
  | cons c cs ih =>
    rw [Clause.operands] at enough given
    rw [List.take_add] at given
    have own : c.operator.arity ≤ args.length := by omega
    have left : Clause.operands cs ≤ (args.drop c.operator.arity).length := by
      rw [List.length_drop]
      omega
    obtain ⟨operand, taken, compares⟩ := takeOperand_ok method index own fun v hv =>
      given v (List.mem_append_left _ hv)
    obtain ⟨others, rest, judged⟩ := ih (index + c.operator.arity) left fun v hv =>
      given v (List.mem_append_right _ hv)
    refine ⟨⟨c.field, c.operator, operand⟩ :: others, ?_, fun judge value? judges => ?_⟩
    · simp [leaves, taken, ok_bind, rest, pure, Except.pure]
    · have later := judged judge value? fun c hc => judges c (List.mem_cons_of_mem _ hc)
      rw [List.map_cons, verdicts, judges c List.mem_cons_self, compares, later]

theorem eval_join (judge : Criterion → Bool) (tree : Condition) (ks : List Connector)
    (cs : List Criterion) :
    (join tree ks cs).eval judge = (ks.zip (cs.map judge)).foldl
      (fun sofar next => next.1.apply sofar next.2) (tree.eval judge) := by
  induction ks generalizing tree cs with
  | nil => cases cs <;> rfl
  | cons k ks ih =>
    cases cs with
    | nil => rfl
    | cons c cs =>
      rw [join, ih, Condition.eval_combine]
      rfl

/-- A call with enough arguments has a condition, which decides what the clauses accept. -/
theorem bind_ok {m : MethodName} (some_clause : m.clauses ≠ []) (enough : m.arity ≤ args.length)
    (given : ∀ v ∈ args.take m.arity, v.isNull = false) :
    ∃ tree, m.bind args = .ok tree ∧ ∀ judge value?, Judges judge value? m.clauses →
      tree.eval judge = m.accepts value? args := by
  obtain ⟨found, leaves_eq, judged⟩ := leaves_ok m.name 0 enough given
  cases found with
  | nil =>
    have none_left := judged (fun _ => false) (fun _ => none) fun c _ operand => rfl
    cases clauses : m.clauses with
    | nil => exact absurd clauses some_clause
    | cons c cs => simp [clauses, verdicts] at none_left
  | cons first others =>
    refine ⟨join (.leaf first) m.connectors others, ?_, fun judge value? judges => ?_⟩
    · simp [bind, leaves_eq, ok_bind, pure, Except.pure]
    · rw [eval_join, accepts, ← judged judge value? judges]
      rfl

end MethodName

end RecordMapper
