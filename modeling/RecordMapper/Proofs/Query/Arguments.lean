import RecordMapper.Proofs.Query.Binding
import RecordMapper.Proofs.Query.Tokens
import RecordMapper.Proofs.Repository.Definition
import RecordMapper.Proofs.Value.Comparing

/-!
What a call does with its arguments. It takes exactly as many as the clauses need and turns them into
the leaves of a tree that leans to the left, or it complains about the first of them that it cannot
take.
-/

namespace RecordMapper

/-- The verdicts on the leaves of a tree, joined strictly from left to right. -/
def Connector.joined (connectors : List Connector) : List Bool → Bool
  | [] => false
  | first :: others =>
    (connectors.zip others).foldl (fun sofar next => next.1.apply sofar next.2) first

theorem Connector.joined_concat {connectors : List Connector} {verdicts : List Bool}
    (each : verdicts.length = connectors.length + 1) (k : Connector) (last : Bool) :
    joined (connectors ++ [k]) (verdicts ++ [last]) = k.apply (joined connectors verdicts) last := by
  obtain ⟨first, others, rfl⟩ := List.exists_cons_of_length_pos (l := verdicts) (by omega)
  have same : connectors.length = others.length := by simpa using each.symm
  simp [joined, List.zip_append same]

namespace Operand

/-- Two values go with a range, and one value with every other operator. -/
def Fits (operator : Operator) : Operand → Prop
  | .single _ => operator ≠ .between
  | .pair .. => operator = .between

theorem Fits.length_values {operator : Operator} {operand : Operand} (fits : operand.Fits operator) :
    operand.values.length = operator.arity := by
  cases operand with
  | single v => cases operator <;> first | rfl | exact absurd rfl fits
  | pair low high => rw [show operator = .between from fits]; rfl

theorem Fits.eq_of_values {operator : Operator} {a b : Operand} (ha : a.Fits operator)
    (hb : b.Fits operator) (same : a.values = b.values) : a = b := by
  cases a <;> cases b <;> simp_all [values]

end Operand

/-- The clause that a leaf was made from. -/
def Criterion.clause (c : Criterion) : Clause := ⟨c.field, c.operator⟩

/-- The clauses of the leaves and all their values together say what the leaves are. -/
theorem Criterion.eq_of_values {found found' : List Criterion}
    (clauses : found.map clause = found'.map clause)
    (values : found.flatMap (·.operand.values) = found'.flatMap (·.operand.values))
    (fits : ∀ c ∈ found, c.operand.Fits c.operator)
    (fits' : ∀ c ∈ found', c.operand.Fits c.operator) : found = found' := by
  induction found generalizing found' with
  | nil => simpa using clauses.symm
  | cons c found ih =>
    obtain ⟨c', found', rfl⟩ : ∃ c' rest, found' = c' :: rest := by
      cases found' with
      | nil => simp at clauses
      | cons c' rest => exact ⟨c', rest, rfl⟩
    obtain ⟨own, others⟩ := List.cons.inj clauses
    obtain ⟨field, operator⟩ := Clause.mk.inj own
    have fit := fits c List.mem_cons_self
    have fit' := fits' c' List.mem_cons_self
    rw [← operator] at fit'
    obtain ⟨first, rest⟩ := List.append_inj values (by rw [fit.length_values, fit'.length_values])
    have operand := fit.eq_of_values fit' first
    rw [ih others rest (fun d hd => fits d (List.mem_cons_of_mem _ hd))
      fun d hd => fits' d (List.mem_cons_of_mem _ hd)]
    cases c
    cases c'
    simp_all

namespace Condition

/-- A tree that grew from its first leaf, one leaf at a time, each at the right end. -/
inductive LeftDeep : Condition → List Criterion → List Connector → Prop
  | leaf (c : Criterion) : LeftDeep (.leaf c) [c] []
  | combine {tree : Condition} {leaves : List Criterion} {connectors : List Connector}
    (before : LeftDeep tree leaves connectors) (k : Connector) (c : Criterion) :
    LeftDeep (tree.combine k (.leaf c)) (leaves ++ [c]) (connectors ++ [k])

variable {tree : Condition} {leaves : List Criterion} {connectors : List Connector}

theorem criteria_combine (l r : Condition) (k : Connector) :
    (l.combine k r).criteria = l.criteria ++ r.criteria := by
  cases k <;> rfl

theorem LeftDeep.criteria_eq (deep : tree.LeftDeep leaves connectors) : tree.criteria = leaves := by
  induction deep with
  | leaf c => rfl
  | combine before k c ih => rw [criteria_combine, ih]; rfl

theorem LeftDeep.length_eq (deep : tree.LeftDeep leaves connectors) :
    leaves.length = connectors.length + 1 := by
  induction deep with
  | leaf c => rfl
  | combine before k c ih => simp [ih]

theorem LeftDeep.eval_eq (deep : tree.LeftDeep leaves connectors) (judge : Criterion → Bool) :
    tree.eval judge = Connector.joined connectors (leaves.map judge) := by
  induction deep with
  | leaf c => rfl
  | combine before k c ih =>
    rw [eval_combine, ih, List.map_append, List.map_singleton,
      Connector.joined_concat (by simp [before.length_eq])]
    rfl

theorem LeftDeep.join (deep : tree.LeftDeep leaves connectors) (ks : List Connector)
    (cs : List Criterion) (each : ks.length = cs.length) :
    (MethodName.join tree ks cs).LeftDeep (leaves ++ cs) (connectors ++ ks) := by
  induction ks generalizing tree leaves connectors cs with
  | nil =>
    obtain rfl : cs = [] := List.length_eq_zero_iff.mp each.symm
    simpa [MethodName.join] using deep
  | cons k ks ih =>
    cases cs with
    | nil => simp at each
    | cons c cs =>
      have grown := ih (deep.combine k c) cs (by simpa using each)
      simpa [MethodName.join] using grown

end Condition

namespace MethodName

/-- The first complaint about the arguments of a call that takes some of them, the first one at a
place. -/
def refusal? (method : String) (place : Nat) : Nat → List Value → Option Failure
  | 0, _ => none
  | _ + 1, [] => some (.missingArgument method)
  | needed + 1, v :: rest =>
    if v.isNull then some (.required ("argument " ++ toString place))
    else refusal? method (place + 1) needed rest

section Refusal

variable (method : String) {args : List Value} {place needed : Nat}

theorem refusal?_eq_none_iff : refusal? method place needed args = none ↔
    needed ≤ args.length ∧ ∀ i < needed, args[i]? ≠ some .null := by
  fun_induction refusal? method place needed args with
  | case1 => simp
  | case2 => simp
  | case3 place needed v rest null =>
    have first : (v :: rest)[0]? = some .null := by simp [Value.isNull_iff.mp null]
    simpa using fun _ => ⟨0, by omega, first⟩
  | case4 place needed v rest given ih =>
    have other : (v :: rest)[0]? ≠ some .null := fun null =>
      given (Value.isNull_iff.mpr (Option.some.inj null))
    have later : (∀ i < needed + 1, (v :: rest)[i]? ≠ some .null) ↔
        ∀ i < needed, rest[i]? ≠ some .null := by
      rw [Nat.forall_lt_succ_left']
      exact and_iff_right other
    rw [ih, later, List.length_cons, Nat.succ_le_succ_iff]

theorem refusal?_of_null {i : Nat} (null : args[i]? = some .null) (taken : i < needed)
    (first : ∀ j < i, args[j]? ≠ some .null) :
    refusal? method place needed args = some (.required ("argument " ++ toString (place + i))) := by
  fun_induction refusal? method place needed args generalizing i with
  | case1 => omega
  | case2 => simp at null
  | case3 place needed v rest isNull =>
    cases i with
    | zero => rfl
    | succ i => exact absurd (by simp [Value.isNull_iff.mp isNull]) (first 0 (by omega))
  | case4 place needed v rest given ih =>
    cases i with
    | zero => exact absurd (Value.isNull_iff.mpr (by simpa using null)) given
    | succ i =>
      rw [ih (by simpa using null) (by omega) fun j hj => by simpa using first (j + 1) (by omega)]
      rw [Nat.add_assoc, Nat.add_comm 1 i]

theorem refusal?_of_short (short : args.length < needed)
    (given : ∀ i < needed, args[i]? ≠ some .null) :
    refusal? method place needed args = some (.missingArgument method) := by
  fun_induction refusal? method place needed args with
  | case1 => simp at short
  | case2 => rfl
  | case3 place needed v rest null =>
    exact absurd (by simp [Value.isNull_iff.mp null]) (given 0 (by omega))
  | case4 place needed v rest _ ih =>
    exact ih (by simpa using short) fun i hi => by simpa using given (i + 1) (by omega)

theorem refusal?_take : refusal? method place needed (args.take needed) =
    refusal? method place needed args := by
  fun_induction refusal? method place needed args with
  | case1 => rfl
  | case2 => rfl
  | case3 place needed v rest null => simp [refusal?, null]
  | case4 place needed v rest given ih => simpa [refusal?, given] using ih

theorem refusal?_add (more : Nat) : refusal? method place (needed + more) args =
    (refusal? method place needed args).or
      (refusal? method (place + needed) more (args.drop needed)) := by
  fun_induction refusal? method place needed args with
  | case1 => simp
  | case2 => simp [Nat.succ_add, refusal?]
  | case3 place needed v rest null => simp [Nat.succ_add, refusal?, null]
  | case4 place needed v rest given ih =>
    rw [Nat.succ_add, refusal?, if_neg given, ih, List.drop_succ_cons, Nat.add_assoc,
      Nat.add_comm 1 needed]

end Refusal

variable {method : String} {args : List Value}

/-- One argument is refused, or it is taken off the front. -/
theorem nextArgument_cases (method : String) (place : Nat) (args : List Value) :
    (∃ failure, refusal? method place 1 args = some failure ∧
      nextArgument method place args = .error failure) ∨
    ∃ v, refusal? method place 1 args = none ∧
      nextArgument method place args = .ok (v, args.drop 1) ∧ args.take 1 = [v] := by
  match args with
  | [] => exact .inl ⟨_, rfl, rfl⟩
  | v :: rest =>
    by_cases null : v.isNull = true
    · refine .inl ⟨.required ("argument " ++ toString place), ?_, ?_⟩
      · rw [refusal?, if_pos null]
      · rw [nextArgument, if_pos null]
    · refine .inr ⟨v, ?_, ?_, rfl⟩
      · rw [refusal?, if_neg null, refusal?]
      · rw [nextArgument, if_neg null, List.drop_one, List.tail_cons]

theorem takeOperand_between (method : String) (place : Nat) (args : List Value) :
    takeOperand method .between place args = nextArgument method place args >>= fun low =>
      nextArgument method (place + 1) low.2 >>= fun high => .ok (.pair low.1 high.1, high.2) := rfl

theorem takeOperand_single {operator : Operator} (one : operator ≠ .between) (method : String)
    (place : Nat) (args : List Value) : takeOperand method operator place args =
      nextArgument method place args >>= fun v => .ok (.single v.1, v.2) := by
  cases operator <;> first | rfl | exact absurd rfl one

theorem leaves_cons (method : String) (c : Clause) (cs : List Clause) (place : Nat)
    (args : List Value) : leaves method (c :: cs) place args =
      takeOperand method c.operator place args >>= fun taken =>
        leaves method cs (place + c.operator.arity) taken.2 >>= fun others =>
          .ok (⟨c.field, c.operator, taken.1⟩ :: others) := rfl

/-- The arguments of an operator are refused, or its operand is taken off the front. -/
theorem takeOperand_cases (method : String) (operator : Operator) (place : Nat)
    (args : List Value) :
    (∃ failure, refusal? method place operator.arity args = some failure ∧
      takeOperand method operator place args = .error failure) ∨
    ∃ operand, refusal? method place operator.arity args = none ∧
      takeOperand method operator place args = .ok (operand, args.drop operator.arity) ∧
      operand.values = args.take operator.arity ∧ operand.Fits operator := by
  by_cases two : operator = .between
  · subst two
    have both : refusal? method place (1 + 1) args =
        (refusal? method place 1 args).or (refusal? method (place + 1) 1 (args.drop 1)) :=
      refusal?_add method 1
    rw [takeOperand_between, Operator.arity, both, List.take_add (i := 1) (j := 1)]
    obtain ⟨failure, refused, fails⟩ | ⟨v, taken, next, front⟩ :=
      nextArgument_cases method place args
    · rw [refused, fails]
      exact .inl ⟨failure, rfl, rfl⟩
    · rw [taken, next, ok_bind, Option.none_or, front]
      obtain ⟨failure, refused, fails⟩ | ⟨w, taken, next, front⟩ :=
        nextArgument_cases method (place + 1) (args.drop 1)
      · rw [refused, fails]
        exact .inl ⟨failure, rfl, rfl⟩
      · rw [taken, next, ok_bind, front, List.drop_drop]
        exact .inr ⟨.pair v w, rfl, rfl, rfl, rfl⟩
  · have one : operator.arity = 1 := by cases operator <;> first | rfl | exact absurd rfl two
    rw [takeOperand_single two, one]
    obtain ⟨failure, refused, fails⟩ | ⟨v, taken, next, front⟩ :=
      nextArgument_cases method place args
    · rw [refused, fails]
      exact .inl ⟨failure, rfl, rfl⟩
    · rw [taken, next, ok_bind, front]
      exact .inr ⟨.single v, rfl, rfl, rfl, two⟩

/-- Leaves that were made from clauses, and from all of some arguments. -/
structure Leaves (cs : List Clause) (args : List Value) (found : List Criterion) : Prop where
  clauses : found.map Criterion.clause = cs
  values : found.flatMap (·.operand.values) = args
  fits : ∀ c ∈ found, c.operand.Fits c.operator

theorem Leaves.eq {cs : List Clause} {found found' : List Criterion} (h : Leaves cs args found)
    (h' : Leaves cs args found') : found = found' :=
  Criterion.eq_of_values (h.clauses.trans h'.clauses.symm) (h.values.trans h'.values.symm) h.fits
    h'.fits

theorem leaves_cases (method : String) (cs : List Clause) (place : Nat) (args : List Value) :
    (∃ failure, refusal? method place (Clause.operands cs) args = some failure ∧
      leaves method cs place args = .error failure) ∨
    ∃ found, refusal? method place (Clause.operands cs) args = none ∧
      leaves method cs place args = .ok found ∧
      Leaves cs (args.take (Clause.operands cs)) found := by
  induction cs generalizing place args with
  | nil => exact .inr ⟨[], rfl, rfl, rfl, rfl, nofun⟩
  | cons c cs ih =>
    rw [Clause.operands, refusal?_add, List.take_add, leaves_cons]
    obtain ⟨failure, refused, fails⟩ | ⟨operand, taken, takes, values, fits⟩ :=
      takeOperand_cases method c.operator place args
    · rw [refused, fails]
      exact .inl ⟨failure, rfl, rfl⟩
    · rw [taken, takes, ok_bind, Option.none_or]
      obtain ⟨failure, refused, fails⟩ | ⟨others, given, found, rest⟩ :=
        ih (place + c.operator.arity) (args.drop c.operator.arity)
      · rw [refused, fails]
        exact .inl ⟨failure, rfl, rfl⟩
      · rw [given, found, ok_bind]
        refine .inr ⟨⟨c.field, c.operator, operand⟩ :: others, rfl, rfl, ?_, ?_, ?_⟩
        · rw [List.map_cons, rest.clauses]
          rfl
        · rw [List.flatMap_cons, values, rest.values]
        · intro d hd
          rcases List.mem_cons.mp hd with rfl | later
          · exact fits
          · exact rest.fits d later

/-- A call looks at no more arguments than its clauses need. -/
theorem leaves_take (method : String) (cs : List Clause) (place : Nat) (args : List Value) :
    leaves method cs place (args.take (Clause.operands cs)) =
      leaves method cs place args := by
  have short := leaves_cases method cs place (args.take (Clause.operands cs))
  rw [refusal?_take, List.take_take, Nat.min_self] at short
  obtain ⟨failure, refused, fails⟩ | ⟨found, given, makes, made⟩ := leaves_cases method cs place args
  · obtain ⟨_, refused', fails'⟩ | ⟨_, given, -⟩ := short
    · cases refused.symm.trans refused'
      rw [fails, fails']
    · cases refused.symm.trans given
  · obtain ⟨_, refused, -⟩ | ⟨found', -, makes', made'⟩ := short
    · cases given.symm.trans refused
    · rw [makes, makes', made.eq made']

/-- The condition of a call is made from the arguments that its clauses need, and it leans to the
left. -/
structure Bound (m : MethodName) (args : List Value) (tree : Condition) : Prop where
  leaves : Leaves m.clauses (args.take m.arity) tree.criteria
  deep : tree.LeftDeep tree.criteria m.connectors
  test : ∀ sep r, tree.test sep r =
    Connector.joined m.connectors (tree.criteria.map fun c => c.test sep r)

/-- How a call deals with its arguments. -/
structure Consumes (m : MethodName) (args : List Value) : Prop where
  ok_iff : (∃ tree, m.bind args = .ok tree) ↔
    m.arity ≤ args.length ∧ ∀ i < m.arity, args[i]? ≠ some .null
  /-- The first null is what a call complains about. -/
  null : ∀ i < m.arity, args[i]? = some .null → (∀ j < i, args[j]? ≠ some .null) →
    ∃ failure, m.bind args = .error failure ∧ failure.kind = .nullArgument ∧
      failure.message = "argument " ++ toString i ++ " is required"
  missing : args.length < m.arity → (∀ i < m.arity, args[i]? ≠ some .null) →
    ∃ failure, m.bind args = .error failure ∧ failure.kind = .dynamicQuery
  beyond : ∀ others, others.take m.arity = args.take m.arity → m.bind others = m.bind args
  bound : ∀ tree, m.bind args = .ok tree → m.Bound args tree

variable {m : MethodName}

theorem bind_cases (joints : m.connectors.length + 1 = m.clauses.length) (args : List Value) :
    (∃ failure, refusal? m.name 0 m.arity args = some failure ∧ m.bind args = .error failure) ∨
    ∃ tree, refusal? m.name 0 m.arity args = none ∧ m.bind args = .ok tree ∧ m.Bound args tree := by
  rw [bind, arity]
  obtain ⟨failure, refused, fails⟩ | ⟨found, given, leaves, made⟩ :=
    leaves_cases m.name m.clauses 0 args
  · rw [refused, fails]
    exact .inl ⟨failure, rfl, rfl⟩
  · have as_many : found.length = m.clauses.length := by rw [← made.clauses, List.length_map]
    obtain ⟨first, others, rfl⟩ := List.exists_cons_of_length_pos (l := found) (by omega)
    have each : m.connectors.length = others.length := by
      rw [List.length_cons] at as_many
      omega
    have deep := (Condition.LeftDeep.leaf first).join m.connectors others each
    rw [given, leaves, ok_bind]
    refine .inr ⟨_, rfl, rfl, ?_, ?_, fun sep r => ?_⟩
    · rwa [deep.criteria_eq]
    · rwa [deep.criteria_eq]
    · rw [deep.criteria_eq, Condition.test_eq_eval]
      exact deep.eval_eq _

theorem bind_of_refusal? (joints : m.connectors.length + 1 = m.clauses.length)
    {args : List Value} {failure : Failure}
    (refused : refusal? m.name 0 m.arity args = some failure) : m.bind args = .error failure := by
  obtain ⟨other, refused', fails⟩ | ⟨_, given, -⟩ := bind_cases joints args
  · cases refused.symm.trans refused'
    exact fails
  · cases given.symm.trans refused

theorem bind_take (m : MethodName) (args : List Value) :
    m.bind (args.take m.arity) = m.bind args := by
  rw [bind, bind, arity, leaves_take]

theorem consumes (joints : m.connectors.length + 1 = m.clauses.length) (args : List Value) :
    m.Consumes args := by
  refine ⟨?_, fun i taken null first => ?_, fun short given => ?_, fun others same => ?_,
    fun tree ok => ?_⟩
  · have whole : refusal? m.name 0 m.arity args = none ↔
        m.arity ≤ args.length ∧ ∀ i < m.arity, args[i]? ≠ some .null := refusal?_eq_none_iff m.name
    rw [← whole]
    obtain ⟨failure, refused, fails⟩ | ⟨tree, given, binds, -⟩ := bind_cases joints args
    · simp [refused, fails]
    · simp [given, binds]
  · have refused : refusal? m.name 0 m.arity args =
        some (.required ("argument " ++ toString (0 + i))) :=
      refusal?_of_null m.name null taken first
    rw [Nat.zero_add] at refused
    exact ⟨_, bind_of_refusal? joints refused, rfl, rfl⟩
  · exact ⟨_, bind_of_refusal? joints (refusal?_of_short m.name short given), rfl⟩
  · rw [← bind_take m others, same, bind_take]
  · obtain ⟨failure, -, fails⟩ | ⟨tree', -, binds, bound⟩ := bind_cases joints args
    · cases fails.symm.trans ok
    · cases binds.symm.trans ok
      exact bound

end MethodName

/-- A method that a compiler returns has one connector fewer than clauses, and every call of it deals
with its arguments as it should. -/
theorem Compiler.Reachable.consumes_compile {c : Compiler} (reachable : c.Reachable) {name : String}
    {compiled : CompiledMethod} (compiles : (c.compile name).1 = .ok compiled) :
    compiled.method.connectors.length + 1 = compiled.method.clauses.length ∧
      ∀ args, compiled.method.Consumes args := by
  have joints := MethodName.length_connectors_of_parse (reachable.parse_of_compile compiles)
  exact ⟨joints, MethodName.consumes joints⟩

def ageBetweenOrName : MethodName :=
  ⟨"findByAgeBetweenOrName", .find, [⟨"age", .between⟩, ⟨"name", .equals⟩], [.or], []⟩

theorem compile_ageBetweenOrName :
    (({} : Compiler).compile "findByAgeBetweenOrName").1 = .ok ⟨0, ageBetweenOrName⟩ := by
  have parsed : MethodName.parse "findByAgeBetweenOrName" = .ok ageBetweenOrName :=
    toOption_eq_some_iff.mp (by decide +kernel)
  simp [Compiler.compile, Compiler.lookup?, Compiler.allocate, Compiler.offer, lookup, parsed]

/-- The second of two arguments is null and a third one is missing: the null decides the error. -/
theorem consumes_ageBetweenOrName :
    (({} : Compiler).compile "findByAgeBetweenOrName").1 = .ok ⟨0, ageBetweenOrName⟩ ∧
      (∀ args, ageBetweenOrName.Consumes args) ∧
      ∃ failure, ageBetweenOrName.bind [.string "M", .null] = .error failure ∧
        failure.kind = .nullArgument ∧ failure.message = "argument 1 is required" := by
  have consumes := (Compiler.Reachable.empty.consumes_compile compile_ageBetweenOrName).2
  refine ⟨compile_ageBetweenOrName, consumes, (consumes _).null 1 (by decide) rfl fun j hj => ?_⟩
  obtain rfl : j = 0 := by omega
  simp

end RecordMapper
