import RecordMapper.Proofs.Query.Parsing
import RecordMapper.Proofs.Repository.Definition

/-!
The forms of one query. Method names that differ in their prefix alone are read and bound alike: all
of them fail with one kind of failure, or none does and they ask the same.
-/

namespace RecordMapper

/-- All outcomes are failures of one kind, or all are the same answer. -/
def Uniform {ι α : Type} (x : ι → Except Failure α) : Prop :=
  (∃ kind, ∀ i, ∃ failure, x i = .error failure ∧ failure.kind = kind) ∨ ∃ a, ∀ i, x i = .ok a

namespace Uniform

variable {ι α β : Type} {x : ι → Except Failure α}

theorem ok (a : α) : Uniform fun _ : ι => .ok a := .inr ⟨a, fun _ => rfl⟩

theorem error {failure : ι → Failure} {kind : ErrorKind} (same : ∀ i, (failure i).kind = kind) :
    Uniform fun i => (.error (failure i) : Except Failure α) :=
  .inl ⟨kind, fun i => ⟨failure i, rfl, same i⟩⟩

theorem comp {κ : Type} (h : Uniform x) (g : κ → ι) : Uniform fun i => x (g i) :=
  h.imp (fun ⟨kind, fails⟩ => ⟨kind, fun i => fails (g i)⟩)
    fun ⟨a, answers⟩ => ⟨a, fun i => answers (g i)⟩

theorem bind {f : ι → α → Except Failure β} (first : Uniform x)
    (rest : ∀ a, Uniform fun i => f i a) : Uniform fun i => x i >>= f i := by
  obtain ⟨kind, fails⟩ | ⟨a, answers⟩ := first
  · refine .inl ⟨kind, fun i => ?_⟩
    obtain ⟨failure, failed, same⟩ := fails i
    refine ⟨failure, ?_, same⟩
    show x i >>= f i = _
    rw [failed]
    rfl
  · simpa only [answers, ok_bind] using rest a

theorem map (g : α → β) (h : Uniform x) : Uniform fun i => (x i).map g := by
  have bound := h.bind fun a => (ok (g a) : Uniform fun _ : ι => (.ok (g a) : Except Failure β))
  exact bound

theorem mapM {f : ι → α → Except Failure β} (each : ∀ a, Uniform fun i => f i a) (xs : List α) :
    Uniform fun i => xs.mapM (f i) := by
  induction xs with
  | nil => exact ok []
  | cons a rest ih =>
    simp only [List.mapM_cons]
    exact (each a).bind fun b => ih.bind fun bs => ok (b :: bs)

end Uniform

namespace MethodName

theorem uniform_fieldName (text : List Char) : Uniform fun method => fieldName method text := by
  cases text with
  | nil => exact .error fun _ => rfl
  | cons c cs => exact .ok _

theorem uniform_clause (t : Token) : Uniform fun method => clause method t :=
  (uniform_fieldName _).map _

theorem uniform_sortKey (t : Token) : Uniform fun method => sortKey method t :=
  (uniform_fieldName _).map _

theorem uniform_sortKeys (order : Option (List Char)) :
    Uniform fun method => sortKeys method order := by
  cases order with
  | none => exact .ok []
  | some text => exact .mapM uniform_sortKey _

theorem uniform_nextArgument (index : Nat) (args : List Value) :
    Uniform fun method => nextArgument method index args := by
  cases args with
  | nil => exact .error fun _ => rfl
  | cons v rest =>
    simp only [nextArgument]
    cases v.isNull with
    | true => exact .error fun _ => rfl
    | false => exact .ok (v, rest)

theorem uniform_takeOperand (operator : Operator) (index : Nat) (args : List Value) :
    Uniform fun method => takeOperand method operator index args := by
  cases operator with
  | between =>
    exact (uniform_nextArgument index args).bind fun first =>
      (uniform_nextArgument (index + 1) first.2).bind fun second => .ok _
  | _ => exact (uniform_nextArgument index args).bind fun first => .ok _

theorem uniform_leaves (cs : List Clause) (index : Nat) (args : List Value) :
    Uniform fun method => leaves method cs index args := by
  induction cs generalizing index args with
  | nil => exact .ok []
  | cons c cs ih =>
    exact (uniform_takeOperand c.operator index args).bind fun taken =>
      (ih _ taken.2).bind fun others => .ok _

/-- Methods with the same clauses and connectors bind arguments alike. -/
theorem uniform_bind {ι : Type} {m : ι → MethodName} {clauses : List Clause}
    {connectors : List Connector} (same : ∀ i, (m i).clauses = clauses)
    (joined : ∀ i, (m i).connectors = connectors) (args : List Value) :
    Uniform fun i => (m i).bind args := by
  have taken : Uniform fun i => leaves (m i).name (m i).clauses 0 args := by
    simp only [same]
    exact (uniform_leaves clauses 0 args).comp fun i => (m i).name
  refine taken.bind fun found => ?_
  cases found with
  | nil => exact .error fun _ => rfl
  | cons first others =>
    simp only [joined]
    exact .ok _

theorem parse_keyword (k : QueryKind) (b : String) : parse (k.keyword ++ b) =
    if (parts b.toList).1.isEmpty then .error (.noCondition (k.keyword ++ b))
    else assemble (k.keyword ++ b) k (parts b.toList).1 (parts b.toList).2 := by
  rw [parse_eq, String.toList_append, splitKind?_append]

/-- What is read behind a prefix, but for the connectors. -/
def readings (method : String) (condition : List Char) (order : Option (List Char)) :
    Except Failure (List Clause × List SortKey) := do
  let clauses ← (tokenize conditionConnectors condition).mapM (clause method)
  let sorts ← sortKeys method order
  return (clauses, sorts)

theorem assemble_eq (method : String) (k : QueryKind) (condition : List Char)
    (order : Option (List Char)) : assemble method k condition order =
      (readings method condition order).map fun r => ⟨method, k, r.1,
        (tokenize conditionConnectors condition).filterMap (·.connector), r.2⟩ := by
  simp only [assemble, readings]
  cases (tokenize conditionConnectors condition).mapM (clause method) with
  | error failure => rfl
  | ok clauses => cases sortKeys method order <;> rfl

theorem uniform_readings (condition : List Char) (order : Option (List Char)) :
    Uniform fun method => readings method condition order :=
  (Uniform.mapM uniform_clause _).bind fun clauses =>
    (uniform_sortKeys order).bind fun sorts => .ok (clauses, sorts)

/-- Behind every prefix, a name is read alike. -/
theorem parse_forms (b : String) :
    (∃ kind, ∀ k : QueryKind, ∃ failure,
      parse (k.keyword ++ b) = .error failure ∧ failure.kind = kind) ∨
    ∃ clauses connectors sorts, ∀ k : QueryKind,
      parse (k.keyword ++ b) = .ok ⟨k.keyword ++ b, k, clauses, connectors, sorts⟩ := by
  by_cases empty : (parts b.toList).1.isEmpty
  · refine .inl ⟨_, fun k => ⟨.noCondition (k.keyword ++ b), ?_, rfl⟩⟩
    rw [parse_keyword, if_pos empty]
  · have assembled (k : QueryKind) := parse_keyword k b
    simp only [if_neg empty, assemble_eq] at assembled
    obtain ⟨kind, fails⟩ | ⟨⟨clauses, sorts⟩, answers⟩ :=
      uniform_readings (parts b.toList).1 (parts b.toList).2
    · refine .inl ⟨kind, fun k => ?_⟩
      obtain ⟨failure, failed, same⟩ := fails (k.keyword ++ b)
      exact ⟨failure, (assembled k).trans (congrArg (Except.map _) failed), same⟩
    · refine .inr ⟨clauses, (tokenize conditionConnectors (parts b.toList).1).filterMap (·.connector),
        sorts, fun k => ?_⟩
      exact (assembled k).trans (congrArg (Except.map _) (answers _))

end MethodName

namespace Compiler

/-- A compiled object is the reading of its name. -/
theorem Reachable.map_compile {c : Compiler} (h : c.Reachable) (name : String) :
    (c.compile name).1.map (·.method) = MethodName.parse name := by
  cases compiles : (c.compile name).1 with
  | ok compiled => exact (h.parse_of_compile compiles).symm
  | error failure =>
    unfold Compiler.compile at compiles
    split at compiles
    next => cases compiles
    next =>
      split at compiles
      next parsed =>
        cases compiles
        exact parsed.symm
      next => cases compiles

theorem Reachable.exists_compile {c : Compiler} (h : c.Reachable) {name : String} {m : MethodName}
    (parsed : MethodName.parse name = .ok m) :
    ∃ compiled, (c.compile name).1 = .ok compiled ∧ compiled.method = m :=
  map_eq_ok_iff.mp ((h.map_compile name).trans parsed)

theorem Reachable.compile_error {c : Compiler} (h : c.Reachable) {name : String}
    {failure : Failure} (parsed : MethodName.parse name = .error failure) :
    (c.compile name).1 = .error failure := by
  have read := (h.map_compile name).trans parsed
  cases compiles : (c.compile name).1 with
  | ok compiled =>
    rw [compiles] at read
    cases read
  | error other =>
    rw [compiles] at read
    cases read
    rfl

/-- Whatever was compiled before: none of the forms of a query compiles, or all do and say the
same. -/
theorem compile_forms (b : String) :
    (∃ kind, ∀ (k : QueryKind) (c : Compiler), c.Reachable → ∃ failure,
      (c.compile (k.keyword ++ b)).1 = .error failure ∧ failure.kind = kind) ∨
    ∃ clauses connectors sorts arity, ∀ (k : QueryKind) (c : Compiler), c.Reachable →
      ∃ compiled, (c.compile (k.keyword ++ b)).1 = .ok compiled ∧
        compiled.method = ⟨k.keyword ++ b, k, clauses, connectors, sorts⟩ ∧
        compiled.method.arity = arity := by
  obtain ⟨kind, fails⟩ | ⟨clauses, connectors, sorts, reads⟩ := MethodName.parse_forms b
  · refine .inl ⟨kind, fun k c reachable => ?_⟩
    obtain ⟨failure, failed, same⟩ := fails k
    exact ⟨failure, reachable.compile_error failed, same⟩
  · refine .inr ⟨clauses, connectors, sorts, Clause.operands clauses,
      fun k c reachable => ?_⟩
    obtain ⟨compiled, compiles, reading⟩ := reachable.exists_compile (reads k)
    exact ⟨compiled, compiles, reading, by rw [reading]; rfl⟩

end Compiler

end RecordMapper
