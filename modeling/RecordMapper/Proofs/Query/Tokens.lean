import RecordMapper.Proofs.Outcome
import RecordMapper.Query.MethodName

/-!
The tokens of a method name. Every token but the first has a connector in front of it, so a name that
parses has one connector fewer than clauses.
-/

namespace RecordMapper.MethodName

/-- Every token but the first has a connector in front of it. -/
theorem length_tokens (keywords : List (String × Connector)) (connector : Option Connector)
    (read text : List Char) : (tokens keywords connector read text).length =
      ((tokens keywords connector read text).filterMap (·.connector)).length +
        if connector.isSome then 0 else 1 := by
  fun_induction tokens keywords connector read text with
  | case1 connector read => cases connector <;> rfl
  | case2 connector read c cs next rest behind ih =>
    cases connector <;> simp [ih]
  | case3 connector read c cs silent ih => exact ih

/-- The parts of a method name behind its prefix: the condition, and the order if there is one. -/
def parts (body : List Char) : List Char × Option (List Char) :=
  match splitOrder? body with
  | some (condition, order) => (condition, some order)
  | none => (body, none)

def sortKeys (method : String) : Option (List Char) → Except Failure (List SortKey)
  | some text => (tokenize orderConnectors text).mapM (sortKey method)
  | none => .ok []

def assemble (method : String) (kind : QueryKind) (condition : List Char)
    (order : Option (List Char)) : Except Failure MethodName := do
  let found := tokenize conditionConnectors condition
  let clauses ← found.mapM (clause method)
  let sorts ← sortKeys method order
  return ⟨method, kind, clauses, found.filterMap (·.connector), sorts⟩

theorem parse_eq (method : String) : parse method =
    match splitKind? method.toList with
    | none => .error (.noQueryPrefix method)
    | some (kind, body) =>
      if (parts body).1.isEmpty then .error (.noCondition method)
      else assemble method kind (parts body).1 (parts body).2 := by
  unfold parse
  cases splitKind? method.toList with
  | none => rfl
  | some found =>
    obtain ⟨kind, body⟩ := found
    cases order : splitOrder? body with
    | none => simp only [parts, order]; rfl
    | some found => simp only [parts, order]; rfl

section Reading

variable {method : String} {kind : QueryKind} {condition : List Char} {order : Option (List Char)}
  {m : MethodName}

theorem assemble_eq_ok_iff : assemble method kind condition order = .ok m ↔
    ∃ clauses sorts, (tokenize conditionConnectors condition).mapM (clause method) = .ok clauses ∧
      sortKeys method order = .ok sorts ∧
      ⟨method, kind, clauses, (tokenize conditionConnectors condition).filterMap (·.connector),
        sorts⟩ = m := by
  simp only [assemble, bind_eq_ok_iff]
  constructor
  · rintro ⟨clauses, named, sorts, sorted, made⟩
    exact ⟨clauses, sorts, named, sorted, Except.ok.inj made⟩
  · rintro ⟨clauses, sorts, named, sorted, rfl⟩
    exact ⟨clauses, named, sorts, sorted, rfl⟩

theorem parse_eq_ok_iff : parse method = .ok m ↔
    ∃ kind body, splitKind? method.toList = some (kind, body) ∧ (parts body).1 ≠ [] ∧
      assemble method kind (parts body).1 (parts body).2 = .ok m := by
  rw [parse_eq]
  cases splitKind? method.toList with
  | none => simp
  | some found =>
    obtain ⟨kind, body⟩ := found
    by_cases empty : (parts body).1 = []
    · simp [empty]
    · simp [empty]

/-- Between two neighbouring clauses stands one connector. -/
theorem length_connectors_of_parse (h : parse method = .ok m) :
    m.connectors.length + 1 = m.clauses.length := by
  obtain ⟨kind, body, -, -, assembled⟩ := parse_eq_ok_iff.mp h
  obtain ⟨clauses, sorts, named, -, rfl⟩ := assemble_eq_ok_iff.mp assembled
  rw [← (mapM_eq_ok_iff.mp named).length_eq]
  exact (length_tokens _ _ _ _).symm

theorem clauses_ne_nil_of_parse (h : parse method = .ok m) : m.clauses ≠ [] := by
  have one_more := length_connectors_of_parse h
  exact List.ne_nil_of_length_pos (by omega)

end Reading

end RecordMapper.MethodName
