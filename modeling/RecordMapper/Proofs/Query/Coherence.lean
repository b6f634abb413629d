import RecordMapper.Proofs.Query.Binding
import RecordMapper.Proofs.Value.Comparing

/-!
Comparisons that fit together. Of a value and a bound that can be compared exactly one of the three
strict comparisons holds, and of others none: equality, for which any two values can be asked, holds
of no two that the orders do not compare. The inclusive comparisons are made of the strict ones.
-/

namespace RecordMapper

theorem IntegerType.name_ne (t : IntegerType) :
    ∀ name ∈ ["null", "bool", "char", "string", "record", "array", "map"],
      t.name ≠ name ∧ name ≠ t.name := by
  cases t <;> decide

namespace Value

/-- What a value is; every width of integers is a kind of its own. -/
inductive Kind where
  | null | bool | integer (type : IntegerType) | f32 | f64 | char | string | record | array | map
  deriving DecidableEq

def kind : Value → Kind
  | .null => .null
  | .bool _ => .bool
  | .int n => .integer n.type
  | .f32 _ => .f32
  | .f64 _ => .f64
  | .char _ => .char
  | .string _ => .string
  | .record .. => .record
  | .array _ => .array
  | .map _ => .map

/-- Two numbers, of whatever kinds, or two values of one kind. -/
def Alike (a b : Value) : Prop := (a.isNumber = true ∧ b.isNumber = true) ∨ a.kind = b.kind

variable {a b : Value}

theorem alike_iff_rank : a.Alike b ↔ a.rank = b.rank := by
  cases a <;> cases b <;> simp [Alike, kind, rank, isNumber, asDecimal?]

/-- The names of the kinds tell them apart. -/
theorem comparable_iff_alike : a.comparable b = true ↔ a.Alike b := by
  have names := IntegerType.name_ne
  simp only [List.forall_mem_cons] at names
  rw [alike_iff_rank]
  cases a <;> cases b <;> simp [comparable, rank, isNumber, asDecimal?, typeName, names]

theorem rank_canonical (v : Value) : v.canonical.rank = v.rank := by
  cases v <;> rfl

theorem alike_of_cmp (same : a.cmp b = .eq) : a.Alike b := by
  rw [alike_iff_rank, ← rank_canonical a, ← rank_canonical b]
  by_contra apart
  rw [cmp, compareCanonical_of_rank_ne apart] at same
  exact apart (Std.LawfulEqOrd.eq_of_compare same)

end Value

namespace Operator

/-- The comparisons that hold for one outcome of the order. -/
def strict : List Operator := [.lessThan, .equals, .greaterThan]

/-- The strict comparison that holds for an outcome of the order. -/
def ofOrdering : Ordering → Operator
  | .lt => .lessThan
  | .eq => .equals
  | .gt => .greaterThan

theorem ofOrdering_mem_strict (o : Ordering) : ofOrdering o ∈ strict := by
  cases o <;> decide

theorem exists_of_mem_strict {operator : Operator} (mem : operator ∈ strict) :
    ∃ o, ofOrdering o = operator := by
  simp only [strict, List.mem_cons, List.not_mem_nil, or_false] at mem
  rcases mem with rfl | rfl | rfl
  · exact ⟨.lt, rfl⟩
  · exact ⟨.eq, rfl⟩
  · exact ⟨.gt, rfl⟩

end Operator

/-- Verdicts of the operators on what was found that fit together. -/
structure Coherent (found : Option Value) (verdict : Operator → Operand → Bool) : Prop where
  absent : found = none → ∀ operator operand, verdict operator operand = false
  alike : ∀ v bound, found = some v → v.Alike bound →
    ∃! operator, operator ∈ Operator.strict ∧ verdict operator (.single bound) = true
  apart : ∀ v bound, found = some v → ¬ v.Alike bound →
    ∀ operator ∈ Operator.strict, verdict operator (.single bound) = false
  lessThanEqual : ∀ bound, verdict .lessThanEqual (.single bound) =
    (verdict .lessThan (.single bound) || verdict .equals (.single bound))
  greaterThanEqual : ∀ bound, verdict .greaterThanEqual (.single bound) =
    (verdict .greaterThan (.single bound) || verdict .equals (.single bound))
  between : ∀ low high, verdict .between (.pair low high) =
    (verdict .greaterThanEqual (.single low) && verdict .lessThanEqual (.single high))

namespace Criterion

variable {field : String} {v bound : Value}

theorem ordered_append (os ps : List Ordering) (v bound : Value) :
    ordered (os ++ ps) v bound = (ordered os v bound || ordered ps v bound) := by
  simp only [ordered, List.contains_append, Bool.and_or_distrib_left]

theorem ordered_single_iff {o : Ordering} :
    ordered [o] v bound = true ↔ v.Alike bound ∧ v.cmp bound = o := by
  simp [ordered, Value.comparable_iff_alike]

/-- Equality is one of the orders: no two values are equal that cannot be compared. -/
theorem beq_eq_ordered (v bound : Value) : (v == bound) = ordered [.eq] v bound := by
  rw [Bool.eq_iff_iff, Value.beq_iff, ordered_single_iff]
  exact ⟨fun same => ⟨Value.alike_of_cmp same, same⟩, And.right⟩

theorem testValue_ofOrdering (o : Ordering) :
    testValue ⟨field, .ofOrdering o, .single bound⟩ v = ordered [o] v bound := by
  cases o with
  | lt | gt => rfl
  | eq => exact beq_eq_ordered v bound

theorem coherent_testValue (field : String) (v : Value) :
    Coherent (some v) fun operator operand => testValue ⟨field, operator, operand⟩ v where
  absent none_of := by cases none_of
  alike := by
    rintro _ bound ⟨⟩ alike
    refine ⟨.ofOrdering (v.cmp bound), ⟨Operator.ofOrdering_mem_strict _, ?_⟩, ?_⟩
    · rw [testValue_ofOrdering, ordered_single_iff]
      exact ⟨alike, rfl⟩
    · rintro operator ⟨mem, holds⟩
      obtain ⟨o, rfl⟩ := Operator.exists_of_mem_strict mem
      rw [testValue_ofOrdering, ordered_single_iff] at holds
      rw [holds.2]
  apart := by
    rintro _ bound ⟨⟩ apart operator mem
    obtain ⟨o, rfl⟩ := Operator.exists_of_mem_strict mem
    rw [testValue_ofOrdering, Bool.eq_false_iff, ne_eq, ordered_single_iff]
    exact fun holds => apart holds.1
  lessThanEqual bound := by
    have parts := ordered_append [.lt] [.eq] v bound
    rwa [← beq_eq_ordered] at parts
  greaterThanEqual bound := by
    have parts := ordered_append [.gt] [.eq] v bound
    rwa [← beq_eq_ordered] at parts
  between _ _ := rfl

theorem coherent_test (sep : String) (r : Record) (field : String) :
    Coherent (r.findPath? sep field) fun operator operand =>
      test sep ⟨field, operator, operand⟩ r := by
  cases found : r.findPath? sep field with
  | some v =>
    simp only [test, found]
    exact coherent_testValue field v
  | none =>
    simp only [test, found]
    exact ⟨fun _ _ _ => rfl, by rintro _ _ ⟨⟩, by rintro _ _ ⟨⟩, fun _ => rfl, fun _ => rfl,
      fun _ _ => rfl⟩

end Criterion

/-- The operators judge the entry at a path coherently. Renaming the paths of a condition, whatever
the new names are, has each leaf judge the entry at the renamed path as coherently. -/
theorem Condition.test_coherent (sep : String) (r : Record) (rename : String → String)
    (path : String) :
    Coherent (r.findPath? sep path) (fun operator operand =>
      (leaf ⟨path, operator, operand⟩).test sep r) ∧
    Coherent (r.findPath? sep (rename path)) (fun operator operand =>
      ((leaf ⟨path, operator, operand⟩).mapFields rename).test sep r) ∧
    ∀ c : Condition, (c.mapFields rename).test sep r =
      c.eval fun criterion => ((leaf criterion).mapFields rename).test sep r := by
  refine ⟨Criterion.coherent_test sep r path, Criterion.coherent_test sep r (rename path), ?_⟩
  intro c
  rw [test_eq_eval, eval_mapFields]
  rfl

end RecordMapper
