import Mathlib.Data.List.Infix
import RecordMapper.Proofs.Query.Tokens
import RecordMapper.Proofs.Query.Word

/-!
Method names as they are put together: a prefix, clauses joined by spelled connectors, and sort
clauses behind the ordering keyword. A name that is put together from words reads as what it was
put together from.
-/

namespace RecordMapper

open MethodName

structure Word where
  segments : List Segment
  isWord : Segment.IsWord segments

/-- A connector as it is spelled, with one capital or in capitals. -/
structure Spelling where
  connector : Connector
  capitals : Bool

/-- What stands behind the field of a clause. -/
def Operator.suffix : Operator → String
  | .equals => ""
  | .lessThan => "LessThan"
  | .greaterThan => "GreaterThan"
  | .lessThanEqual => "LessEqualThan"
  | .greaterThanEqual => "GreaterEqualThan"
  | .like => "Like"
  | .between => "Between"

def SortOrder.suffix : SortOrder → String
  | .ascending => "Asc"
  | .descending => "Desc"

namespace Word

def chars (w : Word) : List Char := Segment.text w.segments

/-- The word with its first letter in lower case. -/
def field (w : Word) : String :=
  match w.chars with
  | [] => ""
  | c :: cs => String.ofList (c.toLower :: cs)

end Word

namespace Spelling

def chars (s : Spelling) : List Char :=
  match s.connector, s.capitals with
  | .and, false => "And".toList
  | .and, true => "AND".toList
  | .or, false => "Or".toList
  | .or, true => "OR".toList

end Spelling

/-- A clause; without a suffix, the word does not end like a clause that has one. -/
structure ClauseText where
  word : Word
  operator : Operator
  unambiguous : operator = .equals →
    ∀ other : Operator, other ≠ .equals → ¬ other.suffix.toList <:+ word.chars

namespace ClauseText

def chars (c : ClauseText) : List Char := c.word.chars ++ c.operator.suffix.toList

def reading (c : ClauseText) : Clause := ⟨c.word.field, c.operator⟩

end ClauseText

/-- A sort clause; without a direction, the word does not end like one. -/
structure SortText where
  word : Word
  direction : Option SortOrder
  unambiguous : direction = none → ∀ order : SortOrder, ¬ order.suffix.toList <:+ word.chars

namespace SortText

def chars (s : SortText) : List Char :=
  match s.direction with
  | some order => s.word.chars ++ order.suffix.toList
  | none => s.word.chars

/-- Ascending, unless the clause says otherwise. -/
def reading (s : SortText) : SortKey := ⟨s.word.field, s.direction.getD .ascending⟩

end SortText

/-- One part, and more parts each behind a joint. -/
structure Joined (κ α : Type) where
  first : α
  others : List (κ × α)

namespace Joined

variable {κ α : Type}

def parts (j : Joined κ α) : List α := j.first :: j.others.map (·.2)

def joints (j : Joined κ α) : List κ := j.others.map (·.1)

/-- The characters of parts that each stand behind their joint. -/
def tailChars (spell : κ → List Char) (text : α → List Char) (others : List (κ × α)) : List Char :=
  others.flatMap fun x => spell x.1 ++ text x.2

def chars (spell : κ → List Char) (text : α → List Char) (j : Joined κ α) : List Char :=
  text j.first ++ tailChars spell text j.others

end Joined

/-- A method name in its parts. Sort clauses are joined by `And` and `AND` alone. -/
structure MethodText where
  kind : QueryKind
  clauses : Joined Spelling ClauseText
  order : Option (Joined { s : Spelling // s.connector = .and } SortText)

namespace MethodText

def conditionChars (t : MethodText) : List Char := t.clauses.chars Spelling.chars ClauseText.chars

def orderChars (t : MethodText) : List Char :=
  match t.order with
  | some sorts => "OrderBy".toList ++ sorts.chars (fun s => s.1.chars) SortText.chars
  | none => []

def text (t : MethodText) : String :=
  String.ofList (t.kind.keyword.toList ++ (t.conditionChars ++ t.orderChars))

/-- What the name says. -/
def reading (t : MethodText) : MethodName :=
  { name := t.text
    kind := t.kind
    clauses := t.clauses.parts.map ClauseText.reading
    connectors := t.clauses.joints.map (·.connector)
    sorts := t.order.elim [] fun sorts => sorts.parts.map SortText.reading }

end MethodText

theorem Word.exists_chars (w : Word) :
    ∃ c cs, w.chars = c :: cs ∧ c.isUpper = true := by
  obtain ⟨s, ss, eq⟩ := List.exists_cons_of_ne_nil w.isWord.some_segment
  refine ⟨s.initial, s.rest ++ Segment.text ss, ?_, s.capital⟩
  rw [Word.chars, eq, Segment.text_cons]
  rfl

theorem Word.fieldName_chars (w : Word) (method : String) :
    fieldName method w.chars = .ok w.field := by
  obtain ⟨c, cs, eq, capital⟩ := w.exists_chars
  rw [Word.field, eq, fieldName, Text.toLower_of_isUpper capital]
  rfl

namespace MethodName

theorem stripSuffix?_append (front ending : List Char) :
    stripSuffix? ending (front ++ ending) = some front :=
  stripSuffix?_eq_some_iff.mpr rfl

theorem stripSuffix?_eq_none_iff {ending text : List Char} :
    stripSuffix? ending text = none ↔ ¬ ending <:+ text := by
  rw [Option.eq_none_iff_forall_ne_some]
  constructor
  · rintro never ⟨front, rfl⟩
    exact never front (stripSuffix?_append front ending)
  · intro apart front found
    exact apart ⟨front, (stripSuffix?_eq_some_iff.mp found).symm⟩

theorem suffix_or_suffix {a b text : List Char} (ha : a <:+ text) (hb : b <:+ text) :
    a <:+ b ∨ b <:+ a := by
  rcases Nat.le_total a.length b.length with le | le
  · exact .inl (List.suffix_of_suffix_length_le ha hb le)
  · exact .inr (List.suffix_of_suffix_length_le hb ha le)

theorem suffixes_spelled : ∀ s ∈ suffixes, s.1 = s.2.suffix ∧ s.2 ≠ .equals := by decide

/-- None of the operator suffixes ends like another one. -/
theorem suffixes_apart : ∀ s ∈ suffixes, ∀ s' ∈ suffixes,
    s.1.toList <:+ s'.1.toList → s = s' := by decide

theorem mem_suffixes {operator : Operator} (some_suffix : operator ≠ .equals) :
    (operator.suffix, operator) ∈ suffixes := by
  cases operator with
  | equals => exact absurd rfl some_suffix
  | _ => decide

end MethodName

theorem findSome?_of_unique {α β : Type} {f : α → Option β} {xs : List α} {x : α} {y : β}
    (mem : x ∈ xs) (answer : f x = some y) (unique : ∀ z ∈ xs, f z ≠ none → z = x) :
    xs.findSome? f = some y := by
  cases found : xs.findSome? f with
  | none =>
    have := List.findSome?_eq_none_iff.mp found x mem
    rw [answer] at this
    cases this
  | some y' =>
    obtain ⟨z, hz, hy⟩ := List.exists_of_findSome?_eq_some found
    obtain rfl := unique z hz (by simp [hy])
    rw [← hy, answer]

theorem ClauseText.splitSuffix_chars (c : ClauseText) :
    splitSuffix c.chars = (c.word.chars, c.operator) := by
  by_cases equality : c.operator = .equals
  · have none_ends : suffixes.findSome? (fun s =>
        (stripSuffix? s.1.toList c.word.chars).map (·, s.2)) = none := by
      refine List.findSome?_eq_none_iff.mpr fun s hs => ?_
      obtain ⟨spelled, other⟩ := suffixes_spelled s hs
      have apart := c.unambiguous equality s.2 other
      rw [← spelled] at apart
      rw [stripSuffix?_eq_none_iff.mpr apart]
      rfl
    have whole : c.chars = c.word.chars := by
      simp [ClauseText.chars, equality, Operator.suffix]
    rw [whole, splitSuffix, none_ends, equality]
    rfl
  · have found : suffixes.findSome? (fun s =>
        (stripSuffix? s.1.toList c.chars).map (·, s.2)) = some (c.word.chars, c.operator) := by
      refine findSome?_of_unique (mem_suffixes equality) ?_ fun s hs some_answer => ?_
      · rw [ClauseText.chars, stripSuffix?_append]
        rfl
      · have ends : s.1.toList <:+ c.chars := by
          by_contra apart
          rw [stripSuffix?_eq_none_iff.mpr apart] at some_answer
          exact some_answer rfl
        have own : c.operator.suffix.toList <:+ c.chars := List.suffix_append _ _
        -- Both end the same text, so one of them ends like the other.
        rcases suffix_or_suffix ends own with sub | sub
        · exact suffixes_apart s hs _ (mem_suffixes equality) sub
        · exact (suffixes_apart _ (mem_suffixes equality) s hs sub).symm
    rw [splitSuffix, found]
    rfl

theorem SortText.splitDirection_chars (s : SortText) :
    splitDirection s.chars = (s.word.chars, s.direction.getD .ascending) := by
  rw [splitDirection, SortText.chars]
  cases direction : s.direction with
  | none =>
    have apart := s.unambiguous direction
    have desc := stripSuffix?_eq_none_iff.mpr (apart .descending)
    have asc := stripSuffix?_eq_none_iff.mpr (apart .ascending)
    simp only [SortOrder.suffix] at desc asc
    simp only [desc, asc]
    rfl
  | some order =>
    cases order with
    | descending =>
      have own := stripSuffix?_append s.word.chars "Desc".toList
      simp only [SortOrder.suffix, own]
      rfl
    | ascending =>
      have own := stripSuffix?_append s.word.chars "Asc".toList
      have other : stripSuffix? "Desc".toList (s.word.chars ++ "Asc".toList) = none := by
        refine stripSuffix?_eq_none_iff.mpr fun ends => ?_
        rcases suffix_or_suffix ends (List.suffix_append _ _) with sub | sub
        · exact absurd sub (by decide)
        · exact absurd sub (by decide)
      simp only [SortOrder.suffix, own, other]
      rfl

end RecordMapper
