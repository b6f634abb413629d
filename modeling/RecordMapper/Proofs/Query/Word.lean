import Mathlib.Data.List.Chain
import RecordMapper.Proofs.Query.Scanning
import RecordMapper.Proofs.Text.Letter

/-!
Words of method names. A word is made of segments, each a capital letter with small letters or
digits behind it. Wherever a word stands in a method name, no keyword begins inside it: a keyword
would have to be a segment of its own, or run on into what follows and be cut short by its capital.
-/

namespace RecordMapper

open MethodName

def isSmall (c : Char) : Bool := c.isLower || c.isDigit

/-- A capital letter with at least one small letter or digit behind it. -/
structure Segment where
  initial : Char
  rest : List Char
  capital : initial.isUpper = true
  some_rest : rest ≠ []
  small : ∀ c ∈ rest, isSmall c = true

namespace Segment

def chars (s : Segment) : List Char := s.initial :: s.rest

def text (ss : List Segment) : List Char := ss.flatMap chars

theorem text_cons (s : Segment) (ss : List Segment) : text (s :: ss) = s.chars ++ text ss :=
  List.flatMap_cons

theorem text_append (ss ts : List Segment) : text (ss ++ ts) = text ss ++ text ts :=
  List.flatMap_append

/-- Segments that make a word: at least one, none of them a connector and no two of them together
the keyword of the ordering part. -/
structure IsWord (ss : List Segment) : Prop where
  some_segment : ss ≠ []
  no_connector : ∀ s ∈ ss, s.chars ≠ "And".toList ∧ s.chars ≠ "Or".toList
  no_order : ss.IsChain fun s t => ¬ (s.chars = "Order".toList ∧ t.chars = "By".toList)

/-- What may stand behind a word: nothing, or a text that starts in upper case. -/
def Opens (following : List Char) : Prop := following = [] ∨ startsUpper following = true

variable {s : Segment} {ss : List Segment} {following rest : List Char}

theorem startsUpper_chars (s : Segment) (following : List Char) :
    startsUpper (s.chars ++ following) = true :=
  Text.isUpper_of_isUpper s.capital

theorem opens_text_append (ss : List Segment) (opens : Opens following) :
    Opens (text ss ++ following) := by
  cases ss with
  | nil => exact opens
  | cons s ss =>
    refine .inr ?_
    rw [text_cons, List.append_assoc]
    exact s.startsUpper_chars _

theorem startsUpper_text (word : IsWord ss) (following : List Char) :
    startsUpper (text ss ++ following) = true := by
  obtain ⟨s, ss, rfl⟩ := List.exists_cons_of_ne_nil word.some_segment
  rw [text_cons, List.append_assoc]
  exact s.startsUpper_chars _

theorem takeWhile_of_opens {more : List Char} (opens : Opens more) :
    more.takeWhile isSmall = [] := by
  cases more with
  | nil => rfl
  | cons c cs =>
    rcases opens with none_behind | upper
    · cases none_behind
    · have : isSmall c = false := by
        refine Bool.eq_false_iff.mpr fun small => ?_
        rw [startsUpper, Text.isUpper_eq_false small] at upper
        cases upper
      simp [this]

/-- A keyword that is read at a segment starts with the whole of it and goes on behind it with a
capital, if at all. -/
theorem exists_of_afterKeyword? {keyword : String} (some_char : keyword.toList ≠ [])
    (opens : Opens following) (h : afterKeyword? keyword (s.chars ++ following) = some rest) :
    ∃ more, keyword.toList = s.chars ++ more ∧ Opens more ∧ following = more ++ rest := by
  obtain ⟨whole, upper⟩ := afterKeyword?_eq_some_iff.mp h
  rcases List.append_eq_append_iff.mp whole with ⟨more, longer, behind⟩ | ⟨more, shorter, behind⟩
  · refine ⟨more, longer, ?_, behind⟩
    cases more with
    | nil => exact .inl rfl
    | cons c cs =>
      rcases opens with none_behind | upper_behind
      · simp [none_behind] at behind
      · exact .inr (by simpa [behind, startsUpper] using upper_behind)
  · cases more with
    | nil => exact ⟨[], by simpa using shorter.symm, .inl rfl, by simpa using behind.symm⟩
    | cons c cs =>
      -- The segment is longer than the keyword, so a small letter stands behind the keyword.
      obtain ⟨k, ks, spelled⟩ := List.exists_cons_of_ne_nil some_char
      rw [spelled, chars, List.cons_append, List.cons.injEq] at shorter
      have small := Text.isUpper_eq_false (s.small c (by simp [shorter.2]))
      rw [behind] at upper
      exact absurd upper (by simp [startsUpper, small])

/-- So the segment is the keyword up to its second capital. -/
theorem of_afterKeyword? {keyword : String} {first : Char} {others : List Char}
    (spelled : keyword.toList = first :: others) (opens : Opens following)
    (h : afterKeyword? keyword (s.chars ++ following) = some rest) :
    s.chars = first :: others.takeWhile isSmall ∧
      following = others.dropWhile isSmall ++ rest := by
  obtain ⟨more, whole, capital, behind⟩ :=
    exists_of_afterKeyword? (by simp [spelled]) opens h
  rw [spelled, chars, List.cons_append, List.cons.injEq] at whole
  obtain ⟨rfl, rfl⟩ := whole
  have taken : (s.rest ++ more).takeWhile isSmall = s.rest := by
    rw [List.takeWhile_append_of_pos s.small, takeWhile_of_opens capital, List.append_nil]
  have dropped : (s.rest ++ more).dropWhile isSmall = more := by
    have both : (s.rest ++ more).takeWhile isSmall ++ (s.rest ++ more).dropWhile isSmall =
      s.rest ++ more := List.takeWhile_append_dropWhile
    rw [taken] at both
    exact List.append_cancel_left both
  rw [taken, dropped]
  exact ⟨rfl, behind⟩

theorem connectorAt?_chars_eq_none {keywords : List (String × Connector)}
    (known : keywords ⊆ conditionConnectors) (opens : Opens following)
    (other : s.chars ≠ "And".toList ∧ s.chars ≠ "Or".toList) :
    connectorAt? keywords (s.chars ++ following) = none := by
  refine connectorAt?_eq_none_iff.mpr fun k hk => ?_
  refine Option.eq_none_iff_forall_ne_some.mpr fun rest found => ?_
  have mem : k ∈ conditionConnectors := known hk
  simp only [conditionConnectors, List.mem_cons, List.not_mem_nil, or_false] at mem
  rcases mem with rfl | rfl | rfl | rfl
  · have whole := (of_afterKeyword? rfl opens found).1
    exact other.1 whole
  · have whole := (of_afterKeyword? rfl opens found).1
    exact other.2 whole
  · have whole := (of_afterKeyword? rfl opens found).1
    exact s.some_rest (List.cons.inj whole).2
  · have whole := (of_afterKeyword? rfl opens found).1
    exact s.some_rest (List.cons.inj whole).2

theorem afterKeyword?_small_eq_none {keyword : String} {first c : Char} {others : List Char}
    (spelled : keyword.toList = first :: others) (capital : isSmall first = false)
    (small : isSmall c = true) (rest : List Char) : afterKeyword? keyword (c :: rest) = none := by
  refine Option.eq_none_iff_forall_ne_some.mpr fun behind found => ?_
  have whole := (afterKeyword?_eq_some_iff.mp found).1
  rw [spelled, List.cons_append, List.cons.injEq] at whole
  rw [whole.1, capital] at small
  cases small

theorem connectorAt?_small_eq_none {keywords : List (String × Connector)}
    (known : keywords ⊆ conditionConnectors) {c : Char} (small : isSmall c = true)
    (rest : List Char) : connectorAt? keywords (c :: rest) = none := by
  refine connectorAt?_eq_none_iff.mpr fun k hk => ?_
  have mem : k ∈ conditionConnectors := known hk
  simp only [conditionConnectors, List.mem_cons, List.not_mem_nil, or_false] at mem
  rcases mem with rfl | rfl | rfl | rfl <;>
    exact afterKeyword?_small_eq_none rfl (by decide) small rest

theorem silent_connectorAt? {keywords : List (String × Connector)}
    (known : keywords ⊆ conditionConnectors) (opens : Opens following)
    (other : ∀ s ∈ ss, s.chars ≠ "And".toList ∧ s.chars ≠ "Or".toList) :
    Silent (connectorAt? keywords) following (text ss) := by
  induction ss with
  | nil => trivial
  | cons s ss ih =>
    rw [text_cons]
    refine Silent.append ⟨?_, silent_of_forall fun c hc rest => ?_⟩
      (ih fun t ht => other t (List.mem_cons_of_mem _ ht))
    · exact connectorAt?_chars_eq_none known (opens_text_append ss opens)
        (other s List.mem_cons_self)
    · exact connectorAt?_small_eq_none known (s.small c hc) _

theorem orderBy_chars_eq_none (opens : Opens following)
    (apart : s.chars = "Order".toList → afterKeyword? "By" following = none) :
    afterKeyword? "OrderBy" (s.chars ++ following) = none := by
  refine Option.eq_none_iff_forall_ne_some.mpr fun rest found => ?_
  have upper := (afterKeyword?_eq_some_iff.mp found).2
  obtain ⟨order, behind⟩ := of_afterKeyword? rfl opens found
  have by_ : afterKeyword? "By" following = some rest :=
    afterKeyword?_eq_some_iff.mpr ⟨behind, upper⟩
  rw [apart order] at by_
  cases by_

/-- The ordering keyword does not begin inside a word, unless the word ends in `Order` and a `By`
stands behind it. -/
theorem silent_orderBy (opens : Opens following) (elsewhere : afterKeyword? "By" following = none)
    (apart : ss.IsChain fun s t => ¬ (s.chars = "Order".toList ∧ t.chars = "By".toList)) :
    Silent (afterKeyword? "OrderBy") following (text ss) := by
  induction ss with
  | nil => trivial
  | cons s ss ih =>
    rw [text_cons]
    refine Silent.append ⟨?_, silent_of_forall fun c hc rest => ?_⟩ (ih apart.tail)
    · refine orderBy_chars_eq_none (opens_text_append ss opens) fun order => ?_
      cases ss with
      | nil => exact elsewhere
      | cons t ss =>
        -- A `By` behind the segment would have to be the next segment.
        refine Option.eq_none_iff_forall_ne_some.mpr fun rest found => ?_
        rw [text_cons, List.append_assoc] at found
        have by_ := (of_afterKeyword? rfl (opens_text_append ss opens) found).1
        exact (List.isChain_cons_cons.mp apart).1 ⟨order, by_⟩
    · exact afterKeyword?_small_eq_none rfl (by decide) (s.small c hc) _

end Segment

end RecordMapper
