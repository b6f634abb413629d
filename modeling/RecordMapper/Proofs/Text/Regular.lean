import Mathlib.Data.List.Basic
import RecordMapper.Text.Regular

/-!
What is relied on of an engine for regular expressions, as far as expressions go that stand for a
text piece by piece, and that the engine with the table of marks does it.
-/

namespace RecordMapper.Regular

/-- An expression for one piece: any text, any character or a given one. -/
inductive Engine.Piece (engine : Engine) : String → Prop
  | anything : engine.Piece ".*"
  | anyone : engine.Piece "."
  | itself (c : Char) : engine.Piece (engine.escape c)

/-- Expressions for single pieces one behind the other. -/
inductive Engine.Pieces (engine : Engine) : String → Prop
  | nil : engine.Pieces ""
  | cons {piece rest : String} (head : engine.Piece piece) (tail : engine.Pieces rest) :
      engine.Pieces (piece ++ rest)

/-- An expression under the flag `s`, from the start of the text to its end. -/
def anchored (e : String) : String := "(?s)^" ++ (e ++ "$")

/-- What the syntax of regular expressions says about pieces, where `Matches` tells for which texts
an expression stands under the flag `s`, line ends being characters like all others. -/
structure Engine.Lawful (engine : Engine) (Matches : String → List Char → Prop) : Prop where
  point : ∀ text, Matches "." text ↔ ∃ c, text = [c]
  starred : ∀ text, Matches ".*" text ↔
    ∃ parts : List (List Char), parts.flatten = text ∧ ∀ part ∈ parts, Matches "." part
  escaped : ∀ c text, Matches (engine.escape c) text ↔ text = [c]
  nothing : ∀ text, Matches "" text ↔ text = []
  concatenated : ∀ {piece rest : String}, engine.Piece piece → engine.Pieces rest → ∀ text,
    (Matches (piece ++ rest) text ↔
      ∃ front back, text = front ++ back ∧ Matches piece front ∧ Matches rest back)
  /-- Between both anchors, what is searched for is the whole text. -/
  whole : ∀ {e : String} {program : engine.Program}, engine.Pieces e →
    engine.compile (anchored e) = .ok program → ∀ text : String,
      (engine.isMatch program text = true ↔ Matches e text.toList)
  /-- Nothing but its size keeps an expression from having a program. -/
  compiles : ∀ {e : String}, engine.Pieces e →
    ((∃ program, engine.compile (anchored e) = .ok program) ↔
      engine.size (anchored e) ≤ engine.limit)

/-- What a term stands for. -/
inductive Term.StandsFor : Term → List Char → Prop
  | anything (piece : List Char) : StandsFor .anything piece
  | anyone (d : Char) : StandsFor .anyone [d]
  | itself (c : Char) : StandsFor (.itself c) [c]

/-- The text consists of pieces for which the terms stand. -/
def Fits : List Term → List Char → Prop
  | [], text => text = []
  | term :: terms, text => ∃ front back, text = front ++ back ∧ term.StandsFor front ∧ Fits terms back

section Fitting

variable {term : Term} {terms : List Term} {text : List Char}

theorem Term.standsFor_iff (single : term ≠ .anything) {piece : List Char} :
    term.StandsFor piece ↔ ∃ d, term.allows d = true ∧ piece = [d] := by
  constructor
  · rintro (_ | d | c)
    · exact absurd rfl single
    · exact ⟨d, rfl, rfl⟩
    · exact ⟨c, by simp [allows], rfl⟩
  · rintro ⟨d, allowed, rfl⟩
    cases term with
    | anything => exact absurd rfl single
    | anyone => exact .anyone d
    | itself c =>
      obtain rfl : c = d := by simpa [allows] using allowed
      exact .itself c

theorem fits_anything_iff : Fits (.anything :: terms) text ↔
    ∃ rest, rest <:+ text ∧ Fits terms rest := by
  constructor
  · rintro ⟨front, back, rfl, -, fits⟩
    exact ⟨back, List.suffix_append front back, fits⟩
  · rintro ⟨rest, ⟨front, rfl⟩, fits⟩
    exact ⟨front, rest, rfl, .anything front, fits⟩

/-- Any other term takes one character off the front of the text. -/
theorem fits_single_iff (single : term ≠ .anything) : Fits (term :: terms) text ↔
    ∃ d rest, text = d :: rest ∧ term.allows d = true ∧ Fits terms rest := by
  simp only [Fits, Term.standsFor_iff single]
  constructor
  · rintro ⟨-, rest, rfl, ⟨d, allowed, rfl⟩, fits⟩
    exact ⟨d, rest, rfl, allowed, fits⟩
  · rintro ⟨d, rest, rfl, allowed, fits⟩
    exact ⟨[d], rest, rfl, ⟨d, allowed, rfl⟩, fits⟩

end Fitting

/-- Marks that tell for every end of a text, the whole text first, whether it has a property. -/
inductive Tells (p : List Char → Prop) : List Char → List Bool → Prop
  | nil {b : Bool} (last : b = true ↔ p []) : Tells p [] [b]
  | cons {d : Char} {rest : List Char} {b : Bool} {bs : List Bool} (first : b = true ↔ p (d :: rest))
      (later : Tells p rest bs) : Tells p (d :: rest) (b :: bs)

namespace Tells

variable {p q : List Char → Prop} {text : List Char} {bs : List Bool}

theorem headD_iff (h : Tells p text bs) : bs.headD false = true ↔ p text := by
  cases h with
  | nil last => exact last
  | cons first => exact first

theorem congr (h : Tells p text bs) (same : ∀ rest, p rest ↔ q rest) : Tells q text bs := by
  rwa [← show p = q from funext fun rest => propext (same rest)]

theorem atEnd (text : List Char) : Tells (· = []) text (Regular.atEnd text) := by
  induction text with
  | nil => exact .nil (by simp)
  | cons d rest ih => exact .cons (by simp) ih

theorem anyLater (h : Tells p text bs) :
    Tells (fun text => ∃ rest, rest <:+ text ∧ p rest) text (Regular.anyLater bs) := by
  induction h with
  | nil last => exact .nil (by simp [Regular.anyLater, last])
  | cons first later ih =>
    refine .cons ?_ ih
    rw [Bool.or_eq_true, first, ih.headD_iff]
    simp [List.suffix_cons_iff, or_and_right, exists_or]

/-- Each mark of a term for one character asks for it and looks at the mark behind it. -/
theorem single (term : Term) (h : Tells p text bs) :
    Tells (fun text => ∃ d rest, text = d :: rest ∧ term.allows d = true ∧ p rest) text
      (List.zipWith (fun d covered => term.allows d && covered) text bs.tail ++ [false]) := by
  induction h with
  | nil => exact .nil (by simp)
  | @cons d rest b bs first later ih =>
    cases bs with
    | nil => cases later
    | cons b' bs =>
      refine .cons ?_ ih
      simp [← later.headD_iff]

theorem step (term : Term) {terms : List Term} (h : Tells (Fits terms) text bs) :
    Tells (Fits (term :: terms)) text (Regular.step text term bs) := by
  cases term with
  | anything => exact h.anyLater.congr fun _ => fits_anything_iff.symm
  | anyone => exact (h.single .anyone).congr fun _ => (fits_single_iff (by simp)).symm
  | itself c => exact (h.single (.itself c)).congr fun _ => (fits_single_iff (by simp)).symm

/-- The marks of terms tell what they fit. -/
theorem marks (terms : List Term) (text : List Char) :
    Tells (Fits terms) text (Regular.marks terms text) := by
  induction terms with
  | nil => exact atEnd text
  | cons term terms ih => exact ih.step term

end Tells

/-- The terms of an expression, which is read up to its end at the end of the text. -/
def termsOf? (e : String) : Option (List Term) := readTerms (e.toList ++ ['$'])

/-- Whether an expression that is read as terms stands for a text. -/
def TermsMatch (e : String) (text : List Char) : Prop :=
  ∃ terms, termsOf? e = some terms ∧ Fits terms text

theorem readTerms_anything (rest : List Char) :
    readTerms ('.' :: '*' :: rest) = (readTerms rest).map (.anything :: ·) := by
  rw [readTerms]

theorem readTerms_anyone {rest : List Char} (unstarred : rest.head? ≠ some '*') :
    readTerms ('.' :: rest) = (readTerms rest).map (.anyone :: ·) := by
  rw [readTerms]
  rintro others rfl
  exact unstarred rfl

theorem readTerms_escape (c : Char) (rest : List Char) :
    readTerms ((escape c).toList ++ rest) = (readTerms rest).map (.itself c :: ·) := by
  by_cases known : special.contains c = true
  · rw [escape, if_pos known, String.toList_ofList, List.cons_append, List.cons_append, readTerms,
      if_pos known, List.nil_append]
  · -- The characters with a meaning of their own are special.
    have other : ∀ d, special.contains d = true → c ≠ d := by
      rintro d mem rfl
      exact known mem
    rw [escape, if_neg known, String.toList_ofList, List.cons_append, List.nil_append, readTerms,
      if_neg known]
    · exact fun end' => absurd end' (other '$' (by decide))
    · exact fun _ point => absurd point (other '.' (by decide))
    · exact fun point => other '.' (by decide) point
    · exact fun _ _ backslash => absurd backslash (other '\\' (by decide))

/-- What follows a piece does not begin with a star. -/
theorem head?_ne_star {e : String} (pieces : table.Pieces e) :
    (e.toList ++ ['$']).head? ≠ some '*' := by
  cases pieces with
  | nil => decide
  | cons head tail =>
    rw [String.toList_append, List.append_assoc]
    cases head with
    | anything | anyone => exact nofun
    | itself c =>
      show ((escape c).toList ++ _).head? ≠ some '*'
      rw [escape, String.toList_ofList]
      split
      next => exact nofun
      next plain =>
        intro star
        obtain rfl : c = '*' := Option.some.inj star
        exact plain (by decide)

/-- The term of a piece stands in front of those of the pieces that follow. -/
theorem exists_termsOf?_append {piece : String} (head : table.Piece piece) :
    ∃ term, termsOf? piece = some [term] ∧ ∀ rest : String, table.Pieces rest →
      termsOf? (piece ++ rest) = (termsOf? rest).map (term :: ·) := by
  simp only [termsOf?, String.toList_append, List.append_assoc]
  cases head with
  | anything => exact ⟨.anything, rfl, fun rest _ => readTerms_anything _⟩
  | anyone => exact ⟨.anyone, rfl, fun rest tail => readTerms_anyone (head?_ne_star tail)⟩
  | itself c => exact ⟨.itself c, readTerms_escape c ['$'], fun rest _ => readTerms_escape c _⟩

theorem exists_termsOf? {e : String} (pieces : table.Pieces e) : ∃ terms, termsOf? e = some terms := by
  induction pieces with
  | nil => exact ⟨[], rfl⟩
  | cons head tail ih =>
    obtain ⟨terms, read⟩ := ih
    obtain ⟨term, -, append⟩ := exists_termsOf?_append head
    exact ⟨term :: terms, by rw [append _ tail, read]; rfl⟩

theorem compile_anchored (e : String) (terms : List Term) :
    table.compile (anchored e) = .ok terms ↔ termsOf? e = some terms := by
  have whole : readWhole (anchored e).toList = termsOf? e := by
    rw [anchored, String.toList_append, String.toList_append]
    rfl
  simp only [table, whole]
  cases termsOf? e <;> simp

theorem fits_singleton {term : Term} {text : List Char} :
    Fits [term] text ↔ term.StandsFor text := by
  constructor
  · rintro ⟨front, back, rfl, stands, rfl⟩
    rwa [List.append_nil]
  · exact fun stands => ⟨text, [], (List.append_nil text).symm, stands, rfl⟩

theorem termsMatch_iff {e : String} {terms : List Term} (read : termsOf? e = some terms)
    {text : List Char} : TermsMatch e text ↔ Fits terms text := by
  constructor
  · rintro ⟨terms', again, fits⟩
    cases read.symm.trans again
    exact fits
  · exact fun fits => ⟨terms, read, fits⟩

theorem termsMatch_point {text : List Char} : TermsMatch "." text ↔ ∃ c, text = [c] := by
  have read : termsOf? "." = some [.anyone] := rfl
  rw [termsMatch_iff read, fits_singleton, Term.standsFor_iff (by simp)]
  simp [Term.allows]

theorem lawful_table : table.Lawful TermsMatch where
  point _ := termsMatch_point
  starred text := by
    have read : termsOf? ".*" = some [.anything] := rfl
    rw [termsMatch_iff read, fits_singleton]
    refine ⟨fun _ => ⟨text.map fun c => [c], ?_, ?_⟩, fun _ => .anything text⟩
    · rw [← List.flatMap_def, List.flatMap_singleton']
    · exact List.forall_mem_map.mpr fun c _ => termsMatch_point.mpr ⟨c, rfl⟩
  escaped c text := by
    have read : termsOf? (table.escape c) = some [.itself c] := readTerms_escape c ['$']
    rw [termsMatch_iff read, fits_singleton, Term.standsFor_iff (by simp)]
    simp [Term.allows]
  nothing text := by
    have read : termsOf? "" = some [] := rfl
    rw [termsMatch_iff read, Fits]
  concatenated := by
    intro piece rest head tail text
    obtain ⟨term, read, append⟩ := exists_termsOf?_append head
    obtain ⟨terms, others⟩ := exists_termsOf? tail
    have both : termsOf? (piece ++ rest) = some (term :: terms) := by
      rw [append rest tail, others]
      rfl
    rw [termsMatch_iff both, Fits]
    simp only [termsMatch_iff read, termsMatch_iff others, fits_singleton]
  whole := by
    intro e program _ compiled text
    rw [termsMatch_iff ((compile_anchored e program).mp compiled)]
    exact (Tells.marks program text.toList).headD_iff
  compiles := by
    intro e pieces
    obtain ⟨terms, read⟩ := exists_termsOf? pieces
    exact ⟨fun _ => Nat.le_refl 0, fun _ => ⟨terms, (compile_anchored e terms).mpr read⟩⟩

end RecordMapper.Regular
