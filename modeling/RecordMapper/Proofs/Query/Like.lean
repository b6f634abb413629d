import Mathlib.Data.List.Forall2
import RecordMapper.Failure
import RecordMapper.Proofs.Text.Regular

/-!
What a `LIKE` pattern covers. The expression of a pattern has one piece for each of its characters,
so it stands for the texts that split into such pieces.
-/

namespace RecordMapper

open Regular (Engine anchored)

namespace Like

/-- What a pattern character stands for. -/
inductive StandsFor : Char → List Char → Prop
  | anything (piece : List Char) : StandsFor '%' piece
  | anyone (d : Char) : StandsFor '_' [d]
  | itself {c : Char} (literal : c ≠ '%' ∧ c ≠ '_') : StandsFor c [c]

/-- The text splits into consecutive pieces for which the characters of the pattern stand. -/
def Covers (pattern text : List Char) : Prop :=
  ∃ pieces : List (List Char), pieces.flatten = text ∧ List.Forall₂ StandsFor pattern pieces

section Covering

variable {c : Char} {pattern text : List Char}

theorem covers_nil_iff : Covers [] text ↔ text = [] := by
  constructor
  · rintro ⟨pieces, rfl, fit⟩
    cases fit
    rfl
  · rintro rfl
    exact ⟨[], rfl, .nil⟩

theorem covers_cons_iff : Covers (c :: pattern) text ↔
    ∃ piece rest, text = piece ++ rest ∧ StandsFor c piece ∧ Covers pattern rest := by
  constructor
  · rintro ⟨pieces, rfl, fit⟩
    obtain ⟨piece, others, first, rest, rfl⟩ := List.forall₂_cons_left_iff.mp fit
    exact ⟨piece, others.flatten, rfl, first, others, rfl, rest⟩
  · rintro ⟨piece, rest, rfl, first, pieces, rfl, fit⟩
    exact ⟨piece :: pieces, rfl, .cons first fit⟩

end Covering

/-- What stands between the anchors of the expression of a pattern. -/
def body (engine : Engine) : List Char → String
  | [] => ""
  | c :: pattern => translate engine c ++ body engine pattern

theorem expression_eq (engine : Engine) (pattern : String) :
    expression engine pattern = anchored (body engine pattern.toList) := by
  have built (cs : List Char) (e : String) :
      cs.foldl (fun e c => e ++ translate engine c) e = e ++ body engine cs := by
    induction cs generalizing e with
    | nil => exact (String.append_empty).symm
    | cons c cs ih => rw [List.foldl_cons, ih, body, String.append_assoc]
  rw [expression, built, anchored, String.append_assoc]

section Translating

variable {engine : Engine} {Matches : String → List Char → Prop}

theorem piece_translate (engine : Engine) (c : Char) : engine.Piece (translate engine c) := by
  rw [translate]
  split
  next => exact .anything
  next =>
    split
    next => exact .anyone
    next => exact .itself c

theorem pieces_body (engine : Engine) (pattern : List Char) :
    engine.Pieces (body engine pattern) := by
  induction pattern with
  | nil => exact .nil
  | cons c pattern ih => exact .cons (piece_translate engine c) ih

theorem matches_anything (lawful : engine.Lawful Matches) (text : List Char) :
    Matches ".*" text := by
  refine (lawful.starred text).mpr ⟨text.map fun c => [c], ?_, ?_⟩
  · rw [← List.flatMap_def, List.flatMap_singleton']
  · exact List.forall_mem_map.mpr fun c _ => (lawful.point [c]).mpr ⟨c, rfl⟩

theorem matches_translate (lawful : engine.Lawful Matches) (c : Char) (text : List Char) :
    Matches (translate engine c) text ↔ StandsFor c text := by
  rw [translate]
  split
  next any =>
    rw [any]
    exact ⟨fun _ => .anything text, fun _ => matches_anything lawful text⟩
  next some =>
    split
    next one =>
      rw [one, lawful.point]
      constructor
      · rintro ⟨d, rfl⟩
        exact .anyone d
      · rintro (_ | d | ⟨_, wild⟩)
        · exact ⟨d, rfl⟩
        · exact absurd rfl wild
    next literal =>
      rw [lawful.escaped]
      constructor
      · rintro rfl
        exact .itself ⟨some, literal⟩
      · rintro (_ | _ | _)
        · exact absurd rfl some
        · exact absurd rfl literal
        · rfl

/-- The expression of a pattern matches piece by piece, as the pattern covers. -/
theorem matches_body (lawful : engine.Lawful Matches) (pattern text : List Char) :
    Matches (body engine pattern) text ↔ Covers pattern text := by
  induction pattern generalizing text with
  | nil => rw [body, lawful.nothing, covers_nil_iff]
  | cons c pattern ih =>
    rw [body, lawful.concatenated (piece_translate engine c) (pieces_body engine pattern),
      covers_cons_iff]
    simp only [matches_translate lawful, ih]

/-- A pattern is tested unless its expression is too large for the engine. -/
theorem testBy_cases (lawful : engine.Lawful Matches) (text pattern : String) :
    if engine.size (expression engine pattern) ≤ engine.limit then
      ∃ covered, testBy engine text pattern = .ok covered ∧
        (covered = true ↔ Covers pattern.toList text.toList)
    else ∃ fault, testBy engine text pattern = .error fault := by
  have pieces := pieces_body engine pattern.toList
  have compiles := lawful.compiles pieces
  rw [testBy, expression_eq]
  cases compiled : engine.compile (anchored (body engine pattern.toList)) with
  | ok program =>
    rw [if_pos (compiles.mp ⟨program, compiled⟩)]
    exact ⟨_, rfl, (lawful.whole pieces compiled text).trans (matches_body lawful _ _)⟩
  | error fault =>
    rw [if_neg fun fits => ?_]
    · exact ⟨fault, rfl⟩
    · obtain ⟨program, found⟩ := compiles.mpr fits
      cases compiled.symm.trans found

end Translating

theorem test_iff (text pattern : String) :
    test text pattern = true ↔ Covers pattern.toList text.toList := by
  obtain ⟨covered, tested, covers⟩ := testBy_cases Regular.lawful_table text pattern
  rw [test, tested]
  exact covers

end Like

/-- A `LIKE` criterion on two texts holds of those that split into pieces, one for each character of
the pattern in turn; only a pattern whose expression is too large for the engine fails instead. Of
everything else it does not hold. -/
theorem Criterion.testValueBy_like {engine : Engine} {Matches : String → List Char → Prop}
    (lawful : engine.Lawful Matches) (field : String) (operand : Operand) (v : Value) :
    let tested := (testValueBy engine ⟨field, .like, operand⟩ v).mapError Failure.invalidPattern
    (∀ text pattern : String, v = .string text → operand = .single (.string pattern) →
      if engine.size (Like.expression engine pattern) ≤ engine.limit then
        ∃ holds, tested = .ok holds ∧ (holds = true ↔
          ∃ pieces : List (List Char), pieces.flatten = text.toList ∧
            List.Forall₂ Like.StandsFor pattern.toList pieces)
      else ∃ fault, tested = .error (.invalidPattern fault)) ∧
    ((∀ text, v ≠ .string text) ∨ (∀ pattern, operand ≠ .single (.string pattern)) →
      tested = .ok false) := by
  intro tested
  refine ⟨?_, fun other => ?_⟩
  · rintro text pattern rfl rfl
    have cases := Like.testBy_cases lawful text pattern
    have same : tested = (Like.testBy engine text pattern).mapError Failure.invalidPattern := rfl
    rw [same]
    split at cases
    next fits =>
      obtain ⟨covered, tested, covers⟩ := cases
      rw [if_pos fits, tested]
      exact ⟨covered, rfl, covers⟩
    next large =>
      obtain ⟨fault, refused⟩ := cases
      rw [if_neg large, refused]
      exact ⟨fault, rfl⟩
  · cases operand with
    | pair low high => rfl
    | single w =>
      cases w with
      | string pattern =>
        cases v with
        | string text =>
          rcases other with text_ne | pattern_ne
          · exact absurd rfl (text_ne text)
          · exact absurd rfl (pattern_ne pattern)
        | _ => rfl
      | _ => rfl

theorem Criterion.testValueBy_like_lines :
    Regular.table.Lawful Regular.TermsMatch ∧
      (testValueBy Regular.table ⟨"body", .like, .single (.string "(%)_.*")⟩
        (.string "(first\nsecond)\n.*")).mapError Failure.invalidPattern = .ok true := by
  have lawful := Regular.lawful_table
  refine ⟨lawful, ?_⟩
  obtain ⟨texts, -⟩ := testValueBy_like lawful "body" (.single (.string "(%)_.*"))
    (.string "(first\nsecond)\n.*")
  obtain ⟨holds, tested, covers⟩ := texts _ _ rfl rfl
  have covered : holds = true := covers.mpr
    ⟨[['('], "first\nsecond".toList, [')'], ['\n'], ['.'], ['*']], by decide,
      .cons (.itself (by decide)) (.cons (.anything _) (.cons (.itself (by decide))
        (.cons (.anyone _) (.cons (.itself (by decide)) (.cons (.itself (by decide)) .nil)))))⟩
  rwa [covered] at tested

/-- With the table of marks, every pattern is tested. -/
theorem Criterion.testValue_like_iff (field : String) (operand : Operand) (v : Value) :
    (Criterion.mk field .like operand).testValue v = true ↔
      ∃ text pattern : String, v = .string text ∧ operand = .single (.string pattern) ∧
        Like.Covers pattern.toList text.toList := by
  constructor
  · intro holds
    cases operand with
    | pair low high => cases holds
    | single w =>
      cases w with
      | string pattern =>
        cases v with
        | string text => exact ⟨text, pattern, rfl, rfl, (Like.test_iff text pattern).mp holds⟩
        | _ => cases holds
      | _ => cases holds
  · rintro ⟨text, pattern, rfl, rfl, covers⟩
    exact (Like.test_iff text pattern).mpr covers

end RecordMapper
