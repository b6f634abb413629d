/-!
Regular expressions: what an engine for them offers, and an engine for the expressions that stand
for a whole text piece by piece. A text is worked through from the end of the expression, keeping
for every end of the text whether the rest of the expression stands for it.
-/

namespace RecordMapper.Regular

/-- An engine. What it makes of expressions is known through its documentation alone. -/
structure Engine where
  Program : Type
  /-- The expression for a single character. -/
  escape : Char → String
  /-- The program of an expression, or why there is none. -/
  compile : String → Except String Program
  /-- Whether a text has a part for which the expression of the program stands. -/
  isMatch : Program → String → Bool
  /-- The size of the program of an expression. -/
  size : String → Nat
  /-- The greatest size that a program may have. -/
  limit : Nat

/-- A piece of a text. -/
inductive Term where
  | anything
  | anyone
  | itself (c : Char)

/-- The characters that stand for themselves behind a backslash only. -/
def special : List Char := "\\.+*?()|[]{}^$#&-~".toList

def escape (c : Char) : String :=
  String.ofList (if special.contains c then ['\\', c] else [c])

/-- Reads an expression up to its end at the end of the text. -/
def readTerms : List Char → Option (List Term)
  | [] => none
  | ['$'] => some []
  | '.' :: '*' :: rest => (readTerms rest).map (.anything :: ·)
  | '.' :: rest => (readTerms rest).map (.anyone :: ·)
  | '\\' :: c :: rest =>
    if special.contains c then (readTerms rest).map (.itself c :: ·) else none
  | c :: rest => if special.contains c then none else (readTerms rest).map (.itself c :: ·)

/-- Reads an expression whose points stand for line ends too, from the start of the text to its
end. -/
def readWhole : List Char → Option (List Term)
  | '(' :: '?' :: 's' :: ')' :: '^' :: rest => readTerms rest
  | _ => none

/-- For every end of a text, whether nothing stands for it. -/
def atEnd (text : List Char) : List Bool := text.map (fun _ => false) ++ [true]

/-- For every end of a list of marks, whether one of them is set. -/
def anyLater : List Bool → List Bool
  | [] => []
  | b :: bs =>
    let later := anyLater bs
    (b || later.headD false) :: later

/-- Whether a piece of one character can be the given one. -/
def Term.allows : Term → Char → Bool
  | .anything, _ | .anyone, _ => true
  | .itself c, d => c == d

/-- Puts one term in front of terms whose marks are known. -/
def step (text : List Char) (term : Term) (marks : List Bool) : List Bool :=
  match term with
  | .anything => anyLater marks
  | .anyone | .itself _ =>
    List.zipWith (fun d covered => term.allows d && covered) text marks.tail ++ [false]

/-- For every end of the text, whether the terms stand for it. -/
def marks (terms : List Term) (text : List Char) : List Bool := terms.foldr (step text) (atEnd text)

/-- The engine that keeps a table of marks; it puts no bound on its programs. -/
def table : Engine where
  Program := List Term
  escape := escape
  compile expression :=
    match readWhole expression.toList with
    | some terms => .ok terms
    | none => .error "the expression does not stand for a whole text piece by piece"
  isMatch terms text := (marks terms text.toList).headD false
  size _ := 0
  limit := 0

end RecordMapper.Regular
