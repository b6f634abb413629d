import RecordMapper.Text.Regular

/-!
`LIKE` patterns: `%` stands for any text, `_` for one character and every other character for
itself. A pattern is matched as a regular expression for the whole text.
-/

namespace RecordMapper.Like

def translate (engine : Regular.Engine) (c : Char) : String :=
  if c = '%' then ".*" else if c = '_' then "." else engine.escape c

/-- The regular expression of a pattern, in which a point stands for a line end too. -/
def expression (engine : Regular.Engine) (pattern : String) : String :=
  pattern.toList.foldl (fun e c => e ++ translate engine c) "(?s)^" ++ "$"

/-- Whether a pattern covers a text, or why the engine has no program for it. -/
def testBy (engine : Regular.Engine) (text pattern : String) : Except String Bool := do
  return engine.isMatch (← engine.compile (expression engine pattern)) text

def test (text pattern : String) : Bool := (testBy Regular.table text pattern).toOption.getD false

end RecordMapper.Like
