import RecordMapper.Text.Invisible

/-! One-line descriptions: quoted texts, optional parts, lists, and names with their members. -/

namespace RecordMapper.Text

/-- A character inside quotation marks. -/
def escaped (c : Char) : String :=
  if c == '"' then "\\\""
  else if c == '\\' then "\\\\"
  else if c == '\n' then "\\n"
  else if c == '\r' then "\\r"
  else if c == '\t' then "\\t"
  else if c.toNat == 0 then "\\0"
  else if isInvisible c then
    "\\u\x7b" ++ String.ofList (Nat.toDigits 16 c.toNat) ++ "\x7d"
  else String.singleton c

/-- A text in quotation marks. -/
def quoted (s : String) : String := "\"" ++ String.join (s.toList.map escaped) ++ "\""

def bool (b : Bool) : String := if b then "true" else "false"

def option : Option String → String
  | some s => "Some(" ++ s ++ ")"
  | none => "None"

def list (items : List String) : String := "[" ++ ", ".intercalate items ++ "]"

/-- A name with its members in braces. -/
def members (name : String) (parts : List (String × String)) : String :=
  name ++ " \x7b " ++ ", ".intercalate (parts.map fun p => p.1 ++ ": " ++ p.2) ++ " \x7d"

end RecordMapper.Text
