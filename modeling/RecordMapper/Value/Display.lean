import RecordMapper.Value
import RecordMapper.Number.Shortest

/-! The indented and the one-line text of values and records. Quotes inside texts are not escaped. -/

namespace RecordMapper

def spaces (n : Nat) : String := String.ofList (List.replicate n ' ')

/-- Lines between brackets, or the brackets alone when there are none. -/
def bracketed (opening closing : String) (indent : Nat) (lines : List String) : String :=
  if lines.isEmpty then opening ++ closing
  else
    opening ++ "\n" ++ ",\n".intercalate (lines.map (spaces (indent + 2) ++ ·)) ++ "\n" ++
      spaces indent ++ closing

namespace Value

mutual

def pretty (indent : Nat) : Value → String
  | .null => "null"
  | .bool b => if b then "true" else "false"
  | .int n => toString n.view
  | .f32 x => BinaryFormat.single.text x
  | .f64 x => BinaryFormat.double.text x
  | .char c => "\"" ++ String.singleton c ++ "\""
  | .string s => "\"" ++ s ++ "\""
  | .record _ entries => bracketed "\x7b" "\x7d" indent (prettyEntries (indent + 2) entries)
  | .array items => bracketed "[" "]" indent (prettyItems (indent + 2) items)
  | .map pairs => bracketed "\x7b" "\x7d" indent (prettyPairs (indent + 2) pairs)

def prettyEntry (indent : Nat) : String × Value → String
  | (name, v) => "\"" ++ name ++ "\": " ++ pretty indent v

def prettyEntries (indent : Nat) : List (String × Value) → List String
  | [] => []
  | e :: es => prettyEntry indent e :: prettyEntries indent es

def prettyItems (indent : Nat) : List Value → List String
  | [] => []
  | v :: vs => pretty indent v :: prettyItems indent vs

def prettyPair (indent : Nat) : Value × Value → String
  | (k, v) => pretty indent k ++ ": " ++ pretty indent v

def prettyPairs (indent : Nat) : List (Value × Value) → List String
  | [] => []
  | p :: ps => prettyPair indent p :: prettyPairs indent ps

end

instance : ToString Value := ⟨pretty 0⟩

mutual

/-- The one-line text, which names the type of every scalar. -/
def inspect : Value → String
  | .null => "null"
  | .bool b => "bool(" ++ (if b then "true" else "false") ++ ")"
  | .int n => n.type.name ++ "(" ++ toString n.view ++ ")"
  | .f32 x => "f32(" ++ BinaryFormat.single.text x ++ ")"
  | .f64 x => "f64(" ++ BinaryFormat.double.text x ++ ")"
  | .char c => "char(\"" ++ String.singleton c ++ "\")"
  | .string s => "string(\"" ++ s ++ "\")"
  | .record name entries =>
    "record(" ++ name ++ " \x7b" ++ ", ".intercalate (inspectEntries entries) ++ "\x7d)"
  | .array items => "array([" ++ ", ".intercalate (inspectItems items) ++ "])"
  | .map pairs => "map(\x7b" ++ ", ".intercalate (inspectPairs pairs) ++ "\x7d)"

def inspectEntry : String × Value → String
  | (name, v) => name ++ ": " ++ inspect v

def inspectEntries : List (String × Value) → List String
  | [] => []
  | e :: es => inspectEntry e :: inspectEntries es

def inspectItems : List Value → List String
  | [] => []
  | v :: vs => inspect v :: inspectItems vs

def inspectPair : Value × Value → String
  | (k, v) => inspect k ++ ": " ++ inspect v

def inspectPairs : List (Value × Value) → List String
  | [] => []
  | p :: ps => inspectPair p :: inspectPairs ps

end

end Value

namespace Record

def pretty (indent : Nat) (r : Record) : String := (Value.ofRecord r).pretty indent

instance : ToString Record := ⟨pretty 0⟩

def inspect (r : Record) : String :=
  r.name ++ " \x7b" ++ ", ".intercalate (Value.inspectEntries r.entries) ++ "\x7d"

end Record

end RecordMapper
