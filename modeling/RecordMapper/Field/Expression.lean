import RecordMapper.Field.Type

/-! Field types by their written form: a name, with its arguments in angle brackets if it has any. -/

namespace RecordMapper

/-- Splits at the commas outside angle brackets. -/
def splitArguments (depth : Nat) (current : List Char) : List Char → List (List Char)
  | [] => [current.reverse]
  | '<' :: cs => splitArguments (depth + 1) ('<' :: current) cs
  | '>' :: cs => splitArguments (depth - 1) ('>' :: current) cs
  | ',' :: cs =>
    if depth = 0 then current.reverse :: splitArguments 0 [] cs
    else splitArguments depth (',' :: current) cs
  | c :: cs => splitArguments depth (c :: current) cs

namespace FieldType

/-- A type without arguments; `known` holds those that the application adds. -/
def named? (known : String → Option FieldType) : String → Option FieldType
  | "f32" => some .f32
  | "f64" => some .f64
  | "bool" => some .bool
  | "char" => some .char
  | "string" => some .string
  | "record" => some .record
  | "value" => some .value
  | "date" => some .date
  | "timestamp" => some .timestamp
  | name => ((IntegerType.ofName? name).map .int).or (known name)

def applied? : String → List FieldType → Option FieldType
  | "option", [t] => some (.option t)
  | "box", [t] => some (.boxed t)
  | "vec", [t] => some (.sequence .list t)
  | "deque", [t] => some (.sequence .queue t)
  | "btreeset", [t] => some (.sequence .sortedSet t)
  | "hashset", [t] => some (.sequence .hashedSet t)
  | "btreemap", [k, v] => some (.mapping .sorted k v)
  | "hashmap", [k, v] => some (.mapping .hashed k v)
  | _, _ => none

/-- Reads a written form in which brackets nest less than `depth` deep. -/
def ofCharsAt? (known : String → Option FieldType) : Nat → List Char → Option FieldType
  | 0, _ => none
  | depth + 1, cs =>
    let head := String.ofList (cs.takeWhile (· != '<'))
    match cs.dropWhile (· != '<') with
    | [] => named? known head
    | _ :: inner => do
      let arguments ← (splitArguments 0 [] inner.dropLast).mapM (ofCharsAt? known depth)
      applied? head arguments

def ofExpression? (known : String → Option FieldType) (s : String) : Option FieldType :=
  ofCharsAt? known (s.length + 1) s.toList

end FieldType

end RecordMapper
