import RecordMapper.Failure
import RecordMapper.Field.Datum

/-!
Declared field types, and the conversion of field contents to values and back. Writing never fails;
reading refuses values of a wrong kind and numbers that do not fit.
-/

namespace RecordMapper

inductive FieldType where
  | int (type : IntegerType)
  | f32
  | f64
  | bool
  | char
  | string
  | record
  | value
  | date
  | timestamp
  | option (content : FieldType)
  | boxed (content : FieldType)
  | sequence (kind : SequenceKind) (item : FieldType)
  | mapping (kind : MappingKind) (key value : FieldType)
  | enumeration (name : String) (variants : List String)
  | compound (name : String) (members : List (Member FieldType))

namespace Datum

mutual

/-- The value of a content. A compound leaves out members without a value. -/
def toValue : Datum → Value
  | .int n => .int n
  | .f32 x => .f32 x
  | .f64 x => .f64 x
  | .bool b => .bool b
  | .char c => .char c
  | .string s => .string s
  | .record r => .ofRecord r
  | .value v => v
  | .date d => .string d.text
  | .timestamp t => .string t.text
  | .absent => .null
  | .present d => d.toValue
  | .sequence _ items => .array (toValues items)
  | .mapping _ pairs => .mapOf (toPairs pairs)
  | .variant _ name => .string name
  | .compound name members => .record name (toEntries members)

def toValues : List Datum → List Value
  | [] => []
  | d :: ds => d.toValue :: toValues ds

def toPair : Datum × Datum → Value × Value
  | (k, v) => (k.toValue, v.toValue)

def toPairs : List (Datum × Datum) → List (Value × Value)
  | [] => []
  | p :: ps => toPair p :: toPairs ps

/-- A member's value unless it is null or the member is not kept. -/
def toEntry? : Member Datum → Option (String × Value)
  | ⟨name, kept, d⟩ =>
    let v := d.toValue
    if kept && !v.isNull then some (name, v) else none

def toEntries : List (Member Datum) → List (String × Value)
  | [] => []
  | m :: ms =>
    match toEntry? m with
    | some e => e :: toEntries ms
    | none => toEntries ms

end

/-- The sequence that items collect into. Nothing says in which order a set without order has its
items; one that is collected has them in the order of their values. -/
def collect (kind : SequenceKind) (items : List Datum) : Datum :=
  .sequence kind <|
    match kind with
    | .list | .queue => items
    | .sortedSet => items.foldl (fun set d => insertSorted d set) []
    | .hashedSet => (items.foldl insertHashed []).mergeSort fun d e =>
      d.toValue.cmp e.toValue != .gt

end Datum

namespace FieldType

mutual

/-- The content of a fresh field. -/
def initial : FieldType → Datum
  | .int t => .int (.zero t)
  | .f32 => .f32 (BinaryFormat.single.decode 0)
  | .f64 => .f64 (BinaryFormat.double.decode 0)
  | .bool => .bool false
  | .char => .char (Char.ofNat 0)
  | .string => .string ""
  | .record => .record (.empty "")
  | .value => .value .null
  | .date => .date .epoch
  | .timestamp => .timestamp .epoch
  | .option _ => .absent
  | .boxed t => t.initial
  | .sequence kind _ => .sequence kind []
  | .mapping kind _ _ => .mapping kind []
  | .enumeration _ variants => .variant 0 (variants.headD "")
  | .compound name members => .compound name (initialMembers members)

def initialMember : Member FieldType → Member Datum
  | ⟨name, kept, t⟩ => ⟨name, kept, t.initial⟩

def initialMembers : List (Member FieldType) → List (Member Datum)
  | [] => []
  | m :: ms => initialMember m :: initialMembers ms

end

def readInt (t : IntegerType) (v : Value) : Except Failure Datum :=
  match v.asInteger? with
  | none => .error (.mismatch v ("an " ++ t.name))
  | some n =>
    match Integer.ofInt? t n with
    | some i => .ok (.int i)
    | none => .error (.overflow n t)

def readSingle (v : Value) : Except Failure Datum :=
  match v, v.asDecimal? with
  | .f32 x, _ => .ok (.f32 x)
  | _, some x => .ok (.f32 (BinaryFormat.single.convert x))
  | _, none => .error (.mismatch v "an f32")

def readDouble (v : Value) : Except Failure Datum :=
  match v.asDecimal? with
  | some x => .ok (.f64 x)
  | none => .error (.mismatch v "an f64")

/-- A character, or a text of exactly one. -/
def readChar (v : Value) : Except Failure Datum :=
  match v with
  | .char c => .ok (.char c)
  | .string s =>
    match s.toList with
    | [c] => .ok (.char c)
    | _ => .error (.mismatch v "a char")
  | _ => .error (.mismatch v "a char")

def readDate (v : Value) : Except Failure Datum :=
  match v with
  | .string s =>
    match Date.read s with
    | .ok d => .ok (.date d)
    | .error fault => .error (.invalidDate s fault)
  | _ => .error (.mismatch v "a date string")

def readTimestamp (v : Value) : Except Failure Datum :=
  match v with
  | .string s =>
    match Timestamp.read s with
    | .ok t => .ok (.timestamp t)
    | .error fault => .error (.invalidTimestamp s fault)
  | _ => .error (.mismatch v "an RFC 3339 timestamp")

def readVariant (name : String) (variants : List String) (v : Value) : Except Failure Datum :=
  match v with
  | .string s =>
    match variants.findIdx? (· == s) with
    | some i => .ok (.variant i s)
    | none => .error (.unknownVariant s name)
  | _ => .error (.notVariant v name)

def itemsOf (v : Value) : Except Failure (List Value) :=
  match v with
  | .array items => .ok items
  | _ => .error (.mismatch v "an array")

def pairsOf (v : Value) : Except Failure (List (Value × Value)) :=
  match v with
  | .map pairs => .ok pairs
  | _ => .error (.mismatch v "a map")

mutual

/-- The content that a value stands for in a field of the type. -/
def read : FieldType → Value → Except Failure Datum
  | .int t, v => readInt t v
  | .f32, v => readSingle v
  | .f64, v => readDouble v
  | .bool, .bool b => .ok (.bool b)
  | .bool, v => .error (.mismatch v "a bool")
  | .char, v => readChar v
  | .string, .string s => .ok (.string s)
  | .string, .char c => .ok (.string (String.singleton c))
  | .string, v => .error (.mismatch v "a string")
  | .record, .record name entries => .ok (.record ⟨name, entries⟩)
  | .record, v => .error (.mismatch v "a record")
  | .value, v => .ok (.value v)
  | .date, v => readDate v
  | .timestamp, v => readTimestamp v
  | .option _, .null => .ok .absent
  | .option t, v => (t.read v).map .present
  | .boxed t, v => t.read v
  | .sequence kind t, v => do
    let items ← itemsOf v
    return .collect kind (← items.mapM t.read)
  | .mapping kind k t, v => do
    let pairs ← pairsOf v
    return .collectPairs kind (← pairs.mapM fun p => do return (← k.read p.1, ← t.read p.2))
  | .enumeration name variants, v => readVariant name variants v
  | .compound name members, .record _ entries => (readMembers members entries).map (.compound name)
  | .compound name _, v => .error (.notStruct v name)
termination_by structural t => t

/-- A kept member reads its entry, or null when there is none; another one is fresh. -/
def readMember : Member FieldType → List (String × Value) → Except Failure (Member Datum)
  | ⟨name, kept, t⟩, entries =>
    if kept then (t.read ((lookup name entries).getD .null)).map (⟨name, kept, ·⟩)
    else .ok ⟨name, kept, t.initial⟩
termination_by structural m => m

def readMembers : List (Member FieldType) → List (String × Value) →
    Except Failure (List (Member Datum))
  | [], _ => .ok []
  | m :: ms, entries => do return (← readMember m entries) :: (← readMembers ms entries)
termination_by structural ms => ms

end

end FieldType

end RecordMapper
