import RecordMapper.Schema.Declaration

/-! A catalogue of ready-made types and attribute converters. -/

namespace RecordMapper.Catalogue

/-- Whole cents as a decimal amount of units and two places of cents, both cut towards zero. -/
def money : AttributeConverter where
  toRecordValue v :=
    match v.asInteger? with
    | some c =>
      let cents := Int.tmod c 100
      let text := if 0 ≤ cents then padded 2 cents.toNat else "-" ++ padded 1 cents.natAbs
      .ok (.string (toString (Int.tdiv c 100) ++ "." ++ text))
    | none => .error (.reported .mapping (toString v ++ " is not an amount"))
  toEntityValue v :=
    let bound := IntegerType.i64
    let read (s : String) := (readInteger bound.least bound.greatest s).mapError Failure.integerText
    match v with
    | .string s =>
      match Text.cutOnce? "." s with
      | none => .error (.reported .mapping (s ++ " has no cents"))
      | some (units, cents) => do
        let total := Int.bmod ((← read units) * 100 + (← read cents)) (1 <<< 64)
        match Integer.ofInt? bound total with
        | some n => .ok (.int n)
        | none => .error (.overflow total bound)
    | v => .error (.reported .mapping (toString v ++ " is not a string"))

/-- An empty text leaves no entry, and the text `deny` is refused on its way back. -/
def blank : AttributeConverter where
  toRecordValue
    | .string "" => .ok .null
    | v => .ok v
  toEntityValue
    | .string "deny" => .error (.reported (.extension "blank") "denied")
    | v => .ok v

def converter? : String → Option AttributeConverter
  | "money" => some money
  | "blank" => some blank
  | _ => none

def level : FieldType := .enumeration "Level" ["Junior", "Senior"]

def balance : FieldType :=
  .compound "Balance" [⟨"amount", true, .int .i64⟩, ⟨"currency", true, .string⟩]

def profile : FieldType :=
  .compound "Profile"
    [⟨"nick", true, .string⟩, ⟨"age", true, .option (.int .i32)⟩, ⟨"secret", false, .string⟩,
      ⟨"level", true, level⟩, ⟨"balance", true, .option balance⟩,
      ⟨"cache", false, .sequence .list (.int .i32)⟩, ⟨"tags", true, .sequence .list .string⟩,
      ⟨"type", true, .option .char⟩]

def fieldType? : String → Option FieldType
  | "level" => some level
  | "balance" => some balance
  | "profile" => some profile
  | _ => none

/-- The key of a type of the catalogue. -/
def key (name : String) : TypeKey := ⟨"catalogue", name⟩

/-- The key of a type by its simple name; the types that an application declares hide those of the
catalogue. -/
def keyBeside (declared : List String) (name : String) : TypeKey :=
  if declared.contains name then ⟨"application", name⟩ else key name

def scalar (name : String) (t : FieldType) : FieldDeclaration := ⟨name, .scalar (.typed t), none, false, none⟩

def identifier (name : String) (t : FieldType) : FieldDeclaration :=
  { scalar name t with isId := true }

def sequence (name : String) (t : FieldType) : FieldDeclaration :=
  { scalar name t with shape := .sequence (.typed t) }

def nested (name : String) (type : TypeKey) (presence : Presence) : FieldDeclaration :=
  { scalar name .value with shape := .nested type presence }

def person : TypeDeclaration where
  key := key "Person"
  fields := [identifier "id" (.int .i64), scalar "name" .string,
    scalar "age" (.option (.int .i32)), sequence "phones" (.sequence .list .string)]

def movie : TypeDeclaration where
  key := key "Movie"
  embeddable := true
  fields := [scalar "title" .string, scalar "year" (.int .i32),
    sequence "actors" (.sequence .sortedSet .string)]

def director : TypeDeclaration where
  key := key "Director"
  fields := [identifier "id" (.int .i64), scalar "name" .string, nested "movie" (key "Movie") .required]
  nestedLast := true

def address : TypeDeclaration where
  key := key "Address"
  fields := [scalar "street" .string, scalar "city" .string,
    { scalar "zip" (.option .string) with column := some "zip_code" }]

def worker : TypeDeclaration where
  key := key "Worker"
  logicalName := some "workers"
  fields := [{ identifier "id" .string with column := some "code" }, scalar "name" .string,
    { scalar "salary" (.int .i64) with column := some "money", converter := some money },
    scalar "level" level, scalar "hired" (.option .date), nested "address" (key "Address") .optional]
  unmapped := [("session", .option .string)]
  nestedLast := true

def customer : TypeDeclaration where
  key := key "Customer"
  fields := [identifier "id" (.int .i64), scalar "name" .string, scalar "balance" balance,
    { scalar "notes" (.mapping .sorted .string .string) with
      shape := .mapping (.typed (.mapping .sorted .string .string)) }]

def company : TypeDeclaration where
  key := key "Company"
  fields := [scalar "name" .string, scalar "country" .string]

def employee : TypeDeclaration where
  key := key "Employee"
  fields := [identifier "id" (.int .i64), scalar "name" .string, nested "company" (key "Company") .optional]
  nestedLast := true

def robot : TypeDeclaration where
  key := key "Robot"
  logicalName := some "robot"
  factory := some [(0, .string "none"), (1, .present (.char 'x')), (2, .absent)]
  fields := [scalar "serial" .string, scalar "type" (.option .char),
    sequence "parts" (.option (.sequence .list .string))]

def types : Schema :=
  [person, movie, director, address, worker, customer, company, employee, robot]

end RecordMapper.Catalogue
