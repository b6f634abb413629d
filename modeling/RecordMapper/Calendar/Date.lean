import RecordMapper.Number.Integer
import RecordMapper.Text.Blank

/-!
Calendar dates of the proleptic Gregorian calendar: counting days, and the text form
`year-month-day`.
-/

namespace RecordMapper

/-- Why a date or a timestamp could not be read. -/
inductive CalendarFault where
  | outOfRange | invalid | tooShort | tooLong
  deriving DecidableEq

def CalendarFault.text : CalendarFault → String
  | .outOfRange => "input is out of range"
  | .invalid => "input contains invalid characters"
  | .tooShort => "premature end of input"
  | .tooLong => "trailing input"

structure Date where
  year : Int
  month : Nat
  day : Nat
  deriving DecidableEq

namespace Date

def isLeap (year : Int) : Bool := year % 4 == 0 && (year % 100 != 0 || year % 400 == 0)

def daysInMonth (year : Int) : Nat → Nat
  | 1 | 3 | 5 | 7 | 8 | 10 | 12 => 31
  | 4 | 6 | 9 | 11 => 30
  | 2 => if isLeap year then 29 else 28
  | _ => 0

def leastYear : Int := -262143

def greatestYear : Int := 262142

/-- A date of the calendar within the representable years. -/
def ofParts? (year : Int) (month day : Nat) : Option Date :=
  if leastYear ≤ year && year ≤ greatestYear && 1 ≤ day && day ≤ daysInMonth year month then
    some ⟨year, month, day⟩
  else none

/-- Days from 1970-01-01. Years are counted from March, so that the leap day ends a year. -/
def dayNumber (d : Date) : Int :=
  let y := if d.month ≤ 2 then d.year - 1 else d.year
  let era := y / 400
  let yearOfEra := y - era * 400
  let monthFromMarch : Int := (d.month + 9) % 12
  let dayOfYear := (153 * monthFromMarch + 2) / 5 + d.day - 1
  era * 146097 + yearOfEra * 365 + yearOfEra / 4 - yearOfEra / 100 + dayOfYear - 719468

/-- The date that lies a number of days after 1970-01-01. -/
def ofDayNumber (n : Int) : Date :=
  let z := n + 719468
  let era := z / 146097
  let dayOfEra := z - era * 146097
  let yearOfEra := (dayOfEra - dayOfEra / 1460 + dayOfEra / 36524 - dayOfEra / 146096) / 365
  let dayOfYear := dayOfEra - (365 * yearOfEra + yearOfEra / 4 - yearOfEra / 100)
  let monthFromMarch := (5 * dayOfYear + 2) / 153
  let day := dayOfYear - (153 * monthFromMarch + 2) / 5 + 1
  let month := if monthFromMarch < 10 then monthFromMarch + 3 else monthFromMarch - 9
  let year := yearOfEra + era * 400 + (if month ≤ 2 then 1 else 0)
  ⟨year, month.toNat, day.toNat⟩

def epoch : Date := ⟨1970, 1, 1⟩

end Date

/-- Decimal digits filled with zeros up to a width. -/
def padded (width n : Nat) : String :=
  let ds := Nat.toDigits 10 n
  String.ofList (List.replicate (width - ds.length) '0' ++ ds)

/-- Four digits for the years 0 to 9999, a sign and at least four digits for the others. -/
def yearText (year : Int) : String :=
  if 0 ≤ year && year ≤ 9999 then padded 4 year.toNat
  else (if year < 0 then "-" else "+") ++ padded 4 year.natAbs

def Date.text (d : Date) : String :=
  yearText d.year ++ "-" ++ padded 2 d.month ++ "-" ++ padded 2 d.day

instance : ToString Date := ⟨Date.text⟩

/-- Reads between one and `most` digits; a number that outgrows 64 bits is out of range. -/
def scanDigits (most : Nat) (cs : List Char) : Except CalendarFault (Nat × List Char) :=
  let ds := (cs.take most).takeWhile Char.isDigit
  if cs.isEmpty then .error .tooShort
  else if ds.isEmpty then .error .invalid
  else
    let n := ds.foldl (fun n c => 10 * n + (c.toNat - '0'.toNat)) 0
    if n ≤ IntegerType.i64.greatest then .ok (n, cs.drop ds.length) else .error .outOfRange

def scanChar (c : Char) : List Char → Except CalendarFault (List Char)
  | [] => .error .tooShort
  | d :: ds => if d == c then .ok ds else .error .invalid

/-- A part of a date: white space, then at most `most` digits. -/
def scanPart (most : Nat) (cs : List Char) : Except CalendarFault (Nat × List Char) :=
  scanDigits most (cs.dropWhile Text.isBlank)

/-- A year: four digits, or a sign and any number of digits. -/
def scanYear (cs : List Char) : Except CalendarFault (Int × List Char) :=
  match cs.dropWhile Text.isBlank with
  | '-' :: ds => (scanDigits ds.length ds).map fun (n, rest) => (-(n : Int), rest)
  | '+' :: ds => (scanDigits ds.length ds).map fun (n, rest) => ((n : Int), rest)
  | ds => (scanDigits 4 ds).map fun (n, rest) => ((n : Int), rest)

/-- Reads `year-month-day`. Each number is checked against its own range when it is read, the day
against its month at the end. -/
def Date.read (s : String) : Except CalendarFault Date := do
  let (year, rest) ← scanYear s.toList
  if year < IntegerType.i32.least ∨ IntegerType.i32.greatest < year then throw .outOfRange
  let rest ← scanChar '-' rest
  let (month, rest) ← scanPart 2 rest
  if month < 1 ∨ 12 < month then throw .outOfRange
  let rest ← scanChar '-' rest
  let (day, rest) ← scanPart 2 rest
  if day < 1 ∨ 31 < day then throw .outOfRange
  if !rest.isEmpty then throw .tooLong
  match Date.ofParts? year month day with
  | some d => pure d
  | none => throw .outOfRange

end RecordMapper
