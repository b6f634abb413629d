import RecordMapper.Calendar.Date

/-!
Points in time: timestamps with their text form, and the instants of a clock. A leap second is
written as the sixtieth second and held as the second before it with a billion extra nanoseconds.
-/

namespace RecordMapper

/-- A point in time as a day, a second of that day and nanoseconds. -/
structure Timestamp where
  day : Int
  second : Nat
  nano : Nat
  deriving DecidableEq

namespace Timestamp

def epoch : Timestamp := ⟨0, 0, 0⟩

/-- Digits of a fraction of a second: none, three, six or nine. -/
def fractionText (nano : Nat) : String :=
  if nano = 0 then ""
  else if nano % 1000000 = 0 then "." ++ padded 3 (nano / 1000000)
  else if nano % 1000 = 0 then "." ++ padded 6 (nano / 1000)
  else "." ++ padded 9 nano

def text (t : Timestamp) : String :=
  let d := Date.ofDayNumber t.day
  let second := t.second % 60 + t.nano / 1000000000
  d.text ++ "T" ++ padded 2 (t.second / 3600) ++ ":" ++ padded 2 (t.second / 60 % 60) ++ ":" ++
    padded 2 second ++ fractionText (t.nano % 1000000000) ++ "+00:00"

instance : ToString Timestamp := ⟨text⟩

/-- A number from a fixed place of digits. -/
def digitsAt (cs : List Char) (start count : Nat) : Except CalendarFault Nat :=
  let ds := (cs.drop start).take count
  if ds.all Char.isDigit then .ok (ds.foldl (fun n c => 10 * n + (c.toNat - '0'.toNat)) 0)
  else .error .invalid

def charAt (cs : List Char) (i : Nat) (allowed : List Char) : Except CalendarFault Unit :=
  match cs[i]? with
  | some c => if allowed.contains c then .ok () else .error .invalid
  | none => .error .tooShort

/-- Nanoseconds after a decimal point; digits beyond the ninth are read and dropped. -/
def readFraction (cs : List Char) : Except CalendarFault (Nat × List Char) := do
  let (n, _) ← scanDigits 9 cs
  let count := ((cs.take 9).takeWhile Char.isDigit).length
  pure (n * Nat.pow 10 (9 - count), cs.dropWhile Char.isDigit)

/-- The places of two digits of an offset. A rest of fewer than two bytes is too short for them. -/
def offsetDigits : List Char → Except CalendarFault (Char × Char × List Char)
  | a :: b :: rest => .ok (a, b, rest)
  | [a] => .error (if a.utf8Size = 1 then .tooShort else .invalid)
  | [] => .error .tooShort

/-- An offset from universal time in minutes: `Z`, or a sign, hours and minutes. -/
def readOffset : List Char → Except CalendarFault (Int × List Char)
  | [] => .error .tooShort
  | 'Z' :: rest | 'z' :: rest => .ok (0, rest)
  | sign :: rest => do
    let negative ←
      if sign == '+' then pure false
      else if sign == '-' || sign == '−' then pure true
      else throw .invalid
    let (a, b, rest) ← offsetDigits rest
    if !(a.isDigit && b.isDigit) then throw .invalid
    let hours := digitsValue a b
    let rest ← scanChar ':' rest
    let (c, d, rest) ← offsetDigits rest
    if !(c.isDigit && d.isDigit) then throw .invalid
    if '6' ≤ c then throw .outOfRange
    let minutes : Int := 60 * hours + digitsValue c d
    pure (if negative then -minutes else minutes, rest)
where
  digitsValue (a b : Char) : Nat := 10 * (a.toNat - '0'.toNat) + (b.toNat - '0'.toNat)

/-- The date and the time of day from the fixed places of the first nineteen characters. -/
def readDateTime (cs : List Char) : Except CalendarFault (Date × Nat × Bool) := do
  let year ← digitsAt cs 0 4
  charAt cs 4 ['-']
  let month ← digitsAt cs 5 2
  charAt cs 7 ['-']
  let day ← digitsAt cs 8 2
  let some date := Date.ofParts? year month day | throw .outOfRange
  charAt cs 10 ['T', 't', ' ']
  let hour ← digitsAt cs 11 2
  charAt cs 13 [':']
  let minute ← digitsAt cs 14 2
  charAt cs 16 [':']
  let second ← digitsAt cs 17 2
  let leap := second == 60
  pure (date, 3600 * hour + 60 * minute + (if leap then 59 else second),
    hour < 24 && minute < 60 && second ≤ 60)

/-- Reads `date T time offset` with an optional fraction of a second, and brings it to universal
time. The byte length decides first whether the text is long enough; an offset of a day or more is
refused last, when nothing follows it. -/
def read (s : String) : Except CalendarFault Timestamp := do
  let cs := s.toList
  if s.utf8ByteSize < 19 then throw .tooShort
  let (date, second, inRange) ← readDateTime cs
  let leap := (cs.drop 17).take 2 == ['6', '0']
  let (fraction, rest) ←
    match cs.drop 19 with
    | '.' :: rest => readFraction rest
    | rest => pure (0, rest)
  if !inRange then throw .outOfRange
  let (offset, rest) ← readOffset rest
  if !rest.isEmpty then throw .tooLong
  if offset < -(24 * 60) + 1 ∨ 24 * 60 - 1 < offset then throw .outOfRange
  let total := date.dayNumber * 86400 + second - offset * 60
  pure ⟨total / 86400, (total % 86400).toNat, fraction + (if leap then 1000000000 else 0)⟩

def cmp (a b : Timestamp) : Ordering :=
  ((compare a.day b.day).then (compare a.second b.second)).then (compare a.nano b.nano)

end Timestamp

/-- An instant of the clock, in nanoseconds from 1970-01-01. -/
structure Instant where
  nanos : Int
  deriving DecidableEq

namespace Instant

/-- The last instant that the calendar represents. -/
def last : Instant :=
  ⟨((⟨Date.greatestYear, 12, 31⟩ : Date).dayNumber + 1) * 86400000000000 - 1⟩

/-- The instant after a length of time, unless it lies past the last one. -/
def after? (t : Instant) (nanos : Nat) : Option Instant :=
  if t.nanos + nanos ≤ last.nanos then some ⟨t.nanos + nanos⟩ else none

end Instant

/-- What the readings of a clock to come give, the next one first. A clock may stand still, run on
or be set back between two of them. -/
abbrev Clock := Nat → Instant

/-- The clock once it has been read so many times. -/
def Clock.after (c : Clock) (readings : Nat) : Clock := fun i => c (readings + i)

end RecordMapper
