import RecordMapper.Number.Binary

/-! Reading whole and floating-point numbers from decimal text. -/

namespace RecordMapper

inductive IntegerFault where
  | empty | invalidDigit | tooLarge | tooSmall
  deriving DecidableEq

def IntegerFault.text : IntegerFault → String
  | .empty => "cannot parse integer from empty string"
  | .invalidDigit => "invalid digit found in string"
  | .tooLarge => "number too large to fit in target type"
  | .tooSmall => "number too small to fit in target type"

/-- Reads digits away from zero while the number stays between the bounds; the first fault from the
left is the one reported. -/
def readDigits (negative : Bool) (least greatest : Int) (n : Int) :
    List Char → Except IntegerFault Int
  | [] => .ok n
  | c :: cs =>
    if c.isDigit then
      let digit : Int := c.toNat - '0'.toNat
      let next := if negative then 10 * n - digit else 10 * n + digit
      if next < least then .error .tooSmall
      else if greatest < next then .error .tooLarge
      else readDigits negative least greatest next cs
    else .error .invalidDigit

/-- Reads an optional sign and at least one digit, all within the bounds. -/
def readInteger (least greatest : Int) (s : String) : Except IntegerFault Int :=
  match s.toList with
  | [] => .error .empty
  | ['+'] | ['-'] => .error .invalidDigit
  | '+' :: cs => readDigits false least greatest 0 cs
  | '-' :: cs => readDigits true least greatest 0 cs
  | cs => readDigits false least greatest 0 cs

inductive FloatFault where
  | empty | invalid
  deriving DecidableEq

def FloatFault.text : FloatFault → String
  | .empty => "cannot parse float from empty string"
  | .invalid => "invalid float literal"

def digitsToNat (cs : List Char) : Nat := cs.foldl (fun n c => 10 * n + (c.toNat - '0'.toNat)) 0

/-- The exponent part after the significand: nothing, or `e` with an optional sign and digits. -/
def readExponent : List Char → Option Int
  | [] => some 0
  | c :: cs =>
    if c == 'e' || c == 'E' then
      let (negative, ds) :=
        match cs with
        | '-' :: ds => (true, ds)
        | '+' :: ds => (false, ds)
        | ds => (false, ds)
      if ds.isEmpty || !ds.all Char.isDigit then none
      else some (if negative then -(digitsToNat ds : Int) else digitsToNat ds)
    else none

/-- The number nearest to `± digits * 10 ^ k`; magnitudes outside every format are cut short. -/
def BinaryFormat.ofDecimal (f : BinaryFormat) (negative : Bool) (digits : Nat) (k : Int) : Binary :=
  let magnitude := k + (Nat.toDigits 10 digits).length
  if digits = 0 || magnitude < -400 then .finite negative 0 f.leastExponent
  else if magnitude > 400 then .infinity negative
  else f.roundRatio negative (digits * Nat.pow 10 k.toNat) (Nat.pow 10 (-k).toNat)

/-- Reads an unsigned number: digits with at most one point and an optional exponent, or a name of
infinity or not-a-number in any case. -/
def BinaryFormat.readUnsigned (f : BinaryFormat) (negative : Bool) (cs : List Char) : Option Binary :=
  let name := String.ofList (cs.map (·.toLower))
  if name == "inf" || name == "infinity" then some (.infinity negative)
  else if name == "nan" then some .nan
  else
    let whole := cs.takeWhile Char.isDigit
    let (fraction, rest) :=
      match cs.dropWhile Char.isDigit with
      | '.' :: ds => (ds.takeWhile Char.isDigit, ds.dropWhile Char.isDigit)
      | ds => ([], ds)
    if whole.isEmpty && fraction.isEmpty then none
    else (readExponent rest).map fun k =>
      f.ofDecimal negative (digitsToNat (whole ++ fraction)) (k - fraction.length)

def BinaryFormat.read (f : BinaryFormat) (s : String) : Except FloatFault Binary :=
  let parsed :=
    match s.toList with
    | '-' :: cs => f.readUnsigned true cs
    | '+' :: cs => f.readUnsigned false cs
    | cs => f.readUnsigned false cs
  if s.isEmpty then .error .empty
  else match parsed with
    | some x => .ok x
    | none => .error .invalid

end RecordMapper
