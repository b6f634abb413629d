/-!
Binary floating-point numbers as exact values. A finite number is a signed whole multiple of a power
of two, so that widening, rounding and comparison are whole-number arithmetic.
-/

namespace RecordMapper

inductive Binary where
  | nan
  | infinity (negative : Bool)
  | finite (negative : Bool) (significand : Nat) (exponent : Int)
  deriving DecidableEq

/-- An interchange format, by the widths of its stored fraction and exponent. -/
structure BinaryFormat where
  fractionBits : Nat
  exponentBits : Nat

namespace BinaryFormat

def single : BinaryFormat := ⟨23, 8⟩

def double : BinaryFormat := ⟨52, 11⟩

/-- Digits of a normal significand, the leading one included. -/
def precision (f : BinaryFormat) : Nat := f.fractionBits + 1

/-- The exponent of every subnormal significand. -/
def leastExponent (f : BinaryFormat) : Int := 2 - (1 <<< (f.exponentBits - 1) : Nat) - f.fractionBits

/-- The exponent of the greatest finite significands. -/
def greatestExponent (f : BinaryFormat) : Int := f.leastExponent + (1 <<< f.exponentBits : Nat) - 3

/-- The value nearest to `± significand * 2 ^ exponent` in the format; ties go to the even
significand and values past the greatest finite one to infinity. -/
def round (f : BinaryFormat) (negative : Bool) (significand : Nat) (exponent : Int) : Binary :=
  if significand = 0 then .finite negative 0 f.leastExponent
  else
    let target := max f.leastExponent (exponent + significand.log2 + 1 - f.precision)
    let rounded :=
      if target ≤ exponent then significand <<< (exponent - target).toNat
      else
        let dropped := (target - exponent).toNat
        let quotient := significand >>> dropped
        let remainder := 2 * (significand % (1 <<< dropped))
        let half := 1 <<< dropped
        if remainder > half || (remainder == half && quotient % 2 == 1) then quotient + 1 else quotient
    let (m, e) :=
      if rounded = 1 <<< f.precision then (1 <<< f.fractionBits, target + 1) else (rounded, target)
    if e > f.greatestExponent then .infinity negative else .finite negative m e

/-- The value nearest to `± numerator / denominator`. One bit below the kept digits stands for
everything that the division leaves. -/
def roundRatio (f : BinaryFormat) (negative : Bool) (numerator denominator : Nat) : Binary :=
  let shift := f.precision + 2 + denominator.log2 - numerator.log2
  let scaled := numerator <<< shift
  let sticky := if scaled % denominator = 0 then 0 else 1
  f.round negative (2 * (scaled / denominator) + sticky) (-(shift : Int) - 1)

/-- Any number brought into the format. -/
def convert (f : BinaryFormat) : Binary → Binary
  | .nan => .nan
  | .infinity negative => .infinity negative
  | .finite negative m e => f.round negative m e

def ofInt (f : BinaryFormat) (n : Int) : Binary := f.round (n < 0) n.natAbs 0

/-- Reads an encoding: sign, biased exponent and fraction from the most significant bit down. -/
def decode (f : BinaryFormat) (bits : Nat) : Binary :=
  let fraction := bits % (1 <<< f.fractionBits)
  let biased := (bits >>> f.fractionBits) % (1 <<< f.exponentBits)
  let negative := (bits >>> (f.fractionBits + f.exponentBits)) % 2 == 1
  if biased = (1 <<< f.exponentBits) - 1 then
    if fraction = 0 then .infinity negative else .nan
  else if biased = 0 then .finite negative fraction f.leastExponent
  else .finite negative ((1 <<< f.fractionBits) + fraction) (f.leastExponent + biased - 1)

/-- Writes the encoding of a number that the format holds; not-a-number is written quiet. -/
def encode (f : BinaryFormat) (x : Binary) : Nat :=
  let sign (negative : Bool) := if negative then 1 <<< (f.fractionBits + f.exponentBits) else 0
  let special := ((1 <<< f.exponentBits) - 1) <<< f.fractionBits
  match f.convert x with
  | .nan => special + (1 <<< (f.fractionBits - 1))
  | .infinity negative => sign negative + special
  | .finite negative m e =>
    let hidden := 1 <<< f.fractionBits
    if m < hidden then sign negative + m
    else sign negative + (e - f.leastExponent + 1).toNat * hidden + (m - hidden)

end BinaryFormat

namespace Binary

/-- The signed significand over a given exponent, which must not be above the number's own. -/
def scaled (negative : Bool) (significand : Nat) (exponent base : Int) : Int :=
  let m : Int := (significand <<< (exponent - base).toNat : Nat)
  if negative then -m else m

/-- The numeric order, in which not-a-number comes after every number and equals itself. -/
def cmp : Binary → Binary → Ordering
  | .nan, .nan => .eq
  | .nan, _ => .gt
  | _, .nan => .lt
  | .infinity a, .infinity b => compare b a
  | .infinity negative, .finite .. => if negative then .lt else .gt
  | .finite .., .infinity negative => if negative then .gt else .lt
  | .finite s m e, .finite t n k =>
    let base := min e k
    compare (scaled s m e base) (scaled t n k base)

/-- The whole number that a finite number equals, if it equals one. -/
def toInt? : Binary → Option Int
  | .finite negative m e =>
    let sign (n : Nat) : Int := if negative then -(n : Int) else n
    if 0 ≤ e then some (sign (m <<< e.toNat))
    else if m % (1 <<< (-e).toNat) = 0 then some (sign (m >>> (-e).toNat))
    else none
  | _ => none

end Binary

end RecordMapper
