import RecordMapper.Number.Binary

/-!
Decimal text of a binary number: the fewest digits that read back as the number in its format, of
those the nearest, always in positional notation.
-/

namespace RecordMapper

namespace BinaryFormat

/-- A finite positive number and the interval of values that round to it, over one denominator. -/
structure Neighbourhood where
  low : Nat
  value : Nat
  high : Nat
  denominator : Nat
  closed : Bool

def neighbourhood (f : BinaryFormat) (m : Nat) (e : Int) : Neighbourhood :=
  let below := if m = 1 <<< f.fractionBits && e > f.leastExponent then 1 else 2
  let scale := 1 <<< (e - 2).toNat
  { low := (4 * m - below) * scale
    value := 4 * m * scale
    high := (4 * m + 2) * scale
    denominator := 1 <<< (2 - e).toNat
    closed := m % 2 == 0 }

/-- The multiple of `10 ^ k` nearest to the value among its two neighbours inside the interval, as
a count of `10 ^ k`; of two equally near ones the greater. -/
def Neighbourhood.onGrid? (n : Neighbourhood) (k : Int) : Option Nat :=
  let up := Nat.pow 10 (-k).toNat
  let unit := n.denominator * Nat.pow 10 k.toNat
  let value := n.value * up
  let below := value / unit
  let inside (count : Nat) : Bool :=
    let point := count * unit
    if n.closed then n.low * up ≤ point && point ≤ n.high * up
    else n.low * up < point && point < n.high * up
  match inside below, inside (below + 1) with
  | true, true => if 2 * (value % unit) < unit then some below else some (below + 1)
  | true, false => some below
  | false, true => some (below + 1)
  | false, false => none

/-- The digits and the power of ten of the shortest decimal. The coarsest grid that is tried lies
above the number; on the finest the number itself is a point. -/
def shortest (f : BinaryFormat) (m : Nat) (e : Int) : Nat × Int :=
  let n := f.neighbourhood m e
  let top : Int := (Nat.toDigits 10 (n.high / n.denominator)).length
  let steps := (top - min e 0).toNat + 1
  let found := (List.range steps).findSome? fun (i : Nat) => (n.onGrid? (top - i)).map (·, top - (i : Int))
  found.getD (0, 0)

end BinaryFormat

/-- Positional text of `digits * 10 ^ k`. -/
def positional (digits : Nat) (k : Int) : String :=
  let ds := Nat.toDigits 10 digits
  if 0 ≤ k then String.ofList (ds ++ List.replicate k.toNat '0')
  else
    let places := (-k).toNat
    let padded := List.replicate (places + 1 - ds.length) '0' ++ ds
    let whole := padded.length - places
    String.ofList (padded.take whole ++ '.' :: padded.drop whole)

/-- The text of a number read in format `f`; zero keeps its sign. -/
def BinaryFormat.text (f : BinaryFormat) : Binary → String
  | .nan => "NaN"
  | .infinity negative => if negative then "-inf" else "inf"
  | .finite negative m e =>
    let sign := if negative then "-" else ""
    if m = 0 then sign ++ "0"
    else
      let (digits, k) := f.shortest m e
      sign ++ positional digits k

end RecordMapper
