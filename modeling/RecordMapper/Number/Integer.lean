/-! Whole numbers of the fixed widths that record values come in. -/

namespace RecordMapper

inductive IntegerType where
  | i8 | u8 | i16 | u16 | i32 | u32 | i64 | u64 | i128 | u128 | isize | usize
  deriving DecidableEq

namespace IntegerType

def all : List IntegerType :=
  [i8, u8, i16, u16, i32, u32, i64, u64, i128, u128, isize, usize]

def name : IntegerType → String
  | i8 => "i8" | u8 => "u8" | i16 => "i16" | u16 => "u16" | i32 => "i32" | u32 => "u32"
  | i64 => "i64" | u64 => "u64" | i128 => "i128" | u128 => "u128" | isize => "isize"
  | usize => "usize"

def ofName? (name : String) : Option IntegerType := all.find? (·.name == name)

def signed : IntegerType → Bool
  | i8 | i16 | i32 | i64 | i128 | isize => true
  | _ => false

/-- Width in bits; the two sizes of memory are those of a 64-bit machine. -/
def width : IntegerType → Nat
  | i8 | u8 => 8
  | i16 | u16 => 16
  | i32 | u32 => 32
  | i64 | u64 | isize | usize => 64
  | i128 | u128 => 128

def least (t : IntegerType) : Int := if t.signed then -(1 <<< (t.width - 1) : Nat) else 0

def greatest (t : IntegerType) : Int :=
  (1 <<< (if t.signed then t.width - 1 else t.width) : Nat) - 1

theorem least_nonpos (t : IntegerType) : t.least ≤ 0 := by cases t <;> decide

theorem greatest_nonneg (t : IntegerType) : 0 ≤ t.greatest := by cases t <;> decide

end IntegerType

structure Integer where
  type : IntegerType
  val : Int
  least_le : type.least ≤ val
  le_greatest : val ≤ type.greatest
  deriving DecidableEq

namespace Integer

def ofInt? (t : IntegerType) (n : Int) : Option Integer :=
  if h : t.least ≤ n ∧ n ≤ t.greatest then some ⟨t, n, h.1, h.2⟩ else none

def zero (t : IntegerType) : Integer := ⟨t, 0, t.least_nonpos, t.greatest_nonneg⟩

/-- The common view of every width, a signed number of 128 bits. Greater numbers, which only `u128`
has, are seen as the greatest one. -/
def view (n : Integer) : Int := min n.val IntegerType.i128.greatest

end Integer

end RecordMapper
