import RecordMapper.Text.Letter

/-! Letter case of ASCII characters, which is decided without the tables. -/

namespace RecordMapper.Text

theorem isUpper_iff {c : Char} : c.isUpper = true ↔ 65 ≤ c.toNat ∧ c.toNat ≤ 90 := by
  show decide (c.val ≥ 'A'.val ∧ c.val ≤ 'Z'.val) = true ↔ _
  simp [UInt32.le_iff_toNat_le, ← Char.toNat_val]

theorem isLower_iff {c : Char} : c.isLower = true ↔ 97 ≤ c.toNat ∧ c.toNat ≤ 122 := by
  show (decide (c.val ≥ 'a'.val) && decide (c.val ≤ 'z'.val)) = true ↔ _
  simp [UInt32.le_iff_toNat_le, ← Char.toNat_val]

theorem isDigit_iff {c : Char} : c.isDigit = true ↔ 48 ≤ c.toNat ∧ c.toNat ≤ 57 := by
  simp [Char.isDigit, UInt32.le_iff_toNat_le, ← Char.toNat_val]

theorem isUpper_of_ascii {c : Char} (ascii : c.toNat < 128) : isUpper c = c.isUpper := by
  have small : c.val < 128 := by
    rw [UInt32.lt_iff_toNat_lt]
    exact ascii
  rw [Bool.eq_iff_iff, isUpper_iff]
  simp [isUpper, small, Char.le_def, UInt32.le_iff_toNat_le, ← Char.toNat_val]

theorem toLower_of_ascii {c : Char} (ascii : c.toNat < 128) : toLower c = [c.toLower] := by
  have small : c.val < 128 := by
    rw [UInt32.lt_iff_toNat_lt]
    exact ascii
  simp [toLower, small]

theorem isUpper_of_isUpper {c : Char} (upper : c.isUpper = true) : isUpper c = true := by
  have bound := isUpper_iff.mp upper
  rw [isUpper_of_ascii (by omega), upper]

theorem toLower_of_isUpper {c : Char} (upper : c.isUpper = true) : toLower c = [c.toLower] := by
  have bound := isUpper_iff.mp upper
  exact toLower_of_ascii (by omega)

theorem isUpper_eq_false {c : Char} (small : (c.isLower || c.isDigit) = true) :
    isUpper c = false := by
  rw [Bool.or_eq_true, isLower_iff, isDigit_iff] at small
  rw [isUpper_of_ascii (by omega), Bool.eq_false_iff, ne_eq, isUpper_iff]
  omega

end RecordMapper.Text
