import RecordMapper.Field.Type
import RecordMapper.Proofs.Value.Comparing

/-!
Integers through their common view. Comparing and reading are exact for all numbers that the view
has; a greater number, which only `u128` has, is taken for the greatest one of the view.
-/

namespace RecordMapper

namespace IntegerType

theorem greatest_lt_view {t : IntegerType} (signed : t ≠ .i128) (unsigned : t ≠ .u128) :
    t.greatest < i128.greatest := by
  cases t <;> first | decide | contradiction

theorem greatest_le_u128 (t : IntegerType) : t.greatest ≤ u128.greatest := by
  cases t <;> decide

/-- Reading an integer as one of the type gives the same number if the type has it, and is refused
as a mapping error otherwise. -/
def ReadsExactly (t : IntegerType) (n : Integer) : Prop :=
  if t.least ≤ n.val ∧ n.val ≤ t.greatest then
    ∃ i : Integer, (FieldType.int t).read (.int n) = .ok (.int i) ∧ i.type = t ∧ i.val = n.val
  else ∃ failure, (FieldType.int t).read (.int n) = .error failure ∧ failure.kind = .mapping

end IntegerType

open IntegerType (i128 u128)

namespace Integer

theorem view_of_le {n : Integer} (h : n.val ≤ i128.greatest) : n.view = n.val := by
  unfold view
  omega

theorem view_of_lt {n : Integer} (h : i128.greatest < n.val) : n.view = i128.greatest := by
  unfold view
  omega

theorem compare_view_iff (n m : Integer) :
    compare n.view m.view = compare n.val m.val ↔
      n.val = m.val ∨ min n.val m.val < i128.greatest := by
  rcases Int.lt_trichotomy n.val m.val with lt | same | gt
  · rw [Int.compare_eq_lt.mpr lt, Int.compare_eq_lt]
    unfold view
    omega
  · simp [view, same]
  · rw [Int.compare_eq_gt.mpr gt, Int.compare_eq_gt]
    unfold view
    omega

theorem view_eq_iff (n m : Integer) :
    (n.view = m.view ↔ n.val = m.val) ↔ n.val = m.val ∨ min n.val m.val < i128.greatest := by
  unfold view
  omega

end Integer

namespace FieldType

theorem read_int_of_mem {t : IntegerType} {n : Integer}
    (mem : t.least ≤ n.view ∧ n.view ≤ t.greatest) :
    (FieldType.int t).read (.int n) = .ok (.int ⟨t, n.view, mem.1, mem.2⟩) := by
  simp [read, readInt, Value.asInteger?, Integer.ofInt?, mem]

theorem read_int_of_not_mem {t : IntegerType} {n : Integer}
    (outside : ¬ (t.least ≤ n.view ∧ n.view ≤ t.greatest)) :
    (FieldType.int t).read (.int n) = .error (.overflow n.view t) := by
  simp [read, readInt, Value.asInteger?, Integer.ofInt?, outside]

end FieldType

theorem IntegerType.readsExactly_of_view {t : IntegerType} {n : Integer} (exact_ : n.view = n.val) :
    t.ReadsExactly n := by
  unfold ReadsExactly
  split
  next mem =>
    rw [← exact_] at mem
    exact ⟨_, FieldType.read_int_of_mem mem, rfl, exact_⟩
  next outside =>
    rw [← exact_] at outside
    exact ⟨_, FieldType.read_int_of_not_mem outside, rfl⟩

theorem IntegerType.readsExactly_iff (t : IntegerType) (n : Integer) :
    t.ReadsExactly n ↔ n.val ≤ i128.greatest ∨ t ≠ .i128 ∧ t ≠ .u128 := by
  by_cases le : n.val ≤ i128.greatest
  · exact iff_of_true (readsExactly_of_view (Integer.view_of_le le)) (.inl le)
  have view := Integer.view_of_lt (Int.not_le.mp le)
  have upper := n.type.greatest_le_u128
  have bound := n.le_greatest
  by_cases wide : t = .i128 ∨ t = .u128
  · -- The greatest number of the view is read in place of the number.
    refine iff_of_false ?_ (by rcases wide with rfl | rfl <;> simp [le])
    rcases wide with rfl | rfl
    · have mem : i128.least ≤ n.view ∧ n.view ≤ i128.greatest := by
        rw [view]
        decide
      have outside : ¬ (i128.least ≤ n.val ∧ n.val ≤ i128.greatest) := fun h => le h.2
      simp [ReadsExactly, outside, FieldType.read_int_of_mem mem]
    · have mem : u128.least ≤ n.view ∧ n.view ≤ u128.greatest := by
        rw [view]
        decide
      have inside : u128.least ≤ n.val ∧ n.val ≤ u128.greatest := by
        have low : u128.least ≤ i128.greatest := by decide
        omega
      have other : n.view ≠ n.val := by omega
      simp only [ReadsExactly, inside, and_self, if_true, FieldType.read_int_of_mem mem]
      rintro ⟨i, read, -, same⟩
      cases read
      exact other same
  · obtain ⟨signed, unsigned⟩ := not_or.mp wide
    have narrow := greatest_lt_view signed unsigned
    have outside : ¬ (t.least ≤ n.val ∧ n.val ≤ t.greatest) := by omega
    have unread : ¬ (t.least ≤ n.view ∧ n.view ≤ t.greatest) := by omega
    refine iff_of_true ?_ (.inr ⟨signed, unsigned⟩)
    simp only [ReadsExactly, outside, if_false]
    exact ⟨_, FieldType.read_int_of_not_mem unread, rfl⟩

/-- Two integers are compared as numbers, and taken for equal as numbers are, unless they differ and
the view has the greater of them at most as its greatest number; an integer is read exactly unless
the view does not have it and a type of 128 bits is asked for. -/
theorem Value.integers_exact_iff (n m : Integer) (t : IntegerType) :
    ((Value.int n).cmp (.int m) = compare n.val m.val ↔
      n.val = m.val ∨ min n.val m.val < i128.greatest) ∧
    (((Value.int n == Value.int m) = true ↔ n.val = m.val) ↔
      n.val = m.val ∨ min n.val m.val < i128.greatest) ∧
    (t.ReadsExactly n ↔ n.val ≤ i128.greatest ∨ t ≠ .i128 ∧ t ≠ .u128) := by
  have viewed : (Value.int n).cmp (.int m) = compare n.view m.view := rfl
  refine ⟨?_, ?_, t.readsExactly_iff n⟩
  · rw [viewed]
    exact n.compare_view_iff m
  · rw [Value.beq_iff, viewed, Int.compare_eq_eq]
    exact n.view_eq_iff m

def Integer.greatestU128 : Integer := ⟨.u128, u128.greatest, by decide, by decide⟩

def Integer.belowGreatestU128 : Integer := ⟨.u128, u128.greatest - 1, by decide, by decide⟩

/-- The greatest number of all equals the one below it, and read as it stands it becomes another. -/
theorem Value.not_exact_greatestU128 :
    Integer.belowGreatestU128.val < Integer.greatestU128.val ∧
      (Value.int .greatestU128).cmp (.int .belowGreatestU128) = .eq ∧
      ¬ u128.ReadsExactly .greatestU128 := by
  refine ⟨by decide, by decide, fun reads => ?_⟩
  rw [IntegerType.readsExactly_iff] at reads
  exact absurd reads (by decide)

end RecordMapper
