import Mathlib.Data.List.Infix
import RecordMapper.Text.Split

/-! Cutting a text whose part before the separator has none of the separator's characters. -/

namespace RecordMapper.Text

theorem cut?_eq_none_iff {sep s : List Char} : cut? sep s = none ↔ ¬ sep <:+: s := by
  induction s with
  | nil => simp [cut?]
  | cons c cs ih =>
    rw [cut?, List.infix_cons_iff, ← List.isPrefixOf_iff_prefix]
    by_cases begins : sep.isPrefixOf (c :: cs) = true
    · simp [begins]
    · simp [begins, ih]

theorem cutOnce?_eq_none_iff {sep s : String} :
    cutOnce? sep s = none ↔ ¬ sep.toList <:+: s.toList := by
  rw [cutOnce?, Option.map_eq_none_iff, cut?_eq_none_iff]

theorem cut?_append {sep head : List Char} (tail : List Char) (some_sep : sep ≠ [])
    (clear : ∀ c ∈ head, c ∉ sep) : cut? sep (head ++ sep ++ tail) = some (head, tail) := by
  obtain ⟨first, others, rfl⟩ := List.exists_cons_of_ne_nil some_sep
  induction head with
  | nil => simp [cut?]
  | cons c head ih =>
    obtain ⟨here, later⟩ := List.forall_mem_cons.mp clear
    have other : (first == c) = false := by
      simp only [beq_eq_false_iff_ne]
      rintro rfl
      exact here List.mem_cons_self
    rw [List.cons_append, List.cons_append, cut?, ih later]
    simp [List.isPrefixOf, other]

/-- The text has none of the characters of the separator. -/
def Clear (sep s : String) : Prop := ∀ c ∈ s.toList, c ∉ sep.toList

instance (sep s : String) : Decidable (Clear sep s) :=
  List.decidableBAll (fun c => c ∉ sep.toList) s.toList

theorem toList_ne_nil {s : String} (some_sep : s ≠ "") : s.toList ≠ [] := by
  simpa using some_sep

theorem Clear.not_within {sep s : String} (clear : Clear sep s) (some_sep : sep ≠ "") :
    ¬ sep.toList <:+: s.toList := by
  intro inside
  obtain ⟨c, mem⟩ := List.exists_mem_of_ne_nil _ (toList_ne_nil some_sep)
  exact clear c (inside.subset mem) mem

theorem Clear.ne_append {sep s : String} (clear : Clear sep s) (some_sep : sep ≠ "")
    (head tail : String) : s ≠ head ++ sep ++ tail := by
  rintro rfl
  refine clear.not_within some_sep ⟨head.toList, tail.toList, ?_⟩
  simp

theorem cutOnce?_append {sep head : String} (clear : Clear sep head) (some_sep : sep ≠ "")
    (tail : String) : cutOnce? sep (head ++ sep ++ tail) = some (head, tail) := by
  rw [cutOnce?, String.toList_append, String.toList_append,
    cut?_append _ (toList_ne_nil some_sep) clear]
  simp

end RecordMapper.Text
