/-! Cutting a text at the first occurrence of a separator, or behind the last one of a part. -/

namespace RecordMapper.Text

/-- The parts before and after the first occurrence of `sep`. -/
def cut? (sep : List Char) : List Char → Option (List Char × List Char)
  | [] => if sep.isEmpty then some ([], []) else none
  | c :: cs =>
    if sep.isPrefixOf (c :: cs) then some ([], (c :: cs).drop sep.length)
    else (cut? sep cs).map fun parts => (c :: parts.1, parts.2)

/-- Cutting loses the separator and nothing else. -/
theorem eq_of_cut? {sep s head tail : List Char} (h : cut? sep s = some (head, tail)) :
    s = head ++ sep ++ tail := by
  induction s generalizing head with
  | nil =>
    cases sep <;> simp_all [cut?]
  | cons c cs ih =>
    rw [cut?] at h
    split at h
    · rename_i hp
      obtain ⟨t, ht⟩ := List.isPrefixOf_iff_prefix.mp hp
      simp only [Option.some.injEq, Prod.mk.injEq] at h
      obtain ⟨rfl, rfl⟩ := h
      rw [← ht]
      simp
    · obtain ⟨parts, hparts, heq⟩ := Option.map_eq_some_iff.mp h
      obtain ⟨hh, ht⟩ := Prod.mk.inj heq
      subst hh ht
      simpa using ih hparts

theorem length_of_cut? {sep s head tail : List Char} (h : cut? sep s = some (head, tail)) :
    s.length = head.length + sep.length + tail.length := by
  have := congrArg List.length (eq_of_cut? h)
  simpa [Nat.add_assoc] using this

/-- The parts of a text around the first occurrence of a non-empty separator. -/
def cutOnce? (sep s : String) : Option (String × String) :=
  (cut? sep.toList s.toList).map fun parts => (String.ofList parts.1, String.ofList parts.2)

/-- The first suffix that starts with the given characters. -/
def dropUntil (part : List Char) : List Char → List Char
  | [] => []
  | c :: cs => if part.isPrefixOf (c :: cs) then c :: cs else dropUntil part cs

/-- A text up to the end of the last occurrence of a part of it. -/
def throughLast (part s : String) : String :=
  String.ofList (dropUntil part.toList.reverse s.toList.reverse).reverse

end RecordMapper.Text
