/-!
Parts of a text by byte offsets. There is one between two offsets exactly when both are at the
boundary of a character, which is where one part of the text ends and another begins.
-/

namespace RecordMapper.Text

/-- The part of a text between two byte offsets. There is none when an offset is not at the boundary
of a character, or when the second one comes before the first. -/
def slice? (text : String) (first last : Nat) : Option String := do
  let start ← text.pos? ⟨first⟩
  let stop ← text.pos? ⟨last⟩
  (text.slice? start stop).map (·.copy)

theorem pos?_eq_some_iff {text : String} {offset : String.Pos.Raw} {p : text.Pos} :
    text.pos? offset = some p ↔ p.offset = offset := by
  rw [String.pos?, Option.map_eq_some_iff]
  constructor
  · rintro ⟨q, found, rfl⟩
    rw [String.Slice.pos?] at found
    split at found
    next =>
      cases found
      rfl
    next => cases found
  · rintro rfl
    have valid : p.offset.isValidForSlice text.toSlice = true :=
      String.Pos.Raw.isValidForSlice_eq_true_iff.mpr p.toSlice.isValidForSlice
    refine ⟨p.toSlice, ?_, by simp⟩
    rw [String.Slice.pos?, dif_pos valid]
    rfl

theorem map_slice?_eq_some_iff {text part : String} {start stop : text.Pos} :
    (text.slice? start stop).map (·.copy) = some part ↔
      ∃ before after, start.Splits before (part ++ after) ∧ stop.Splits (before ++ part) after := by
  rw [← String.copy_slice_eq_iff_splits, String.slice?]
  split
  next ordered => simp [ordered]
  next reversed => simp [reversed]

theorem slice?_eq_some_iff {text part : String} {first last : Nat} :
    slice? text first last = some part ↔
      ∃ before after, text = before ++ part ++ after ∧ before.utf8ByteSize = first ∧
        (before ++ part).utf8ByteSize = last := by
  constructor
  · intro h
    obtain ⟨start, at_first, h⟩ := Option.bind_eq_some_iff.mp h
    obtain ⟨stop, at_last, h⟩ := Option.bind_eq_some_iff.mp h
    obtain ⟨before, after, starts, stops⟩ := map_slice?_eq_some_iff.mp h
    have offset := starts.offset_eq_rawEndPos.symm.trans (pos?_eq_some_iff.mp at_first)
    have offset' := stops.offset_eq_rawEndPos.symm.trans (pos?_eq_some_iff.mp at_last)
    exact ⟨before, after, stops.eq_append, congrArg (·.byteIdx) offset,
      congrArg (·.byteIdx) offset'⟩
  · rintro ⟨before, after, whole, rfl, rfl⟩
    have starts := String.Pos.splits_ofEqAppend (whole.trans (String.append_assoc ..))
    have stops := String.Pos.splits_ofEqAppend whole
    refine Option.bind_eq_some_iff.mpr ⟨_, pos?_eq_some_iff.mpr starts.offset_eq_rawEndPos, ?_⟩
    refine Option.bind_eq_some_iff.mpr ⟨_, pos?_eq_some_iff.mpr stops.offset_eq_rawEndPos, ?_⟩
    exact map_slice?_eq_some_iff.mpr ⟨before, after, starts, stops⟩

theorem utf8ByteSize_ofList_pos_iff (chars : List Char) :
    0 < (String.ofList chars).utf8ByteSize ↔ chars ≠ [] := by
  rw [Nat.pos_iff_ne_zero, ne_eq, String.utf8ByteSize_eq_zero_iff]
  simp

end RecordMapper.Text
