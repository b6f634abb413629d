import RecordMapper.Proofs.Mapping.Written

/-!
Where entries come from. Every entry of an entity was left by one of its fields, under a column of
that field, and since the columns of the fields differ, what is found under a column is what its
field left there.
-/

namespace RecordMapper

theorem inField_eq_ok_iff {α : Type} {type name : String} {x : Except Failure α} {a : α} :
    inField type name x = .ok a ↔ x = .ok a := by
  cases x <;> simp [inField, Except.mapError]

theorem Entity.eq_child?_of_childAs {e : Entity} {type : TypeKey} {place : Nat}
    {c : Option Entity} (h : e.childAs type place = .ok c) : c = e.child? place := by
  unfold childAs slotAs at h
  unfold child?
  grind

theorem Entity.content?_of_contentAs {e : Entity} {type : TypeKey} {place : Nat} {d : Datum}
    (h : e.contentAs type place = .ok d) : e.content? place = some d := by
  unfold contentAs slotAs at h
  unfold content?
  grind

namespace TypeDescriptor

section

variable {type : TypeKey} {e : Entity}

theorem writtenFields_of_getElem? {identifiers : Bool} {fs : List Field} {place i : Nat}
    {f : Field} {es : List (String × Value)}
    (h : writtenFields type e identifiers place fs = .ok es) (hf : fs[i]? = some f)
    (pass : f.isId = identifiers) :
    ∃ own, writtenAccess type e (place + i) f.name f.column f.converter f.access = .ok own ∧
      own ⊆ es := by
  induction fs generalizing place i es with
  | nil => simp at hf
  | cons g fs ih =>
    obtain ⟨own, rest, hown, hrest, rfl⟩ := writtenFields_cons_eq_ok_iff.mp h
    cases i with
    | zero =>
      obtain rfl : g = f := by simpa using hf
      rw [writtenField_eq, pass, beq_self_eq_true, if_pos rfl] at hown
      exact ⟨own, hown, List.subset_append_left own rest⟩
    | succ i =>
      obtain ⟨mine, hmine, sub⟩ := ih hrest (by simpa using hf)
      rw [show place + (i + 1) = place + 1 + i by omega]
      exact ⟨mine, hmine, fun x hx => List.mem_append_right own (sub hx)⟩

theorem written_of_getElem? {t : TypeDescriptor} {place : Nat} {f : Field}
    {es : List (String × Value)} (h : written e t = .ok es) (hf : t.fields[place]? = some f) :
    ∃ own, writtenAccess t.key e place f.name f.column f.converter f.access = .ok own ∧
      own ⊆ es := by
  obtain ⟨identifiers, others, first, second, rfl⟩ := written_eq_ok_iff.mp h
  cases pass : f.isId with
  | true =>
    obtain ⟨own, hown, sub⟩ := writtenFields_of_getElem? first hf pass
    exact ⟨own, by simpa using hown, fun x hx => List.mem_append_left others (sub hx)⟩
  | false =>
    obtain ⟨own, hown, sub⟩ := writtenFields_of_getElem? second hf pass
    exact ⟨own, by simpa using hown, fun x hx => List.mem_append_right identifiers (sub hx)⟩

theorem exists_of_mem_writtenFields {identifiers : Bool} {fs : List Field} {place : Nat}
    {es : List (String × Value)} (h : writtenFields type e identifiers place fs = .ok es)
    {x : String × Value} (mem : x ∈ es) :
    ∃ i f own, fs[i]? = some f ∧
      writtenAccess type e (place + i) f.name f.column f.converter f.access = .ok own ∧
        x ∈ own := by
  induction fs generalizing place es with
  | nil =>
    cases Except.ok.inj h
    simp at mem
  | cons f fs ih =>
    obtain ⟨own, rest, hown, hrest, rfl⟩ := writtenFields_cons_eq_ok_iff.mp h
    rcases List.mem_append.mp mem with here | later
    · rw [writtenField_eq] at hown
      split at hown
      · exact ⟨0, f, own, rfl, hown, here⟩
      · cases Except.ok.inj hown
        simp at here
    · obtain ⟨i, g, own, hg, hown, inside⟩ := ih hrest later
      refine ⟨i + 1, g, own, by simpa using hg, ?_, inside⟩
      rwa [show place + (i + 1) = place + 1 + i by omega]

/-- Every entry was left by a field. -/
theorem exists_of_mem_written {t : TypeDescriptor} {es : List (String × Value)}
    (h : written e t = .ok es) {x : String × Value} (mem : x ∈ es) :
    ∃ place f own, t.fields[place]? = some f ∧
      writtenAccess t.key e place f.name f.column f.converter f.access = .ok own ∧ x ∈ own := by
  obtain ⟨identifiers, others, first, second, rfl⟩ := written_eq_ok_iff.mp h
  rcases List.mem_append.mp mem with inside | inside
  · simpa using exists_of_mem_writtenFields first inside
  · simpa using exists_of_mem_writtenFields second inside

theorem column_mem_columnsOf (f : Field) : f.column ∈ columnsOf f := by
  unfold columnsOf
  split <;> simp

theorem flatColumnsOfAccess_subset_columnsOf (f : Field) :
    flatColumnsOfAccess f.column f.access ⊆ columnsOf f := by
  intro c hc
  cases access : f.access with
  | value role codec | embedded child => simpa [flatColumnsOfAccess, columnsOf, access] using hc
  | subEntity child =>
    have inner : c ∈ child.flatColumns := by simpa [flatColumnsOfAccess, access] using hc
    simp [columnsOf, access, inner]

theorem writtenAccess_names_subset {place : Nat} {f : Field} {own : List (String × Value)}
    (h : writtenAccess type e place f.name f.column f.converter f.access = .ok own) :
    own.map (·.1) ⊆ columnsOf f := by
  intro c hc
  have used := List.count_pos_iff.mpr hc
  have bound := count_writtenAccess_le (fun _ _ _ _ => count_written_le) h c
  exact flatColumnsOfAccess_subset_columnsOf f (List.count_pos_iff.mp (by omega))

/-- The entries that an entity leaves at its level, and none if there is no entity. -/
def Leaves (t : TypeDescriptor) : Option Entity → List (String × Value) → Prop
  | none, es => es = []
  | some e, es => written e t = .ok es

section

variable {place : Nat} {name column : String} {converter : Option AttributeConverter}
  {child : TypeDescriptor} {own : List (String × Value)}

theorem of_writtenAccess_value {role : ValueRole} {codec : FieldCodec}
    (h : writtenAccess type e place name column converter (.value role codec) = .ok own) :
    ∃ d v, e.content? place = some d ∧ recordValue codec converter d = .ok v ∧
      own = if v.isNull then [] else [(column, v)] := by
  obtain ⟨v, found, rest⟩ := bind_eq_ok_iff.mp h
  obtain ⟨d, content, value⟩ := bind_eq_ok_iff.mp (inField_eq_ok_iff.mp found)
  exact ⟨d, v, Entity.content?_of_contentAs content, value, (Except.ok.inj rest).symm⟩

theorem of_writtenAccess_embedded
    (h : writtenAccess type e place name column converter (.embedded child) = .ok own) :
    match e.child? place with
    | none => own = []
    | some c => ∃ inner, written c child = .ok inner ∧ own = [(column, .record column inner)] := by
  obtain ⟨found, read, rest⟩ := bind_eq_ok_iff.mp h
  obtain rfl := Entity.eq_child?_of_childAs (inField_eq_ok_iff.mp read)
  cases held : e.child? place with
  | none =>
    rw [held] at rest
    exact (Except.ok.inj rest).symm
  | some c =>
    rw [held] at rest
    obtain ⟨inner, entries, rest⟩ := bind_eq_ok_iff.mp rest
    exact ⟨inner, entries, (Except.ok.inj rest).symm⟩

theorem of_writtenAccess_subEntity
    (h : writtenAccess type e place name column converter (.subEntity child) = .ok own) :
    child.Leaves (e.child? place) own := by
  obtain ⟨found, read, rest⟩ := bind_eq_ok_iff.mp h
  obtain rfl := Entity.eq_child?_of_childAs (inField_eq_ok_iff.mp read)
  cases held : e.child? place with
  | none =>
    rw [held] at rest
    exact (Except.ok.inj rest).symm
  | some c =>
    rw [held] at rest
    exact rest

theorem writtenAccess_of_absent {f : Field} (nested : f.nested? = some child)
    (absent : e.child? place = none)
    (h : writtenAccess type e place f.name f.column f.converter f.access = .ok own) : own = [] := by
  rcases f.access_of_nested? nested with access | access
  · rw [access] at h
    simpa [absent] using of_writtenAccess_embedded h
  · rw [access] at h
    simpa [absent, Leaves] using of_writtenAccess_subEntity h

end

/-- Two fields at different places have no column in common. -/
theorem Formed.eq_of_mem_columnsOf {t : TypeDescriptor} (formed : t.Formed) {i j : Nat}
    {f g : Field} (hf : t.fields[i]? = some f) (hg : t.fields[j]? = some g) {c : String}
    (mine : c ∈ columnsOf f) (theirs : c ∈ columnsOf g) : i = j := by
  obtain ⟨-, apart⟩ := List.nodup_flatMap.mp formed.columnsOf_nodup
  obtain ⟨hi, rfl⟩ := List.getElem?_eq_some_iff.mp hf
  obtain ⟨hj, rfl⟩ := List.getElem?_eq_some_iff.mp hg
  rw [List.pairwise_iff_getElem] at apart
  rcases Nat.lt_trichotomy i j with before | same | after
  · exact absurd theirs (apart i j hi hj before mine)
  · exact same
  · exact absurd mine (apart j i hj hi after theirs)

/-- Under a column of a field stands what the field left there, and nothing if it left nothing. -/
theorem Formed.lookup_written {t : TypeDescriptor} (formed : t.Formed) {place : Nat} {f : Field}
    {es own : List (String × Value)} (entries : written e t = .ok es)
    (hf : t.fields[place]? = some f)
    (left : writtenAccess t.key e place f.name f.column f.converter f.access = .ok own) {c : String}
    (column : c ∈ columnsOf f) : lookup c es = lookup c own := by
  obtain ⟨own', left', sub⟩ := written_of_getElem? entries hf
  obtain rfl := Except.ok.inj (left.symm.trans left')
  cases found : lookup c own with
  | some v =>
    have distinct := written_names_nodup formed.flatColumns_nodup entries
    exact lookup_of_mem distinct (sub (mem_of_lookup found))
  | none =>
    refine lookup_eq_none_iff.mpr fun used => ?_
    obtain ⟨entry, mem, rfl⟩ := List.mem_map.mp used
    obtain ⟨other, g, own', hg, hown, inside⟩ := exists_of_mem_written entries mem
    have theirs := writtenAccess_names_subset hown (List.mem_map_of_mem inside)
    obtain rfl := formed.eq_of_mem_columnsOf hf hg column theirs
    obtain rfl := Option.some.inj (hf.symm.trans hg)
    obtain rfl := Except.ok.inj (left.symm.trans hown)
    exact lookup_eq_none_iff.mp found (List.mem_map_of_mem inside)

end

end TypeDescriptor

end RecordMapper
