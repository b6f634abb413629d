import Mathlib.Data.List.Nodup
import RecordMapper.Record

/-!
Entries by name. As long as no name repeats, looking a name up finds its only entry, and writing new
names one after the other puts their entries at the end in that order.
-/

namespace RecordMapper

section Lookup

variable {α : Type}

theorem lookup_eq_none_iff {name : String} {es : List (String × α)} :
    lookup name es = none ↔ name ∉ es.map (·.1) := by
  induction es with
  | nil => simp [lookup]
  | cons e es ih =>
    obtain ⟨n, v⟩ := e
    by_cases same : n = name
    · simp [lookup, same]
    · simp [lookup, same, ih, Ne.symm same]

theorem lookup_of_mem {name : String} {v : α} {es : List (String × α)}
    (distinct : (es.map (·.1)).Nodup) (mem : (name, v) ∈ es) : lookup name es = some v := by
  induction es with
  | nil => simp at mem
  | cons e es ih =>
    obtain ⟨new, rest⟩ := List.nodup_cons.mp distinct
    rcases List.mem_cons.mp mem with rfl | later
    · simp [lookup]
    · have other : e.1 ≠ name := by
        rintro rfl
        exact new (List.mem_map.mpr ⟨(e.1, v), later, rfl⟩)
      simpa [lookup, other] using ih rest later

theorem writeEntry_of_not_mem {name : String} {es : List (String × α)} (v : α)
    (new : name ∉ es.map (·.1)) : writeEntry name v es = (none, es ++ [(name, v)]) := by
  induction es with
  | nil => rfl
  | cons e es ih =>
    simp only [List.map_cons, List.mem_cons, not_or] at new
    simp [writeEntry, Ne.symm new.1, ih new.2]

theorem lookup_writeEntry_self (name : String) (v : α) (es : List (String × α)) :
    lookup name (writeEntry name v es).2 = some v := by
  induction es with
  | nil => simp [writeEntry, lookup]
  | cons e es ih =>
    by_cases same : e.1 = name
    · simp [writeEntry, lookup, same]
    · simpa [writeEntry, lookup, same] using ih

theorem lookup_writeEntry_of_ne {name other : String} (v : α) (es : List (String × α))
    (ne : other ≠ name) : lookup other (writeEntry name v es).2 = lookup other es := by
  induction es with
  | nil => simp [writeEntry, lookup, ne.symm]
  | cons e es ih =>
    by_cases same : e.1 = name
    · simp [writeEntry, lookup, same, ne.symm]
    · simp [writeEntry, lookup, same, ih]

theorem lookup_removeEntry_of_ne {name other : String} (es : List (String × α))
    (ne : other ≠ name) : lookup other (removeEntry name es).2 = lookup other es := by
  induction es with
  | nil => rfl
  | cons e es ih =>
    by_cases same : e.1 = name
    · simp [removeEntry, lookup, same, ne.symm]
    · simp [removeEntry, lookup, same, ih]

theorem lookup_removeEntry_self {name : String} {es : List (String × α)}
    (distinct : (es.map (·.1)).Nodup) : lookup name (removeEntry name es).2 = none := by
  induction es with
  | nil => rfl
  | cons e es ih =>
    obtain ⟨new, rest⟩ := List.nodup_cons.mp distinct
    by_cases same : e.1 = name
    · subst same
      simpa [removeEntry] using lookup_eq_none_iff.mpr new
    · simpa [removeEntry, lookup, same] using ih rest

theorem writeEntry_fst (name : String) (v : α) (es : List (String × α)) :
    (writeEntry name v es).1 = lookup name es := by
  induction es with
  | nil => rfl
  | cons e es ih =>
    by_cases same : e.1 = name
    · simp [writeEntry, lookup, same]
    · simp [writeEntry, lookup, same, ih]

/-- A name that is there keeps its place, and another one comes last. -/
theorem names_writeEntry (name : String) (v : α) (es : List (String × α)) :
    (writeEntry name v es).2.map (·.1) =
      if name ∈ es.map (·.1) then es.map (·.1) else es.map (·.1) ++ [name] := by
  induction es with
  | nil => rfl
  | cons e es ih =>
    by_cases same : e.1 = name
    · simp [writeEntry, same]
    · simp only [writeEntry, beq_iff_eq, same, if_false, List.map_cons, ih, List.mem_cons,
        Ne.symm same, false_or]
      split <;> rfl

theorem removeEntry_fst (name : String) (es : List (String × α)) :
    (removeEntry name es).1 = lookup name es := by
  induction es with
  | nil => rfl
  | cons e es ih =>
    by_cases same : e.1 = name
    · simp [removeEntry, lookup, same]
    · simp [removeEntry, lookup, same, ih]

theorem names_removeEntry (name : String) (es : List (String × α)) :
    (removeEntry name es).2.map (·.1) = (es.map (·.1)).erase name := by
  induction es with
  | nil => rfl
  | cons e es ih =>
    by_cases same : e.1 = name
    · simp [removeEntry, same]
    · simp [removeEntry, same, ih]

theorem lookup_append (name : String) (es fs : List (String × α)) :
    lookup name (es ++ fs) = (lookup name es).or (lookup name fs) := by
  induction es with
  | nil => simp [lookup]
  | cons e es ih =>
    by_cases same : e.1 = name
    · simp [lookup, same]
    · simpa [lookup, same] using ih

theorem mem_of_lookup {name : String} {v : α} {es : List (String × α)}
    (h : lookup name es = some v) : (name, v) ∈ es := by
  induction es with
  | nil => simp [lookup] at h
  | cons e es ih =>
    obtain ⟨n, w⟩ := e
    by_cases same : n = name
    · obtain rfl : w = v := by simpa [lookup, same] using h
      simp [same]
    · exact List.mem_cons_of_mem _ (ih (by simpa [lookup, same] using h))

end Lookup

namespace Record

/-- An entry under the whole path wins over all nested ones. -/
theorem findPath?_of_find? {r : Record} {path : String} {v : Value} (h : r.find? path = some v)
    (sep : String) : r.findPath? sep path = some v := by
  have whole : lookup (String.ofList path.toList) r.entries = some v := by
    rwa [String.ofList_toList]
  rw [findPath?, findAt, whole]

def putAll (r : Record) (es : List (String × Value)) : Record :=
  es.foldl (fun s e => s.put e.1 e.2) r

@[simp] theorem putAll_nil (r : Record) : r.putAll [] = r := rfl

@[simp] theorem putAll_cons (r : Record) (e : String × Value) (es : List (String × Value)) :
    r.putAll (e :: es) = (r.put e.1 e.2).putAll es := rfl

theorem putAll_append (r : Record) (es fs : List (String × Value)) :
    r.putAll (es ++ fs) = (r.putAll es).putAll fs := List.foldl_append

theorem put_of_not_mem {r : Record} {name : String} (v : Value) (new : name ∉ r.names) :
    r.put name v = { r with entries := r.entries ++ [(name, v)] } := by
  simp [put, exchange, writeEntry_of_not_mem v new]

/-- New names that do not repeat keep their order at the end of the record. -/
theorem putAll_of_nodup {r : Record} {es : List (String × Value)} (distinct : (es.map (·.1)).Nodup)
    (new : ∀ n ∈ es.map (·.1), n ∉ r.names) :
    r.putAll es = { r with entries := r.entries ++ es } := by
  induction es generalizing r with
  | nil => simp
  | cons e es ih =>
    obtain ⟨once, rest⟩ := List.nodup_cons.mp distinct
    have first := put_of_not_mem e.2 (new e.1 List.mem_cons_self)
    have later : ∀ n ∈ es.map (·.1), n ∉ (r.put e.1 e.2).names := by
      intro n hn
      rw [first]
      simp only [names, List.map_append, List.mem_append, not_or]
      refine ⟨new n (List.mem_cons_of_mem _ hn), ?_⟩
      rintro same
      obtain rfl : n = e.1 := by simpa using same
      exact once hn
    rw [putAll_cons, ih rest later, first]
    simp

theorem putAll_empty (name : String) {es : List (String × Value)}
    (distinct : (es.map (·.1)).Nodup) : (empty name).putAll es = ⟨name, es⟩ :=
  putAll_of_nodup distinct (by simp [empty, names])

theorem find?_put_self (r : Record) (name : String) (v : Value) :
    (r.put name v).find? name = some v := lookup_writeEntry_self name v r.entries

theorem find?_put_of_ne {name other : String} (r : Record) (v : Value) (ne : other ≠ name) :
    (r.put name v).find? other = r.find? other := lookup_writeEntry_of_ne v r.entries ne

/-- What is put wins over what was there before. -/
theorem find?_putAll {es : List (String × Value)} (r : Record) (distinct : (es.map (·.1)).Nodup)
    (name : String) : (r.putAll es).find? name = (lookup name es).or (r.find? name) := by
  induction es generalizing r with
  | nil => simp [lookup]
  | cons e es ih =>
    obtain ⟨new, rest⟩ := List.nodup_cons.mp distinct
    rw [putAll_cons, ih _ rest]
    by_cases same : e.1 = name
    · subst same
      simp [lookup, find?_put_self, lookup_eq_none_iff.mpr new]
    · simp [lookup, same, find?_put_of_ne r e.2 (Ne.symm same)]

theorem names_put (r : Record) (name : String) (v : Value) :
    (r.put name v).names = if name ∈ r.names then r.names else r.names ++ [name] :=
  names_writeEntry name v r.entries

theorem names_remove (r : Record) (name : String) :
    (r.remove name).2.names = r.names.erase name := names_removeEntry name r.entries

theorem find?_remove_of_ne {name other : String} (r : Record) (ne : other ≠ name) :
    (r.remove name).2.find? other = r.find? other := lookup_removeEntry_of_ne r.entries ne

theorem find?_remove_self {r : Record} (distinct : r.names.Nodup) (name : String) :
    (r.remove name).2.find? name = none := lookup_removeEntry_self distinct

theorem find?_eq_none_iff {r : Record} {name : String} : r.find? name = none ↔ name ∉ r.names :=
  lookup_eq_none_iff

theorem contains_iff {r : Record} {name : String} : r.contains name = true ↔ name ∈ r.names := by
  rw [contains, Option.isSome_iff_ne_none, ne_eq, find?_eq_none_iff, not_not]

theorem isEmpty_eq_false_iff {r : Record} : r.isEmpty = false ↔ ∃ name, name ∈ r.names := by
  rw [isEmpty, List.isEmpty_eq_false_iff_exists_mem]
  simp [names]

/-- Every given entry is found under its name. -/
def Holds (r : Record) (es : List (String × Value)) : Prop := ∀ e ∈ es, r.find? e.1 = some e.2

theorem Holds.subset {r : Record} {es fs : List (String × Value)} (h : r.Holds es)
    (sub : fs ⊆ es) : r.Holds fs := fun e he => h e (sub he)

theorem holds_of_nodup {name : String} {es : List (String × Value)}
    (distinct : (es.map (·.1)).Nodup) : (Record.mk name es).Holds es :=
  fun _ he => lookup_of_mem distinct he

theorem Holds.contains {r : Record} {es : List (String × Value)} (h : r.Holds es)
    {e : String × Value} (he : e ∈ es) : r.contains e.1 = true := by
  simp [Record.contains, h e he]

end Record

end RecordMapper
