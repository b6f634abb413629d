import Mathlib.Data.List.Induction
import RecordMapper.Proofs.Record.Entries

/-!
Records and their history. What an edited record holds, and in which order, is read off what has
happened to each of its names: the last write gives the value, and the first write since the name
was last absent gives the place.
-/

namespace RecordMapper

/-- What happens to one name of a record. -/
inductive Happening where
  | written (name : String) (value : Value)
  | removed (name : String)

def Happening.name : Happening → String
  | written name _ | removed name => name

/-- The operations that change a record. -/
inductive Edit where
  | put (name : String) (value : Value)
  | remove (name : String)
  | splice (other : Record)
  | rename (name : String)

namespace Edit

def happenings : Edit → List Happening
  | put name value => [.written name value]
  | remove name => [.removed name]
  | splice other => other.entries.map fun e => .written e.1 e.2
  | rename _ => []

def newName? : Edit → Option String
  | rename name => some name
  | _ => none

end Edit

/-- The last thing that happened to the name is that the value was written. -/
def LastWritten (history : List Happening) (name : String) (value : Value) : Prop :=
  ∃ before after, history = before ++ .written name value :: after ∧ ∀ h ∈ after, h.name ≠ name

/-- The place of the first write of a name since it was last absent: it has not been removed since,
and behind every write before it is a removal. -/
structure EntersAt (history : List Happening) (name : String) (place : Nat) : Prop where
  written : ∃ value, history[place]? = some (.written name value)
  kept : ∀ later, place < later → history[later]? ≠ some (.removed name)
  first : ∀ earlier value, earlier < place → history[earlier]? = some (.written name value) →
    ∃ between, earlier < between ∧ between < place ∧ history[between]? = some (.removed name)

variable {history : List Happening} {name : String} {place : Nat}

theorem getElem?_concat_iff {last h : Happening} :
    (history ++ [last])[place]? = some h ↔
      history[place]? = some h ∨ place = history.length ∧ last = h := by
  rcases Nat.lt_trichotomy place history.length with lt | rfl | gt
  · simp [List.getElem?_append_left lt, Nat.ne_of_lt lt]
  · simp
  · have outside : (history ++ [last]).length ≤ place := by
      simp only [List.length_append, List.length_singleton]
      omega
    simp [List.getElem?_eq_none outside, List.getElem?_eq_none (Nat.le_of_lt gt), Nat.ne_of_gt gt]

theorem lastWritten_concat {last : Happening} {value : Value} :
    LastWritten (history ++ [last]) name value ↔
      last = .written name value ∨ last.name ≠ name ∧ LastWritten history name value := by
  constructor
  · rintro ⟨before, after, split, apart⟩
    rcases List.eq_nil_or_concat' after with rfl | ⟨inner, final, rfl⟩
    · obtain ⟨-, same⟩ := List.append_inj' split rfl
      exact .inl (List.cons.inj same).1
    · rw [← List.cons_append, ← List.append_assoc] at split
      obtain ⟨rfl, same⟩ := List.append_inj' split rfl
      obtain rfl : last = final := (List.cons.inj same).1
      exact .inr ⟨apart last (by simp), before, inner, rfl, fun h mem => apart h (by simp [mem])⟩
  · rintro (rfl | ⟨elsewhere, before, after, rfl, apart⟩)
    · exact ⟨history, [], rfl, by simp⟩
    · refine ⟨before, after ++ [last], by simp, fun h mem => ?_⟩
      rcases List.mem_append.mp mem with earlier | final
      · exact apart h earlier
      · rwa [List.mem_singleton.mp final]

namespace EntersAt

theorem lt_length (h : EntersAt history name place) : place < history.length := by
  obtain ⟨value, written⟩ := h.written
  exact (List.getElem?_eq_some_iff.mp written).1

theorem unique {place' : Nat} (h : EntersAt history name place)
    (h' : EntersAt history name place') : place = place' := by
  obtain ⟨value, written⟩ := h.written
  obtain ⟨value', written'⟩ := h'.written
  rcases Nat.lt_trichotomy place place' with lt | same | gt
  · obtain ⟨between, after, -, removed⟩ := h'.first place value lt written
    exact absurd removed (h.kept between after)
  · exact same
  · obtain ⟨between, after, -, removed⟩ := h.first place' value' gt written'
    exact absurd removed (h'.kept between after)

/-- A name keeps its place whatever happens behind it, as long as it is not removed. -/
theorem concat {last : Happening} (h : EntersAt history name place) (kept : last ≠ .removed name) :
    EntersAt (history ++ [last]) name place := by
  obtain ⟨value, written⟩ := h.written
  refine ⟨⟨value, getElem?_concat_iff.mpr (.inl written)⟩, fun later behind removed => ?_,
    fun earlier old before writes => ?_⟩
  · rcases getElem?_concat_iff.mp removed with inside | ⟨-, same⟩
    · exact h.kept later behind inside
    · exact kept same
  · have within := h.lt_length
    rcases getElem?_concat_iff.mp writes with inside | ⟨atEnd, -⟩
    · obtain ⟨between, above, below, removed⟩ := h.first earlier old before inside
      exact ⟨between, above, below, getElem?_concat_iff.mpr (.inl removed)⟩
    · omega

theorem of_concat {last : Happening} (known : ∃ place, EntersAt history name place)
    (kept : last ≠ .removed name) (h : EntersAt (history ++ [last]) name place) :
    EntersAt history name place := by
  obtain ⟨old, enters⟩ := known
  rwa [h.unique (enters.concat kept)]

/-- A name that is absent enters at the end. -/
theorem last (value : Value)
    (absent : ∀ (place : Nat) (value : Value), history[place]? = some (.written name value) →
      ∃ later, place < later ∧ history[later]? = some (.removed name)) :
    EntersAt (history ++ [.written name value]) name history.length := by
  refine ⟨⟨value, getElem?_concat_iff.mpr (.inr ⟨rfl, rfl⟩)⟩, fun later behind removed => ?_,
    fun earlier old before writes => ?_⟩
  · rcases getElem?_concat_iff.mp removed with inside | ⟨-, same⟩
    · have within := (List.getElem?_eq_some_iff.mp inside).1
      omega
    · cases same
  · rcases getElem?_concat_iff.mp writes with inside | ⟨atEnd, -⟩
    · obtain ⟨later, behind, removed⟩ := absent earlier old inside
      have within := (List.getElem?_eq_some_iff.mp removed).1
      exact ⟨later, behind, within, getElem?_concat_iff.mpr (.inl removed)⟩
    · omega

end EntersAt

namespace Record

def edit (r : Record) : Edit → Record
  | .put name value => r.put name value
  | .remove name => (r.remove name).2
  | .splice other => r.splice other
  | .rename name => r.rename name

def edited (r : Record) (edits : List Edit) : Record := edits.foldl edit r

/-- The record is what the history makes of an empty one. -/
structure Shows (history : List Happening) (r : Record) : Prop where
  distinct : r.names.Nodup
  found : ∀ name value, r.find? name = some value ↔ LastWritten history name value
  entered : ∀ name ∈ r.names, ∃ place, EntersAt history name place
  ordered : r.names.Pairwise fun a b =>
    ∀ i j, EntersAt history a i → EntersAt history b j → i < j
  /-- Behind every write of a name that is not there is a removal. -/
  absent : ∀ name ∉ r.names, ∀ (place : Nat) (value : Value),
    history[place]? = some (.written name value) →
      ∃ later, place < later ∧ history[later]? = some (.removed name)

namespace Shows

variable {r : Record}

theorem empty (name : String) : Shows [] (Record.empty name) := by
  refine ⟨.nil, fun name value => ?_, nofun, .nil, by simp⟩
  simp [find?, Record.empty, lookup, LastWritten]

section Concat

variable {last : Happening} (h : Shows history r)
include h

theorem entered_concat {name : String} (mem : name ∈ r.names) (kept : last ≠ .removed name) :
    ∃ place, EntersAt (history ++ [last]) name place := by
  obtain ⟨place, enters⟩ := h.entered name mem
  exact ⟨place, enters.concat kept⟩

/-- The names that stay there keep their order. -/
theorem ordered_concat {names : List String} (sub : names.Sublist r.names)
    (kept : ∀ name ∈ names, last ≠ .removed name) :
    names.Pairwise fun a b => ∀ i j, EntersAt (history ++ [last]) a i →
      EntersAt (history ++ [last]) b j → i < j := by
  refine (h.ordered.sublist sub).imp_of_mem fun {a b} ha hb before i j first second => ?_
  have old := first.of_concat (h.entered a (sub.subset ha)) (kept a ha)
  have old' := second.of_concat (h.entered b (sub.subset hb)) (kept b hb)
  exact before i j old old'

theorem absent_concat {name : String} (new : name ∉ r.names) (elsewhere : last.name ≠ name)
    (place : Nat) (value : Value)
    (writes : (history ++ [last])[place]? = some (.written name value)) :
    ∃ later, place < later ∧ (history ++ [last])[later]? = some (.removed name) := by
  rcases getElem?_concat_iff.mp writes with inside | ⟨-, rfl⟩
  · obtain ⟨later, behind, removed⟩ := h.absent name new place value inside
    exact ⟨later, behind, getElem?_concat_iff.mpr (.inl removed)⟩
  · exact absurd rfl elsewhere

end Concat

theorem found_put (h : Shows history r) (name : String) (value : Value) (other : String)
    (v : Value) : (r.put name value).find? other = some v ↔
      LastWritten (history ++ [.written name value]) other v := by
  rw [lastWritten_concat]
  by_cases same : other = name
  · subst same
    simp [find?_put_self, Happening.name]
  · simp [find?_put_of_ne r value same, h.found, Happening.name, Ne.symm same]

theorem put (h : Shows history r) (name : String) (value : Value) :
    Shows (history ++ [.written name value]) (r.put name value) := by
  have stays : ∀ other ∈ r.names, Happening.written name value ≠ .removed other := nofun
  by_cases there : name ∈ r.names
  · have names : (r.put name value).names = r.names := by rw [names_put, if_pos there]
    refine ⟨names ▸ h.distinct, h.found_put name value, ?_, ?_, ?_⟩
    all_goals rw [names]
    · exact fun other mem => h.entered_concat mem (stays other mem)
    · exact h.ordered_concat (.refl _) stays
    · intro other new
      exact h.absent_concat new fun same => new (same ▸ there)
  · have names : (r.put name value).names = r.names ++ [name] := by rw [names_put, if_neg there]
    have enters : EntersAt (history ++ [.written name value]) name history.length :=
      .last value (h.absent name there)
    refine ⟨?_, h.found_put name value, ?_, ?_, ?_⟩
    all_goals rw [names]
    · exact h.distinct.append (List.nodup_singleton name) (by simpa using there)
    · intro other mem
      rcases List.mem_append.mp mem with old | new
      · exact h.entered_concat old (stays other old)
      · rw [List.mem_singleton.mp new]
        exact ⟨_, enters⟩
    · rw [List.pairwise_append]
      refine ⟨h.ordered_concat (.refl _) stays, List.pairwise_singleton _ _, ?_⟩
      intro a ha b hb i j first second
      rw [List.mem_singleton.mp hb] at second
      rw [second.unique enters]
      exact (first.of_concat (h.entered a ha) (stays a ha)).lt_length
    · intro other new
      rw [List.mem_append, List.mem_singleton, not_or] at new
      exact h.absent_concat new.1 (Ne.symm new.2)

theorem remove (h : Shows history r) (name : String) :
    Shows (history ++ [.removed name]) (r.remove name).2 := by
  have names : (r.remove name).2.names = r.names.erase name := names_remove r name
  have stays : ∀ other ∈ r.names.erase name, Happening.removed name ≠ .removed other := by
    rintro other mem ⟨⟩
    exact h.distinct.not_mem_erase mem
  refine ⟨?_, fun other value => ?_, ?_, ?_, fun other new place value writes => ?_⟩
  · rw [names]
    exact h.distinct.erase name
  · rw [lastWritten_concat]
    by_cases same : other = name
    · subst same
      simp [find?_remove_self h.distinct, Happening.name]
    · simp [find?_remove_of_ne r same, h.found, Happening.name, Ne.symm same]
  · rw [names]
    exact fun other mem => h.entered_concat (List.mem_of_mem_erase mem) (stays other mem)
  · rw [names]
    exact h.ordered_concat List.erase_sublist stays
  · by_cases same : other = name
    · -- Whatever was written under the name, the removal at the end is behind it.
      subst same
      have inside : history[place]? = some (.written other value) :=
        (getElem?_concat_iff.mp writes).resolve_right fun last => nomatch last.2
      have within := (List.getElem?_eq_some_iff.mp inside).1
      exact ⟨history.length, within, getElem?_concat_iff.mpr (.inr ⟨rfl, rfl⟩)⟩
    · rw [names, List.mem_erase_of_ne same] at new
      have elsewhere : (Happening.removed name).name ≠ other := Ne.symm same
      exact h.absent_concat new elsewhere place value writes

theorem putAll (h : Shows history r) (es : List (String × Value)) :
    Shows (history ++ es.map fun e => .written e.1 e.2) (r.putAll es) := by
  induction es generalizing history r with
  | nil => simpa using h
  | cons e es ih =>
    rw [List.map_cons, List.append_cons, putAll_cons]
    exact ih (h.put e.1 e.2)

theorem edit (h : Shows history r) (e : Edit) : Shows (history ++ e.happenings) (r.edit e) := by
  cases e with
  | put name value => exact h.put name value
  | remove name => exact h.remove name
  | splice other => exact h.putAll other.entries
  | rename name =>
    rw [Edit.happenings, List.append_nil]
    exact ⟨h.distinct, h.found, h.entered, h.ordered, h.absent⟩

theorem edited (h : Shows history r) (edits : List Edit) :
    Shows (history ++ edits.flatMap Edit.happenings) (r.edited edits) := by
  induction edits generalizing history r with
  | nil =>
    rw [List.flatMap_nil, List.append_nil]
    exact h
  | cons e edits ih =>
    rw [List.flatMap_cons, ← List.append_assoc]
    exact ih (h.edit e)

theorem mem_names_iff (h : Shows history r) (name : String) :
    name ∈ r.names ↔ ∃ place, EntersAt history name place := by
  refine ⟨h.entered name, fun ⟨place, enters⟩ => ?_⟩
  by_contra new
  obtain ⟨value, written⟩ := enters.written
  obtain ⟨later, behind, removed⟩ := h.absent name new place value written
  exact enters.kept later behind removed

end Shows

theorem name_putAll (r : Record) (es : List (String × Value)) : (r.putAll es).name = r.name := by
  induction es generalizing r with
  | nil => rfl
  | cons e es ih => rw [putAll_cons, ih]; rfl

theorem name_edit (r : Record) (e : Edit) : (r.edit e).name = e.newName?.getD r.name := by
  cases e with
  | put _ _ | remove _ | rename _ => rfl
  | splice other => exact name_putAll r other.entries

theorem name_edited (r : Record) (edits : List Edit) :
    (r.edited edits).name = (edits.filterMap Edit.newName?).getLastD r.name := by
  induction edits generalizing r with
  | nil => rfl
  | cons e edits ih =>
    rw [edited, List.foldl_cons, ← edited, ih, name_edit, List.filterMap_cons]
    cases e.newName? <;> simp only [Option.getD_none, Option.getD_some, List.getLastD_cons]

theorem isEmpty_iff {r : Record} : r.isEmpty = true ↔ r.names = [] := by
  rw [isEmpty, names, List.isEmpty_iff, List.map_eq_nil_iff]

theorem mem_names_iff_find? {r : Record} {name : String} :
    name ∈ r.names ↔ ∃ value, r.find? name = some value := by
  rw [← Option.ne_none_iff_exists', ne_eq, find?_eq_none_iff, not_not]

theorem splice_eq_edited (r other : Record) :
    r.splice other = r.edited (other.entries.map fun e => .put e.1 e.2) := by
  rw [edited, List.foldl_map]
  rfl

/-- A record is an insertion-ordered map: what it holds, and in which order, is what its history
makes of it, and each operation answers and changes what is there by that order. -/
theorem edited_ordered (name : String) (edits : List Edit) :
    let r := (empty name).edited edits
    let history := edits.flatMap Edit.happenings
    r.names.Nodup ∧
    (∀ n v, r.find? n = some v ↔ LastWritten history n v) ∧
    (∀ n, n ∈ r.names ↔ ∃ place, EntersAt history n place) ∧
    (r.names.Pairwise fun a b => ∀ i j, EntersAt history a i → EntersAt history b j → i < j) ∧
    r.name = (edits.filterMap Edit.newName?).getLastD name ∧
    r.size = r.names.length ∧ (r.isEmpty = true ↔ r.names = []) ∧
    (∀ n, (r.contains n = true ↔ n ∈ r.names) ∧ (n ∈ r.names ↔ ∃ v, r.find? n = some v)) ∧
    (∀ n v, (r.exchange n v).1 = r.find? n ∧
      (r.put n v).names = if n ∈ r.names then r.names else r.names ++ [n]) ∧
    (∀ n v, (r.remove n).1 = r.find? n ∧ (r.remove n).2.names = r.names.erase n ∧
      ((r.remove n).2.put n v).names = r.names.erase n ++ [n]) ∧
    ∀ other : Record, (r.splice other).name = r.name ∧
      r.splice other = r.edited (other.entries.map fun e => .put e.1 e.2) := by
  intro r history
  have shows : Shows history r := (Shows.empty name).edited edits
  refine ⟨shows.distinct, shows.found, shows.mem_names_iff, shows.ordered, name_edited _ edits,
    (List.length_map _).symm, isEmpty_iff, fun n => ⟨contains_iff, mem_names_iff_find?⟩,
    fun n v => ⟨writeEntry_fst n v r.entries, names_put r n v⟩,
    fun n v => ⟨removeEntry_fst n r.entries, names_remove r n, ?_⟩,
    fun other => ⟨name_putAll r other.entries, splice_eq_edited r other⟩⟩
  have gone : n ∉ r.names.erase n := shows.distinct.not_mem_erase
  rw [names_put, names_remove, if_neg gone]

example : ((empty "p").edited [.put "a" .null, .put "b" .null, .put "a" (.bool true), .remove "a",
    .splice ⟨"q", [("b", .null), ("a", .null)]⟩]).names = ["b", "a"] := by decide

end Record

end RecordMapper
