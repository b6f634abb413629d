import RecordMapper.Proofs.Record.Entries
import RecordMapper.Store.Memory

/-!
The memory store as a list. Records that do not expire and whose keys tell them apart are stored in
the order in which they come, and a select without sort clauses filters them in that order.
-/

namespace RecordMapper

/-- The key of the record under the column is the given one. -/
def Record.hasKey (column : String) (k : Value) (r : Record) : Bool :=
  (r.find? column).any (· == k)

/-- No key under the column is that of both records; the first is the one stored. -/
def Record.Apart (column : String) (stored new : Record) : Prop :=
  ∀ v key, stored.find? column = some v → new.find? column = some key → (v == key) = false

theorem Record.apart_iff_of_find? {column : String} {stored new : Record} {key : Value}
    (own : new.find? column = some key) :
    stored.Apart column new ↔ stored.hasKey column key = false := by
  unfold Record.Apart Record.hasKey
  cases stored.find? column <;> simp [own]

namespace Table

def lasting (rs : List Record) : Table := rs.map fun r => ⟨r, none⟩

theorem live_lasting (now : Instant) (rs : List Record) : (lasting rs).live now = lasting rs := by
  refine List.filter_eq_self.mpr fun s hs => ?_
  obtain ⟨r, -, rfl⟩ := List.mem_map.mp hs
  rfl

theorem lasting_append (rs : List Record) (r : Record) :
    lasting (rs ++ [r]) = lasting rs ++ [⟨r, none⟩] := List.map_append

theorem hasKey_eq (column : String) (key : Value) (s : StoredRecord) :
    hasKey column key s = s.record.hasKey column key := by
  unfold hasKey Record.hasKey
  cases s.record.find? column <;> rfl

/-- A change meets the first record with the key, or there is none. -/
theorem changeFirst_cases (column : String) (key : Value) (change : StoredRecord → StoredRecord)
    (t : Table) :
    (t.changeFirst column key change = none ∧ ∀ s ∈ t, s.record.hasKey column key = false) ∨
      ∃ front old back, t = front ++ old :: back ∧ old.record.hasKey column key = true ∧
        (∀ s ∈ front, s.record.hasKey column key = false) ∧
        t.changeFirst column key change = some (front ++ change old :: back) := by
  induction t with
  | nil => exact .inl ⟨rfl, by simp⟩
  | cons s t ih =>
    rw [changeFirst, hasKey_eq]
    cases own : s.record.hasKey column key with
    | true => exact .inr ⟨[], s, t, rfl, own, by simp, rfl⟩
    | false =>
      rcases ih with ⟨none_of, absent⟩ | ⟨front, old, back, rfl, same, first, changed⟩
      · exact .inl ⟨by simp [none_of], by simpa [own] using absent⟩
      · exact .inr ⟨s :: front, old, back, rfl, same, by simpa [own] using first, by simp [changed]⟩

theorem changeFirst_lasting_cases (column : String) (key : Value) (rs : List Record) (r : Record)
    (change : StoredRecord → StoredRecord) (changes : ∀ x, change ⟨x, none⟩ = ⟨r, none⟩) :
    ((lasting rs).changeFirst column key change = none ∧
        rs.filter (Record.hasKey column key) = []) ∨
      ∃ front old back, rs = front ++ old :: back ∧ old.hasKey column key = true ∧
        (lasting rs).changeFirst column key change = some (lasting (front ++ r :: back)) := by
  rcases changeFirst_cases column key change (lasting rs) with
    ⟨none_of, absent⟩ | ⟨front, old, back, split, same, -, changed⟩
  · refine .inl ⟨none_of, List.filter_eq_nil_iff.mpr fun x hx => ?_⟩
    simp [absent ⟨x, none⟩ (List.mem_map_of_mem hx)]
  · obtain ⟨before, rest, rfl, rfl, tail⟩ := List.map_eq_append_iff.mp split
    obtain ⟨x, behind, rfl, rfl, rfl⟩ := List.map_eq_cons_iff.mp tail
    refine .inr ⟨before, x, behind, rfl, same, ?_⟩
    rw [changed, changes]
    simp [lasting]

/-- Storing a record puts it in the place of the first one with its key, or at the end when there is
none. -/
theorem upsert_cases (column : String) (new : StoredRecord) (t : Table) :
    ((∀ s ∈ t, s.record.Apart column new.record) ∧ t.upsert column new = t ++ [new]) ∨
      ∃ key front old back, new.record.find? column = some key ∧ t = front ++ old :: back ∧
        old.record.hasKey column key = true ∧ (∀ s ∈ front, s.record.Apart column new.record) ∧
        t.upsert column new = front ++ new :: back := by
  unfold upsert
  cases own : new.record.find? column with
  | none => exact .inl ⟨fun s _ v key _ found => by simp [own] at found, rfl⟩
  | some key =>
    simp only
    rcases changeFirst_cases column key (fun _ => new) t with
      ⟨none_of, absent⟩ | ⟨front, old, back, rfl, same, first, changed⟩
    · refine .inl ⟨fun s hs => (Record.apart_iff_of_find? own).mpr (absent s hs), ?_⟩
      rw [none_of]
      rfl
    · have before : ∀ s ∈ front, s.record.Apart column new.record := fun s hs =>
        (Record.apart_iff_of_find? own).mpr (first s hs)
      exact .inr ⟨key, front, old, back, rfl, rfl, same, before, by rw [changed]; rfl⟩

theorem upsert_lasting {column : String} {rs : List Record} {r : Record}
    (apart : ∀ stored ∈ rs, stored.Apart column r) :
    (lasting rs).upsert column ⟨r, none⟩ = lasting (rs ++ [r]) := by
  rcases upsert_cases column ⟨r, none⟩ (lasting rs) with
    ⟨-, added⟩ | ⟨key, front, old, back, own, split, same, -, -⟩
  · rw [added, lasting_append]
  · have mem : old ∈ lasting rs := by simp [split]
    obtain ⟨x, hx, rfl⟩ := List.mem_map.mp mem
    rw [(Record.apart_iff_of_find? own).mp (apart x hx)] at same
    cases same

end Table

namespace MemoryStore

theorem table_setTable (s : MemoryStore) (name : String) (t : Table) :
    (s.setTable name t).table name = t := by
  simp [table, setTable, lookup_writeEntry_self]

theorem table_setTable_of_ne (s : MemoryStore) {name other : String} (t : Table)
    (ne : other ≠ name) : (s.setTable name t).table other = s.table other := by
  simp [table, setTable, lookup_writeEntry_of_ne t s.tables ne]

/-- The records of a name do not expire and come in this order, and their key stands under the
column. -/
structure Keeps (name column : String) (rs : List Record) (s : MemoryStore) : Prop where
  key : s.keyColumn name = column
  table : s.table name = Table.lasting rs

variable {name column : String} {rs : List Record} {s : MemoryStore}

theorem Keeps.put {r : Record} (h : s.Keeps name column rs) (named : r.name = name)
    (apart : ∀ stored ∈ rs, stored.Apart column r) (now : Instant) :
    (s.put now r none).Keeps name column (rs ++ [r]) := by
  refine ⟨h.key, ?_⟩
  rw [MemoryStore.put, named, table_setTable, h.table, h.key, Table.live_lasting]
  exact Table.upsert_lasting apart

theorem Keeps.putAll {new : List Record} (h : s.Keeps name column rs)
    (named : ∀ r ∈ new, r.name = name) (apart : (rs ++ new).Pairwise (Record.Apart column))
    (clock : Clock) : (MemoryStore.putAll clock new s).Keeps name column (rs ++ new) := by
  induction new generalizing rs s clock with
  | nil => simpa [MemoryStore.putAll] using h
  | cons r new ih =>
    rw [List.append_cons] at apart ⊢
    have here := (List.pairwise_append.mp apart).1
    have new_first : ∀ stored ∈ rs, stored.Apart column r := by
      intro stored mem
      exact (List.pairwise_append.mp here).2.2 stored mem r List.mem_cons_self
    have first := h.put (named r List.mem_cons_self) new_first (clock 0)
    exact ih first (fun r hr => named r (List.mem_cons_of_mem _ hr)) apart _

theorem Keeps.counted (h : s.Keeps name column rs) :
    ({ s with bulkInserts := s.bulkInserts + 1 } : MemoryStore).Keeps name column rs :=
  ⟨h.key, h.table⟩

theorem Keeps.insertAll {new : List Record} (h : s.Keeps name column rs)
    (named : ∀ r ∈ new, r.name = name) (apart : (rs ++ new).Pairwise (Record.Apart column))
    (clock : Clock) : (MemoryStore.insertAll clock new s).2.Keeps name column (rs ++ new) :=
  h.counted.putAll named apart clock

/-- Without sort clauses the found records stay in their order. -/
theorem mergeSort_unsorted (sep : String) (found : List Record) :
    found.mergeSort (fun a b => compareBy sep a b [] != .gt) = found :=
  List.mergeSort_of_pairwise (List.pairwise_of_forall fun _ _ => rfl)

/-- A query without sort clauses and limit finds the records it admits, in table order. -/
theorem Keeps.select (h : s.Keeps name column rs) (now : Instant) (sep : String)
    (condition : Option Condition) :
    s.select now sep { name, condition } = rs.filter (admits sep condition) := by
  have records : ((s.table name).live now).map (·.record) = rs := by
    rw [h.table, Table.live_lasting, Table.lasting, List.map_map]
    exact List.map_id rs
  simp only [MemoryStore.select, records, mergeSort_unsorted]

end MemoryStore

end RecordMapper
