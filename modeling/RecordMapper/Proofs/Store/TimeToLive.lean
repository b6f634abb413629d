import RecordMapper.Proofs.Store.Request

/-!
Records with a time to live. Storing one files it where an insert would, or is refused and leaves no
trace. Between the times to live that are refused and those that end within the calendar lie others,
at which storing breaks off.
-/

namespace RecordMapper

namespace Table

/-- Where a record is stored: in the place of the first one that has its key, or behind all others
when none has it. -/
inductive Files (column : String) (new : StoredRecord) : Table → Table → Prop
  | replaced {front back : Table} {old : StoredRecord}
      (before : ∀ s ∈ front, s.record.Apart column new.record)
      (same : ¬ old.record.Apart column new.record) :
      Files column new (front ++ old :: back) (front ++ new :: back)
  | added {t : Table} (apart : ∀ s ∈ t, s.record.Apart column new.record) :
      Files column new t (t ++ [new])

theorem files_upsert (column : String) (new : StoredRecord) (t : Table) :
    Files column new t (t.upsert column new) := by
  rcases upsert_cases column new t with
    ⟨apart, added⟩ | ⟨key, front, old, back, own, split, same, before, replaced⟩
  · rw [added]
    exact .added apart
  · rw [replaced, split]
    refine .replaced before fun apart => ?_
    rw [(Record.apart_iff_of_find? own).mp apart] at same
    cases same

end Table

namespace MemoryStore

/-- The record is filed among the unexpired ones of its name, and nothing else changes. -/
structure Stores (now : Instant) (new : StoredRecord) (s after : MemoryStore) : Prop where
  keyColumn : after.keyColumn = s.keyColumn
  filed : Table.Files (s.keyColumn new.record.name) new ((s.table new.record.name).live now)
    (after.table new.record.name)
  others : ∀ name, name ≠ new.record.name → after.table name = s.table name

theorem stores_put (now : Instant) (r : Record) (expiresAt : Option Instant) (s : MemoryStore) :
    Stores now ⟨r, expiresAt⟩ s (s.put now r expiresAt) := by
  refine ⟨rfl, ?_, fun name other => ?_⟩
  · rw [put, table_setTable]
    exact Table.files_upsert _ _ _
  · rw [put, table_setTable_of_ne s _ other]

/-- Storing a record with a time to live answers with the record and leaves it with an expiry that
is not before the start, or fails as a store error that no later answer of the store shows. -/
def Survives (start now : Instant) (r : Record) (nanos : Nat) (s : MemoryStore) : Prop :=
  let (answer, after) := insertFor start now r nanos s
  (∃ expiry : Instant, answer = .ok r ∧ start.nanos ≤ expiry.nanos ∧
    Stores now ⟨r, some expiry⟩ s after) ∨
  ∃ failure, answer = .error failure ∧ failure.kind = .store ∧
    ∀ requests, (Service.run serve requests after).1 = (Service.run serve requests s).1

theorem not_survives_of_broken {start now : Instant} {r : Record} {nanos : Nat} {s : MemoryStore}
    {failure : Failure}
    (broken : (insertFor start now r nanos s).1 = .error failure) (kind : failure.kind = .abort) :
    ¬ Survives start now r nanos s := by
  rintro (⟨_, answer, -⟩ | ⟨refusal, answer, refused, -⟩)
  · cases broken.symm.trans answer
  · cases broken.symm.trans answer
    cases kind.symm.trans refused

/-- Storing with a time to live survives when the time is refused or ends within the calendar, and
then files the record where an insert does. At every other time to live it breaks off. -/
theorem insertFor_survives_iff (start now : Instant) (r : Record) (nanos : Nat) (s : MemoryStore) :
    (Survives start now r nanos s ↔
      greatestTimeToLive < nanos ∨ start.nanos + nanos ≤ Instant.last.nanos) ∧
    Stores now ⟨r, none⟩ s (insert now r s).2 ∧
    ((∃ failure, (insertFor start now r nanos s).1 = .error failure ∧ failure.kind = .abort) ↔
      nanos ≤ greatestTimeToLive ∧ Instant.last.nanos < start.nanos + nanos) := by
  have inserted : Stores now ⟨r, none⟩ s (insert now r s).2 := stores_put now r none s
  have unbroken : Survives start now r nanos s → ¬ ∃ failure,
      (insertFor start now r nanos s).1 = .error failure ∧ failure.kind = .abort := by
    rintro survives ⟨failure, broken, kind⟩
    exact not_survives_of_broken broken kind survives
  rcases insertFor_cases start now r nanos s with
    ⟨refused, left⟩ | ⟨accepted, within, left⟩ | ⟨accepted, beyond, left⟩
  · have survives : Survives start now r nanos s := by
      rw [Survives, left]
      exact .inr ⟨_, rfl, rfl, fun _ => rfl⟩
    exact ⟨iff_of_true survives (.inl refused), inserted,
      iff_of_false (unbroken survives) (by omega)⟩
  · have later : start.nanos ≤ start.nanos + nanos := by omega
    have survives : Survives start now r nanos s := by
      rw [Survives, left]
      exact .inl ⟨_, rfl, later, stores_put now r _ s⟩
    exact ⟨iff_of_true survives (.inr within), inserted,
      iff_of_false (unbroken survives) (by omega)⟩
  · have broken : (insertFor start now r nanos s).1 = .error .clockOverflow := by rw [left]
    exact ⟨iff_of_false (not_survives_of_broken broken rfl) (by omega), inserted,
      iff_of_true ⟨_, broken, rfl⟩ ⟨accepted, beyond⟩⟩

/-- A lease for the greatest number of whole seconds that is not refused, some 292 million years,
takes the clock past its end. -/
theorem not_survives_longLease :
    let lease : Record := ⟨"Lease", [("_id", .int (.zero .i32))]⟩
    let nanos := 9223372036854775 * 1000000000
    nanos ≤ greatestTimeToLive ∧ ¬ Survives ⟨0⟩ ⟨0⟩ lease nanos { database := .document } ∧
      (insertFor ⟨0⟩ ⟨0⟩ lease nanos { database := .document }).1 = .error .clockOverflow := by
  intro lease nanos
  have accepted : nanos ≤ greatestTimeToLive := by decide
  have beyond : ¬ (0 : Int) + nanos ≤ Instant.last.nanos := by decide
  have broken : (insertFor ⟨0⟩ ⟨0⟩ lease nanos { database := .document }).1 = .error .clockOverflow := by
    rcases insertFor_cases ⟨0⟩ ⟨0⟩ lease nanos { database := .document } with
      ⟨refused, -⟩ | ⟨-, within, -⟩ | ⟨-, -, left⟩
    · omega
    · exact absurd within beyond
    · rw [left]
  exact ⟨accepted, not_survives_of_broken broken rfl, broken⟩

end MemoryStore

end RecordMapper
