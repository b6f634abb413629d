import RecordMapper.Proofs.Store.Memory
import RecordMapper.Proofs.Value.Order

/-!
Records by key. Among records whose keys are without floating-point numbers, at most one has a given
key. Storing a record puts it alone under its key and leaves what stands under every other key, an
update does so where there is a record to replace, and deleting a key leaves nothing under it.
-/

namespace RecordMapper

namespace Record

/-- Every record has a key, without floating-point numbers, and no two have the same. -/
structure Keyed (column : String) (rs : List Record) : Prop where
  key : ∀ r ∈ rs, ∃ v, r.find? column = some v ∧ v.FloatFree
  single : ∀ k : Value, k.FloatFree → (rs.filter (hasKey column k)).length ≤ 1

/-- The record alone stands under its key, and under all other keys stands what stood there. -/
structure Overwrites (column : String) (r : Record) (before after : List Record) : Prop where
  mem : ∀ x ∈ after, x = r ∨ x ∈ before
  under : ∀ k : Value, k.FloatFree →
    after.filter (hasKey column k) =
      if r.hasKey column k then [r] else before.filter (hasKey column k)

variable {column : String} {r old : Record} {v k : Value} {rs front back : List Record}

theorem hasKey_of_find? (own : r.find? column = some v) (k : Value) :
    r.hasKey column k = (v == k) := by
  simp [hasKey, own]

theorem hasKey_eq_of_hasKey (key : ∃ w, old.find? column = some w ∧ w.FloatFree)
    (own : r.find? column = some v) (free : v.FloatFree) (same : old.hasKey column v = true)
    (k : Value) : old.hasKey column k = r.hasKey column k := by
  obtain ⟨w, theirs, wfree⟩ := key
  rw [hasKey_of_find? theirs] at same
  rw [hasKey_of_find? theirs, hasKey_of_find? own, wfree.beq_congr free same]

/-- Equal keys are had by the same records. -/
theorem hasKey_congr (key : ∃ w, old.find? column = some w ∧ w.FloatFree) (free : v.FloatFree)
    (kfree : k.FloatFree) (same : (v == k) = true) :
    old.hasKey column k = old.hasKey column v := by
  obtain ⟨w, theirs, wfree⟩ := key
  rw [hasKey_of_find? theirs, hasKey_of_find? theirs, wfree.beq_comm kfree, wfree.beq_comm free,
    free.beq_congr kfree same]

theorem Overwrites.of_replaced (keyed : Keyed column (front ++ old :: back))
    (own : r.find? column = some v) (free : v.FloatFree) (same : old.hasKey column v = true) :
    Overwrites column r (front ++ old :: back) (front ++ r :: back) := by
  refine ⟨fun x hx => ?_, fun k kfree => ?_⟩
  · simp only [List.mem_append, List.mem_cons] at hx ⊢
    tauto
  · have alike := hasKey_eq_of_hasKey (keyed.key old (by simp)) own free same k
    have one := keyed.single k kfree
    simp only [List.filter_append, List.filter_cons, alike] at one ⊢
    cases held : r.hasKey column k with
    | false => simp
    | true =>
      -- The replaced record was the only one with the key.
      simp only [held, if_true, List.length_append, List.length_cons] at one ⊢
      have before : front.filter (hasKey column k) = [] := List.length_eq_zero_iff.mp (by omega)
      have behind : back.filter (hasKey column k) = [] := List.length_eq_zero_iff.mp (by omega)
      rw [before, behind]
      rfl

theorem Overwrites.of_added (keyed : Keyed column rs) (own : r.find? column = some v)
    (free : v.FloatFree) (new : rs.filter (hasKey column v) = []) :
    Overwrites column r rs (rs ++ [r]) := by
  refine ⟨fun x hx => ?_, fun k kfree => ?_⟩
  · simpa [or_comm] using hx
  · rw [List.filter_append, List.filter_singleton, hasKey_of_find? own]
    cases same : v == k with
    | false => simp
    | true =>
      have none_of : rs.filter (hasKey column k) = [] := by
        rw [← new]
        exact List.filter_congr fun x hx => hasKey_congr (keyed.key x hx) free kfree same
      simp [none_of]

theorem filter_hasKey_without (keyed : Keyed column rs) (id : Value) (free : k.FloatFree) :
    (rs.filter fun r => !r.hasKey column id).filter (hasKey column k) =
      if k == id then [] else rs.filter (hasKey column k) := by
  -- A record with the key is equal to the other one where the key is.
  have alike : ∀ r ∈ rs, r.hasKey column k = true → r.hasKey column id = (k == id) := by
    intro r hr own
    obtain ⟨v, found, vfree⟩ := keyed.key r hr
    rw [hasKey_of_find? found] at own ⊢
    exact vfree.beq_congr free own id
  rw [List.filter_filter]
  cases same : k == id with
  | true =>
    refine List.filter_eq_nil_iff.mpr fun r hr => ?_
    cases own : r.hasKey column k with
    | false => simp
    | true => simp [alike r hr own, same]
  | false =>
    refine List.filter_congr fun r hr => ?_
    cases own : r.hasKey column k with
    | false => rfl
    | true => simp [alike r hr own, same]

theorem admits_equals (own : r.find? column = some v) (sep : String) (k : Value) :
    admits sep (some (.equals column k)) r = r.hasKey column k := by
  simp [admits, Condition.equals, Condition.test, Criterion.test, findPath?_of_find? own,
    Criterion.testValue_equals, hasKey_of_find? own]

end Record

namespace MemoryStore

variable {name column : String} {rs : List Record} {s : MemoryStore} {r : Record} {v : Value}

theorem Keeps.put_overwrites (h : s.Keeps name column rs) (keyed : Record.Keyed column rs)
    (named : r.name = name) (own : r.find? column = some v) (free : v.FloatFree) (now : Instant) :
    ∃ after, (s.put now r none).Keeps name column after ∧ r.Overwrites column rs after := by
  have table : ∃ after, (Table.lasting rs).upsert column ⟨r, none⟩ = Table.lasting after ∧
      r.Overwrites column rs after := by
    simp only [Table.upsert, own]
    rcases Table.changeFirst_lasting_cases column v rs r (fun _ => ⟨r, none⟩) (fun _ => rfl) with
      ⟨none_of, absent⟩ | ⟨front, old, back, rfl, same, changed⟩
    · exact ⟨rs ++ [r], by simp [none_of, Table.lasting_append], .of_added keyed own free absent⟩
    · exact ⟨_, by simp [changed], .of_replaced keyed own free same⟩
  obtain ⟨after, upserted, overwrites⟩ := table
  refine ⟨after, ⟨h.key, ?_⟩, overwrites⟩
  rw [MemoryStore.put, named, table_setTable, h.table, h.key, Table.live_lasting, upserted]

/-- An update finds the record with the key and overwrites it, or finds none and leaves all as it
is. -/
theorem Keeps.update_cases (h : s.Keeps name column rs) (keyed : Record.Keyed column rs)
    (named : r.name = name) (own : r.find? column = some v) (free : v.FloatFree) (now : Instant) :
    (rs.filter (Record.hasKey column v) = [] ∧ (s.update now r).2.Keeps name column rs ∧
        (s.update now r).1 = .error (.noSuchRecord name column v)) ∨
      (rs.filter (Record.hasKey column v) ≠ [] ∧ (s.update now r).1 = .ok r ∧
        ∃ after, (s.update now r).2.Keeps name column after ∧ r.Overwrites column rs after) := by
  have column_eq : s.keyColumn r.name = column := by rw [named, h.key]
  have live : (s.table r.name).live now = Table.lasting rs := by
    rw [named, h.table, Table.live_lasting]
  simp only [update, column_eq, own, live]
  rcases Table.changeFirst_lasting_cases column v rs r
    (fun stored => { stored with record := r }) (fun _ => rfl) with
    ⟨none_of, absent⟩ | ⟨front, old, back, rfl, same, changed⟩
  · rw [none_of]
    exact .inl ⟨absent, ⟨h.key, by rw [named, table_setTable]⟩, by rw [named]⟩
  · rw [changed]
    refine .inr ⟨?_, rfl, _, ⟨h.key, by rw [named, table_setTable]⟩,
      .of_replaced keyed own free same⟩
    simp [same]

theorem Keeps.delete_equals (h : s.Keeps name column rs) (keyed : Record.Keyed column rs)
    (now : Instant) (sep : String) (id : Value) :
    (s.delete now sep { name, condition := some (.equals column id) }).2.Keeps name column
      (rs.filter fun r => !r.hasKey column id) := by
  refine ⟨h.key, ?_⟩
  have decided : ∀ r ∈ rs, (!admits sep (some (.equals column id)) r) = !r.hasKey column id := by
    intro r hr
    obtain ⟨v, own, -⟩ := keyed.key r hr
    rw [Record.admits_equals own]
  rw [delete, table_setTable, h.table, Table.live_lasting, Table.lasting, List.filter_map,
    ← List.filter_congr decided]
  rfl

theorem Keeps.select_equals (h : s.Keeps name column rs) (keyed : Record.Keyed column rs)
    (now : Instant) (sep : String) (k : Value) :
    s.select now sep { name, condition := some (.equals column k) } =
      rs.filter (Record.hasKey column k) := by
  rw [h.select]
  refine List.filter_congr fun r hr => ?_
  obtain ⟨v, own, -⟩ := keyed.key r hr
  exact Record.admits_equals own sep k

end MemoryStore

end RecordMapper
