import RecordMapper.Proofs.Record.Entries
import RecordMapper.Proofs.Value.Comparing

/-!
Parts of equal values. Values that the order does not tell apart have parts that it does not tell
apart: items and pairs in their places, and entries under their names.
-/

namespace RecordMapper

open Std

theorem compareLex_eq_iff {α : Type} {cmp : α → α → Ordering} {xs ys : List α} :
    xs.compareLex cmp ys = .eq ↔ xs.Forall₂ (fun x y => cmp x y = .eq) ys := by
  induction xs generalizing ys with
  | nil => cases ys <;> simp [List.compareLex_nil_nil, List.compareLex_nil_cons]
  | cons x xs ih =>
    cases ys with
    | nil => simp [List.compareLex_cons_nil]
    | cons y ys =>
      rw [List.compareLex_cons_cons, Ordering.then_eq_eq, ih, List.forall₂_cons]

theorem exists_of_forall₂ {α β : Type} {R : α → β → Prop} {xs : List α} {ys : List β}
    (related : xs.Forall₂ R ys) {x : α} (mem : x ∈ xs) : ∃ y ∈ ys, R x y := by
  induction related with
  | nil => cases mem
  | @cons a b as bs head _ ih =>
    rcases List.mem_cons.mp mem with rfl | later
    · exact ⟨b, List.mem_cons_self, head⟩
    · obtain ⟨y, hy, related⟩ := ih later
      exact ⟨y, List.mem_cons_of_mem b hy, related⟩

theorem forall₂_imp_of_mem {α β : Type} {R S : α → β → Prop} {xs : List α} {ys : List β}
    (related : xs.Forall₂ R ys) (imp : ∀ x ∈ xs, ∀ y ∈ ys, R x y → S x y) : xs.Forall₂ S ys := by
  induction related with
  | nil => exact .nil
  | cons head _ ih =>
    refine .cons (imp _ List.mem_cons_self _ List.mem_cons_self head) (ih fun x hx y hy => ?_)
    exact imp x (List.mem_cons_of_mem _ hx) y (List.mem_cons_of_mem _ hy)

namespace Value

variable {vs ws : List Value} {ps qs : List (Value × Value)} {n m : String}
  {es fs : List (String × Value)}

theorem cmp_array_iff :
    (array vs).cmp (array ws) = .eq ↔ vs.Forall₂ (fun v w => v.cmp w = .eq) ws := by
  rw [cmp, canonical, canonical, compareCanonical, compareItems_eq, canonicalItems_eq_map,
    canonicalItems_eq_map, compareLex_eq_iff, List.forall₂_map_left_iff,
    List.forall₂_map_right_iff]
  rfl

theorem cmp_map_iff : (map ps).cmp (map qs) = .eq ↔
    ps.Forall₂ (fun p q => p.1.cmp q.1 = .eq ∧ p.2.cmp q.2 = .eq) qs := by
  rw [cmp, canonical, canonical, compareCanonical, comparePairs_eq, canonicalPairs_eq_map,
    canonicalPairs_eq_map, compareLex_eq_iff, List.forall₂_map_left_iff,
    List.forall₂_map_right_iff]
  simp only [comparePair_eq, Ordering.then_eq_eq]
  rfl

theorem eq_null_of_cmp {v : Value} (same : null.cmp v = .eq) : v = .null := by
  cases v with
  | null => rfl
  | _ => cases same

theorem eq_null_of_cmp' {v : Value} (same : v.cmp null = .eq) : v = .null := by
  cases v with
  | null => rfl
  | _ => cases same

/-- The entries in name order are the same one after the other. -/
theorem cmp_record_iff : (record n es).cmp (record m fs) = .eq ↔
    n = m ∧ (sortByName (canonicalEntries es)).Forall₂
      (fun e f => e.1 = f.1 ∧ compareCanonical e.2 f.2 = .eq)
      (sortByName (canonicalEntries fs)) := by
  rw [cmp, canonical, canonical, compareCanonical, Ordering.then_eq_eq, compareEntries_eq,
    compareLex_eq_iff]
  simp only [compareEntry_eq, Ordering.then_eq_eq, LawfulEqOrd.compare_eq_iff_eq]

theorem mem_sortByName_canonicalEntries {e : String × Value} :
    e ∈ sortByName (canonicalEntries es) ↔ ∃ v, (e.1, v) ∈ es ∧ v.canonical = e.2 := by
  rw [mem_sortByName, canonicalEntries_eq_map, List.mem_map]
  constructor
  · rintro ⟨⟨name, v⟩, mem, rfl⟩
    exact ⟨v, mem, rfl⟩
  · rintro ⟨v, mem, same⟩
    exact ⟨_, mem, Prod.ext rfl same⟩

theorem exists_entry_of_cmp (same : (record n es).cmp (record m fs) = .eq) {name : String}
    {v : Value} (mem : (name, v) ∈ es) : ∃ w, (name, w) ∈ fs ∧ v.cmp w = .eq := by
  have held : (name, v.canonical) ∈ sortByName (canonicalEntries es) :=
    mem_sortByName_canonicalEntries.mpr ⟨v, mem, rfl⟩
  obtain ⟨⟨_, w'⟩, hf, rfl, values⟩ := exists_of_forall₂ (cmp_record_iff.mp same).2 held
  obtain ⟨w, mem, rfl⟩ := mem_sortByName_canonicalEntries.mp hf
  exact ⟨w, mem, values⟩

theorem exists_entry_of_cmp' (same : (record n es).cmp (record m fs) = .eq) {name : String}
    {w : Value} (mem : (name, w) ∈ fs) : ∃ v, (name, v) ∈ es ∧ v.cmp w = .eq := by
  have held : (name, w.canonical) ∈ sortByName (canonicalEntries fs) :=
    mem_sortByName_canonicalEntries.mpr ⟨w, mem, rfl⟩
  obtain ⟨⟨_, v'⟩, he, rfl, values⟩ := exists_of_forall₂ (cmp_record_iff.mp same).2.flip held
  obtain ⟨v, mem, rfl⟩ := mem_sortByName_canonicalEntries.mp he
  exact ⟨v, mem, values⟩

/-- Equal records have equal values under every name, where no name repeats. -/
theorem cmp_lookup (same : (record n es).cmp (record m fs) = .eq) (left : (es.map (·.1)).Nodup)
    (right : (fs.map (·.1)).Nodup) (name : String) :
    ((lookup name es).getD null).cmp ((lookup name fs).getD null) = .eq := by
  cases found : lookup name es with
  | some v =>
    obtain ⟨w, mem, alike⟩ := exists_entry_of_cmp same (mem_of_lookup found)
    rwa [lookup_of_mem right mem]
  | none =>
    cases found' : lookup name fs with
    | none => rfl
    | some w =>
      obtain ⟨v, mem, -⟩ := exists_entry_of_cmp' same (mem_of_lookup found')
      rw [lookup_of_mem left mem] at found
      cases found

end Value

end RecordMapper
