import Mathlib.Order.Compare
import RecordMapper.Value.Order

/-!
Comparing lexicographically. What holds of the comparisons of the elements of some lists holds of
the lists, and the comparisons of pairs and of records are put together in the same way.
-/

namespace RecordMapper

open Std

/-- Comparisons of a first value with a second, of the second with a third and of the first with the
third that fit together as in an order. -/
def Fits (ab bc ac : Ordering) : Prop :=
  (ab = .eq → ac = bc) ∧ (bc = .eq → ac = ab) ∧ (ab = bc → ac = ab)

theorem fits_compare {α : Type} [Ord α] [TransOrd α] (a b c : α) :
    Fits (compare a b) (compare b c) (compare a c) := by
  refine ⟨TransCmp.congr_left, fun h => (TransCmp.congr_right h).symm, fun same => ?_⟩
  cases first : compare a b with
  | lt => exact TransCmp.lt_trans first (same ▸ first)
  | eq => exact TransCmp.eq_trans first (same ▸ first)
  | gt => exact TransCmp.gt_trans first (same ▸ first)

theorem Fits.not_gt {ab bc ac : Ordering} (h : Fits ab bc ac) (hab : ab ≠ .gt) (hbc : bc ≠ .gt) :
    ac ≠ .gt := by
  obtain ⟨left, right, both⟩ := h
  cases ab with
  | eq => rwa [left rfl]
  | gt => exact absurd rfl hab
  | lt =>
    cases bc with
    | lt => rw [both rfl]; exact hab
    | eq => rwa [right rfl]
    | gt => exact absurd rfl hbc

/-- A second comparison counts only where the first does not decide. -/
theorem Fits.then {ab bc ac ab' bc' ac' : Ordering} (first : Fits ab bc ac)
    (next : ab = .eq → bc = .eq → Fits ab' bc' ac') :
    Fits (ab.then ab') (bc.then bc') (ac.then ac') := by
  cases ab <;> cases bc <;> cases bc' <;> simp_all [Fits]

section Lists

variable {α : Type} {cmp : α → α → Ordering} {xs ys zs : List α}

theorem fits_compareLex
    (each : ∀ x ∈ xs, ∀ y ∈ ys, ∀ z ∈ zs, Fits (cmp x y) (cmp y z) (cmp x z)) :
    Fits (xs.compareLex cmp ys) (ys.compareLex cmp zs) (xs.compareLex cmp zs) := by
  induction xs generalizing ys zs with
  | nil =>
    cases ys with
    | nil => exact ⟨fun _ => rfl, fun h => h, fun h => h.symm⟩
    | cons y ys => cases zs <;> simp [Fits, List.compareLex_nil_cons, List.compareLex_nil_nil,
        List.compareLex_cons_nil]
  | cons x xs ih =>
    cases ys with
    | nil => cases zs <;> simp [Fits, List.compareLex_nil_cons, List.compareLex_cons_nil]
    | cons y ys =>
      cases zs with
      | nil => exact ⟨fun _ => rfl, nofun, fun h => h.symm⟩
      | cons z zs =>
        have heads := each x List.mem_cons_self y List.mem_cons_self z List.mem_cons_self
        have tails := ih fun x hx y hy z hz => each x (List.mem_cons_of_mem _ hx)
          y (List.mem_cons_of_mem _ hy) z (List.mem_cons_of_mem _ hz)
        simp only [List.compareLex_cons_cons]
        exact heads.then fun _ _ => tails

theorem swap_compareLex (each : ∀ x ∈ xs, ∀ y ∈ ys, (cmp x y).swap = cmp y x) :
    (xs.compareLex cmp ys).swap = ys.compareLex cmp xs := by
  induction xs generalizing ys with
  | nil => cases ys <;> rfl
  | cons x xs ih =>
    cases ys with
    | nil => rfl
    | cons y ys =>
      have head := each x List.mem_cons_self y List.mem_cons_self
      have tail := ih fun x hx y hy => each x (List.mem_cons_of_mem _ hx) y
        (List.mem_cons_of_mem _ hy)
      rw [List.compareLex_cons_cons, List.compareLex_cons_cons, Ordering.swap_then, head, tail]

theorem compareLex_congr
    (each : ∀ x ∈ xs, ∀ y ∈ ys, cmp x y = .eq → ∀ z, cmp x z = cmp y z)
    (same : xs.compareLex cmp ys = .eq) (zs : List α) :
    xs.compareLex cmp zs = ys.compareLex cmp zs := by
  induction xs generalizing ys zs with
  | nil =>
    cases ys with
    | nil => rfl
    | cons y ys => cases same
  | cons x xs ih =>
    cases ys with
    | nil => cases same
    | cons y ys =>
      rw [List.compareLex_cons_cons, Ordering.then_eq_eq] at same
      cases zs with
      | nil => rfl
      | cons z zs =>
        have head := each x List.mem_cons_self y List.mem_cons_self same.1 z
        have tail := ih (fun x hx y hy => each x (List.mem_cons_of_mem _ hx) y
          (List.mem_cons_of_mem _ hy)) same.2 zs
        rw [List.compareLex_cons_cons, List.compareLex_cons_cons, head, tail]

end Lists

namespace Value

theorem compareItems_eq (vs ws : List Value) :
    compareItems vs ws = vs.compareLex compareCanonical ws := by
  induction vs generalizing ws with
  | nil => cases ws <;> rfl
  | cons v vs ih =>
    cases ws with
    | nil => rfl
    | cons w ws => rw [compareItems, ih, List.compareLex_cons_cons]

theorem compareEntries_eq (es fs : List (String × Value)) :
    compareEntries es fs = es.compareLex compareEntry fs := by
  induction es generalizing fs with
  | nil => cases fs <;> rfl
  | cons e es ih =>
    cases fs with
    | nil => rfl
    | cons f fs => rw [compareEntries, ih, List.compareLex_cons_cons]

theorem comparePairs_eq (ps qs : List (Value × Value)) :
    comparePairs ps qs = ps.compareLex comparePair qs := by
  induction ps generalizing qs with
  | nil => cases qs <;> rfl
  | cons p ps ih =>
    cases qs with
    | nil => rfl
    | cons q qs => rw [comparePairs, ih, List.compareLex_cons_cons]

theorem compareEntry_eq (e f : String × Value) :
    compareEntry e f = (compare e.1 f.1).then (compareCanonical e.2 f.2) := by
  cases e
  rfl

theorem comparePair_eq (p q : Value × Value) :
    comparePair p q = (compareCanonical p.1 q.1).then (compareCanonical p.2 q.2) := by
  cases p
  rfl

theorem compareCanonical_of_rank_ne {a b : Value} (apart : a.rank ≠ b.rank) :
    compareCanonical a b = compare a.rank b.rank := by
  cases a <;> cases b <;> first | rfl | exact absurd rfl apart

/-- The kind is compared first, and what the kind decides is decided. -/
theorem compare_rank_then (a b : Value) :
    (compare a.rank b.rank).then (compareCanonical a b) = compareCanonical a b := by
  by_cases same : a.rank = b.rank
  · simp [same]
  · rw [compareCanonical_of_rank_ne same]
    cases compare a.rank b.rank <;> rfl

theorem fits_of_rank {a b c : Value} (same : a.rank = b.rank → b.rank = c.rank →
    Fits (compareCanonical a b) (compareCanonical b c) (compareCanonical a c)) :
    Fits (compareCanonical a b) (compareCanonical b c) (compareCanonical a c) := by
  have ranks := fits_compare a.rank b.rank c.rank
  rw [← compare_rank_then a b, ← compare_rank_then b c, ← compare_rank_then a c]
  exact ranks.then fun ab bc => same (LawfulEqOrd.eq_of_compare ab) (LawfulEqOrd.eq_of_compare bc)

theorem isNull_iff {v : Value} : v.isNull = true ↔ v = .null := by
  cases v <;> simp [isNull]

theorem beq_iff {a b : Value} : (a == b) = true ↔ a.cmp b = .eq := by
  change (a.cmp b == .eq) = true ↔ _
  exact beq_iff_eq

end Value

theorem mem_insertByName {α : Type} {e x : String × α} {es : List (String × α)} :
    x ∈ insertByName e es ↔ x = e ∨ x ∈ es := by
  induction es with
  | nil => simp [insertByName]
  | cons f es ih =>
    rw [insertByName]
    split
    · simp only [List.mem_cons, ih]
      exact or_left_comm
    · exact List.mem_cons

theorem mem_sortByName {α : Type} {x : String × α} {es : List (String × α)} :
    x ∈ sortByName es ↔ x ∈ es := by
  induction es with
  | nil => rfl
  | cons e es ih =>
    rw [sortByName, List.foldr_cons, mem_insertByName, ← sortByName, ih, List.mem_cons]

namespace Value

theorem canonicalEntries_eq_map (es : List (String × Value)) :
    canonicalEntries es = es.map fun e => (e.1, e.2.canonical) := by
  induction es with
  | nil => rfl
  | cons e es ih =>
    cases e
    rw [canonicalEntries, ih]
    rfl

theorem canonicalItems_eq_map (vs : List Value) : canonicalItems vs = vs.map canonical := by
  induction vs with
  | nil => rfl
  | cons v vs ih => rw [canonicalItems, ih, List.map_cons]

theorem canonicalPairs_eq_map (ps : List (Value × Value)) :
    canonicalPairs ps = ps.map fun p => (p.1.canonical, p.2.canonical) := by
  induction ps with
  | nil => rfl
  | cons p ps ih =>
    cases p
    rw [canonicalPairs, ih]
    rfl

end Value

end RecordMapper
