import Mathlib.Data.List.Forall2

/-! When a chain of steps that may fail succeeds. -/

namespace RecordMapper

variable {ε α β : Type}

theorem bind_eq_ok_iff {x : Except ε α} {f : α → Except ε β} {b : β} :
    x >>= f = .ok b ↔ ∃ a, x = .ok a ∧ f a = .ok b := by
  cases x with
  | error failure => simp [bind, Except.bind]
  | ok a => simp [bind, Except.bind]

/-- Two lists made one after the other, the second behind the first. -/
theorem bind_append_eq_ok_iff {x y : Except ε (List α)} {zs : List α} :
    (x >>= fun xs => y >>= fun ys => pure (xs ++ ys)) = .ok zs ↔
      ∃ xs ys, x = .ok xs ∧ y = .ok ys ∧ xs ++ ys = zs := by
  constructor
  · intro h
    obtain ⟨xs, hx, h⟩ := bind_eq_ok_iff.mp h
    obtain ⟨ys, hy, h⟩ := bind_eq_ok_iff.mp h
    exact ⟨xs, ys, hx, hy, Except.ok.inj h⟩
  · rintro ⟨xs, ys, rfl, rfl, rfl⟩
    rfl

theorem map_eq_ok_iff {x : Except ε α} {f : α → β} {b : β} :
    x.map f = .ok b ↔ ∃ a, x = .ok a ∧ f a = b := by
  cases x with
  | error failure => simp [Except.map]
  | ok a => simp [Except.map]

theorem ok_bind (a : α) (f : α → Except ε β) : (Except.ok a >>= f) = f a := rfl

theorem mapM_eq_ok_iff {f : α → Except ε β} {xs : List α} {ys : List β} :
    xs.mapM f = .ok ys ↔ List.Forall₂ (fun x y => f x = .ok y) xs ys := by
  induction xs generalizing ys with
  | nil =>
    rw [List.forall₂_nil_left_iff]
    exact ⟨fun h => (Except.ok.inj h).symm, fun h => h ▸ rfl⟩
  | cons x xs ih =>
    rw [List.mapM_cons, List.forall₂_cons_left_iff]
    constructor
    · intro h
      obtain ⟨y, first, h⟩ := bind_eq_ok_iff.mp h
      obtain ⟨ys', others, h⟩ := bind_eq_ok_iff.mp h
      exact ⟨y, ys', first, ih.mp others, (Except.ok.inj h).symm⟩
    · rintro ⟨y, ys', first, others, rfl⟩
      rw [first, ok_bind, ih.mpr others]
      rfl

theorem mapM_eq_ok {γ : Type} {f : α → Except ε β} {g : γ → β} {h : γ → α} {xs : List γ}
    (each : ∀ x ∈ xs, f (h x) = .ok (g x)) : (xs.map h).mapM f = .ok (xs.map g) := by
  rw [mapM_eq_ok_iff, List.forall₂_map_left_iff, List.forall₂_map_right_iff]
  exact List.forall₂_same.mpr each

theorem exists_mapM_eq_ok_iff {f : α → Except ε β} {xs : List α} :
    (∃ ys, xs.mapM f = .ok ys) ↔ ∀ x ∈ xs, ∃ y, f x = .ok y := by
  simp only [mapM_eq_ok_iff]
  induction xs with
  | nil => exact ⟨fun _ x hx => absurd hx List.not_mem_nil, fun _ => ⟨[], .nil⟩⟩
  | cons x xs ih =>
    rw [List.forall_mem_cons, ← ih]
    simp only [List.forall₂_cons_left_iff]
    constructor
    · rintro ⟨-, y, ys, first, others, -⟩
      exact ⟨⟨y, first⟩, ys, others⟩
    · rintro ⟨⟨y, first⟩, ys, others⟩
      exact ⟨y :: ys, y, ys, first, others, rfl⟩

theorem exists_of_mem_of_mapM_eq_ok {f : α → Except ε β} {xs : List α} {ys : List β}
    (h : xs.mapM f = .ok ys) : ∀ y ∈ ys, ∃ x ∈ xs, f x = .ok y := by
  induction mapM_eq_ok_iff.mp h with
  | nil => exact nofun
  | cons first others ih =>
    refine List.forall_mem_cons.mpr ⟨⟨_, List.mem_cons_self, first⟩, fun y hy => ?_⟩
    obtain ⟨x, hx, made⟩ := ih (mapM_eq_ok_iff.mpr others) y hy
    exact ⟨x, List.mem_cons_of_mem _ hx, made⟩

theorem exists_of_mapM_eq_error {f : α → Except ε β} {xs : List α} {failure : ε}
    (h : xs.mapM f = .error failure) : ∃ x ∈ xs, f x = .error failure := by
  induction xs with
  | nil => cases h
  | cons x xs ih =>
    rw [List.mapM_cons] at h
    cases first : f x with
    | error other =>
      rw [first] at h
      cases h
      exact ⟨x, List.mem_cons_self, first⟩
    | ok y =>
      rw [first, ok_bind] at h
      cases others : xs.mapM f with
      | ok ys =>
        rw [others] at h
        cases h
      | error other =>
        rw [others] at h
        cases h
        obtain ⟨z, mem, failed⟩ := ih others
        exact ⟨z, List.mem_cons_of_mem _ mem, failed⟩

theorem toOption_eq_some_iff {x : Except ε α} {a : α} : x.toOption = some a ↔ x = .ok a := by
  cases x <;> simp [Except.toOption]

end RecordMapper
