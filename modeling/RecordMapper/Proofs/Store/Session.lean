import RecordMapper.Proofs.Schema.Described
import RecordMapper.Store.Session

/-!
Actions that succeed or fail. A chain of actions succeeds step by step and fails with the first step
that does, and one action for each element of a list succeeds with an invariant that says what the
elements so far have done.
-/

namespace RecordMapper.Action

variable {σ α β : Type} {s s' s'' : Session σ}

/-- The action succeeds with an answer and leaves a state. -/
def Ends (x : Action σ α) (s : Session σ) (a : α) (s' : Session σ) : Prop :=
  x.run.run s = (.ok a, s')

theorem Ends.pure (a : α) (s : Session σ) : (Pure.pure a : Action σ α).Ends s a s := rfl

theorem Ends.bind {x : Action σ α} {f : α → Action σ β} {a : α} {b : β} (first : x.Ends s a s')
    (rest : (f a).Ends s' b s'') : (x >>= f).Ends s b s'' := by
  unfold Ends at first rest ⊢
  rw [ExceptT.run_bind, StateT.run_bind, first]
  exact rest

/-- A chain of actions goes on from the outcome of the first. -/
theorem run_bind {x : Action σ α} {outcome : Except Failure α} (first : x.run.run s = (outcome, s'))
    (f : α → Action σ β) : (x >>= f).run.run s = (ofExcept outcome >>= f).run.run s' := by
  rw [ExceptT.run_bind, StateT.run_bind, first]
  cases outcome with
  | error failure => rfl
  | ok a => rfl

theorem Ends.run_bind {x : Action σ α} {a : α} (first : x.Ends s a s') (f : α → Action σ β) :
    (x >>= f).run.run s = (f a).run.run s' := Action.run_bind first f

theorem Ends.map {x : Action σ α} {a : α} (f : α → β) (h : x.Ends s a s') :
    (f <$> x).Ends s (f a) s' := by
  rw [map_eq_pure_bind]
  exact h.bind (.pure _ _)

theorem ends_separator (s : Session σ) : separator.Ends s s.separator s := rfl

theorem ends_now (s : Session σ) : now.Ends s s.now (s.after 1) := rfl

theorem ends_readings (count : Nat) (s : Session σ) :
    (readings count).Ends s s.clock (s.after count) := rfl

theorem ends_ofExcept {x : Except Failure α} {a : α} (h : x = .ok a) (s : Session σ) :
    (ofExcept x).Ends s a s := by
  rw [h]
  rfl

theorem ends_onWorld {step : σ → Except Failure α × σ} {a : α} (world : σ)
    (h : step s.world = (.ok a, world)) : (onWorld step).Ends s a { s with world } := by
  show (onWorld.ofExcept (step s.world).1).run.run { s with world := (step s.world).2 } = _
  rw [h]
  rfl

/-- Describing an accepted type succeeds, and the registry that it leaves knows the type. -/
theorem ends_describe_of {schema : Schema} {type : TypeKey} {t : TypeDescriptor}
    (accepted : (Registry.describe schema type s.registry).1 = .ok t) :
    (describe schema type).Ends s t
      { s with registry := (Registry.describe schema type s.registry).2 } := by
  show (onWorld.ofExcept (Registry.describe schema type s.registry).1).run.run
    { s with registry := (Registry.describe schema type s.registry).2 } = _
  rw [accepted]
  rfl

theorem ends_describe {schema : Schema} {type : TypeKey} {t : TypeDescriptor}
    (known : s.registry.find? type = some t) : (describe schema type).Ends s t s := by
  have described := Registry.describe_of_find? (s := schema) known
  have ends := ends_describe_of (s := s) (congrArg Prod.fst described)
  rwa [described] at ends

theorem Ends.of_bind {x : Action σ α} {f : α → Action σ β} {b : β}
    (h : (x >>= f).Ends s b s'') : ∃ a s', x.Ends s a s' ∧ (f a).Ends s' b s'' := by
  unfold Ends at h
  rw [ExceptT.run_bind, StateT.run_bind] at h
  cases first : x.run.run s with
  | mk outcome s' =>
    rw [first] at h
    cases outcome with
    | error failure => cases h
    | ok a => exact ⟨a, s', first, h⟩

theorem Ends.of_ofExcept {x : Except Failure α} {a : α} (h : (ofExcept x).Ends s a s') :
    x = .ok a := by
  cases x with
  | error failure => cases h
  | ok b =>
    cases h
    rfl

theorem Ends.of_describe {schema : Schema} {type : TypeKey} {t : TypeDescriptor}
    (h : (describe schema type).Ends s t s') :
    (Registry.describe schema type s.registry).1 = .ok t ∧
      s' = { s with registry := (Registry.describe schema type s.registry).2 } := by
  have h : (onWorld.ofExcept (Registry.describe schema type s.registry).1).run.run
    { s with registry := (Registry.describe schema type s.registry).2 } = (.ok t, s') := h
  cases outcome : (Registry.describe schema type s.registry).1 with
  | error failure =>
    rw [outcome] at h
    cases h
  | ok t' =>
    rw [outcome] at h
    cases h
    exact ⟨rfl, rfl⟩

/-- An action for each element: what the elements so far have done carries the invariant, and each
answer is related to its element. -/
theorem exists_ends_mapM {f : α → Action σ β} (I : List α → Session σ → Prop)
    {R : α → β → Prop} {xs : List α}
    (each : ∀ front x back, xs = front ++ x :: back → ∀ s, I front s →
      ∃ b s', (f x).Ends s b s' ∧ I (front ++ [x]) s' ∧ R x b)
    (start : I [] s) :
    ∃ bs s', (xs.mapM f).Ends s bs s' ∧ I xs s' ∧ List.Forall₂ R xs bs := by
  -- The elements that are done move from the list to the front.
  have from_front : ∀ front back, xs = front ++ back → ∀ s, I front s →
      ∃ bs s', (back.mapM f).Ends s bs s' ∧ I xs s' ∧ List.Forall₂ R back bs := by
    intro front back split s here
    induction back generalizing front s with
    | nil =>
      obtain rfl : xs = front := by simpa using split
      exact ⟨[], s, .pure [] s, here, .nil⟩
    | cons x back ih =>
      obtain ⟨b, mid, first, done, related⟩ := each front x back split s here
      obtain ⟨bs, s', rest, whole, all⟩ := ih (front ++ [x]) (by simpa using split) mid done
      refine ⟨b :: bs, s', ?_, whole, .cons related all⟩
      rw [List.mapM_cons]
      exact first.bind (rest.bind (.pure _ _))
  exact from_front [] xs rfl s start

/-- Where what holds between the actions is the same throughout. -/
theorem exists_ends_mapM_of_forall {f : α → Action σ β} {I : Session σ → Prop} {R : α → β → Prop}
    {xs : List α} (each : ∀ x ∈ xs, ∀ s, I s → ∃ b s', (f x).Ends s b s' ∧ I s' ∧ R x b)
    (start : I s) : ∃ bs s', (xs.mapM f).Ends s bs s' ∧ I s' ∧ List.Forall₂ R xs bs := by
  refine exists_ends_mapM (fun _ => I) (fun front x back split s here => ?_) start
  exact each x (by simp [split]) s here

/-- Where each answer is known. -/
theorem exists_ends_mapM_map {f : α → Action σ β} {g : α → β} {I : Session σ → Prop} {xs : List α}
    (each : ∀ x ∈ xs, ∀ s, I s → ∃ s', (f x).Ends s (g x) s' ∧ I s') (start : I s) :
    ∃ s', (xs.mapM f).Ends s (xs.map g) s' ∧ I s' := by
  have known : ∀ x ∈ xs, ∀ s, I s → ∃ b s', (f x).Ends s b s' ∧ I s' ∧ g x = b := by
    intro x hx s here
    obtain ⟨s', ended, next⟩ := each x hx s here
    exact ⟨g x, s', ended, next, rfl⟩
  obtain ⟨bs, s', ended, last, answers⟩ := exists_ends_mapM_of_forall known start
  obtain rfl : xs.map g = bs := by rwa [← List.forall₂_eq_eq_eq, List.forall₂_map_left_iff]
  exact ⟨s', ended, last⟩

section Failing

variable {failure : Failure}

/-- The action fails and leaves a state. -/
def Fails (x : Action σ α) (s : Session σ) (failure : Failure) (s' : Session σ) : Prop :=
  x.run.run s = (.error failure, s')

/-- The state that the action leaves, whether it succeeds or fails. -/
def Leaves (x : Action σ α) (s s' : Session σ) : Prop := (x.run.run s).2 = s'

theorem Ends.leaves {x : Action σ α} {a : α} (h : x.Ends s a s') : x.Leaves s s' :=
  congrArg Prod.snd h

theorem Fails.leaves {x : Action σ α} (h : x.Fails s failure s') : x.Leaves s s' :=
  congrArg Prod.snd h

theorem Fails.not_ends {x : Action σ α} (h : x.Fails s failure s') (a : α) (s'' : Session σ) :
    ¬ x.Ends s a s'' := by
  intro ends
  cases h.symm.trans ends

theorem Fails.bind {x : Action σ α} (h : x.Fails s failure s') (f : α → Action σ β) :
    (x >>= f).Fails s failure s' := by
  unfold Fails at h ⊢
  rw [ExceptT.run_bind, StateT.run_bind, h]
  rfl

theorem Ends.bind_fails {x : Action σ α} {f : α → Action σ β} {a : α} (first : x.Ends s a s')
    (rest : (f a).Fails s' failure s'') : (x >>= f).Fails s failure s'' := by
  unfold Ends at first
  unfold Fails at rest ⊢
  rw [ExceptT.run_bind, StateT.run_bind, first]
  exact rest

/-- A chain of actions fails in the first or behind it. -/
theorem Fails.of_bind {x : Action σ α} {f : α → Action σ β} (h : (x >>= f).Fails s failure s'') :
    x.Fails s failure s'' ∨ ∃ a s', x.Ends s a s' ∧ (f a).Fails s' failure s'' := by
  cases ran : x.run.run s with
  | mk outcome s' =>
    have rest := (run_bind ran f).symm.trans h
    cases outcome with
    | error failure =>
      cases rest
      exact .inl ran
    | ok a => exact .inr ⟨a, s', ran, rest⟩

theorem Ends.bind_leaves {x : Action σ α} {f : α → Action σ β} {a : α} (first : x.Ends s a s')
    (rest : (f a).Leaves s' s'') : (x >>= f).Leaves s s'' := by
  unfold Ends at first
  unfold Leaves at rest ⊢
  rw [ExceptT.run_bind, StateT.run_bind, first]
  exact rest

theorem Leaves.map {x : Action σ α} (f : α → β) (h : x.Leaves s s') : (f <$> x).Leaves s s' := by
  unfold Leaves at h ⊢
  rw [map_eq_pure_bind, ExceptT.run_bind, StateT.run_bind]
  cases outcome : x.run.run s with
  | mk answer left =>
    rw [outcome] at h
    cases answer <;> exact h

/-- Where one of several actions fails, those before it have been done. -/
theorem exists_fails_mapM {f : α → Action σ β} (I : List α → Session σ → Prop)
    {J : Session σ → Prop} {front back : List α} {x : α}
    (each : ∀ done y rest, front = done ++ y :: rest → ∀ s, I done s →
      ∃ b s', (f y).Ends s b s' ∧ I (done ++ [y]) s')
    (fails : ∀ s, I front s → ∃ s', (f x).Fails s failure s' ∧ J s') (start : I [] s) :
    ∃ s', ((front ++ x :: back).mapM f).Fails s failure s' ∧ J s' := by
  have every : ∀ done y rest, front = done ++ y :: rest → ∀ s, I done s →
      ∃ b s', (f y).Ends s b s' ∧ I (done ++ [y]) s' ∧ True := by
    intro done y rest split s here
    obtain ⟨b, s', ended, next⟩ := each done y rest split s here
    exact ⟨b, s', ended, next, trivial⟩
  obtain ⟨bs, s₁, ended, before, -⟩ := exists_ends_mapM (R := fun _ _ => True) I every start
  obtain ⟨s₂, failed, after⟩ := fails s₁ before
  refine ⟨s₂, ?_, after⟩
  rw [List.mapM_append, List.mapM_cons]
  exact ended.bind_fails ((failed.bind _).bind _)

theorem fails_ofExcept {x : Except Failure α} (h : x = .error failure) (s : Session σ) :
    (ofExcept x).Fails s failure s := by
  rw [h]
  rfl

theorem fails_onWorld {step : σ → Except Failure α × σ} (world : σ)
    (h : step s.world = (.error failure, world)) :
    (onWorld step).Fails s failure { s with world } := by
  show (onWorld.ofExcept (step s.world).1).run.run { s with world := (step s.world).2 } = _
  rw [h]
  rfl

end Failing

end RecordMapper.Action
