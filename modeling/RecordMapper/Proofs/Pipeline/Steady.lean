import RecordMapper.Proofs.Pipeline.Passing

/-!
The pipeline past listeners whose verdicts depend on the event alone. Its parts before and behind
the store come out alike in every session, and where no listener writes to the store it stays as it
is.
-/

namespace RecordMapper

variable {σ α β : Type} {p : RecordManager.Place σ} {alone : Prop}

/-- Only the world has changed, and where the store at a place is left alone, not that store. -/
structure Session.Untouched (alone : Prop) (p : RecordManager.Place σ) (s s' : Session σ) :
    Prop where
  eq : s' = { s with world := s'.world }
  store : alone → p.find s'.world = p.find s.world

/-- The verdict depends on the event alone. -/
def Listener.Steady (l : Listener σ) : Prop := ∀ ev, ∃ verdict, ∀ w, (l ev w).1 = verdict

/-- Whatever the listener does to the world, it does not write to the store at a place. -/
def Listener.LeavesAlone (p : RecordManager.Place σ) (l : Listener σ) : Prop :=
  ∀ ev w, p.find (l ev w).2 = p.find w

section

variable {s s' s'' : Session σ}

theorem Session.Untouched.refl (s : Session σ) : s.Untouched alone p s := ⟨rfl, fun _ => rfl⟩

theorem Session.Untouched.trans (first : s.Untouched alone p s')
    (second : s'.Untouched alone p s'') : s.Untouched alone p s'' := by
  refine ⟨?_, fun left => (second.store left).trans (first.store left)⟩
  rw [second.eq, first.eq]

end

namespace Action

/-- The outcome is the same in every session, and nothing but the world is touched. -/
def Steady (alone : Prop) (p : RecordManager.Place σ) (x : Action σ α) : Prop :=
  ∃ outcome, ∀ s, ∃ s', x.run.run s = (outcome, s') ∧ s.Untouched alone p s'

variable {x : Action σ α}

theorem steady_pure (a : α) : (pure a : Action σ α).Steady alone p :=
  ⟨.ok a, fun s => ⟨s, rfl, .refl s⟩⟩

theorem steady_ofExcept (x : Except Failure α) : (ofExcept x).Steady alone p := by
  cases x with
  | error failure => exact ⟨.error failure, fun s => ⟨s, rfl, .refl s⟩⟩
  | ok a => exact steady_pure a

theorem steady_onWorld {step : σ → Except Failure α × σ} (outcome : Except Failure α)
    (answers : ∀ w, (step w).1 = outcome) (leaves : alone → ∀ w, p.find (step w).2 = p.find w) :
    (onWorld step).Steady alone p := by
  refine ⟨outcome, fun s => ?_⟩
  have answer := answers s.world
  refine ⟨{ s with world := (step s.world).2 }, ?_, rfl, fun left => leaves left s.world⟩
  cases outcome with
  | error failure => exact fails_onWorld _ (Prod.ext answer rfl)
  | ok a => exact ends_onWorld _ (Prod.ext answer rfl)

theorem Steady.bind {f : α → Action σ β} (first : x.Steady alone p)
    (rest : ∀ a, (f a).Steady alone p) : (x >>= f).Steady alone p := by
  obtain ⟨outcome, runs⟩ := first
  cases outcome with
  | error failure =>
    refine ⟨.error failure, fun s => ?_⟩
    obtain ⟨s', ran, same⟩ := runs s
    exact ⟨s', Fails.bind ran f, same⟩
  | ok a =>
    obtain ⟨outcome, runs'⟩ := rest a
    refine ⟨outcome, fun s => ?_⟩
    obtain ⟨s', ran, same⟩ := runs s
    obtain ⟨s'', ran', same'⟩ := runs' s'
    exact ⟨s'', (Ends.run_bind ran f).trans ran', same.trans same'⟩

/-- What ends in one session ends in every other. -/
theorem Steady.exists_ends {a : α} {s₀ s₁ : Session σ} (h : x.Steady alone p)
    (once : x.Ends s₀ a s₁) (s : Session σ) : ∃ s', x.Ends s a s' ∧ s.Untouched alone p s' := by
  obtain ⟨outcome, runs⟩ := h
  obtain ⟨_, ran, -⟩ := runs s₀
  obtain rfl : outcome = .ok a := congrArg Prod.fst (ran.symm.trans once)
  exact runs s

theorem Steady.exists_fails {failure : Failure} {s₀ s₁ : Session σ} (h : x.Steady alone p)
    (once : x.Fails s₀ failure s₁) (s : Session σ) :
    ∃ s', x.Fails s failure s' ∧ s.Untouched alone p s' := by
  obtain ⟨outcome, runs⟩ := h
  obtain ⟨_, ran, -⟩ := runs s₀
  obtain rfl : outcome = .error failure := congrArg Prod.fst (ran.symm.trans once)
  exact runs s

end Action

open RecordMapper.Action

namespace Workflow

variable {ls : Workflow σ}

section

variable (steady : ∀ l ∈ ls, Listener.Steady l) (leaves : alone → ∀ l ∈ ls, Listener.LeavesAlone p l)
include steady leaves

theorem steady_fire (ev : Event) : (fire ev ls).Steady alone p := by
  induction ls with
  | nil => exact steady_pure ()
  | cons l ls ih =>
    obtain ⟨verdict, answers⟩ := steady l List.mem_cons_self ev
    have first : (onWorld fun w =>
        ((l ev w).1.mapError (Failure.listener ev.phase ·), (l ev w).2)).Steady alone p :=
      steady_onWorld (verdict.mapError (.listener ev.phase ·))
        (fun w => congrArg (Except.mapError _) (answers w))
        fun left w => leaves left l List.mem_cons_self ev w
    exact first.bind fun _ => ih (fun l hl => steady l (List.mem_cons_of_mem _ hl))
      fun left l hl => leaves left l (List.mem_cons_of_mem _ hl)

theorem steady_prepare (t : TypeDescriptor) (e : Entity) : (prepare ls t e).Steady alone p :=
  (steady_fire steady leaves _).bind fun _ => (steady_ofExcept _).bind fun r =>
    (steady_fire steady leaves _).bind fun _ => steady_pure r

theorem steady_complete (t : TypeDescriptor) (r : Record) : (complete ls t r).Steady alone p :=
  (steady_fire steady leaves _).bind fun _ => (steady_ofExcept _).bind fun e =>
    (steady_fire steady leaves _).bind fun _ => steady_pure e

end

end Workflow

end RecordMapper
