import Mathlib.Data.List.Basic
import RecordMapper.Engine.Host
import RecordMapper.Mapping.Path
import RecordMapper.Proofs.Outcome

/-!
What later calls can do to an engine that is built. Its configuration refuses every change and stays
as it is, whatever is done to others; only the separator, which it shares with all of them, follows
those that are still open.
-/

namespace RecordMapper

variable {σ : Type}

namespace Config

variable {c c' : Config σ} {ch : Change σ} {sep sep' : String}

theorem change_of_configured (frozen : c.configured = true) (sep : String) (ch : Change σ) :
    c.change sep ch = .error (.frozen ch.setting) := by
  have refused : ∀ s, c.ensureOpen s = .error (.frozen s) := fun s => if_pos frozen
  cases ch <;>
    simp only [change, setSeparator, setRegistry, addListener, bindManager, bindAsyncManager,
      refused] <;> rfl

theorem change_separator (c : Config σ) (sep new : String) : c.change sep (.separator new) =
    if c.configured then .error (.frozen .separator)
    else if new.isEmpty then .error .emptySeparator else .ok (c, new) := by
  simp only [change, setSeparator, ensureOpen]
  cases c.configured <;> cases new.isEmpty <;> rfl

/-- A change of anything but the separator leaves the separator alone. -/
theorem separator_of_change (changed : c.change sep ch = .ok (c', sep'))
    (other : ∀ new, ch ≠ .separator new) : sep' = sep := by
  cases ch with
  | separator new => exact absurd rfl (other new)
  | registry | listener | manager | asyncManager =>
    obtain ⟨c'', -, done⟩ := bind_eq_ok_iff.mp changed
    cases done
    rfl

end Config

namespace Host

variable {p p' : Host σ} {k i : Nat}

/-- The separator that a call sets. One that is empty is refused, and so is every one where the
engine is built or the builder has kept a failure. -/
def sets? (p : Host σ) : Call σ → Option String
  | .change k (.separator sep) =>
    if (p.configs k).configured || sep.isEmpty then none else some sep
  | .configure k (.separator sep) =>
    if (p.kept k).isSome || (p.configs k).configured || sep.isEmpty then none else some sep
  | _ => none

/-- The separators that calls set one after another. -/
def settings (p : Host σ) : List (Call σ) → List String
  | [] => []
  | c :: rest => (p.sets? c).toList ++ (p.call c).settings rest

/-- A change is refused and nothing happens, or it replaces one configuration, which is open. -/
theorem change_cases (p : Host σ) (k : Nat) (ch : Config.Change σ) :
    (∃ failure, (p.configs k).change p.separator ch = .error failure ∧
      p.change k ch = (.error failure, p)) ∨
    ∃ c separator, (p.configs k).change p.separator ch = .ok (c, separator) ∧
      (p.configs k).configured = false ∧ p.change k ch =
        (.ok (), { p with separator, configs := fun i => if i = k then c else p.configs i }) := by
  cases changed : (p.configs k).change p.separator ch with
  | error failure => exact .inl ⟨failure, rfl, by simp only [change, changed]⟩
  | ok made =>
    obtain ⟨c, separator⟩ := made
    refine .inr ⟨c, separator, rfl, ?_, by simp only [change, changed]⟩
    by_contra frozen
    rw [Config.change_of_configured (by simpa using frozen)] at changed
    cases changed

/-- The step of a builder is the change of its configuration, or the failure of it is kept. -/
theorem configure_cases (p : Host σ) (k : Nat) (ch : Config.Change σ) :
    p.kept k ≠ none ∧ p.configure k ch = p ∨
    p.kept k = none ∧ ∃ kept, p.configure k ch = { (p.change k ch).2 with kept } := by
  unfold configure
  cases past : p.kept k with
  | some failure => exact .inl ⟨by simp, rfl⟩
  | none =>
    refine .inr ⟨rfl, ?_⟩
    cases changed : p.change k ch with
    | mk outcome after =>
      cases outcome with
      | ok => exact ⟨after.kept, rfl⟩
      | error failure => exact ⟨_, rfl⟩

theorem configs_change (frozen : (p.configs i).configured = true) (k : Nat)
    (ch : Config.Change σ) : (p.change k ch).2.configs i = p.configs i := by
  rcases p.change_cases k ch with ⟨failure, -, refused⟩ | ⟨c, separator, -, opened, changed⟩
  · rw [refused]
  · have apart : i ≠ k := by
      rintro rfl
      exact Bool.false_ne_true (opened.symm.trans frozen)
    rw [changed]
    exact if_neg apart

/-- No call changes a configuration whose engine is built. -/
theorem configs_call (frozen : (p.configs i).configured = true) (c : Call σ) :
    (p.call c).configs i = p.configs i := by
  cases c with
  | change k ch => exact configs_change frozen k ch
  | configure k ch =>
    show (p.configure k ch).configs i = _
    rcases p.configure_cases k ch with ⟨-, same⟩ | ⟨-, kept, changed⟩
    · rw [same]
    · rw [changed]
      exact configs_change frozen k ch
  | build k =>
    simp only [call, build]
    split
    next => rfl
    next =>
      show (if i = k then _ else _) = _
      split
      next same =>
        subst same
        rw [Config.freeze, ← frozen]
      next => rfl

theorem configs_run (frozen : (p.configs i).configured = true) (calls : List (Call σ)) :
    (p.run calls).configs i = p.configs i := by
  induction calls generalizing p with
  | nil => rfl
  | cons c rest ih =>
    have same := configs_call frozen c
    exact (ih (same ▸ frozen)).trans same

theorem separator_change (p : Host σ) (k : Nat) (ch : Config.Change σ) :
    (p.change k ch).2.separator = (p.sets? (.change k ch)).getD p.separator := by
  have kept (other : ∀ new, ch ≠ .separator new) : (p.change k ch).2.separator = p.separator := by
    rcases p.change_cases k ch with ⟨failure, -, refused⟩ | ⟨c, separator, accepted, -, changed⟩
    · rw [refused]
    · rw [changed]
      exact Config.separator_of_change accepted other
  cases ch with
  | separator sep =>
    simp only [change, sets?, Config.change_separator]
    cases (p.configs k).configured <;> cases sep.isEmpty <;> rfl
  | registry | listener | manager | asyncManager => exact kept (by simp)

theorem separator_call (p : Host σ) (c : Call σ) :
    (p.call c).separator = (p.sets? c).getD p.separator := by
  cases c with
  | change k ch => exact separator_change p k ch
  | configure k ch =>
    show (p.configure k ch).separator = _
    rcases p.configure_cases k ch with ⟨past, same⟩ | ⟨past, kept, changed⟩
    · rw [same]
      cases ch with
      | separator sep =>
        rw [sets?, Option.isSome_iff_ne_none.mpr past]
        rfl
      | registry | listener | manager | asyncManager => rfl
    · rw [changed]
      refine (separator_change p k ch).trans ?_
      cases ch with
      | separator sep => rw [sets?, sets?, past, Option.isSome_none, Bool.false_or]
      | registry | listener | manager | asyncManager => rfl
  | build k =>
    simp only [call, build]
    split <;> rfl

theorem separator_run (p : Host σ) (calls : List (Call σ)) :
    (p.run calls).separator = (p.settings calls).getLast?.getD p.separator := by
  induction calls generalizing p with
  | nil => rfl
  | cons c rest ih =>
    have after := ih (p.call c)
    rw [separator_call] at after
    refine after.trans ?_
    rw [settings, List.getLast?_append]
    cases p.sets? c <;> simp

/-- What is set comes from elsewhere. -/
theorem sets?_of_configured (frozen : (p.configs k).configured = true) (ch : Config.Change σ) :
    p.sets? (.change k ch) = none ∧ p.sets? (.configure k ch) = none := by
  cases ch with
  | separator sep => simp [sets?, frozen]
  | registry | listener | manager | asyncManager => exact ⟨rfl, rfl⟩

theorem configured_of_build {engine : BuiltEngine} (built : p.build k = (.ok engine, p')) :
    (p'.configs engine.config).configured = true ∧
      (p'.configs engine.config).registry = engine.registry := by
  unfold build at built
  split at built
  next => cases built
  next =>
    cases built
    simp [Config.freeze]

/-- An engine that is built keeps its configuration and its registry: whatever calls follow, every
setter on it is refused. The separator of the process is the one that was set last. -/
theorem build_isolated {engine : BuiltEngine} (built : p.build k = (.ok engine, p'))
    (calls : List (Call σ)) :
    let q := p'.run calls
    (∀ ch, q.change engine.config ch = (.error (.frozen ch.setting), q) ∧
      (Failure.frozen ch.setting).kind = .illegalState) ∧
    q.configs engine.config = p'.configs engine.config ∧
    (q.configs engine.config).registry = engine.registry ∧
    q.separator = (p'.settings calls).getLast?.getD p'.separator ∧
    (∀ ch, q.sets? (.change engine.config ch) = none ∧
      q.sets? (.configure engine.config ch) = none) ∧
    (p'.settings calls = [] → ∀ (t : TypeDescriptor) (r : Record) (path : String),
      t.columnPath q.separator path = t.columnPath p'.separator path ∧
        r.findPath? q.separator path = r.findPath? p'.separator path) := by
  intro q
  obtain ⟨frozen, registry⟩ := configured_of_build built
  have same : q.configs engine.config = p'.configs engine.config := configs_run frozen calls
  refine ⟨fun ch => ⟨?_, rfl⟩, same, same ▸ registry, p'.separator_run calls,
    sets?_of_configured (same ▸ frozen), ?_⟩
  · unfold change
    rw [Config.change_of_configured (same ▸ frozen)]
  · intro none_set t r path
    have kept : q.separator = p'.separator := by
      rw [p'.separator_run calls, none_set]
      rfl
    rw [kept]
    exact ⟨rfl, rfl⟩

/-- An engine with a registry of its own keeps it. The separator that it never set is replaced from
another configuration. -/
theorem build_isolated_own :
    ∃ (engine : BuiltEngine) (p' : Host Unit),
      (({} : Host Unit).configure 0 (.registry (.own 7))).build 0 = (.ok engine, p') ∧
      engine.registry = .own 7 ∧
      let q := p'.run [.change 0 (.registry .shared), .change 1 (.separator "/")]
      (q.configs engine.config).registry = .own 7 ∧ q.separator = "/" ∧
        (q.change engine.config (.separator ".")).1 = .error (.frozen .separator) := by
  have built : (({} : Host Unit).configure 0 (.registry (.own 7))).build 0 = (.ok _, _) := rfl
  obtain ⟨refused, -, registry, separator, -⟩ :=
    build_isolated built [.change 0 (.registry .shared), .change 1 (.separator "/")]
  exact ⟨_, _, built, rfl, registry, separator, congrArg Prod.fst (refused (.separator ".")).1⟩

/-- With the separator of another configuration, a built engine no longer finds what it found. -/
theorem separator_reaches_built :
    ∃ (engine : BuiltEngine) (p' : Host Unit) (r : Record),
      ({} : Host Unit).build 0 = (.ok engine, p') ∧
      let q := p'.run [.change 1 (.separator "/")]
      p'.separator = "." ∧ q.separator = "/" ∧
        (r.findPath? p'.separator "movie.title").isSome = true ∧
        r.findPath? q.separator "movie.title" = none := by
  refine ⟨_, _, ⟨"Director", [("movie", .record "Movie" [("title", .string "Alien")])]⟩, rfl, rfl,
    rfl, ?_, Option.isNone_iff_eq_none.mp ?_⟩
  · decide +kernel
  · decide +kernel

end Host

end RecordMapper
