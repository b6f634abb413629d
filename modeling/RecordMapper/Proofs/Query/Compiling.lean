import Mathlib.Data.List.Dedup
import Mathlib.Data.List.Perm.Basic
import RecordMapper.Proofs.Repository.Definition

/-!
Many callers of one compiler. Looking a name up, reading it and offering the result are steps of
their own, and between two steps of a call those of others may come in any order.
-/

namespace RecordMapper.Compiler

/-- How far the compilation of a name has come. -/
inductive Progress where
  | called
  | missed
  /-- The name has been read, and an object made that has not been offered yet. -/
  | made (candidate : CompiledMethod)
  | refused (failure : Failure)
  | found (stored : CompiledMethod)
  | offered (stored : CompiledMethod)

namespace Progress

/-- The next step of the compilation of a name; behind an answer there is none. -/
def advance (name : String) (p : Progress) (c : Compiler) : Progress × Compiler :=
  match p with
  | called =>
    match c.lookup? name with
    | some stored => (found stored, c)
    | none => (missed, c)
  | missed =>
    match MethodName.parse name with
    | .error failure => (refused failure, c)
    | .ok method =>
      let (candidate, c) := c.allocate method
      (made candidate, c)
  | made candidate =>
    let (stored, c) := c.offer name candidate
    (offered stored, c)
  | refused _ | found _ | offered _ => (p, c)

/-- All the steps that are left of a compilation, with nothing between them. -/
def finish (name : String) (p : Progress) (c : Compiler) : Progress × Compiler :=
  let (p, c) := p.advance name c
  let (p, c) := p.advance name c
  p.advance name c

def outcome? : Progress → Option (Except Failure CompiledMethod)
  | called | missed | made _ => none
  | refused failure => some (.error failure)
  | found stored | offered stored => some (.ok stored)

/-- Whether the compilation has completed an offer. -/
def hasOffered : Progress → Bool
  | offered _ => true
  | _ => false

end Progress

structure Compilation where
  name : String
  progress : Progress := .called

/-- A compiler, which all handles on it share, and the calls of it so far. -/
structure Traffic where
  compiler : Compiler := {}
  /-- The oldest first. -/
  compilations : List Compilation := []

inductive Move where
  | call (name : String)
  | advance (place : Nat)

namespace Traffic

def move (f : Traffic) : Move → Traffic
  | .call name => { f with compilations := f.compilations ++ [⟨name, .called⟩] }
  | .advance place =>
    match f.compilations[place]? with
    | none => f
    | some x =>
      let (progress, compiler) := x.progress.advance x.name f.compiler
      ⟨compiler, f.compilations.set place { x with progress }⟩

def run (f : Traffic) (moves : List Move) : Traffic := moves.foldl move f

end Traffic

/-- Compiling in one go is to take the steps with nothing between them. -/
theorem finish_called (name : String) (c : Compiler) :
    (Progress.called.finish name c).1.outcome? = some (c.compile name).1 ∧
      (Progress.called.finish name c).2 = (c.compile name).2 := by
  unfold compile
  cases known : c.lookup? name with
  | some stored => simp [Progress.finish, Progress.advance, Progress.outcome?, known]
  | none =>
    cases parsed : MethodName.parse name with
    | error failure => simp [Progress.finish, Progress.advance, Progress.outcome?, known, parsed]
    | ok method => simp [Progress.finish, Progress.advance, Progress.outcome?, known, parsed]

theorem isSome_outcome?_finish (name : String) (p : Progress) (c : Compiler) :
    (p.finish name c).1.outcome?.isSome = true := by
  cases p with
  | called => simp [(finish_called name c).1]
  | missed =>
    cases parsed : MethodName.parse name <;>
      simp [Progress.finish, Progress.advance, Progress.outcome?, parsed]
  | made | refused | found | offered => rfl

theorem Progress.isSome_outcome?_of_hasOffered {p : Progress} (h : p.hasOffered = true) :
    p.outcome?.isSome = true := by
  cases p with
  | offered stored => rfl
  | called | missed | made | refused | found => cases h

/-- What a compiler knows stays, and it has made no fewer objects. -/
structure Grows (c c' : Compiler) : Prop where
  lookup : ∀ name stored, c.lookup? name = some stored → c'.lookup? name = some stored
  made : c.made ≤ c'.made
  size : c.size ≤ c'.size

section

variable {c c' c'' : Compiler} {name : String} {p : Progress}

theorem Grows.refl (c : Compiler) : c.Grows c :=
  ⟨fun _ _ known => known, Nat.le_refl _, Nat.le_refl _⟩

theorem Grows.trans (first : c.Grows c') (second : c'.Grows c'') : c.Grows c'' :=
  ⟨fun name stored known => second.lookup name stored (first.lookup name stored known),
    Nat.le_trans first.made second.made, Nat.le_trans first.size second.size⟩

theorem contains_iff : c.contains name = true ↔ name ∈ c.methods.map (·.1) := by
  rw [contains, ← not_iff_not, Bool.not_eq_true, Option.isSome_eq_false_iff,
    Option.isNone_iff_eq_none]
  exact lookup_eq_none_iff

/-- An offer answers what is stored from then on, which is the candidate if the name was new. -/
theorem offer_cases (c : Compiler) (name : String) (candidate : CompiledMethod) :
    (∃ stored, c.lookup? name = some stored ∧ c.offer name candidate = (stored, c)) ∨
      (name ∉ c.methods.map (·.1) ∧ c.offer name candidate =
        (candidate, { c with methods := c.methods ++ [(name, candidate)] })) := by
  unfold offer
  cases known : c.lookup? name with
  | some stored => exact .inl ⟨stored, rfl, rfl⟩
  | none => exact .inr ⟨lookup_eq_none_iff.mp known, rfl⟩

theorem lookup?_offer (c : Compiler) (name : String) (candidate : CompiledMethod) :
    (c.offer name candidate).2.lookup? name = some (c.offer name candidate).1 := by
  rcases offer_cases c name candidate with ⟨stored, known, same⟩ | ⟨new, added⟩
  · rw [same]
    exact known
  · rw [added]
    simp [lookup?, lookup_append, lookup_eq_none_iff.mpr new, RecordMapper.lookup]

theorem grows_offer (c : Compiler) (name : String) (candidate : CompiledMethod) :
    c.Grows (c.offer name candidate).2 := by
  rcases offer_cases c name candidate with ⟨stored, -, same⟩ | ⟨-, added⟩
  · rw [same]
    exact .refl c
  · rw [added]
    refine ⟨fun other stored known => ?_, Nat.le_refl _, by simp [size]⟩
    have known : RecordMapper.lookup other c.methods = some stored := known
    simp [lookup?, lookup_append, known]

theorem Reachable.names_nodup (h : c.Reachable) : (c.methods.map (·.1)).Nodup := by
  induction h with
  | empty => simp
  | allocate method _ ih => exact ih
  | @offer c name compiled _ _ ih =>
    rcases offer_cases c name compiled with ⟨stored, -, same⟩ | ⟨new, added⟩
    · rw [same]
      exact ih
    · rw [added, List.map_append]
      refine List.nodup_append.mpr ⟨ih, List.nodup_singleton _, ?_⟩
      rintro other mem _ last rfl
      obtain rfl : other = name := List.mem_singleton.mp last
      exact new mem

/-- What is true of a compilation while it goes on. -/
def Progress.Sound (name : String) (c : Compiler) : Progress → Prop
  | called | missed => True
  | made candidate =>
    MethodName.parse name = .ok candidate.method ∧ candidate.identity < c.made
  | refused failure => MethodName.parse name = .error failure
  | found stored | offered stored => c.lookup? name = some stored

theorem Progress.Sound.of_grows (sound : p.Sound name c) (grows : c.Grows c') :
    p.Sound name c' := by
  cases p with
  | called | missed => trivial
  | made candidate => exact ⟨sound.1, Nat.lt_of_lt_of_le sound.2 grows.made⟩
  | refused failure => exact sound
  | found stored | offered stored => exact grows.lookup name stored sound

/-- Everything that one step can do. -/
inductive Progress.Advances (name : String) (c : Compiler) : Progress → Progress → Compiler → Prop
  | find {stored : CompiledMethod} (known : c.lookup? name = some stored) :
      Advances name c .called (.found stored) c
  | miss (unknown : c.lookup? name = none) : Advances name c .called .missed c
  | refuse {failure : Failure} (parsed : MethodName.parse name = .error failure) :
      Advances name c .missed (.refused failure) c
  | make {method : MethodName} (parsed : MethodName.parse name = .ok method) :
      Advances name c .missed (.made ⟨c.made, method⟩) { c with made := c.made + 1 }
  | offer (candidate : CompiledMethod) :
      Advances name c (.made candidate) (.offered (c.offer name candidate).1)
        (c.offer name candidate).2
  | rest {p : Progress} (final : p.outcome?.isSome = true) : Advances name c p p c

theorem Progress.advances (name : String) (p : Progress) (c : Compiler) :
    p.Advances name c (p.advance name c).1 (p.advance name c).2 := by
  cases p with
  | called =>
    unfold advance
    cases known : c.lookup? name with
    | some stored => exact .find known
    | none => exact .miss known
  | missed =>
    unfold advance
    cases parsed : MethodName.parse name with
    | error failure => exact .refuse parsed
    | ok method => exact .make parsed
  | made candidate => exact .offer candidate
  | refused | found | offered => exact .rest rfl

namespace Progress.Advances

variable {p' : Progress}

theorem grows (step : Advances name c p p' c') : c.Grows c' := by
  cases step with
  | find | miss | refuse | rest => exact .refl c
  | make => exact ⟨fun _ _ known => known, Nat.le_succ _, Nat.le_refl _⟩
  | offer candidate => exact grows_offer c name candidate

theorem reachable (step : Advances name c p p' c') (sound : p.Sound name c) (h : c.Reachable) :
    c'.Reachable := by
  cases step with
  | find | miss | refuse | rest => exact h
  | @make method => exact h.allocate method
  | offer candidate => exact h.offer sound.1

theorem sound (step : Advances name c p p' c') (sound : p.Sound name c) : p'.Sound name c' := by
  cases step with
  | find known => exact known
  | miss => trivial
  | refuse parsed => exact parsed
  | make parsed => exact ⟨parsed, Nat.lt_succ_self _⟩
  | offer candidate => exact lookup?_offer c name candidate
  | rest => exact sound

/-- A name that is stored in a step is the one offered. -/
theorem mem_names (step : Advances name c p p' c') {other : String}
    (mem : other ∈ c'.methods.map (·.1)) :
    other ∈ c.methods.map (·.1) ∨ other = name ∧ p'.hasOffered = true := by
  cases step with
  | find | miss | refuse | make | rest => exact .inl mem
  | offer candidate =>
    rcases offer_cases c name candidate with ⟨stored, -, same⟩ | ⟨-, added⟩
    · rw [same] at mem
      exact .inl mem
    · rw [added, List.map_append, List.mem_append] at mem
      exact mem.imp_right fun here => ⟨by simpa using here, rfl⟩

theorem eq_of_outcome? (step : Advances name c p p' c') (final : p.outcome?.isSome = true) :
    p' = p ∧ c' = c := by
  cases step with
  | rest => exact ⟨rfl, rfl⟩
  | find | miss | refuse | make | offer => cases final

/-- An object that is made in a step is a new one. -/
theorem identity_of_made {candidate : CompiledMethod} (step : Advances name c p p' c')
    (made : p' = .made candidate) : candidate.identity = c.made := by
  cases step with
  | make =>
    cases made
    rfl
  | find | miss | refuse | offer => cases made
  | rest final =>
    subst made
    cases final

/-- The compilation of a name that cannot be read changes nothing. -/
theorem eq_of_parse {failure : Failure} (step : Advances name c p p' c')
    (parsed : MethodName.parse name = .error failure) (sound : p.Sound name c) : c' = c := by
  cases step with
  | find | miss | refuse | rest => rfl
  | make read => cases parsed.symm.trans read
  | offer candidate => cases parsed.symm.trans sound.1

end Progress.Advances

end

namespace Traffic

theorem move_advance {f : Traffic} {place : Nat} {x : Compilation}
    (there : f.compilations[place]? = some x) :
    f.move (.advance place) = ⟨(x.progress.advance x.name f.compiler).2,
      f.compilations.set place ⟨x.name, (x.progress.advance x.name f.compiler).1⟩⟩ := by
  simp only [move, there]

/-- Everything that one move can do. -/
theorem move_cases (f : Traffic) (m : Move) :
    (∃ name, f.move m = ⟨f.compiler, f.compilations ++ [⟨name, .called⟩]⟩) ∨
    f.move m = f ∨
    ∃ place x progress compiler, m = .advance place ∧ f.compilations[place]? = some x ∧
      x.progress.Advances x.name f.compiler progress compiler ∧
      f.move m = ⟨compiler, f.compilations.set place ⟨x.name, progress⟩⟩ := by
  cases m with
  | call name => exact .inl ⟨name, rfl⟩
  | advance place =>
    cases there : f.compilations[place]? with
    | none => exact .inr (.inl (by simp only [move, there]))
    | some x =>
      exact .inr (.inr ⟨place, x, _, _, rfl, there, x.progress.advances x.name f.compiler,
        move_advance there⟩)

/-- What is true of a compiler and the calls of it at any time. -/
structure Sound (f : Traffic) : Prop where
  reachable : f.compiler.Reachable
  each : ∀ x ∈ f.compilations, x.progress.Sound x.name f.compiler
  /-- A name that is stored has been offered. -/
  from_offer : ∀ name ∈ f.compiler.methods.map (·.1),
    ∃ x ∈ f.compilations, x.name = name ∧ x.progress.hasOffered = true
  /-- Calls that have both missed make objects of their own, also for one name. -/
  apart : ∀ (i j : Nat) (x y : Compilation) (a b : CompiledMethod),
    f.compilations[i]? = some x → f.compilations[j]? = some y →
    x.progress = .made a → y.progress = .made b → a.identity = b.identity → i = j

/-- The compiler has grown, and no call has been forgotten or has another answer. -/
structure Leads (f g : Traffic) : Prop where
  grows : f.compiler.Grows g.compiler
  kept : ∀ (place : Nat) (x : Compilation), f.compilations[place]? = some x →
    ∃ y : Compilation, g.compilations[place]? = some y ∧ y.name = x.name ∧
      (x.progress.outcome?.isSome = true → y = x)

variable {f g h : Traffic}

theorem Leads.refl (f : Traffic) : f.Leads f :=
  ⟨.refl _, fun _ x there => ⟨x, there, rfl, fun _ => rfl⟩⟩

theorem Leads.trans (first : f.Leads g) (second : g.Leads h) : f.Leads h := by
  refine ⟨first.grows.trans second.grows, fun place x there => ?_⟩
  obtain ⟨y, between, name, same⟩ := first.kept place x there
  obtain ⟨z, after, name', same'⟩ := second.kept place y between
  refine ⟨z, after, name'.trans name, fun final => ?_⟩
  obtain rfl := same final
  exact same' final

theorem Sound.init : Sound {} := ⟨.empty, by simp, by simp, by simp⟩

theorem leads_move (f : Traffic) (m : Move) : f.Leads (f.move m) := by
  obtain ⟨name, eq⟩ | eq | ⟨place, x, progress, compiler, -, there, step, eq⟩ := f.move_cases m
  · rw [eq]
    refine ⟨.refl _, fun place x there => ⟨x, ?_, rfl, fun _ => rfl⟩⟩
    exact List.getElem?_append_left (List.getElem?_eq_some_iff.mp there).1 |>.trans there
  · rw [eq]
    exact .refl f
  · rw [eq]
    refine ⟨step.grows, fun other y here => ?_⟩
    rcases eq_or_ne place other with rfl | apart
    · obtain rfl := Option.some.inj (there.symm.trans here)
      have inside := (List.getElem?_eq_some_iff.mp there).1
      refine ⟨⟨x.name, progress⟩, List.getElem?_set_self inside, rfl, fun final => ?_⟩
      rw [(step.eq_of_outcome? final).1]
    · exact ⟨y, (List.getElem?_set_ne apart).trans here, rfl, fun _ => rfl⟩

/-- An object that waits to be offered has waited before the move, or is new with it. -/
theorem made_of_move {m : Move} {place : Nat} {y : Compilation} {a : CompiledMethod}
    (here : (f.move m).compilations[place]? = some y) (made : y.progress = .made a) :
    f.compilations[place]? = some y ∨ m = .advance place ∧ a.identity = f.compiler.made := by
  obtain ⟨name, eq⟩ | eq | ⟨other, x, progress, compiler, rfl, there, step, eq⟩ := f.move_cases m
  · rw [eq, List.getElem?_append] at here
    split at here
    next => exact .inl here
    next =>
      obtain rfl := List.mem_singleton.mp (List.mem_of_getElem? here)
      cases made
  · rw [eq] at here
    exact .inl here
  · rw [eq] at here
    rcases eq_or_ne other place with rfl | apart
    · have inside := (List.getElem?_eq_some_iff.mp there).1
      obtain rfl := Option.some.inj ((List.getElem?_set_self inside).symm.trans here)
      exact .inr ⟨rfl, step.identity_of_made made⟩
    · exact .inl ((List.getElem?_set_ne apart).symm.trans here)

theorem Sound.apart_of_move (sound : f.Sound) (m : Move) (i j : Nat) (x y : Compilation)
    (a b : CompiledMethod) (here : (f.move m).compilations[i]? = some x)
    (there : (f.move m).compilations[j]? = some y) (made : x.progress = .made a)
    (made' : y.progress = .made b) (same : a.identity = b.identity) : i = j := by
  have older : ∀ {place : Nat} {z : Compilation} {c : CompiledMethod},
      f.compilations[place]? = some z → z.progress = .made c → c.identity < f.compiler.made := by
    intro place z c spot waiting
    have known := sound.each z (List.mem_of_getElem? spot)
    rw [waiting] at known
    exact known.2
  rcases made_of_move here made with old | ⟨rfl, new⟩ <;>
    rcases made_of_move there made' with old' | ⟨moved, new'⟩
  · exact sound.apart i j x y a b old old' made made' same
  · have := older old made
    omega
  · have := older old' made'
    omega
  · exact Move.advance.inj moved

theorem Sound.move (sound : f.Sound) (m : Move) : (f.move m).Sound := by
  have apart := sound.apart_of_move m
  obtain ⟨name, eq⟩ | eq | ⟨place, x, progress, compiler, -, there, step, eq⟩ := f.move_cases m
  · rw [eq] at apart ⊢
    refine ⟨sound.reachable, fun x mem => ?_, fun other mem => ?_, apart⟩
    · rcases List.mem_append.mp mem with old | new
      · exact sound.each x old
      · obtain rfl := List.mem_singleton.mp new
        trivial
    · obtain ⟨x, mem, named⟩ := sound.from_offer other mem
      exact ⟨x, List.mem_append_left _ mem, named⟩
  · rw [eq]
    exact sound
  · rw [eq] at apart ⊢
    have mem : x ∈ f.compilations := List.mem_of_getElem? there
    have inside := (List.getElem?_eq_some_iff.mp there).1
    have moved : ⟨x.name, progress⟩ ∈ f.compilations.set place ⟨x.name, progress⟩ :=
      List.mem_of_getElem? (List.getElem?_set_self inside)
    refine ⟨step.reachable (sound.each x mem) sound.reachable, fun y here => ?_,
      fun other stored => ?_, apart⟩
    · rcases List.mem_or_eq_of_mem_set here with old | rfl
      · exact (sound.each y old).of_grows step.grows
      · exact step.sound (sound.each x mem)
    · rcases step.mem_names stored with before | ⟨rfl, offered⟩
      · obtain ⟨y, old, name, offered⟩ := sound.from_offer other before
        obtain ⟨at', spot⟩ := List.mem_iff_getElem?.mp old
        obtain ⟨z, after, -, same⟩ := (f.leads_move m).kept at' y spot
        obtain rfl := same (Progress.isSome_outcome?_of_hasOffered offered)
        rw [eq] at after
        exact ⟨z, List.mem_of_getElem? after, name, offered⟩
      · exact ⟨_, moved, rfl, offered⟩

theorem leads_run (f : Traffic) (moves : List Move) : f.Leads (f.run moves) := by
  induction moves generalizing f with
  | nil => exact .refl f
  | cons m rest ih => exact (f.leads_move m).trans (ih (f.move m))

theorem Sound.run (sound : f.Sound) (moves : List Move) : (f.run moves).Sound := by
  induction moves generalizing f with
  | nil => exact sound
  | cons m rest ih => exact ih (sound.move m)

theorem compiler_move_advance {place : Nat} {x : Compilation}
    (there : f.compilations[place]? = some x) :
    (f.move (.advance place)).compiler = (x.progress.advance x.name f.compiler).2 := by
  rw [move_advance there]

theorem getElem?_move_advance {place : Nat} {x : Compilation}
    (there : f.compilations[place]? = some x) :
    (f.move (.advance place)).compilations[place]? =
      some ⟨x.name, (x.progress.advance x.name f.compiler).1⟩ := by
  rw [move_advance there]
  exact List.getElem?_set_self (List.getElem?_eq_some_iff.mp there).1

/-- Whoever is let go on comes to an answer, however far the others are. -/
theorem getElem?_run_advance {place : Nat} {x : Compilation}
    (there : f.compilations[place]? = some x) :
    (f.run (List.replicate 3 (.advance place))).compilations[place]? =
      some ⟨x.name, (x.progress.finish x.name f.compiler).1⟩ := by
  have first := getElem?_move_advance there
  have second := getElem?_move_advance first
  have third := getElem?_move_advance second
  rw [compiler_move_advance first, compiler_move_advance there] at third
  exact third

/-- The answers of a call: what its name reads as and, if it can be read, the object stored. -/
theorem Sound.of_outcome? (sound : f.Sound) {x : Compilation} (mem : x ∈ f.compilations)
    {outcome : Except Failure CompiledMethod} (final : x.progress.outcome? = some outcome) :
    outcome.map (·.method) = MethodName.parse x.name ∧
      ∀ stored, outcome = .ok stored → f.compiler.lookup? x.name = some stored := by
  have known := sound.each x mem
  cases progressed : x.progress with
  | called | missed | made =>
    rw [progressed] at final
    cases final
  | refused failure =>
    rw [progressed] at final known
    cases final
    exact ⟨known.symm, fun _ impossible => by cases impossible⟩
  | found stored | offered stored =>
    rw [progressed] at final known
    cases final
    refine ⟨(sound.reachable.parse_of_mem _ _ (mem_of_lookup known)).symm, ?_⟩
    rintro _ ⟨⟩
    exact known

theorem Sound.contains_iff (sound : f.Sound) (name : String) :
    f.compiler.contains name = true ↔
      ∃ x ∈ f.compilations, x.name = name ∧ x.progress.hasOffered = true := by
  rw [Compiler.contains_iff]
  refine ⟨sound.from_offer name, ?_⟩
  rintro ⟨x, mem, rfl, offered⟩
  have known := sound.each x mem
  cases progressed : x.progress with
  | offered stored =>
    rw [progressed] at known
    exact List.mem_map_of_mem (mem_of_lookup known)
  | called | missed | made | refused | found =>
    rw [progressed] at offered
    cases offered

theorem Sound.size_eq (sound : f.Sound) :
    f.compiler.size =
      ((f.compilations.filter (·.progress.hasOffered)).map (·.name)).dedup.length := by
  have stored : (f.compiler.methods.map (·.1)).Perm
      ((f.compilations.filter (·.progress.hasOffered)).map (·.name)).dedup := by
    refine (List.perm_ext_iff_of_nodup sound.reachable.names_nodup (List.nodup_dedup _)).mpr ?_
    intro name
    rw [← Compiler.contains_iff, sound.contains_iff, List.mem_dedup, List.mem_map]
    constructor
    · rintro ⟨x, mem, rfl, offered⟩
      exact ⟨x, List.mem_filter.mpr ⟨mem, offered⟩, rfl⟩
    · rintro ⟨x, mem, rfl⟩
      exact ⟨x, (List.mem_filter.mp mem).1, rfl, (List.mem_filter.mp mem).2⟩
  rw [← stored.length_eq, List.length_map]
  rfl

/-- However the steps of many callers come one after another, all who ask for a name that can be
read are given one object, though each may have made its own, the others are given the reason, and
every name is stored once. -/
theorem run_compiles_once (moves later : List Move) :
    let f := run {} moves
    let g := f.run later
    (∀ x ∈ f.compilations, ∀ y ∈ f.compilations, x.name = y.name → ∀ a b,
      x.progress.outcome? = some (.ok a) → y.progress.outcome? = some (.ok b) → a = b) ∧
    (∀ (i j : Nat) (x y : Compilation) (a b : CompiledMethod),
      f.compilations[i]? = some x → f.compilations[j]? = some y →
      x.progress = .made a → y.progress = .made b → a.identity = b.identity → i = j) ∧
    (∀ x ∈ f.compilations, ∀ outcome, x.progress.outcome? = some outcome →
      outcome.map (·.method) = MethodName.parse x.name) ∧
    (∀ place x failure, f.compilations[place]? = some x →
      MethodName.parse x.name = .error failure →
        (f.move (.advance place)).compiler = f.compiler) ∧
    (∀ name, f.compiler.contains name = true ↔
      ∃ x ∈ f.compilations, x.name = name ∧ x.progress.hasOffered = true) ∧
    f.compiler.size =
      ((f.compilations.filter (·.progress.hasOffered)).map (·.name)).dedup.length ∧
    f.compiler.size ≤ g.compiler.size ∧
    (∀ (place : Nat) (x : Compilation), f.compilations[place]? = some x →
      x.progress.outcome?.isSome = true → g.compilations[place]? = some x) ∧
    ∀ (place : Nat) (x : Compilation), f.compilations[place]? = some x →
      ∃ y outcome, (f.run (List.replicate 3 (.advance place))).compilations[place]? = some y ∧
        y.name = x.name ∧ y.progress.outcome? = some outcome := by
  intro f g
  have sound : f.Sound := Sound.init.run moves
  have leads : f.Leads g := f.leads_run later
  refine ⟨?_, sound.apart, fun x mem outcome final => (sound.of_outcome? mem final).1, ?_,
    sound.contains_iff, sound.size_eq, leads.grows.size, ?_, ?_⟩
  · intro x here y there same a b left right
    have known := (sound.of_outcome? here left).2 a rfl
    have known' := (sound.of_outcome? there right).2 b rfl
    rw [same] at known
    exact Option.some.inj (known.symm.trans known')
  · intro place x failure there parsed
    rw [compiler_move_advance there]
    exact (x.progress.advances x.name f.compiler).eq_of_parse parsed
      (sound.each x (List.mem_of_getElem? there))
  · intro place x there final
    obtain ⟨y, after, -, same⟩ := leads.kept place x there
    rwa [same final] at after
  · intro place x there
    obtain ⟨outcome, final⟩ := Option.isSome_iff_exists.mp
      (isSome_outcome?_finish x.name x.progress f.compiler)
    exact ⟨_, outcome, getElem?_run_advance there, rfl, final⟩

/-- Two callers miss one name, and what the second of them offers first is kept. -/
example :
    ((run {} [.call "getById", .call "getById", .advance 0, .advance 1, .advance 0,
      .advance 1, .advance 1, .advance 0]).compilations.map (·.progress.outcome?.map
        (·.toOption.map (·.identity)))) = [some (some 1), some (some 1)] := by
  decide +kernel

end Traffic

end RecordMapper.Compiler
