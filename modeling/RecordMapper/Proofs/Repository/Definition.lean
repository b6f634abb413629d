import RecordMapper.Proofs.Record.Entries
import RecordMapper.Repository.Definition

/-!
What a definition keeps. However the compiler was used before, each declared method is bound to the
reading of its own name and to the shape that was declared with it.
-/

namespace RecordMapper

namespace Compiler

/-- The compilers that arise from reading names and storing the results, in whatever order. -/
inductive Reachable : Compiler → Prop
  | empty : Reachable {}
  | allocate {c : Compiler} (method : MethodName) (before : Reachable c) :
    Reachable (c.allocate method).2
  | offer {c : Compiler} {name : String} {compiled : CompiledMethod} (before : Reachable c)
    (parsed : MethodName.parse name = .ok compiled.method) : Reachable (c.offer name compiled).2

theorem Reachable.compile {c : Compiler} (name : String) (h : c.Reachable) :
    (c.compile name).2.Reachable := by
  unfold Compiler.compile
  split
  next => exact h
  next =>
    split
    next => exact h
    next method parsed => exact .offer (h.allocate method) parsed

theorem Reachable.parse_of_mem {c : Compiler} (h : c.Reachable) :
    ∀ name compiled, (name, compiled) ∈ c.methods →
      MethodName.parse name = .ok compiled.method := by
  induction h with
  | empty => simp
  | allocate method _ ih => exact ih
  | @offer c name compiled _ parsed ih =>
    intro other stored mem
    unfold Compiler.offer at mem
    split at mem
    next => exact ih other stored mem
    next =>
      rcases List.mem_append.mp mem with old | new
      · exact ih other stored old
      · obtain ⟨rfl, rfl⟩ := by simpa using new
        exact parsed

theorem Reachable.parse_of_compile {c : Compiler} {name : String} {compiled : CompiledMethod}
    (h : c.Reachable) (compiles : (c.compile name).1 = .ok compiled) :
    MethodName.parse name = .ok compiled.method := by
  unfold Compiler.compile at compiles
  split at compiles
  next stored found =>
    cases compiles
    exact h.parse_of_mem name _ (mem_of_lookup found)
  next unknown =>
    split at compiles
    next => cases compiles
    next method parsed =>
      have fresh : (c.allocate method).2.lookup? name = none := unknown
      simp only [Compiler.offer, fresh] at compiles
      cases compiles
      exact parsed

end Compiler

namespace RepositoryDefinition

/-- A name is bound to its own reading and to a shape. -/
def Binds (d : RepositoryDefinition) (name : String) (shape : ReturnShape) : Prop :=
  ∃ compiled, d.method? name = some ⟨compiled, shape⟩ ∧
    MethodName.parse name = .ok compiled.method

theorem Binds.exists_method? {d : RepositoryDefinition} {name : String} {shape : ReturnShape}
    {m : MethodName} (binds : d.Binds name shape) (parsed : MethodName.parse name = .ok m) :
    ∃ identity, d.method? name = some ⟨⟨identity, m⟩, shape⟩ := by
  obtain ⟨⟨identity, method⟩, declared, reading⟩ := binds
  obtain rfl : method = m := Except.ok.inj (reading.symm.trans parsed)
  exact ⟨identity, declared⟩

theorem declare_ok {d d' : RepositoryDefinition} {name : String} {shape : ReturnShape}
    {c : Compiler} (reachable : c.Reachable) (declared : (d.declare name shape c).1 = .ok d') :
    (d.declare name shape c).2.Reachable ∧ d'.Binds name shape ∧
      ∀ other binding, d.method? other = some binding → d'.method? other = some binding := by
  have after := reachable.compile name
  unfold declare at declared ⊢
  cases compiles : c.compile name with
  | mk outcome c' =>
    rw [compiles] at after
    cases outcome with
    | error failure => simp [compiles] at declared
    | ok compiled =>
      have parsed := reachable.parse_of_compile (by rw [compiles])
      simp only [compiles] at declared ⊢
      split at declared
      next => cases declared
      next =>
        split at declared
        next => cases declared
        next fits unbound =>
          cases declared
          have free : lookup name d.methods = none := by simpa [method?] using unbound
          refine ⟨?_, ⟨compiled, ?_, parsed⟩, fun other binding bound => ?_⟩
          · simpa [fits, unbound] using after
          · simp [method?, lookup_append, free, lookup]
          · rw [method?, lookup_append, show lookup other d.methods = some binding from bound]
            rfl

theorem declareAll_ok {d d' : RepositoryDefinition} {methods : List (String × ReturnShape)}
    {c : Compiler} (reachable : c.Reachable) (declared : (d.declareAll methods c).1 = .ok d') :
    (∀ entry ∈ methods, d'.Binds entry.1 entry.2) ∧
      ∀ other binding, d.method? other = some binding → d'.method? other = some binding := by
  induction methods generalizing d c with
  | nil =>
    cases declared
    exact ⟨by simp, fun _ _ bound => bound⟩
  | cons entry methods ih =>
    obtain ⟨name, shape⟩ := entry
    cases step : d.declare name shape c with
    | mk outcome c' =>
      cases outcome with
      | error failure => simp [declareAll, step] at declared
      | ok mid =>
        have first : (d.declare name shape c).1 = .ok mid := by rw [step]
        obtain ⟨after, own, kept⟩ := declare_ok reachable first
        rw [step] at after
        obtain ⟨later, preserved⟩ := ih after (by simpa [declareAll, step] using declared)
        refine ⟨fun entry mem => ?_, fun other binding bound =>
          preserved other binding (kept other binding bound)⟩
        rcases List.mem_cons.mp mem with rfl | mem
        · obtain ⟨compiled, bound, parsed⟩ := own
          exact ⟨compiled, preserved name _ bound, parsed⟩
        · exact later entry mem

theorem withCompiler_ok {d : RepositoryDefinition} {methods : List (String × ReturnShape)}
    {c : Compiler} (reachable : c.Reachable) (defined : (withCompiler c methods).1 = .ok d)
    {name : String} {shape : ReturnShape} (declared : (name, shape) ∈ methods) :
    d.Binds name shape :=
  (declareAll_ok reachable defined).1 (name, shape) declared

end RepositoryDefinition

end RecordMapper
