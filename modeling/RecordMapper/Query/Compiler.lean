import RecordMapper.Query.Binding

/-!
The compiler of method names keeps one compiled object per name. A compilation looks its name up
and, on a miss, parses it and offers the result, which loses against an object that was offered
first.
-/

namespace RecordMapper

/-- A compiled method name with an identity of its own. -/
structure CompiledMethod where
  identity : Nat
  method : MethodName
  deriving DecidableEq

structure Compiler where
  methods : List (String × CompiledMethod) := []
  /-- How many objects have been made so far, offered and refused ones alike. -/
  made : Nat := 0

namespace Compiler

def lookup? (c : Compiler) (name : String) : Option CompiledMethod :=
  RecordMapper.lookup name c.methods

def contains (c : Compiler) (name : String) : Bool := (c.lookup? name).isSome

def size (c : Compiler) : Nat := c.methods.length

/-- Makes a new object. -/
def allocate (c : Compiler) (method : MethodName) : CompiledMethod × Compiler :=
  (⟨c.made, method⟩, { c with made := c.made + 1 })

/-- Stores an object under a name that has none, and returns the one stored. -/
def offer (c : Compiler) (name : String) (compiled : CompiledMethod) : CompiledMethod × Compiler :=
  match c.lookup? name with
  | some stored => (stored, c)
  | none => (compiled, { c with methods := c.methods ++ [(name, compiled)] })

def compile (c : Compiler) (name : String) : Except Failure CompiledMethod × Compiler :=
  match c.lookup? name with
  | some stored => (.ok stored, c)
  | none =>
    match MethodName.parse name with
    | .error failure => (.error failure, c)
    | .ok method =>
      let (fresh, c) := c.allocate method
      let (stored, c) := c.offer name fresh
      (.ok stored, c)

end Compiler

end RecordMapper
