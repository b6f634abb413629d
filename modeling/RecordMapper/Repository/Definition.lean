import RecordMapper.Query.Compiler

/-! The query methods that a repository declares, each with the shape it returns. -/

namespace RecordMapper

/-- Whether a kind of query can return a shape. -/
def ReturnShape.accepts : ReturnShape → QueryKind → Bool
  | .unit, .delete => true
  | .boolean, .existence => true
  | _, .delete | _, .existence => false
  | .boolean, _ | .unit, _ => false
  | _, _ => true

structure MethodBinding where
  compiled : CompiledMethod
  shape : ReturnShape

structure RepositoryDefinition where
  methods : List (String × MethodBinding) := []

namespace RepositoryDefinition

def method? (d : RepositoryDefinition) (name : String) : Option MethodBinding :=
  lookup name d.methods

def size (d : RepositoryDefinition) : Nat := d.methods.length

/-- Compiles one declared method and adds it to the definition. -/
def declare (d : RepositoryDefinition) (name : String) (shape : ReturnShape) (c : Compiler) :
    Except Failure RepositoryDefinition × Compiler :=
  match c.compile name with
  | (.error failure, c) => (.error failure, c)
  | (.ok compiled, c) =>
    if !shape.accepts compiled.method.kind then (.error (.wrongShape name shape), c)
    else if (d.method? name).isSome then (.error (.duplicateMethod name), c)
    else (.ok { methods := d.methods ++ [(name, ⟨compiled, shape⟩)] }, c)

/-- Adds methods in order, up to the first failure. -/
def declareAll (d : RepositoryDefinition) :
    List (String × ReturnShape) → Compiler → Except Failure RepositoryDefinition × Compiler
  | [], c => (.ok d, c)
  | (name, shape) :: rest, c =>
    match d.declare name shape c with
    | (.error failure, c) => (.error failure, c)
    | (.ok d, c) => d.declareAll rest c

def withCompiler (c : Compiler) (methods : List (String × ReturnShape)) :
    Except Failure RepositoryDefinition × Compiler := declareAll {} methods c

end RepositoryDefinition

end RecordMapper
