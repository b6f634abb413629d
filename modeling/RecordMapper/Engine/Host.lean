import RecordMapper.Engine.Config

/-!
The configurations and builders of one process. A builder works on a configuration of its own and
keeps the first failure there, which it returns instead of an engine. All handles on a configuration
share its state, and all configurations share the separator.
-/

namespace RecordMapper

/-- An engine as it was assembled: the configuration it holds, and the registry it reads with. -/
structure BuiltEngine where
  config : Nat
  registry : RegistryHandle

structure Host (σ : Type) where
  separator : String := "."
  /-- The configurations by number, new ones included. -/
  configs : Nat → Config σ := fun _ => {}
  /-- The failure that the builder of a configuration has kept. -/
  kept : Nat → Option Failure := fun _ => none

namespace Host

variable {σ : Type}

/-- A call on a configuration, on the builder of one, or the end of a builder. -/
inductive Call (σ : Type) where
  | change (config : Nat) (ch : Config.Change σ)
  | configure (builder : Nat) (ch : Config.Change σ)
  | build (builder : Nat)

def change (p : Host σ) (k : Nat) (ch : Config.Change σ) : Except Failure Unit × Host σ :=
  match (p.configs k).change p.separator ch with
  | .error failure => (.error failure, p)
  | .ok (c, separator) =>
    (.ok (), { p with separator, configs := fun i => if i = k then c else p.configs i })

def configure (p : Host σ) (k : Nat) (ch : Config.Change σ) : Host σ :=
  match p.kept k with
  | some _ => p
  | none =>
    match p.change k ch with
    | (.ok (), p) => p
    | (.error failure, p) => { p with kept := fun i => if i = k then some failure else p.kept i }

def build (p : Host σ) (k : Nat) : Except Failure BuiltEngine × Host σ :=
  match p.kept k with
  | some failure => (.error failure, p)
  | none =>
    let c := (p.configs k).freeze
    (.ok ⟨k, c.registry⟩, { p with configs := fun i => if i = k then c else p.configs i })

def call (p : Host σ) : Call σ → Host σ
  | .change k ch => (p.change k ch).2
  | .configure k ch => p.configure k ch
  | .build k => (p.build k).2

def run (p : Host σ) (calls : List (Call σ)) : Host σ := calls.foldl call p

end Host

end RecordMapper
