import RecordMapper.Template.Entity

/-! The results of repository query methods. -/

namespace RecordMapper

/-- Records that are converted one by one, on demand. -/
structure EntityStream where
  type : TypeKey
  records : List Record

namespace EntityStream

variable {σ : Type}

/-- How many records are not converted yet. -/
def remaining (s : EntityStream) : Nat := s.records.length

def inspect (s : EntityStream) : String :=
  Text.members "EntityStream" [("remaining", toString s.remaining)]

/-- Converts the next record; `none` at the end. -/
def next? (t : Template σ) (s : EntityStream) : Option (Action σ Entity × EntityStream) :=
  match s.records with
  | [] => none
  | r :: rest => some (t.toEntity s.type r, { s with records := rest })

theorem remaining_of_next? {t : Template σ} {s rest : EntityStream} {x : Action σ Entity}
    (h : s.next? t = some (x, rest)) : s.remaining = rest.remaining + 1 := by
  cases s with | mk type records =>
    cases records with
    | nil => simp [next?] at h
    | cons r rs =>
      obtain ⟨-, rfl⟩ := Prod.mk.inj (Option.some.inj h)
      rfl

/-- The outcome of every conversion to come, with how many records were left before it. -/
def outcomes (t : Template σ) (s : EntityStream) :
    Action σ (List (Nat × Except Failure Entity)) :=
  match _h : s.next? t with
  | none => pure []
  | some (x, rest) => do
    let e ← Action.attempt x
    let later ← rest.outcomes t
    pure ((s.remaining, e) :: later)
termination_by s.remaining
decreasing_by
  have := remaining_of_next? _h
  omega

def collect (t : Template σ) (s : EntityStream) : Action σ (List Entity) :=
  s.records.mapM (t.toEntity s.type)

end EntityStream

inductive QueryResult where
  | one (e : Option Entity)
  | optional (e : Option Entity)
  | list (es : List Entity)
  | set (es : List Entity)
  | stream (s : EntityStream)
  | boolean (b : Bool)
  | unit

namespace QueryResult

variable {σ : Type}

/-- The entity of a result that holds at most one. -/
def toSingle? : QueryResult → Option Entity
  | one e | optional e => e
  | _ => none

/-- Every entity of the result; a stream is converted to its end. -/
def toList (t : Template σ) : QueryResult → Action σ (List Entity)
  | one e | optional e => pure e.toList
  | list es | set es => pure es
  | stream s => s.collect t
  | boolean _ | unit => pure []

def asBool? : QueryResult → Option Bool
  | boolean b => some b
  | _ => none

def isUnit : QueryResult → Bool
  | unit => true
  | _ => false

end QueryResult

end RecordMapper
