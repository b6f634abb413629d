import RecordMapper.Record
import RecordMapper.Calendar.Timestamp

/-!
The contents of entity fields, typed as the application declares them, and their order, which sets
and maps of contents are built by.
-/

namespace RecordMapper

inductive SequenceKind where
  | list | queue | sortedSet | hashedSet
  deriving DecidableEq

inductive MappingKind where
  | sorted | hashed
  deriving DecidableEq

/-- A member of a compound; one that is not kept never leaves the application. -/
structure Member (τ : Type) where
  name : String
  kept : Bool
  content : τ

inductive Datum where
  | int (n : Integer)
  | f32 (x : Binary)
  | f64 (x : Binary)
  | bool (b : Bool)
  | char (c : Char)
  | string (s : String)
  | record (r : Record)
  | value (v : Value)
  | date (d : Date)
  | timestamp (t : Timestamp)
  | absent
  | present (content : Datum)
  | sequence (kind : SequenceKind) (items : List Datum)
  | mapping (kind : MappingKind) (pairs : List (Datum × Datum))
  | variant (index : Nat) (name : String)
  | compound (name : String) (members : List (Member Datum))

instance : Inhabited Datum := ⟨.absent⟩

namespace Datum

def compareDates (a b : Date) : Ordering := compare a.dayNumber b.dayNumber

/-- The order of contents of one type that hold no contents themselves. -/
def compareScalars : Datum → Datum → Ordering
  | .int a, .int b => compare a.val b.val
  | .f32 a, .f32 b | .f64 a, .f64 b => a.cmp b
  | .bool a, .bool b => compare a b
  | .char a, .char b => compare a b
  | .string a, .string b => compare a b
  | .record a, .record b => a.cmp b
  | .value a, .value b => a.cmp b
  | .date a, .date b => compareDates a b
  | .timestamp a, .timestamp b => a.cmp b
  | .variant i _, .variant j _ => compare i j
  | .absent, .present _ => .lt
  | .present _, .absent => .gt
  | _, _ => .eq

mutual

def cmp : Datum → Datum → Ordering
  | .present a, .present b => cmp a b
  | .sequence _ as, .sequence _ bs => cmpItems as bs
  | .mapping _ ps, .mapping _ qs => cmpPairs ps qs
  | .compound _ ms, .compound _ ns => cmpMembers ms ns
  | a, b => compareScalars a b
termination_by structural a => a

def cmpItems : List Datum → List Datum → Ordering
  | [], [] => .eq
  | [], _ :: _ => .lt
  | _ :: _, [] => .gt
  | a :: as, b :: bs => (cmp a b).then (cmpItems as bs)
termination_by structural a => a

def cmpPair : Datum × Datum → Datum × Datum → Ordering
  | (k, v), (l, w) => (cmp k l).then (cmp v w)
termination_by structural a => a

def cmpPairs : List (Datum × Datum) → List (Datum × Datum) → Ordering
  | [], [] => .eq
  | [], _ :: _ => .lt
  | _ :: _, [] => .gt
  | p :: ps, q :: qs => (cmpPair p q).then (cmpPairs ps qs)
termination_by structural a => a

def cmpMember : Member Datum → Member Datum → Ordering
  | ⟨_, _, a⟩, ⟨_, _, b⟩ => cmp a b
termination_by structural a => a

def cmpMembers : List (Member Datum) → List (Member Datum) → Ordering
  | [], [] => .eq
  | [], _ :: _ => .lt
  | _ :: _, [] => .gt
  | m :: ms, n :: ns => (cmpMember m n).then (cmpMembers ms ns)
termination_by structural a => a

end

/-- Adds to a sorted set; of equal items the one added last stays. -/
def insertSorted (d : Datum) : List Datum → List Datum
  | [] => [d]
  | e :: rest =>
    match d.cmp e with
    | .lt => d :: e :: rest
    | .eq => d :: rest
    | .gt => e :: insertSorted d rest

/-- Adds to a set without order; of equal items the one added first stays. -/
def insertHashed (items : List Datum) (d : Datum) : List Datum :=
  if items.any (fun e => d.cmp e == .eq) then items else items ++ [d]

/-- Adds to a sorted map; of equal keys the pair added last stays. -/
def insertSortedPair (p : Datum × Datum) : List (Datum × Datum) → List (Datum × Datum)
  | [] => [p]
  | q :: rest =>
    match p.1.cmp q.1 with
    | .lt => p :: q :: rest
    | .eq => p :: rest
    | .gt => q :: insertSortedPair p rest

/-- Adds to a map without order; an equal key keeps its place and takes the value. -/
def insertHashedPair (p : Datum × Datum) : List (Datum × Datum) → List (Datum × Datum)
  | [] => [p]
  | q :: rest => if p.1.cmp q.1 == .eq then (q.1, p.2) :: rest else q :: insertHashedPair p rest

/-- The map that pairs collect into. -/
def collectPairs (kind : MappingKind) (pairs : List (Datum × Datum)) : Datum :=
  .mapping kind <|
    match kind with
    | .sorted => pairs.foldl (fun map p => insertSortedPair p map) []
    | .hashed => pairs.foldl (fun map p => insertHashedPair p map) []

end Datum

end RecordMapper
