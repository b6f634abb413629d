import RecordMapper.Value.Order
import RecordMapper.Value.Hash
import RecordMapper.Text.Split

/-!
Records as insertion-ordered maps. A written name keeps its place for as long as it is present;
removing it keeps the order of the others.
-/

namespace RecordMapper

/-- The value under the first entry of a name. -/
def lookup {α : Type} (name : String) : List (String × α) → Option α
  | [] => none
  | (n, v) :: rest => if n == name then some v else lookup name rest

/-- Writes an entry in place, or at the end, and returns the value it replaces. -/
def writeEntry {α : Type} (name : String) (value : α) :
    List (String × α) → Option α × List (String × α)
  | [] => (none, [(name, value)])
  | (n, v) :: rest =>
    if n == name then (some v, (n, value) :: rest)
    else
      let (old, written) := writeEntry name value rest
      (old, (n, v) :: written)

/-- Removes the first entry of a name and returns its value. -/
def removeEntry {α : Type} (name : String) : List (String × α) → Option α × List (String × α)
  | [] => (none, [])
  | (n, v) :: rest =>
    if n == name then (some v, rest)
    else
      let (old, kept) := removeEntry name rest
      (old, (n, v) :: kept)

namespace Record

def empty (name : String) : Record := ⟨name, []⟩

def rename (r : Record) (name : String) : Record := { r with name }

def find? (r : Record) (name : String) : Option Value := lookup name r.entries

def contains (r : Record) (name : String) : Bool := (r.find? name).isSome

def names (r : Record) : List String := r.entries.map (·.1)

def size (r : Record) : Nat := r.entries.length

def isEmpty (r : Record) : Bool := r.entries.isEmpty

/-- Writes an entry and returns the value it replaces. -/
def exchange (r : Record) (name : String) (value : Value) : Option Value × Record :=
  let (old, entries) := writeEntry name value r.entries
  (old, { r with entries })

def put (r : Record) (name : String) (value : Value) : Record := (r.exchange name value).2

def remove (r : Record) (name : String) : Option Value × Record :=
  let (old, entries) := removeEntry name r.entries
  (old, { r with entries })

/-- Writes every entry of the other record; the name stays. -/
def splice (r other : Record) : Record := other.entries.foldl (fun s e => s.put e.1 e.2) r

/-- Two records are equal when they have the same name and each entry of the one is an entry of the
other, in whatever order. -/
def beq (a b : Record) : Bool :=
  a.name == b.name && a.size == b.size && a.entries.all fun e =>
    match b.find? e.1 with
    | some w => e.2 == w
    | none => false

instance : BEq Record := ⟨beq⟩

def cmp (a b : Record) : Ordering := (Value.ofRecord a).cmp (.ofRecord b)

def hashWords (r : Record) : List HashWord := (Value.ofRecord r).hashWords.drop 1

/-- Follows a path of entry names through nested records. An entry whose name is the whole path wins
over the nested lookup; the path is cut at the first separator. -/
def findAt (sep : List Char) (entries : List (String × Value)) (path : List Char) : Option Value :=
  match lookup (String.ofList path) entries with
  | some v => some v
  | none =>
    if _hs : sep = [] then none
    else
      match _hc : Text.cut? sep path with
      | none => none
      | some (head, tail) =>
        match lookup (String.ofList head) entries with
        | some (.record _ nested) => findAt sep nested tail
        | _ => none
termination_by path.length
decreasing_by
  have hlen := Text.length_of_cut? _hc
  have hpos : 0 < sep.length := List.length_pos_iff.mpr _hs
  omega

def findPath? (r : Record) (sep path : String) : Option Value :=
  findAt sep.toList r.entries path.toList

end Record

end RecordMapper
