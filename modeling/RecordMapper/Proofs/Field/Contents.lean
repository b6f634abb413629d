import RecordMapper.Field.Type
import RecordMapper.Proofs.Field.Collecting

/-!
What a field of a type can hold: the contents that conversion restores, and what it restores them
to.
-/

namespace RecordMapper

/-- Items as a sequence of the kind has them. -/
def SequenceKind.Arranged : SequenceKind → List Datum → Prop
  | .list, _ | .queue, _ => True
  | .sortedSet, items => Ascending Datum.cmp id items
  | .hashedSet, items => items.Pairwise (Differ Datum.cmp id)

instance (kind : SequenceKind) (items : List Datum) : Decidable (kind.Arranged items) :=
  match kind with
  | .list | .queue => isTrue trivial
  | .sortedSet => inferInstanceAs (Decidable (items.Pairwise fun d e => d.cmp e = .lt))
  | .hashedSet => inferInstanceAs
    (Decidable (items.Pairwise fun d e => d.cmp e ≠ .eq ∧ e.cmp d ≠ .eq))

/-- Pairs as a map of the kind has them. -/
def MappingKind.Arranged : MappingKind → List (Datum × Datum) → Prop
  | .sorted, pairs => Ascending Datum.cmp Prod.fst pairs
  | .hashed, pairs => pairs.Pairwise (Differ Datum.cmp Prod.fst)

instance (kind : MappingKind) (pairs : List (Datum × Datum)) : Decidable (kind.Arranged pairs) :=
  match kind with
  | .sorted => inferInstanceAs (Decidable (pairs.Pairwise fun p q => p.1.cmp q.1 = .lt))
  | .hashed => inferInstanceAs
    (Decidable (pairs.Pairwise fun p q => p.1.cmp q.1 ≠ .eq ∧ q.1.cmp p.1 ≠ .eq))

theorem MappingKind.eq_sorted {kind : MappingKind} (ordered : kind ≠ .hashed) : kind = .sorted := by
  cases kind with
  | sorted => rfl
  | hashed => exact absurd rfl ordered

/-- Items that come back each on its own: in their places, or as the set of those that they become,
which has all of them where `whole` holds. -/
def SequenceKind.Retains (kind : SequenceKind) (whole : Prop) (R : Datum → Datum → Prop)
    (items items' : List Datum) : Prop :=
  if kind.isSet then ∃ reset, items.Forall₂ R reset ∧ Datum.SameSet reset items' ∧
    (whole → items'.Perm reset)
  else items.Forall₂ R items'

/-- Pairs that come back each on its own, as the map of those that they become, which has all of them
where `whole` holds. -/
def RetainsPairs (whole : Prop) (K R : Datum → Datum → Prop) (pairs map : List (Datum × Datum)) :
    Prop :=
  ∃ reset, pairs.Forall₂ (fun p q => K p.1 q.1 ∧ R p.2 q.2) reset ∧ Datum.SameMap reset map ∧
    (whole → map.Perm reset)

namespace FieldType

@[elab_as_elim, induction_eliminator]
theorem nested {motive : FieldType → Prop} (int : ∀ t, motive (.int t)) (f32 : motive .f32)
    (f64 : motive .f64) (bool : motive .bool) (char : motive .char) (string : motive .string)
    (record : motive .record) (value : motive .value) (date : motive .date)
    (timestamp : motive .timestamp) (option : ∀ t, motive t → motive (.option t))
    (boxed : ∀ t, motive t → motive (.boxed t))
    (sequence : ∀ kind t, motive t → motive (.sequence kind t))
    (mapping : ∀ kind k t, motive k → motive t → motive (.mapping kind k t))
    (enumeration : ∀ name variants, motive (.enumeration name variants))
    (compound : ∀ name ms, (∀ m ∈ ms, motive m.content) → motive (.compound name ms))
    (t : FieldType) : motive t :=
  @FieldType.rec motive (fun ms => ∀ m ∈ ms, motive m.content) (fun m => motive m.content) int f32
    f64 bool char string record value date timestamp option boxed sequence mapping enumeration
    compound (by simp) (fun _ _ head tail => List.forall_mem_cons.mpr ⟨head, tail⟩)
    (fun _ _ _ content => content) t

/-- Contents that a field of the type can have and that conversion restores: numbers that the view
of integers has, and nothing present whose value is null. The items of sets and the keys of maps are
`compared`: they are without floating-point numbers, and what is not ordered is not among them.
Members that are not kept hold anything. -/
inductive Admits : FieldType → Bool → Datum → Prop
  | int {t : IntegerType} {compared : Bool} {n : Integer} (type : n.type = t)
    (seen : t = .u128 → n.val ≤ IntegerType.i128.greatest) : Admits (.int t) compared (.int n)
  | bool {compared : Bool} (b : Bool) : Admits .bool compared (.bool b)
  | char {compared : Bool} (c : Char) : Admits .char compared (.char c)
  | string {compared : Bool} (s : String) : Admits .string compared (.string s)
  | record {compared : Bool} {r : Record} (free : compared = true → (Value.ofRecord r).FloatFree) :
    Admits .record compared (.record r)
  | value {compared : Bool} {v : Value} (free : compared = true → v.FloatFree) :
    Admits .value compared (.value v)
  | absent {t : FieldType} {compared : Bool} : Admits (.option t) compared .absent
  | present {t : FieldType} {compared : Bool} {d : Datum} (content : Admits t compared d)
    (valued : d.toValue.isNull = false) : Admits (.option t) compared (.present d)
  | boxed {t : FieldType} {compared : Bool} {d : Datum} (content : Admits t compared d) :
    Admits (.boxed t) compared d
  | sequence {kind : SequenceKind} {t : FieldType} {compared : Bool} {items : List Datum}
    (ordered : compared = true → kind ≠ .hashedSet) (arranged : kind.Arranged items)
    (each : ∀ d ∈ items, Admits t (kind.isSet || compared) d) :
    Admits (.sequence kind t) compared (.sequence kind items)
  | mapping {kind : MappingKind} {k t : FieldType} {compared : Bool} {pairs : List (Datum × Datum)}
    (ordered : compared = true → kind ≠ .hashed) (arranged : kind.Arranged pairs)
    (keys : ∀ p ∈ pairs, Admits k true p.1) (values : ∀ p ∈ pairs, Admits t compared p.2) :
    Admits (.mapping kind k t) compared (.mapping kind pairs)
  | variant {name : String} {variants : List String} {compared : Bool} {i : Nat} {s : String}
    (distinct : variants.Nodup) (named : variants[i]? = some s) :
    Admits (.enumeration name variants) compared (.variant i s)
  | compound {name : String} {ms : List (Member FieldType)} {compared : Bool}
    {ds : List (Member Datum)} (distinct : (ms.map (·.name)).Nodup)
    (names : ds.map (·.name) = ms.map (·.name)) (kept : ds.map (·.kept) = ms.map (·.kept))
    (each : ∀ p ∈ ms.zip ds, p.1.kept = true → Admits p.1.content compared p.2.content) :
    Admits (.compound name ms) compared (.compound name ds)

mutual

/-- No member is left out, at whatever depth. -/
def keepsAll : FieldType → Bool
  | .option t | .boxed t | .sequence _ t => t.keepsAll
  | .mapping _ k t => k.keepsAll && t.keepsAll
  | .compound _ ms => keepsMembers ms
  | _ => true
termination_by structural t => t

def keepsMember : Member FieldType → Bool
  | ⟨_, kept, t⟩ => kept && t.keepsAll
termination_by structural m => m

def keepsMembers : List (Member FieldType) → Bool
  | [] => true
  | m :: ms => keepsMember m && keepsMembers ms
termination_by structural ms => ms

end

theorem keepsMember_eq (m : Member FieldType) : keepsMember m = (m.kept && m.content.keepsAll) := by
  cases m
  rfl

mutual

/-- A content of the type in which the members that are not kept are as a fresh field has them. -/
def reset : FieldType → Datum → Datum
  | .option t, .present d => .present (t.reset d)
  | .boxed t, d => t.reset d
  | .sequence kind t, .sequence _ items => .collect kind (items.map t.reset)
  | .mapping kind k t, .mapping _ pairs =>
    .collectPairs kind (pairs.map (Prod.map k.reset t.reset))
  | .compound name ms, .compound _ ds => .compound name (resetMembers ms ds)
  | _, d => d
termination_by structural t => t

def resetMember : Member FieldType → Member Datum → Member Datum
  | ⟨name, kept, t⟩, d => ⟨name, kept, if kept then t.reset d.content else t.initial⟩
termination_by structural m => m

def resetMembers : List (Member FieldType) → List (Member Datum) → List (Member Datum)
  | m :: ms, d :: ds => resetMember m d :: resetMembers ms ds
  | _, _ => []
termination_by structural ms => ms

end

mutual

/-- No two items of a set and no two keys of a map, at whatever depth, differ only in members that
are not kept: they are different when these are reset, too. -/
def Apart : FieldType → Datum → Prop
  | .option t, .present d => t.Apart d
  | .boxed t, d => t.Apart d
  | .sequence kind t, .sequence _ items =>
    (∀ d ∈ items, t.Apart d) ∧ (kind.isSet = true → items.Pairwise (Differ Datum.cmp t.reset))
  | .mapping _ k t, .mapping _ pairs => (∀ p ∈ pairs, k.Apart p.1 ∧ t.Apart p.2) ∧
    pairs.Pairwise (Differ Datum.cmp fun p => k.reset p.1)
  | .compound _ ms, .compound _ ds => apartMembers ms ds
  | _, _ => True
termination_by structural t => t

def apartMember : Member FieldType → Member Datum → Prop
  | ⟨_, kept, t⟩, d => kept = true → t.Apart d.content
termination_by structural m => m

def apartMembers : List (Member FieldType) → List (Member Datum) → Prop
  | m :: ms, d :: ds => apartMember m d ∧ apartMembers ms ds
  | _, _ => True
termination_by structural ms => ms

end

mutual

/-- Contents of the type that are the same up to the members that are not kept, which the second has
as a fresh field does. Sets and maps are compared as such: of the items or keys that have become
equal one is there, nothing is added, and where `whole` holds every item and every pair is there. -/
def Resets (whole : Prop) : FieldType → Datum → Datum → Prop
  | .option t, .present d, .present d' => t.Resets whole d d'
  | .boxed t, d, d' => t.Resets whole d d'
  | .sequence kind t, .sequence _ items, .sequence kind' items' =>
    kind' = kind ∧ kind.Retains whole (t.Resets whole) items items'
  | .mapping kind k t, .mapping _ pairs, .mapping kind' map =>
    kind' = kind ∧ RetainsPairs whole (k.Resets whole) (t.Resets whole) pairs map
  | .compound name ms, .compound _ ds, .compound name' ds' =>
    name' = name ∧ resetsMembers whole ms ds ds'
  | _, d, d' => d' = d
termination_by structural t => t

def resetsMember (whole : Prop) : Member FieldType → Member Datum → Member Datum → Prop
  | ⟨name, kept, t⟩, d, d' => d'.name = name ∧ d'.kept = kept ∧
    if kept then t.Resets whole d.content d'.content else d'.content = t.initial
termination_by structural m => m

def resetsMembers (whole : Prop) :
    List (Member FieldType) → List (Member Datum) → List (Member Datum) → Prop
  | [], [], [] => True
  | m :: ms, d :: ds, d' :: ds' => resetsMember whole m d d' ∧ resetsMembers whole ms ds ds'
  | _, _, _ => False
termination_by structural ms => ms

end

end FieldType

end RecordMapper
