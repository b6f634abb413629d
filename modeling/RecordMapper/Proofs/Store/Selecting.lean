import RecordMapper.Proofs.Field.Order
import RecordMapper.Proofs.Record.Entries
import RecordMapper.Store.Memory

/-!
What a select answers. The sort clauses of a query order the records in which they find no
floating-point numbers; a select arranges the records that it finds in that order, leaves those that
the clauses do not tell apart as they are stored, and cuts what comes out.
-/

namespace RecordMapper

variable {α : Type} {P : α → Prop} {cmp cmp' : α → α → Ordering} {xs ys : List α}

/-- A comparison of some elements is a total preorder. -/
structure Ranks (xs : List α) (cmp : α → α → Ordering) : Prop where
  refl : ∀ a ∈ xs, cmp a a = .eq
  swap : ∀ a ∈ xs, ∀ b ∈ xs, cmp b a = (cmp a b).swap
  trans : ∀ a ∈ xs, ∀ b ∈ xs, ∀ c ∈ xs, cmp a b ≠ .gt → cmp b c ≠ .gt → cmp a c ≠ .gt

/-- The same elements in an order that no comparison contradicts, where those that compare equal
stay as they were. -/
structure Arranged (cmp : α → α → Ordering) (xs ys : List α) : Prop where
  perm : ys.Perm xs
  ordered : ys.Pairwise fun a b => cmp a b ≠ .gt
  stable : ∀ a ∈ xs, ys.filter (cmp a · == .eq) = xs.filter (cmp a · == .eq)

theorem Fits.swap {ab bc ac : Ordering} (h : Fits ab bc ac) : Fits ab.swap bc.swap ac.swap := by
  cases ab <;> cases bc <;> cases ac <;> simp_all [Fits]

namespace Orders

theorem swapped (orders : Orders P cmp) : Orders P fun a b => (cmp a b).swap where
  swap a b ha hb := congrArg Ordering.swap (orders.swap a b ha hb)
  fits a b c ha hb hc := (orders.fits a b c ha hb hc).swap

/-- A second comparison orders what the first does not tell apart. -/
theorem refined (first : Orders P cmp) (next : Orders P cmp') :
    Orders P fun a b => (cmp a b).then (cmp' a b) where
  swap a b ha hb := by rw [Ordering.swap_then, first.swap a b ha hb, next.swap a b ha hb]
  fits a b c ha hb hc := (first.fits a b c ha hb hc).then fun _ _ => next.fits a b c ha hb hc

/-- Nothing comes before something. -/
theorem option [Ord α] (orders : Orders P Ord.compare) :
    Orders (fun o : Option α => ∀ x, o = some x → P x) Ord.compare where
  swap
    | none, none, _, _ | none, some _, _, _ | some _, none, _, _ => rfl
    | some x, some y, hx, hy => orders.swap x y (hx x rfl) (hy y rfl)
  fits
    | none, none, _, _, _, _ => ⟨fun _ => rfl, fun h => h, fun h => h.symm⟩
    | none, some _, none, _, _, _ | some _, none, some _, _, _, _ => ⟨nofun, nofun, nofun⟩
    | none, some _, some _, _, _, _ => ⟨nofun, fun _ => rfl, fun _ => rfl⟩
    | some _, none, none, _, _, _ => ⟨nofun, fun _ => rfl, nofun⟩
    | some _, some _, none, _, _, _ => ⟨fun _ => rfl, nofun, fun h => h.symm⟩
    | some x, some y, some z, hx, hy, hz => orders.fits x y z (hx x rfl) (hy y rfl) (hz z rfl)

theorem ranks (orders : Orders P cmp) (all : ∀ x ∈ xs, P x) : Ranks xs cmp where
  refl a ha := orders.self (all a ha)
  swap a ha b hb := (orders.swap a b (all a ha) (all b hb)).symm
  trans a ha b hb c hc := (orders.fits a b c (all a ha) (all b hb) (all c hc)).not_gt

end Orders

theorem Arranged.map {β : Type} {f : α → β} {cmp : β → β → Ordering}
    (h : Arranged (fun a b => cmp (f a) (f b)) xs ys) :
    Arranged cmp (xs.map f) (ys.map f) where
  perm := h.perm.map f
  ordered := List.pairwise_map.mpr h.ordered
  stable := by
    rintro _ mem
    obtain ⟨a, ha, rfl⟩ := List.mem_map.mp mem
    rw [List.filter_map, List.filter_map]
    exact congrArg (List.map f) (h.stable a ha)

/-- Sorting arranges the elements of an ordered kind. -/
theorem Orders.arranged_mergeSort_of_forall (orders : Orders (fun _ => True) cmp) (xs : List α) :
    Arranged cmp xs (xs.mergeSort fun a b => cmp a b != .gt) := by
  have trans (a b c : α) (ab : (cmp a b != .gt) = true) (bc : (cmp b c != .gt) = true) :
      (cmp a c != .gt) = true := by
    rw [bne_iff_ne] at ab bc ⊢
    exact (orders.fits a b c trivial trivial trivial).not_gt ab bc
  have total (a b : α) : (cmp a b != .gt || cmp b a != .gt) = true := by
    rw [← orders.swap a b trivial trivial]
    cases cmp a b <;> rfl
  have perm := List.mergeSort_perm xs fun a b => cmp a b != .gt
  refine ⟨perm, ?_, fun a _ => ?_⟩
  · exact (List.pairwise_mergeSort trans total xs).imp fun le => by simpa using le
  · -- What compares equal to one element is in order already, so sorting leaves it as it is.
    have level : (xs.filter (cmp a · == .eq)).Pairwise fun b c => (cmp b c != .gt) = true := by
      refine List.pairwise_of_forall_mem_list fun b hb c hc => ?_
      have ab : cmp a b = .eq := by simpa using (List.mem_filter.mp hb).2
      have ac : cmp a c = .eq := by simpa using (List.mem_filter.mp hc).2
      rw [← orders.left trivial trivial trivial ab, ac]
      rfl
    have kept := (List.sublist_mergeSort trans total level List.filter_sublist).filter
      (cmp a · == .eq)
    rw [List.filter_filter] at kept
    simp only [Bool.and_self] at kept
    exact (kept.eq_of_length (perm.filter _).length_eq.symm).symm

/-- Sorting arranges elements that are compared as in an order, whatever the comparison does to
others. -/
theorem Orders.arranged_mergeSort (orders : Orders P cmp) (all : ∀ x ∈ xs, P x) :
    Arranged cmp xs (xs.mergeSort fun a b => cmp a b != .gt) := by
  let inner : List { x // P x } := xs.attachWith P all
  have outer : inner.map Subtype.val = xs := List.attachWith_map_subtype_val all
  have ordered : Orders (fun _ => True) fun a b : { x // P x } => cmp a.1 b.1 :=
    ⟨fun a b _ _ => orders.swap a b a.2 b.2, fun a b c _ _ _ => orders.fits a b c a.2 b.2 c.2⟩
  have image : (inner.mergeSort fun a b => cmp a.1 b.1 != .gt).map Subtype.val =
      (inner.map Subtype.val).mergeSort fun a b => cmp a b != .gt :=
    List.map_mergeSort fun _ _ _ _ => rfl
  have arranged : Arranged cmp (inner.map Subtype.val)
      ((inner.mergeSort fun a b => cmp a.1 b.1 != .gt).map Subtype.val) :=
    (ordered.arranged_mergeSort_of_forall inner).map
  rwa [image, outer] at arranged

/-- Where nothing is told apart, nothing is moved. -/
theorem Arranged.eq_of_level (h : Arranged cmp xs ys) (level : ∀ a b, cmp a b = .eq) : ys = xs := by
  cases xs with
  | nil => exact h.perm.eq_nil
  | cons x xs =>
    have whole := h.stable x List.mem_cons_self
    simpa [level] using whole

namespace SortOrder

/-- What a direction puts in front of something else. Nothing comes before every value in ascending
order, and behind every value in descending order. -/
inductive Prefers : SortOrder → Option Value → Option Value → Prop
  | nothing_first (v : Value) : Prefers .ascending none (some v)
  | lesser {v w : Value} (less : v.cmp w = .lt) : Prefers .ascending (some v) (some w)
  | nothing_last (v : Value) : Prefers .descending (some v) none
  | greater {v w : Value} (more : v.cmp w = .gt) : Prefers .descending (some v) (some w)

def directed : SortOrder → Ordering → Ordering
  | ascending, verdict => verdict
  | descending, verdict => verdict.swap

theorem directed_eq_eq_iff {o : SortOrder} {verdict : Ordering} :
    o.directed verdict = .eq ↔ verdict = .eq := by
  cases o with
  | ascending => rfl
  | descending => exact Ordering.swap_eq_eq

theorem directed_compare_eq_lt_iff {o : SortOrder} {x y : Option Value} :
    o.directed (compare x y) = .lt ↔ o.Prefers x y := by
  constructor
  · intro before
    cases o <;> cases x <;> cases y
    case ascending.none.some v => exact .nothing_first v
    case ascending.some.some => exact .lesser before
    case descending.some.none v => exact .nothing_last v
    case descending.some.some => exact .greater (Ordering.swap_eq_lt.mp before)
    all_goals cases before
  · rintro (_ | less | _ | more)
    · rfl
    · exact less
    · rfl
    · exact Ordering.swap_eq_lt.mpr more

end SortOrder

theorem Orders.directed (orders : Orders P cmp) (o : SortOrder) :
    Orders P fun a b => o.directed (cmp a b) := by
  cases o with
  | ascending => exact orders
  | descending => exact orders.swapped

theorem compare_option_eq_eq_iff {x y : Option Value} : compare x y = .eq ↔ (x == y) = true := by
  cases x <;> cases y
  case some.some => exact Value.beq_iff.symm
  case none.none => exact ⟨fun _ => rfl, fun _ => rfl⟩
  all_goals exact ⟨nofun, nofun⟩

namespace Record

/-- The first sort clause under which two records differ puts the one in front of the other. -/
def Precedes (sep : String) (ks : List SortKey) (a b : Record) : Prop :=
  ∃ front k back, ks = front ++ k :: back ∧
    (∀ j ∈ front, (a.findPath? sep j.field == b.findPath? sep j.field) = true) ∧
    k.order.Prefers (a.findPath? sep k.field) (b.findPath? sep k.field)

/-- No sort clause finds a floating-point number in the record. -/
def Sortable (sep : String) (ks : List SortKey) (r : Record) : Prop :=
  ∀ k ∈ ks, ∀ v, r.findPath? sep k.field = some v → v.FloatFree

end Record

section Clauses

variable {sep : String} {k : SortKey} {ks : List SortKey} {a b : Record}

theorem compareBy_cons (sep : String) (k : SortKey) (ks : List SortKey) (a b : Record) :
    compareBy sep a b (k :: ks) =
      (k.order.directed (compare (a.findPath? sep k.field) (b.findPath? sep k.field))).then
        (compareBy sep a b ks) := by
  rw [compareBy]
  cases k.order <;> rfl

theorem compareBy_eq_eq_iff : compareBy sep a b ks = .eq ↔
    ∀ k ∈ ks, (a.findPath? sep k.field == b.findPath? sep k.field) = true := by
  induction ks with
  | nil => simp [compareBy]
  | cons k ks ih =>
    rw [compareBy_cons, Ordering.then_eq_eq, SortOrder.directed_eq_eq_iff,
      compare_option_eq_eq_iff, ih, List.forall_mem_cons]

theorem compareBy_eq_lt_iff : compareBy sep a b ks = .lt ↔ a.Precedes sep ks b := by
  induction ks with
  | nil => simp [compareBy, Record.Precedes]
  | cons k ks ih =>
    rw [compareBy_cons, Ordering.then_eq_lt, SortOrder.directed_compare_eq_lt_iff,
      SortOrder.directed_eq_eq_iff, compare_option_eq_eq_iff, ih]
    constructor
    · rintro (here | ⟨same, front, j, back, rfl, before, later⟩)
      · exact ⟨[], k, ks, rfl, by simp, here⟩
      · exact ⟨k :: front, j, back, rfl, List.forall_mem_cons.mpr ⟨same, before⟩, later⟩
    · rintro ⟨front, j, back, split, before, decides⟩
      cases front with
      | nil =>
        obtain ⟨rfl, rfl⟩ := List.cons.inj split
        exact .inl decides
      | cons first front =>
        obtain ⟨rfl, rfl⟩ := List.cons.inj split
        obtain ⟨same, before⟩ := List.forall_mem_cons.mp before
        exact .inr ⟨same, front, j, back, rfl, before, decides⟩

theorem orders_floatFree : Orders Value.FloatFree compare where
  swap _ _ ha hb := ha.swap_cmp hb
  fits _ _ _ ha hb hc := ha.fits_cmp hb hc

/-- The sort clauses order the records in which they find no floating-point numbers. -/
theorem orders_compareBy (sep : String) (ks : List SortKey) :
    Orders (Record.Sortable sep ks) fun a b => compareBy sep a b ks := by
  induction ks with
  | nil => exact ⟨fun _ _ _ _ => rfl, fun _ _ _ _ _ _ => ⟨fun _ => rfl, fun _ => rfl, fun _ => rfl⟩⟩
  | cons k ks ih =>
    have found := orders_floatFree.option.comap fun r : Record => r.findPath? sep k.field
    have here := (found.directed k.order).mono
      fun r (sortable : r.Sortable sep (k :: ks)) => sortable k List.mem_cons_self
    have later := ih.mono
      fun r (sortable : r.Sortable sep (k :: ks)) j hj => sortable j (List.mem_cons_of_mem _ hj)
    simp only [compareBy_cons]
    exact here.refined later

end Clauses

namespace MemoryStore

variable {now : Instant} {sep : String} {s : MemoryStore} {q : SelectQuery}

/-- The live records of the name that a query asks for which its condition admits, as they are
stored. -/
def found (now : Instant) (sep : String) (q : SelectQuery) (s : MemoryStore) : List Record :=
  (((s.table q.name).filter fun stored => !stored.isExpired now).map (·.record)).filter
    (admits sep q.condition)

/-- A select arranges what it finds by the sort clauses, of which the first under which two records
differ decides, and answers the front of that. -/
theorem select_arranged (sortable : ∀ r ∈ s.found now sep q, r.Sortable sep q.sorts) :
    (∀ a b, (compareBy sep a b q.sorts = .lt ↔ a.Precedes sep q.sorts b) ∧
        (compareBy sep a b q.sorts = .eq ↔
          ∀ k ∈ q.sorts, (a.findPath? sep k.field == b.findPath? sep k.field) = true)) ∧
      Ranks (s.found now sep q) (fun a b => compareBy sep a b q.sorts) ∧
      ∃ sorted, Arranged (fun a b => compareBy sep a b q.sorts) (s.found now sep q) sorted ∧
        (q.sorts = [] → sorted = s.found now sep q) ∧
        s.select now sep q = q.limit.elim sorted sorted.take := by
  have orders := orders_compareBy sep q.sorts
  have arranged := orders.arranged_mergeSort sortable
  refine ⟨fun a b => ⟨compareBy_eq_lt_iff, compareBy_eq_eq_iff⟩, orders.ranks sortable, _, arranged,
    fun unsorted => arranged.eq_of_level fun a b => ?_, ?_⟩
  · rw [unsorted]
    rfl
  · rw [select]
    cases q.limit <;> rfl

def box (label : String) (size : List (String × Value)) : Record :=
  ⟨"Box", ("label", .string label) :: size⟩

def zeroBox (label : String) (width : IntegerType) : Record :=
  box label [("size", .int (.zero width))]

/-- The third box has expired, and the last one is not asked for. -/
def boxStore : MemoryStore :=
  { database := .document
    tables := [("Box",
      [⟨zeroBox "b" .u8, none⟩, ⟨box "x" [], some ⟨5⟩⟩, ⟨zeroBox "c" .u8, some ⟨1⟩⟩,
        ⟨zeroBox "a" .i64, none⟩, ⟨box "d" [("size", .string "big")], none⟩,
        ⟨zeroBox "z" .u8, none⟩])] }

/-- The greatest boxes first, and no more than three. -/
def greatestBoxes : SelectQuery :=
  { name := "Box"
    condition := some (.leaf ⟨"label", .lessThan, .single (.string "y")⟩)
    sorts := [⟨"size", .descending⟩]
    limit := some 3 }

theorem select_greatestBoxes :
    (∀ r ∈ boxStore.found ⟨1⟩ "." greatestBoxes, r.Sortable "." greatestBoxes.sorts) ∧
      ∃ sorted, Arranged (fun a b => compareBy "." a b greatestBoxes.sorts)
          [zeroBox "b" .u8, box "x" [], zeroBox "a" .i64, box "d" [("size", .string "big")]]
          sorted ∧
        sorted.filter (compareBy "." (zeroBox "b" .u8) · greatestBoxes.sorts == .eq) =
          [zeroBox "b" .u8, zeroBox "a" .i64] ∧
        boxStore.select ⟨1⟩ "." greatestBoxes = sorted.take 3 := by
  have found : boxStore.found ⟨1⟩ "." greatestBoxes =
      [zeroBox "b" .u8, box "x" [], zeroBox "a" .i64, box "d" [("size", .string "big")]] := by
    with_unfolding_all rfl
  have sized (label : String) {size : Value} (free : size.FloatFree) :
      (box label [("size", size)]).Sortable "." greatestBoxes.sorts := by
    intro k hk v at_path
    obtain rfl := List.mem_singleton.mp hk
    rw [Record.findPath?_of_find? (show (box label _).find? "size" = some size from rfl)] at at_path
    cases at_path
    exact free
  have unsized : (box "x" []).Sortable "." greatestBoxes.sorts := by
    intro k hk v at_path
    obtain rfl := List.mem_singleton.mp hk
    have missing : (box "x" []).findPath? "." "size" = none := by with_unfolding_all rfl
    rw [missing] at at_path
    cases at_path
  have sortable : ∀ r ∈ boxStore.found ⟨1⟩ "." greatestBoxes,
      r.Sortable "." greatestBoxes.sorts := by
    rw [found]
    simp only [List.forall_mem_cons]
    exact ⟨sized _ (.int _), unsized, sized _ (.int _), sized _ (.string _), by simp⟩
  obtain ⟨-, -, sorted, arranged, -, answer⟩ := select_arranged sortable
  rw [found] at arranged
  have tied := arranged.stable _ List.mem_cons_self
  exact ⟨sortable, sorted, arranged, tied.trans (by with_unfolding_all rfl), answer⟩

end MemoryStore

end RecordMapper
