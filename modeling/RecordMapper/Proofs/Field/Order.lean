import RecordMapper.Proofs.Field.Contents

/-!
The order of contents of one type, which sets and maps are built by. Contents of a type that holds
no floating-point numbers are ordered, up to the equality that the order decides, as their parts are.
-/

namespace RecordMapper

open Std

namespace FieldType

mutual

/-- Contents of one type that are compared as in an order. -/
def Compares : FieldType → Datum → Prop
  | .int _, .int _ | .bool, .bool _ | .char, .char _ | .string, .string _ => True
  | .record, .record r => (Value.ofRecord r).FloatFree
  | .value, .value v => v.FloatFree
  | .option _, .absent => True
  | .option t, .present d => t.Compares d
  | .boxed t, d => t.Compares d
  | .sequence kind t, .sequence kind' items => kind' = kind ∧ ∀ d ∈ items, t.Compares d
  | .mapping kind k t, .mapping kind' pairs =>
    kind' = kind ∧ ∀ p ∈ pairs, k.Compares p.1 ∧ t.Compares p.2
  | .enumeration _ _, .variant _ _ => True
  | .compound name ms, .compound name' ds => name' = name ∧ comparesMembers ms ds
  | _, _ => False
termination_by structural t => t

def comparesMember : Member FieldType → Member Datum → Prop
  | ⟨_, kept, t⟩, d => if kept then t.Compares d.content else d.content = t.initial
termination_by structural m => m

def comparesMembers : List (Member FieldType) → List (Member Datum) → Prop
  | [], [] => True
  | m :: ms, d :: ds => comparesMember m d ∧ comparesMembers ms ds
  | _, _ => False
termination_by structural ms => ms

end

end FieldType

namespace Orders

variable {κ ω : Type} {P Q : κ → Prop} {cmp : κ → κ → Ordering}

theorem of_empty (none : ∀ a, ¬ P a) : Orders P cmp :=
  ⟨fun a _ ha => absurd ha (none a), fun a _ _ ha => absurd ha (none a)⟩

theorem mono (orders : Orders Q cmp) (holds : ∀ a, P a → Q a) : Orders P cmp where
  swap a b ha hb := orders.swap a b (holds a ha) (holds b hb)
  fits a b c ha hb hc := orders.fits a b c (holds a ha) (holds b hb) (holds c hc)

/-- What is made of ordered parts is ordered as they are. -/
theorem image {P : ω → Prop} {cmp' : ω → ω → Ordering} (orders : Orders P cmp') (f : ω → κ)
    (same : ∀ x y, cmp (f x) (f y) = cmp' x y) : Orders (fun a => ∃ x, P x ∧ f x = a) cmp where
  swap := by
    rintro _ _ ⟨x, hx, rfl⟩ ⟨y, hy, rfl⟩
    rw [same, same, orders.swap x y hx hy]
  fits := by
    rintro _ _ _ ⟨x, hx, rfl⟩ ⟨y, hy, rfl⟩ ⟨z, hz, rfl⟩
    rw [same, same, same]
    exact orders.fits x y z hx hy hz

theorem comap (orders : Orders P cmp) (f : ω → κ) :
    Orders (fun x => P (f x)) fun x y => cmp (f x) (f y) where
  swap x y := orders.swap (f x) (f y)
  fits x y z := orders.fits (f x) (f y) (f z)

theorem compare [Ord κ] [TransOrd κ] : Orders (fun _ : κ => True) Ord.compare where
  swap _ _ _ _ := OrientedOrd.eq_swap.symm
  fits a b c _ _ _ := fits_compare a b c

theorem singleton {a : κ} (self : cmp a a = .eq) : Orders (· = a) cmp where
  swap := by
    rintro _ _ rfl rfl
    rw [self]
    rfl
  fits := by
    rintro _ _ _ rfl rfl rfl
    simp [self, Fits]

theorem list (orders : Orders P cmp) :
    Orders (fun xs : List κ => ∀ x ∈ xs, P x) (List.compareLex cmp) where
  swap _ _ hxs hys := swap_compareLex fun x hx y hy => orders.swap x y (hxs x hx) (hys y hy)
  fits _ _ _ hxs hys hzs := fits_compareLex fun x hx y hy z hz =>
    orders.fits x y z (hxs x hx) (hys y hy) (hzs z hz)

theorem pair {Q : ω → Prop} {cmp' : ω → ω → Ordering} (first : Orders P cmp)
    (second : Orders Q cmp') : Orders (fun p : κ × ω => P p.1 ∧ Q p.2)
      fun p q => (cmp p.1 q.1).then (cmp' p.2 q.2) where
  swap p q hp hq := by
    rw [Ordering.swap_then, first.swap p.1 q.1 hp.1 hq.1, second.swap p.2 q.2 hp.2 hq.2]
  fits p q r hp hq hr := (first.fits p.1 q.1 r.1 hp.1 hq.1 hr.1).then fun _ _ =>
    second.fits p.2 q.2 r.2 hp.2 hq.2 hr.2

end Orders

namespace Datum

theorem cmpItems_eq (as bs : List Datum) : cmpItems as bs = as.compareLex cmp bs := by
  induction as generalizing bs with
  | nil => cases bs <;> rfl
  | cons a as ih =>
    cases bs with
    | nil => rfl
    | cons b bs => rw [cmpItems, ih, List.compareLex_cons_cons]

theorem cmpPair_eq (p q : Datum × Datum) : cmpPair p q = (p.1.cmp q.1).then (p.2.cmp q.2) := by
  cases p
  rfl

theorem cmpPairs_eq (ps qs : List (Datum × Datum)) : cmpPairs ps qs = ps.compareLex cmpPair qs := by
  induction ps generalizing qs with
  | nil => cases qs <;> rfl
  | cons p ps ih =>
    cases qs with
    | nil => rfl
    | cons q qs => rw [cmpPairs, ih, List.compareLex_cons_cons]

theorem cmpMember_eq (d e : Member Datum) : cmpMember d e = d.content.cmp e.content := by
  cases d
  rfl

theorem cmpMembers_map_eq {μ : Type} {f g : μ → Member Datum} {ms : List μ}
    (each : ∀ m ∈ ms, (f m).content.cmp (g m).content = .eq) :
    cmpMembers (ms.map f) (ms.map g) = .eq := by
  induction ms with
  | nil => rfl
  | cons m ms ih =>
    obtain ⟨head, tail⟩ := List.forall_mem_cons.mp each
    rw [List.map_cons, List.map_cons, cmpMembers, cmpMember_eq, head, ih tail]
    rfl

end Datum

namespace FieldType

theorem initialMembers_eq_map (ms : List (Member FieldType)) :
    initialMembers ms = ms.map fun m => ⟨m.name, m.kept, m.content.initial⟩ := by
  induction ms with
  | nil => rfl
  | cons m ms ih =>
    cases m
    rw [initialMembers, ih]
    rfl

theorem initial_cmp_self (t : FieldType) : t.initial.cmp t.initial = .eq := by
  induction t with
  | int t => exact compare_self
  | boxed t ih => exact ih
  | enumeration name variants => exact compare_self
  | compound name ms ih =>
    rw [initial, Datum.cmp, initialMembers_eq_map]
    exact Datum.cmpMembers_map_eq ih
  | _ => rfl

theorem comparesMember_orders {m : Member FieldType}
    (content : Orders m.content.Compares Datum.cmp) :
    Orders (comparesMember m) Datum.cmpMember := by
  obtain ⟨name, kept, t⟩ := m
  have compared : Datum.cmpMember = fun d e => d.content.cmp e.content := by
    funext d e
    exact Datum.cmpMember_eq d e
  rw [compared]
  cases kept with
  | true => exact content.comap Member.content
  | false => exact (Orders.singleton t.initial_cmp_self).comap Member.content

theorem comparesMembers_orders {ms : List (Member FieldType)}
    (contents : ∀ m ∈ ms, Orders m.content.Compares Datum.cmp) :
    Orders (comparesMembers ms) Datum.cmpMembers := by
  induction ms with
  | nil =>
    refine (Orders.singleton (a := []) rfl).mono fun ds holds => ?_
    match ds, holds with
    | [], _ => rfl
  | cons m ms ih =>
    obtain ⟨head, tail⟩ := List.forall_mem_cons.mp contents
    have parts := (comparesMember_orders head).pair (ih tail)
    refine (parts.image (fun p => p.1 :: p.2) fun _ _ => rfl).mono fun ds holds => ?_
    match ds, holds with
    | d :: ds, ⟨first, rest⟩ => exact ⟨(d, ds), ⟨first, rest⟩, rfl⟩

theorem compares_option {t : FieldType} {d : Datum} (holds : (option t).Compares d) :
    d = .absent ∨ ∃ e, t.Compares e ∧ d = .present e := by
  cases d with
  | absent => exact .inl rfl
  | present e => exact .inr ⟨e, holds, rfl⟩
  | _ => exact holds.elim

theorem compares_option_orders {t : FieldType} (orders : Orders t.Compares Datum.cmp) :
    Orders (option t).Compares Datum.cmp where
  swap a b ha hb := by
    obtain rfl | ⟨a, ha, rfl⟩ := compares_option ha
    · obtain rfl | ⟨b, -, rfl⟩ := compares_option hb <;> rfl
    · obtain rfl | ⟨b, hb, rfl⟩ := compares_option hb
      · rfl
      · exact orders.swap a b ha hb
  fits a b c ha hb hc := by
    obtain rfl | ⟨a, ha, rfl⟩ := compares_option ha <;>
    obtain rfl | ⟨b, hb, rfl⟩ := compares_option hb <;>
    obtain rfl | ⟨c, hc, rfl⟩ := compares_option hc
    case inr.inr.inr => exact orders.fits a b c ha hb hc
    all_goals simp +contextual [Datum.cmp, Datum.compareScalars, Fits]

theorem compares_orders (t : FieldType) : Orders t.Compares Datum.cmp := by
  induction t with
  | f32 | f64 | date | timestamp => exact .of_empty fun d holds => by cases d <;> exact holds
  | int t =>
    have values := Orders.compare.comap Integer.val
    refine (values.image Datum.int fun _ _ => rfl).mono fun d holds => ?_
    cases d with
    | int n => exact ⟨n, trivial, rfl⟩
    | _ => exact holds.elim
  | bool =>
    refine (Orders.compare.image Datum.bool fun _ _ => rfl).mono fun d holds => ?_
    cases d with
    | bool b => exact ⟨b, trivial, rfl⟩
    | _ => exact holds.elim
  | char =>
    refine (Orders.compare.image Datum.char fun _ _ => rfl).mono fun d holds => ?_
    cases d with
    | char c => exact ⟨c, trivial, rfl⟩
    | _ => exact holds.elim
  | string =>
    refine (Orders.compare.image Datum.string fun _ _ => rfl).mono fun d holds => ?_
    cases d with
    | string s => exact ⟨s, trivial, rfl⟩
    | _ => exact holds.elim
  | record =>
    have values := Value.orders.comap Value.ofRecord
    refine (values.image Datum.record fun _ _ => rfl).mono fun d holds => ?_
    cases d with
    | record r => exact ⟨r, holds, rfl⟩
    | _ => exact holds.elim
  | value =>
    refine (Value.orders.image Datum.value fun _ _ => rfl).mono fun d holds => ?_
    cases d with
    | value v => exact ⟨v, holds, rfl⟩
    | _ => exact holds.elim
  | enumeration name variants =>
    have indices := Orders.compare.comap (Prod.fst : Nat × String → Nat)
    refine (indices.image (fun p => Datum.variant p.1 p.2) fun _ _ => rfl).mono fun d holds => ?_
    cases d with
    | variant i s => exact ⟨(i, s), trivial, rfl⟩
    | _ => exact holds.elim
  | option t ih => exact compares_option_orders ih
  | boxed t ih => exact ih
  | sequence kind t ih =>
    refine (ih.list.image (Datum.sequence kind) Datum.cmpItems_eq).mono fun d holds => ?_
    cases d with
    | sequence kind' items => exact ⟨items, holds.2, by rw [holds.1]⟩
    | _ => exact holds.elim
  | mapping kind k t ihk iht =>
    have pairs := (ihk.pair iht).list
    simp only [← Datum.cmpPair_eq] at pairs
    refine (pairs.image (Datum.mapping kind) Datum.cmpPairs_eq).mono fun d holds => ?_
    cases d with
    | mapping kind' pairs => exact ⟨pairs, holds.2, by rw [holds.1]⟩
    | _ => exact holds.elim
  | compound name ms ih =>
    have members := comparesMembers_orders ih
    refine (members.image (Datum.compound name) fun _ _ => rfl).mono fun d holds => ?_
    cases d with
    | compound name' ds => exact ⟨ds, holds.2, by rw [holds.1]⟩
    | _ => exact holds.elim

variable {t k : FieldType} {items : List Datum} {pairs : List (Datum × Datum)}

theorem compares_collect {kind : SequenceKind} (each : ∀ d ∈ items, t.Compares d) :
    (sequence kind t).Compares (.collect kind items) := by
  cases isSet : kind.isSet with
  | true =>
    obtain ⟨set, collected, same, -⟩ := Datum.exists_collect isSet t.compares_orders each
    rw [collected]
    exact ⟨rfl, same.holds_key each⟩
  | false =>
    rw [Datum.collect_listed isSet]
    exact ⟨rfl, each⟩

theorem compares_collectPairs {kind : MappingKind}
    (each : ∀ p ∈ pairs, k.Compares p.1 ∧ t.Compares p.2) :
    (mapping kind k t).Compares (.collectPairs kind pairs) := by
  obtain ⟨map, collected, same, -⟩ := Datum.exists_collectPairs kind k.compares_orders
    fun p hp => (each p hp).1
  rw [collected]
  refine ⟨rfl, fun p hp => ?_⟩
  obtain ⟨a, ha, b, hb, key, value, -⟩ := same.made p hp
  rw [key, value]
  exact ⟨(each a ha).1, (each b hb).2⟩

theorem comparesMembers_map {f : Member FieldType → Member Datum} {ms : List (Member FieldType)}
    (each : ∀ m ∈ ms, comparesMember m (f m)) : comparesMembers ms (ms.map f) := by
  induction ms with
  | nil => trivial
  | cons m ms ih =>
    obtain ⟨head, tail⟩ := List.forall_mem_cons.mp each
    exact ⟨head, ih tail⟩

/-- Contents of a type that its order does not tell apart. -/
def Alike (t : FieldType) (x y : Datum) : Prop := t.Compares x ∧ t.Compares y ∧ x.cmp y = .eq

variable {t k : FieldType} {xs ys : List Datum} {ps qs : List (Datum × Datum)}

theorem cmp_collect {kind : SequenceKind} (ordered : kind ≠ .hashedSet)
    (alike : xs.Forall₂ t.Alike ys) :
    (Datum.collect kind xs).cmp (.collect kind ys) = .eq := by
  have items {as bs : List Datum} (alike : as.Forall₂ t.Alike bs) : Datum.cmpItems as bs = .eq := by
    rw [Datum.cmpItems_eq, compareLex_eq_iff]
    exact alike.imp fun _ _ h => h.2.2
  cases kind with
  | list | queue => exact items alike
  | hashedSet => exact absurd rfl ordered
  | sortedSet =>
    rw [Datum.collect_sorted, Datum.collect_sorted]
    exact items (foldl_place_congr t.compares_orders (fun _ _ h => h) (fun _ _ _ _ h _ => h) alike
      .nil)

theorem cmp_collectPairs {kind : MappingKind} (ordered : kind ≠ .hashed)
    (alike : ps.Forall₂ (fun p q => k.Alike p.1 q.1 ∧ t.Alike p.2 q.2) qs) :
    (Datum.collectPairs kind ps).cmp (.collectPairs kind qs) = .eq := by
  cases kind with
  | hashed => exact absurd rfl ordered
  | sorted =>
    rw [Datum.collectPairs_sorted, Datum.collectPairs_sorted, Datum.cmp, Datum.cmpPairs_eq,
      compareLex_eq_iff]
    refine (foldl_place_congr k.compares_orders (fun _ _ h => h.1) (fun _ _ _ _ h _ => h) alike
      .nil).imp fun p q h => ?_
    rw [Datum.cmpPair_eq, h.1.2.2, h.2.2.2]
    rfl

end FieldType

theorem SequenceKind.Arranged.differ {kind : SequenceKind} {P : Datum → Prop} {items : List Datum}
    (arranged : kind.Arranged items) (isSet : kind.isSet = true) (orders : Orders P Datum.cmp)
    (each : ∀ d ∈ items, P d) : items.Pairwise (Differ Datum.cmp id) := by
  cases kind with
  | list | queue => cases isSet
  | sortedSet => exact Ascending.differ orders each arranged
  | hashedSet => exact arranged

theorem MappingKind.Arranged.differ {kind : MappingKind} {P : Datum → Prop}
    {pairs : List (Datum × Datum)} (arranged : kind.Arranged pairs) (orders : Orders P Datum.cmp)
    (keys : ∀ p ∈ pairs, P p.1) : pairs.Pairwise (Differ Datum.cmp Prod.fst) := by
  cases kind with
  | sorted => exact Ascending.differ orders keys arranged
  | hashed => exact arranged

namespace Datum

variable {P : Datum → Prop} {items items' : List Datum} {pairs pairs' : List (Datum × Datum)}

/-- Items that a sorted set has collect into it in whatever order. -/
theorem collect_of_perm (arranged : SequenceKind.sortedSet.Arranged items) (orders : Orders P cmp)
    (each : ∀ d ∈ items, P d) (perm : items.Perm items') :
    collect .sortedSet items' = .sequence .sortedSet items := by
  have isSet : SequenceKind.sortedSet.isSet = true := rfl
  obtain ⟨set, collected, same, ascending⟩ :=
    exists_collect isSet orders fun d hd => each d (perm.symm.subset hd)
  have differ := (perm.pairwise_iff Differ.symm).mp (arranged.differ isSet orders each)
  have held := (same.perm differ).trans perm.symm
  rw [collected, Ascending.eq_of_perm orders each arranged (ascending rfl) held]

theorem collect_arranged {kind : SequenceKind} (ordered : kind ≠ .hashedSet)
    (arranged : kind.Arranged items) (orders : Orders P cmp) (each : ∀ d ∈ items, P d) :
    collect kind items = .sequence kind items := by
  cases kind with
  | list | queue => rfl
  | hashedSet => exact absurd rfl ordered
  | sortedSet => exact collect_of_perm arranged orders each (.refl _)

theorem collectPairs_of_perm (arranged : MappingKind.sorted.Arranged pairs) (orders : Orders P cmp)
    (keys : ∀ p ∈ pairs, P p.1) (perm : pairs.Perm pairs') :
    collectPairs .sorted pairs' = .mapping .sorted pairs := by
  obtain ⟨map, collected, same, ascending⟩ :=
    exists_collectPairs .sorted orders fun p hp => keys p (perm.symm.subset hp)
  have differ := (perm.pairwise_iff Differ.symm).mp (arranged.differ orders keys)
  have held := (same.perm differ).trans perm.symm
  rw [collected, Ascending.eq_of_perm orders keys arranged (ascending rfl) held]

end Datum

end RecordMapper
