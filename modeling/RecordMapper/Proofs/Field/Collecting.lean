import Mathlib.Data.List.Forall2
import Mathlib.Data.List.Induction
import RecordMapper.Field.Type
import RecordMapper.Proofs.Value.Order
import RecordMapper.Proofs.Value.Parts

/-!
Collecting elements into sets and maps. Whether they are kept in order or not, and whichever of two
equal elements stays, the collection has an element for each of them, holds nothing else and has no
two equal ones; elements that are all different are all kept as they are.
-/

namespace RecordMapper

variable {α κ ω : Type}

/-- A comparison that orders the keys of a kind, up to the equality that it decides. -/
structure Orders (P : κ → Prop) (cmp : κ → κ → Ordering) : Prop where
  swap : ∀ a b, P a → P b → (cmp a b).swap = cmp b a
  fits : ∀ a b c, P a → P b → P c → Fits (cmp a b) (cmp b c) (cmp a c)

namespace Orders

variable {P : κ → Prop} {cmp : κ → κ → Ordering} {a b c : κ}

theorem symm (orders : Orders P cmp) (ha : P a) (hb : P b) (same : cmp a b = .eq) :
    cmp b a = .eq := by
  rw [← orders.swap a b ha hb, same]
  rfl

theorem self (orders : Orders P cmp) (ha : P a) : cmp a a = .eq := by
  have swapped := orders.swap a a ha ha
  cases own : cmp a a with
  | eq => rfl
  | lt | gt =>
    rw [own] at swapped
    cases swapped

theorem left (orders : Orders P cmp) (ha : P a) (hb : P b) (hc : P c) (same : cmp a b = .eq) :
    cmp a c = cmp b c := (orders.fits a b c ha hb hc).1 same

theorem right (orders : Orders P cmp) (ha : P a) (hb : P b) (hc : P c) (same : cmp b c = .eq) :
    cmp a c = cmp a b := (orders.fits a b c ha hb hc).2.1 same

/-- Keys that are equal compare alike. -/
theorem congr {a' b' : κ} (orders : Orders P cmp) (ha : P a) (ha' : P a') (hb : P b) (hb' : P b')
    (left : cmp a a' = .eq) (right : cmp b b' = .eq) : cmp a b = cmp a' b' :=
  (orders.left ha ha' hb left).trans (orders.right ha' hb hb' right).symm

theorem trans (orders : Orders P cmp) (ha : P a) (hb : P b) (hc : P c) (ab : cmp a b = .eq)
    (bc : cmp b c = .eq) : cmp a c = .eq :=
  (orders.left ha hb hc ab).trans bc

theorem lt_trans (orders : Orders P cmp) (ha : P a) (hb : P b) (hc : P c) (ab : cmp a b = .lt)
    (bc : cmp b c = .lt) : cmp a c = .lt :=
  ((orders.fits a b c ha hb hc).2.2 (ab.trans bc.symm)).trans ab

theorem lt_of_gt (orders : Orders P cmp) (ha : P a) (hb : P b) (greater : cmp a b = .gt) :
    cmp b a = .lt := by
  rw [← orders.swap a b ha hb, greater]
  rfl

theorem not_lt (orders : Orders P cmp) (ha : P a) (hb : P b) (less : cmp a b = .lt) :
    cmp b a ≠ .lt ∧ cmp b a ≠ .eq := by
  rw [← orders.swap a b ha hb, less]
  exact ⟨nofun, nofun⟩

end Orders

theorem Value.orders : Orders Value.FloatFree Value.cmp :=
  ⟨fun _ _ => Value.FloatFree.swap_cmp, fun _ _ _ => Value.FloatFree.fits_cmp⟩

section Collecting

variable (cmp : κ → κ → Ordering) (key : α → κ)

/-- Two elements whose keys differ, whichever of them is compared with the other. -/
def Differ (x y : α) : Prop := cmp (key x) (key y) ≠ .eq ∧ cmp (key y) (key x) ≠ .eq

/-- Elements with a key and a content each, and others made of their keys and contents: there is one
for the key of every element, each has its content from an element with an equal key, and elements
that all differ are all there as they are. -/
structure Gathers (content : α → ω) (xs zs : List α) : Prop where
  kept : ∀ x ∈ xs, ∃ z ∈ zs, cmp (key x) (key z) = .eq
  made : ∀ z ∈ zs, ∃ a ∈ xs, ∃ b ∈ xs, key z = key a ∧ content z = content b ∧
    cmp (key a) (key b) = .eq
  perm : xs.Pairwise (Differ cmp key) → zs.Perm xs

/-- The same, where no two of the others have equal keys. -/
structure Collects (content : α → ω) (xs zs : List α) : Prop
    extends Gathers cmp key content xs zs where
  distinct : zs.Pairwise (Differ cmp key)

/-- What adding an element can do, whatever place it takes: there is none with its key and it is one
more, or it is merged with the one that has its key. -/
inductive Put (merge : α → α → α) (d : α) (zs zs' : List α) : Prop
  | fresh (new : ∀ z ∈ zs, cmp (key d) (key z) ≠ .eq) (perm : zs'.Perm (d :: zs))
  | known {e : α} {rest : List α} (same : cmp (key d) (key e) = .eq) (before : zs.Perm (e :: rest))
    (after : zs'.Perm (merge d e :: rest))

/-- Merging keeps one of the keys, and the content of the element that is added. -/
structure Merges (content : α → ω) (merge : α → α → α) : Prop where
  key : ∀ d e, key (merge d e) = key d ∨ key (merge d e) = key e
  content : ∀ d e, content (merge d e) = content d

variable {cmp key} {P : κ → Prop} {content : α → ω} {merge : α → α → α} {d : α}
  {xs ys zs zs' : List α}

theorem Differ.symm {x y : α} (h : Differ cmp key x y) : Differ cmp key y x := ⟨h.2, h.1⟩

theorem pairwise_differ_iff :
    xs.Pairwise (Differ cmp key) ↔ (xs.map key).Pairwise (Differ cmp id) := by
  rw [List.pairwise_map]
  rfl

/-- Elements that have keys equal to those of elements that all differ do so, too. -/
theorem pairwise_differ_of_forall₂ {S : α → α → Prop} (orders : Orders P cmp)
    (keys : ∀ x y, S x y → P (key x) ∧ P (key y) ∧ cmp (key x) (key y) = .eq)
    (alike : xs.Forall₂ S ys) (differ : xs.Pairwise (Differ cmp key)) :
    ys.Pairwise (Differ cmp key) := by
  induction alike with
  | nil => exact .nil
  | @cons a b as bs hab rest ih =>
    obtain ⟨apart, differ⟩ := List.pairwise_cons.mp differ
    refine .cons (fun y hy => ?_) (ih differ)
    obtain ⟨x, hx, hxy⟩ := exists_of_forall₂ rest.flip hy
    obtain ⟨pa, pb, ab⟩ := keys a b hab
    obtain ⟨px, py, xy⟩ := keys x y hxy
    obtain ⟨ax, xa⟩ := apart x hx
    rw [orders.congr pa pb px py ab xy] at ax
    rw [orders.congr px py pa pb xy ab] at xa
    exact ⟨ax, xa⟩

theorem Gathers.holds_key (gathers : Gathers cmp key content xs zs) (keys : ∀ x ∈ xs, P (key x)) :
    ∀ z ∈ zs, P (key z) := by
  intro z hz
  obtain ⟨a, ha, -, -, same, -⟩ := gathers.made z hz
  rw [same]
  exact keys a ha

theorem Gathers.trans (orders : Orders P cmp) (keys : ∀ x ∈ xs, P (key x))
    (first : Gathers cmp key content xs ys) (second : Gathers cmp key content ys zs) :
    Gathers cmp key content xs zs := by
  have middle := first.holds_key keys
  refine ⟨fun x hx => ?_, fun z hz => ?_, fun differ => ?_⟩
  · obtain ⟨y, hy, xy⟩ := first.kept x hx
    obtain ⟨z, hz, yz⟩ := second.kept y hy
    exact ⟨z, hz, orders.trans (keys x hx) (middle y hy) (second.holds_key middle z hz) xy yz⟩
  · obtain ⟨a', ha', b', hb', key_z, content_z, same⟩ := second.made z hz
    obtain ⟨a, ha, -, -, key_a, -⟩ := first.made a' ha'
    obtain ⟨c, hc, b, hb, key_b, content_b, alike⟩ := first.made b' hb'
    rw [key_a, key_b] at same
    exact ⟨a, ha, b, hb, key_z.trans key_a, content_z.trans content_b,
      orders.trans (keys a ha) (keys c hc) (keys b hb) same alike⟩
  · have perm := first.perm differ
    exact (second.perm ((perm.pairwise_iff Differ.symm).mpr differ)).trans perm

theorem Gathers.collects (orders : Orders P cmp) (keys : ∀ x ∈ xs, P (key x))
    (first : Gathers cmp key content xs ys) (second : Collects cmp key content ys zs) :
    Collects cmp key content xs zs :=
  ⟨first.trans orders keys second.toGathers, second.distinct⟩

theorem Collects.of_perm (collects : Collects cmp key content xs ys) (perm : zs.Perm ys) :
    Collects cmp key content xs zs := by
  refine ⟨⟨fun x hx => ?_, fun z hz => collects.made z (perm.subset hz), fun differ => ?_⟩, ?_⟩
  · obtain ⟨y, hy, same⟩ := collects.kept x hx
    exact ⟨y, perm.symm.subset hy, same⟩
  · exact perm.trans (collects.perm differ)
  · exact (perm.pairwise_iff Differ.symm).mpr collects.distinct

theorem Collects.nil : Collects cmp key content ([] : List α) [] :=
  ⟨⟨by simp, by simp, fun _ => .refl _⟩, .nil⟩

/-- An element whose key is new is another one of the collection. -/
theorem Collects.put_fresh (orders : Orders P cmp) (collects : Collects cmp key content xs zs)
    (keys : ∀ x ∈ xs, P (key x)) (own : P (key d)) (perm : zs'.Perm (d :: zs))
    (new : ∀ z ∈ zs, cmp (key d) (key z) ≠ .eq) :
    Collects cmp key content (xs ++ [d]) zs' := by
  have inner := collects.holds_key keys
  refine ⟨⟨fun x hx => ?_, fun z hz => ?_, fun differ => ?_⟩, ?_⟩
  · rcases List.mem_append.mp hx with earlier | last
    · obtain ⟨z, hz, same⟩ := collects.kept x earlier
      exact ⟨z, perm.symm.subset (List.mem_cons_of_mem _ hz), same⟩
    · obtain rfl := List.mem_singleton.mp last
      exact ⟨x, perm.symm.subset List.mem_cons_self, orders.self own⟩
  · have last : d ∈ xs ++ [d] := by simp
    rcases List.mem_cons.mp (perm.subset hz) with rfl | earlier
    · exact ⟨z, last, z, last, rfl, rfl, orders.self own⟩
    · obtain ⟨a, ha, b, hb, made⟩ := collects.made z earlier
      exact ⟨a, List.mem_append_left _ ha, b, List.mem_append_left _ hb, made⟩
  · have before := collects.perm (List.pairwise_append.mp differ).1
    exact perm.trans ((before.cons d).trans (List.perm_append_singleton d xs).symm)
  · rw [perm.pairwise_iff Differ.symm]
    refine .cons (fun z hz => ⟨new z hz, fun same => ?_⟩) collects.distinct
    exact new z hz (orders.symm (inner z hz) own same)

/-- An element whose key is known takes the place of the one that has it. -/
theorem Collects.put_known (orders : Orders P cmp) (merges : Merges key content merge) {e : α}
    {rest : List α} (collects : Collects cmp key content xs zs) (keys : ∀ x ∈ xs, P (key x))
    (own : P (key d)) (before : zs.Perm (e :: rest)) (after : zs'.Perm (merge d e :: rest))
    (same : cmp (key d) (key e) = .eq) : Collects cmp key content (xs ++ [d]) zs' := by
  have inner := collects.holds_key keys
  have held : e ∈ zs := before.symm.subset List.mem_cons_self
  have others : ∀ z ∈ rest, z ∈ zs := fun z hz => before.symm.subset (List.mem_cons_of_mem _ hz)
  have merged_mem : merge d e ∈ zs' := after.symm.subset List.mem_cons_self
  have merged : P (key (merge d e)) ∧ cmp (key d) (key (merge d e)) = .eq := by
    rcases merges.key d e with eq | eq
    · exact ⟨eq ▸ own, by rw [eq]; exact orders.self own⟩
    · exact ⟨eq ▸ inner e held, by rw [eq]; exact same⟩
  have alike : cmp (key e) (key (merge d e)) = .eq := orders.trans (inner e held) own merged.1
    (orders.symm own (inner e held) same) merged.2
  obtain ⟨apart, distinct⟩ := List.pairwise_cons.mp
    ((before.pairwise_iff Differ.symm).mp collects.distinct)
  obtain ⟨a, ha, -, -, key_e, -⟩ := collects.made e held
  refine ⟨⟨fun x hx => ?_, fun z hz => ?_, fun differ => ?_⟩, ?_⟩
  · rcases List.mem_append.mp hx with earlier | last
    · obtain ⟨z, hz, found⟩ := collects.kept x earlier
      rcases List.mem_cons.mp (before.subset hz) with rfl | other
      · exact ⟨_, merged_mem, orders.trans (keys x earlier) (inner z hz) merged.1 found alike⟩
      · exact ⟨z, after.symm.subset (List.mem_cons_of_mem _ other), found⟩
    · obtain rfl := List.mem_singleton.mp last
      exact ⟨_, merged_mem, merged.2⟩
  · have last : d ∈ xs ++ [d] := by simp
    rcases List.mem_cons.mp (after.subset hz) with rfl | other
    · rcases merges.key d e with new | old
      · exact ⟨d, last, d, last, new, merges.content d e, orders.self own⟩
      · refine ⟨a, List.mem_append_left _ ha, d, last, old.trans key_e, merges.content d e, ?_⟩
        rw [← key_e]
        exact orders.symm own (inner e held) same
    · obtain ⟨a, ha, b, hb, made⟩ := collects.made z (others z other)
      exact ⟨a, List.mem_append_left _ ha, b, List.mem_append_left _ hb, made⟩
  · have apart := (List.pairwise_append.mp differ).2.2 a ha d (List.mem_singleton.mpr rfl)
    exact absurd (key_e ▸ same) apart.2
  · rw [after.pairwise_iff Differ.symm]
    refine .cons (fun z hz => ?_) distinct
    obtain ⟨one, other⟩ := apart z hz
    have hz' := inner z (others z hz)
    refine ⟨?_, ?_⟩
    · rwa [← orders.left (inner e held) merged.1 hz' alike]
    · rwa [orders.right hz' (inner e held) merged.1 alike]

theorem Collects.put (orders : Orders P cmp) (merges : Merges key content merge)
    (collects : Collects cmp key content xs zs) (keys : ∀ x ∈ xs, P (key x)) (own : P (key d))
    (put : Put cmp key merge d zs zs') : Collects cmp key content (xs ++ [d]) zs' := by
  cases put with
  | fresh new perm => exact collects.put_fresh orders keys own perm new
  | known same before after =>
    exact collects.put_known orders merges keys own before after same

/-- Adding one element after the other collects them, where every single step does what adding can
do and leaves the collection in good order. -/
theorem collects_foldl (orders : Orders P cmp) (merges : Merges key content merge)
    {put : α → List α → List α} {Good : List α → Prop}
    (step : ∀ d zs, P (key d) → (∀ z ∈ zs, P (key z)) → Good zs →
      Put cmp key merge d zs (put d zs) ∧ Good (put d zs))
    (start : Good []) (keys : ∀ x ∈ xs, P (key x)) :
    Collects cmp key content xs (xs.foldl (fun zs d => put d zs) []) ∧
      Good (xs.foldl (fun zs d => put d zs) []) := by
  induction xs using List.reverseRecOn with
  | nil => exact ⟨.nil, start⟩
  | append_singleton xs d ih =>
    have earlier : ∀ x ∈ xs, P (key x) := fun x hx => keys x (List.mem_append_left _ hx)
    obtain ⟨collects, good⟩ := ih earlier
    have own : P (key d) := keys d (by simp)
    obtain ⟨put, good⟩ := step d _ own (collects.holds_key earlier) good
    rw [List.foldl_append]
    exact ⟨collects.put orders merges earlier own put, good⟩

/-- Elements that are read from others, keys and contents apart, are gathered as those are. -/
theorem Gathers.map {κ' ω' : Type} {cmp' : κ' → κ' → Ordering} {xs zs : List (κ × ω)}
    (gathers : Gathers cmp Prod.fst Prod.snd xs zs) (f : κ → κ') (g : ω → ω')
    (respects : ∀ a ∈ xs, ∀ b ∈ xs, cmp a.1 b.1 = .eq → cmp' (f a.1) (f b.1) = .eq) :
    Gathers cmp' Prod.fst Prod.snd (xs.map (Prod.map f g)) (zs.map (Prod.map f g)) := by
  refine ⟨fun x hx => ?_, fun z hz => ?_, fun differ => ?_⟩
  · obtain ⟨p, hp, rfl⟩ := List.mem_map.mp hx
    obtain ⟨q, hq, same⟩ := gathers.kept p hp
    obtain ⟨a, ha, -, -, key_q, -⟩ := gathers.made q hq
    refine ⟨_, List.mem_map_of_mem hq, ?_⟩
    simp only [Prod.map_fst, key_q]
    exact respects p hp a ha (key_q ▸ same)
  · obtain ⟨q, hq, rfl⟩ := List.mem_map.mp hz
    obtain ⟨a, ha, b, hb, key_z, content_z, same⟩ := gathers.made q hq
    exact ⟨_, List.mem_map_of_mem ha, _, List.mem_map_of_mem hb, congrArg f key_z,
      congrArg g content_z, respects a ha b hb same⟩
  · refine (gathers.perm ?_).map _
    rw [List.pairwise_map] at differ
    exact differ.imp_of_mem fun ha hb apart =>
      ⟨fun same => apart.1 (respects _ ha _ hb same), fun same => apart.2 (respects _ hb _ ha same)⟩

variable (cmp key) in
/-- Adding to a collection in ascending order. -/
def place (merge : α → α → α) (d : α) : List α → List α
  | [] => [d]
  | e :: rest =>
    match cmp (key d) (key e) with
    | .lt => d :: e :: rest
    | .eq => merge d e :: rest
    | .gt => e :: place merge d rest

variable (cmp key) in
/-- Adding to a collection without order, behind the elements that it has. -/
def attach (merge : α → α → α) (d : α) : List α → List α
  | [] => [d]
  | e :: rest => if cmp (key d) (key e) == .eq then merge d e :: rest else e :: attach merge d rest

variable (cmp key) in
/-- Elements whose keys are in ascending order. -/
def Ascending (zs : List α) : Prop := zs.Pairwise fun x y => cmp (key x) (key y) = .lt

theorem Put.cons {e : α} (put : Put cmp key merge d zs zs') (apart : cmp (key d) (key e) ≠ .eq) :
    Put cmp key merge d (e :: zs) (e :: zs') := by
  cases put with
  | fresh new perm =>
    exact .fresh (List.forall_mem_cons.mpr ⟨apart, new⟩) ((perm.cons e).trans (.swap ..))
  | known same before after =>
    exact .known same ((before.cons e).trans (.swap ..)) ((after.cons e).trans (.swap ..))

theorem Put.key_of_mem (merges : Merges key content merge) (put : Put cmp key merge d zs zs')
    {z : α} (mem : z ∈ zs') : key z = key d ∨ ∃ y ∈ zs, key z = key y := by
  cases put with
  | fresh new perm =>
    exact (List.mem_cons.mp (perm.subset mem)).imp (congrArg key) fun earlier => ⟨z, earlier, rfl⟩
  | @known e rest same before after =>
    rcases List.mem_cons.mp (after.subset mem) with rfl | earlier
    · exact (merges.key d e).imp id fun old => ⟨e, before.symm.subset List.mem_cons_self, old⟩
    · exact .inr ⟨z, before.symm.subset (List.mem_cons_of_mem e earlier), rfl⟩

theorem attach_put (zs : List α) : Put cmp key merge d zs (attach cmp key merge d zs) := by
  induction zs with
  | nil => exact .fresh (by simp) (.refl _)
  | cons e rest ih =>
    rw [attach]
    split
    next same => exact .known (eq_of_beq same) (.refl _) (.refl _)
    next apart => exact ih.cons fun same => apart (beq_iff_eq.mpr same)

theorem place_put (orders : Orders P cmp) (merges : Merges key content merge) (own : P (key d))
    (keys : ∀ z ∈ zs, P (key z)) (ascending : Ascending cmp key zs) :
    Put cmp key merge d zs (place cmp key merge d zs) ∧
      Ascending cmp key (place cmp key merge d zs) := by
  induction zs with
  | nil => exact ⟨.fresh (by simp) (.refl _), List.pairwise_singleton ..⟩
  | cons e rest ih =>
    obtain ⟨head, tail⟩ := List.pairwise_cons.mp ascending
    obtain ⟨own', keys⟩ := List.forall_mem_cons.mp keys
    rw [place]
    split
    next less =>
      have below : ∀ z ∈ e :: rest, cmp (key d) (key z) = .lt := List.forall_mem_cons.mpr
        ⟨less, fun z hz => orders.lt_trans own own' (keys z hz) less (head z hz)⟩
      exact ⟨.fresh (fun z hz => by simp [below z hz]) (.refl _), .cons below ascending⟩
    next same =>
      refine ⟨.known same (.refl _) (.refl _), .cons (fun z hz => ?_) tail⟩
      rcases merges.key d e with eq | eq
      · rw [eq, orders.left own own' (keys z hz) same]
        exact head z hz
      · rw [eq]
        exact head z hz
    next greater =>
      obtain ⟨put, placed⟩ := ih keys tail
      refine ⟨put.cons (by simp [greater]), .cons (fun z hz => ?_) placed⟩
      rcases put.key_of_mem merges hz with eq | ⟨y, hy, eq⟩
      · rw [eq]
        exact orders.lt_of_gt own own' greater
      · rw [eq]
        exact head y hy

/-- Placing elements one after the other collects them in ascending order. -/
theorem collects_place (orders : Orders P cmp) (merges : Merges key content merge)
    (keys : ∀ x ∈ xs, P (key x)) :
    Collects cmp key content xs (xs.foldl (fun zs d => place cmp key merge d zs) []) ∧
      Ascending cmp key (xs.foldl (fun zs d => place cmp key merge d zs) []) :=
  collects_foldl orders merges (fun _ _ => place_put orders merges) .nil keys

theorem collects_attach (orders : Orders P cmp) (merges : Merges key content merge)
    (keys : ∀ x ∈ xs, P (key x)) :
    Collects cmp key content xs (xs.foldl (fun zs d => attach cmp key merge d zs) []) := by
  have step : ∀ d zs, P (key d) → (∀ z ∈ zs, P (key z)) → True →
      Put cmp key merge d zs (attach cmp key merge d zs) ∧ True := fun _ zs _ _ _ =>
    ⟨attach_put zs, trivial⟩
  exact (collects_foldl orders merges step trivial keys).1

theorem Ascending.differ (orders : Orders P cmp) (keys : ∀ x ∈ xs, P (key x))
    (ascending : Ascending cmp key xs) : xs.Pairwise (Differ cmp key) := by
  refine ascending.imp_of_mem fun {x y} hx hy less => ⟨by simp [less], ?_⟩
  exact (orders.not_lt (keys x hx) (keys y hy) less).2

/-- Elements in ascending order are in no other order ascending. -/
theorem Ascending.eq_of_perm (orders : Orders P cmp) (keys : ∀ x ∈ xs, P (key x))
    (ascending : Ascending cmp key xs) (ascending' : Ascending cmp key zs) (perm : zs.Perm xs) :
    zs = xs := by
  refine perm.eq_of_pairwise (fun x y hx hy xy yx => ?_) ascending' ascending
  exact absurd yx (orders.not_lt (keys x (perm.subset hx)) (keys y hy) xy).1

/-- Elements that the order does not tell apart are placed alike. -/
theorem place_congr {S : α → α → Prop} (orders : Orders P cmp)
    (keys : ∀ x y, S x y → P (key x) ∧ P (key y) ∧ cmp (key x) (key y) = .eq)
    (merged : ∀ x y x' y', S x y → S x' y' → S (merge x x') (merge y y')) {x y : α} (hxy : S x y)
    (alike : xs.Forall₂ S ys) :
    (place cmp key merge x xs).Forall₂ S (place cmp key merge y ys) := by
  induction alike with
  | nil => exact .cons hxy .nil
  | @cons a b as bs hab rest ih =>
    obtain ⟨px, py, xy⟩ := keys x y hxy
    obtain ⟨pa, pb, ab⟩ := keys a b hab
    rw [place, place, orders.congr px py pa pb xy ab]
    split
    · exact .cons hxy (.cons hab rest)
    · exact .cons (merged x y a b hxy hab) rest
    · exact .cons hab ih

theorem foldl_place_congr {S : α → α → Prop} (orders : Orders P cmp)
    (keys : ∀ x y, S x y → P (key x) ∧ P (key y) ∧ cmp (key x) (key y) = .eq)
    (merged : ∀ x y x' y', S x y → S x' y' → S (merge x x') (merge y y'))
    (alike : xs.Forall₂ S ys) (start : zs.Forall₂ S zs') :
    (xs.foldl (fun zs d => place cmp key merge d zs) zs).Forall₂ S
      (ys.foldl (fun zs d => place cmp key merge d zs) zs') := by
  induction alike generalizing zs zs' with
  | nil => exact start
  | cons hxy _ ih => exact ih (place_congr orders keys merged hxy start)

end Collecting

section Pairs

variable {ps : List (Value × Value)}

theorem insertPair_eq (p : Value × Value) :
    insertPair p.1 p.2 ps = place Value.cmp Prod.fst (fun p q => (q.1, p.2)) p ps := by
  induction ps with
  | nil => rfl
  | cons q rest ih => cases found : p.1.cmp q.1 <;> simp [insertPair, place, found, ih]

/-- The pairs of a map value collect the pairs that it is made of. -/
theorem Value.exists_mapOf (free : ∀ p ∈ ps, p.1.FloatFree) :
    ∃ qs, Value.mapOf ps = .map qs ∧ Collects Value.cmp Prod.fst Prod.snd ps qs := by
  have merges : Merges Prod.fst Prod.snd fun p q : Value × Value => (q.1, p.2) :=
    ⟨fun _ _ => .inr rfl, fun _ _ => rfl⟩
  refine ⟨_, rfl, ?_⟩
  simp only [insertPair_eq]
  exact (collects_place Value.orders merges free).1

end Pairs

/-- Whether equal items are one. -/
def SequenceKind.isSet : SequenceKind → Bool
  | .list | .queue => false
  | .sortedSet | .hashedSet => true

namespace Datum

/-- The items of a set, each of them once. -/
def SameSet (items set : List Datum) : Prop := Collects cmp id (fun _ => ()) items set

/-- The pairs of a map, each of the keys once. -/
def SameMap (pairs map : List (Datum × Datum)) : Prop := Collects cmp Prod.fst Prod.snd pairs map

variable {P : Datum → Prop} {items items' : List Datum} {pairs pairs' : List (Datum × Datum)}

theorem insertSorted_eq (d : Datum) :
    insertSorted d items = place cmp id (fun d _ => d) d items := by
  induction items with
  | nil => rfl
  | cons e rest ih => cases found : d.cmp e <;> simp [insertSorted, place, found, ih]

theorem insertHashed_eq (d : Datum) :
    insertHashed items d = attach cmp id (fun _ e => e) d items := by
  unfold insertHashed
  induction items with
  | nil => rfl
  | cons e rest ih =>
    rw [attach, ← ih, List.any_cons]
    cases same : d.cmp e == .eq
    · cases rest.any fun e => d.cmp e == .eq <;> simp [same]
    · simp [same]

theorem insertSortedPair_eq (p : Datum × Datum) :
    insertSortedPair p pairs = place cmp Prod.fst (fun p _ => p) p pairs := by
  induction pairs with
  | nil => rfl
  | cons q rest ih => cases found : p.1.cmp q.1 <;> simp [insertSortedPair, place, found, ih]

theorem insertHashedPair_eq (p : Datum × Datum) :
    insertHashedPair p pairs = attach cmp Prod.fst (fun p q => (q.1, p.2)) p pairs := by
  induction pairs with
  | nil => rfl
  | cons q rest ih => rw [insertHashedPair, attach, ih]

theorem collect_listed {kind : SequenceKind} (listed : kind.isSet = false) (items : List Datum) :
    collect kind items = .sequence kind items := by
  cases kind with
  | list | queue => rfl
  | sortedSet | hashedSet => cases listed

theorem collect_sorted : collect .sortedSet items =
    .sequence .sortedSet (items.foldl (fun set d => place cmp id (fun d _ => d) d set) []) := by
  simp only [collect, insertSorted_eq]

theorem collectPairs_sorted : collectPairs .sorted pairs =
    .mapping .sorted (pairs.foldl (fun map p => place cmp Prod.fst (fun p _ => p) p map) []) := by
  simp only [collectPairs, insertSortedPair_eq]

theorem exists_collect {kind : SequenceKind} (isSet : kind.isSet = true) (orders : Orders P cmp)
    (holds : ∀ d ∈ items, P d) : ∃ set, collect kind items = .sequence kind set ∧
      SameSet items set ∧ (kind = .sortedSet → Ascending cmp id set) := by
  cases kind with
  | list | queue => cases isSet
  | sortedSet =>
    have merges : Merges id (fun _ => ()) fun d _ : Datum => d :=
      ⟨fun _ _ => .inl rfl, fun _ _ => rfl⟩
    obtain ⟨same, ascending⟩ := collects_place orders merges holds
    exact ⟨_, collect_sorted, same, fun _ => ascending⟩
  | hashedSet =>
    have merges : Merges id (fun _ => ()) fun _ e : Datum => e :=
      ⟨fun _ _ => .inr rfl, fun _ _ => rfl⟩
    have same := collects_attach orders merges holds
    simp only [← insertHashed_eq] at same
    exact ⟨_, rfl, same.of_perm (List.mergeSort_perm ..), nofun⟩

theorem exists_collectPairs (kind : MappingKind) (orders : Orders P cmp)
    (holds : ∀ p ∈ pairs, P p.1) : ∃ map, collectPairs kind pairs = .mapping kind map ∧
      SameMap pairs map ∧ (kind = .sorted → Ascending cmp Prod.fst map) := by
  cases kind with
  | sorted =>
    have merges : Merges Prod.fst Prod.snd fun p _ : Datum × Datum => p :=
      ⟨fun _ _ => .inl rfl, fun _ _ => rfl⟩
    obtain ⟨same, ascending⟩ := collects_place orders merges holds
    exact ⟨_, collectPairs_sorted, same, fun _ => ascending⟩
  | hashed =>
    have merges : Merges Prod.fst Prod.snd fun p q : Datum × Datum => (q.1, p.2) :=
      ⟨fun _ _ => .inr rfl, fun _ _ => rfl⟩
    have same := collects_attach orders merges holds
    simp only [← insertHashedPair_eq] at same
    exact ⟨_, rfl, same, nofun⟩

end Datum

end RecordMapper
