import Mathlib.Data.List.Sort
import Mathlib.Data.String.Basic
import Mathlib.Logic.Relation
import RecordMapper.Proofs.Value.Hashing

/-!
Equal records. Looking up each entry of the one record in the other, comparing the two entry by
entry in name order and hashing them go by the same equality, and the order in which entries were
written, at whatever depth, is no part of it.
-/

namespace RecordMapper

section ByName

variable {α : Type}

def ByName (e f : String × α) : Prop := e.1 ≤ f.1

instance : DecidableRel (ByName (α := α)) := fun e f => inferInstanceAs (Decidable (e.1 ≤ f.1))

theorem insertByName_eq (e : String × α) (es : List (String × α)) :
    insertByName e es = es.orderedInsert ByName e := by
  induction es with
  | nil => rfl
  | cons f es ih =>
    rw [insertByName, List.orderedInsert_cons, ih]
    by_cases le : ByName e f
    · have front : compare e.1 f.1 ≠ .gt := compare_le_iff_le.mpr le
      rw [if_pos le, if_neg (by simpa using front)]
    · have behind : compare e.1 f.1 = .gt := by
        by_contra front
        exact le (compare_le_iff_le.mp front)
      rw [if_neg le, if_pos (by simpa using behind)]

theorem sortByName_eq (es : List (String × α)) : sortByName es = es.insertionSort ByName := by
  induction es with
  | nil => rfl
  | cons e es ih =>
    rw [sortByName, List.foldr_cons, ← sortByName, ih, insertByName_eq, List.insertionSort_cons]

theorem sortByName_perm (es : List (String × α)) : (sortByName es).Perm es := by
  rw [sortByName_eq]
  exact List.perm_insertionSort ByName es

theorem names_sortByName (es : List (String × α)) :
    (sortByName es).map (·.1) = (es.map (·.1)).insertionSort (· ≤ ·) := by
  rw [sortByName_eq]
  exact List.map_insertionSort _ _ _ _ fun _ _ _ _ => Iff.rfl

theorem names_sortByName_of_perm {es fs : List (String × α)}
    (names : (es.map (·.1)).Perm (fs.map (·.1))) :
    (sortByName es).map (·.1) = (sortByName fs).map (·.1) := by
  have perm := ((sortByName_perm es).map (·.1)).trans
    (names.trans ((sortByName_perm fs).map (·.1)).symm)
  rw [names_sortByName, names_sortByName] at *
  exact perm.eq_of_pairwise (fun _ _ _ _ => le_antisymm) (List.pairwise_insertionSort _ _)
    (List.pairwise_insertionSort _ _)

theorem forall₂_of_map_eq {β γ : Type} {f : β → γ} {R : β → β → Prop} {xs ys : List β}
    (keys : xs.map f = ys.map f) (each : ∀ x ∈ xs, ∀ y ∈ ys, f x = f y → R x y) :
    xs.Forall₂ R ys := by
  induction xs generalizing ys with
  | nil =>
    obtain rfl : ys = [] := List.map_eq_nil_iff.mp keys.symm
    exact .nil
  | cons x xs ih =>
    obtain ⟨y, ys, rfl, head, tail⟩ := List.map_eq_cons_iff.mp keys.symm
    refine .cons (each x List.mem_cons_self y List.mem_cons_self head.symm) (ih tail.symm ?_)
    exact fun x' hx y' hy => each x' (List.mem_cons_of_mem x hx) y' (List.mem_cons_of_mem y hy)

/-- Lists of entries with the same names stand name against name once they are sorted. -/
theorem forall₂_sortByName {R : String × α → String × α → Prop} {es fs : List (String × α)}
    (names : (es.map (·.1)).Perm (fs.map (·.1)))
    (each : ∀ e ∈ es, ∀ f ∈ fs, e.1 = f.1 → R e f) : (sortByName es).Forall₂ R (sortByName fs) :=
  forall₂_of_map_eq (names_sortByName_of_perm names) fun e he f hf =>
    each e (mem_sortByName.mp he) f (mem_sortByName.mp hf)

theorem sortByName_eq_of_perm {es fs : List (String × α)} (perm : es.Perm fs)
    (distinct : (es.map (·.1)).Nodup) : sortByName es = sortByName fs := by
  rw [← List.forall₂_eq_eq_eq]
  refine forall₂_sortByName (perm.map _) fun e he f hf same => ?_
  exact List.inj_on_of_nodup_map distinct he (perm.mem_iff.mpr hf) same

end ByName

namespace Value

variable {a b : Value}

/-- No record in the value, at whatever depth, has two entries of one name. -/
inductive NamesApart : Value → Prop
  | null : NamesApart .null
  | bool (b : Bool) : NamesApart (.bool b)
  | int (n : Integer) : NamesApart (.int n)
  | f32 (x : Binary) : NamesApart (.f32 x)
  | f64 (x : Binary) : NamesApart (.f64 x)
  | char (c : Char) : NamesApart (.char c)
  | string (s : String) : NamesApart (.string s)
  | record {name : String} {entries : List (String × Value)}
      (distinct : (entries.map (·.1)).Nodup) (values : ∀ e ∈ entries, NamesApart e.2) :
      NamesApart (.record name entries)
  | array {items : List Value} (values : ∀ v ∈ items, NamesApart v) : NamesApart (.array items)
  | map {pairs : List (Value × Value)} (keys : ∀ p ∈ pairs, NamesApart p.1)
      (values : ∀ p ∈ pairs, NamesApart p.2) : NamesApart (.map pairs)

theorem NamesApart.names_nodup {r : Record} (h : (ofRecord r).NamesApart) : r.names.Nodup := by
  cases h with
  | record distinct _ => exact distinct

/-- One record in the value, at whatever depth, has its entries in another order. -/
inductive Reordered : Value → Value → Prop
  | here (name : String) {entries others : List (String × Value)} (perm : entries.Perm others) :
      Reordered (.record name entries) (.record name others)
  | entry (record : String) (front back : List (String × Value)) (name : String) {v w : Value}
      (inner : Reordered v w) :
      Reordered (.record record (front ++ (name, v) :: back))
        (.record record (front ++ (name, w) :: back))
  | item (front back : List Value) {v w : Value} (inner : Reordered v w) :
      Reordered (.array (front ++ v :: back)) (.array (front ++ w :: back))
  | key (front back : List (Value × Value)) (value : Value) {v w : Value}
      (inner : Reordered v w) :
      Reordered (.map (front ++ (v, value) :: back)) (.map (front ++ (w, value) :: back))
  | value (front back : List (Value × Value)) (key : Value) {v w : Value}
      (inner : Reordered v w) :
      Reordered (.map (front ++ (key, v) :: back)) (.map (front ++ (key, w) :: back))

/-- Any number of records in the value, one within the other or apart, have their entries in
another order. -/
def Rearranged : Value → Value → Prop := Relation.ReflTransGen Reordered

theorem Reordered.namesApart (h : Reordered a b) (apart : a.NamesApart) : b.NamesApart := by
  induction h with
  | here name perm =>
    cases apart with
    | record distinct values =>
      refine .record ((perm.map _).nodup_iff.mp distinct) fun e he => ?_
      exact values e (perm.mem_iff.mpr he)
  | entry record front back name inner ih =>
    cases apart with
    | record distinct values =>
      refine .record (by simpa using distinct) ?_
      simp only [List.forall_mem_append, List.forall_mem_cons] at values ⊢
      exact ⟨values.1, ih values.2.1, values.2.2⟩
  | item front back inner ih =>
    cases apart with
    | array values =>
      refine .array ?_
      simp only [List.forall_mem_append, List.forall_mem_cons] at values ⊢
      exact ⟨values.1, ih values.2.1, values.2.2⟩
  | key front back value inner ih =>
    cases apart with
    | map keys values =>
      simp only [List.forall_mem_append, List.forall_mem_cons] at keys values
      refine .map ?_ ?_
      all_goals simp only [List.forall_mem_append, List.forall_mem_cons]
      · exact ⟨keys.1, ih keys.2.1, keys.2.2⟩
      · exact values
  | value front back key inner ih =>
    cases apart with
    | map keys values =>
      simp only [List.forall_mem_append, List.forall_mem_cons] at keys values
      refine .map ?_ ?_
      all_goals simp only [List.forall_mem_append, List.forall_mem_cons]
      · exact keys
      · exact ⟨values.1, ih values.2.1, values.2.2⟩

theorem names_canonicalEntries (es : List (String × Value)) :
    (canonicalEntries es).map (·.1) = es.map (·.1) := by
  rw [canonicalEntries_eq_map, List.map_map]
  rfl

theorem Reordered.canonical_eq (h : Reordered a b) (apart : a.NamesApart) :
    a.canonical = b.canonical := by
  induction h with
  | @here name es fs perm =>
    cases apart with
    | record distinct _ =>
      have moved : (canonicalEntries es).Perm (canonicalEntries fs) := by
        rw [canonicalEntries_eq_map, canonicalEntries_eq_map]
        exact perm.map _
      rw [← names_canonicalEntries] at distinct
      rw [canonical, canonical, sortByName_eq_of_perm moved distinct]
  | entry record front back name inner ih =>
    cases apart with
    | record _ values =>
      have same := ih (values _ (List.mem_append_right _ List.mem_cons_self))
      simp only [canonical, canonicalEntries_eq_map, List.map_append, List.map_cons, same]
  | item front back inner ih =>
    cases apart with
    | array values =>
      have same := ih (values _ (List.mem_append_right _ List.mem_cons_self))
      simp only [canonical, canonicalItems_eq_map, List.map_append, List.map_cons, same]
  | key front back value inner ih =>
    cases apart with
    | map keys _ =>
      have same := ih (keys _ (List.mem_append_right _ List.mem_cons_self))
      simp only [canonical, canonicalPairs_eq_map, List.map_append, List.map_cons, same]
  | value front back key inner ih =>
    cases apart with
    | map _ values =>
      have same := ih (values _ (List.mem_append_right _ List.mem_cons_self))
      simp only [canonical, canonicalPairs_eq_map, List.map_append, List.map_cons, same]

theorem Rearranged.canonical_eq (h : Rearranged a b) (apart : a.NamesApart) :
    a.canonical = b.canonical := by
  suffices both : b.NamesApart ∧ a.canonical = b.canonical from both.2
  induction h with
  | refl => exact ⟨apart, rfl⟩
  | tail _ step ih => exact ⟨step.namesApart ih.1, ih.2.trans (step.canonical_eq ih.1)⟩

theorem Rearranged.cmp_eq (h : Rearranged a b) (apart : a.NamesApart) (free : a.FloatFree) :
    a.cmp b = .eq := by
  have own := free.cmp_self
  rwa [cmp, h.canonical_eq apart] at own ⊢

end Value

namespace Record

variable {a b c : Record}

/-- No floating-point number occurs in the record, at whatever depth. -/
def FloatFree (r : Record) : Prop := (Value.ofRecord r).FloatFree

theorem FloatFree.value {r : Record} (free : r.FloatFree) {e : String × Value}
    (mem : e ∈ r.entries) : e.2.FloatFree := by
  cases free with
  | record values => exact values e mem

theorem beq_iff : (a == b) = true ↔ a.name = b.name ∧ a.size = b.size ∧
    ∀ e ∈ a.entries, ∃ w, b.find? e.1 = some w ∧ (e.2 == w) = true := by
  change a.beq b = true ↔ _
  rw [beq, Bool.and_eq_true, Bool.and_eq_true, beq_iff_eq, beq_iff_eq, List.all_eq_true, and_assoc]
  refine and_congr_right fun _ => and_congr_right fun _ => forall₂_congr fun e _ => ?_
  cases b.find? e.1 <;> simp

theorem beq_trans (ha : a.FloatFree) (hb : b.FloatFree) (ab : (a == b) = true)
    (bc : (b == c) = true) : (a == c) = true := by
  obtain ⟨name, size, entries⟩ := beq_iff.mp ab
  obtain ⟨name', size', entries'⟩ := beq_iff.mp bc
  refine beq_iff.mpr ⟨name.trans name', size.trans size', fun e he => ?_⟩
  obtain ⟨v, inB, same⟩ := entries e he
  have mem := mem_of_lookup inB
  obtain ⟨w, inC, same'⟩ := entries' _ mem
  refine ⟨w, inC, ?_⟩
  rwa [(ha.value he).beq_congr (hb.value mem) same]

theorem cmp_iff : a.cmp b = .eq ↔ a.name = b.name ∧
    (sortByName (Value.canonicalEntries a.entries)).Forall₂
      (fun e f => e.1 = f.1 ∧ e.2.compareCanonical f.2 = .eq)
      (sortByName (Value.canonicalEntries b.entries)) := Value.cmp_record_iff

theorem size_eq_of_cmp (same : a.cmp b = .eq) : a.size = b.size := by
  have sorted := (cmp_iff.mp same).2.length_eq
  rw [(sortByName_perm _).length_eq, (sortByName_perm _).length_eq] at sorted
  rwa [Value.canonicalEntries_eq_map, Value.canonicalEntries_eq_map, List.length_map,
    List.length_map] at sorted

/-- As many names, all of them among the other ones, are the same names. -/
theorem names_perm (distinct : a.names.Nodup) (size : a.size = b.size)
    (sub : a.names ⊆ b.names) : a.names.Perm b.names := by
  refine (List.subperm_of_subset distinct sub).perm_of_length_le (Nat.le_of_eq ?_)
  rw [names, names, List.length_map, List.length_map]
  exact size.symm

theorem beq_iff_cmp (left : a.names.Nodup) (right : b.names.Nodup) :
    (a == b) = true ↔ a.cmp b = .eq := by
  rw [beq_iff]
  constructor
  · rintro ⟨name, size, found⟩
    have sub : a.names ⊆ b.names := by
      intro n mem
      obtain ⟨e, he, rfl⟩ := List.mem_map.mp mem
      obtain ⟨w, there, -⟩ := found e he
      exact List.mem_map.mpr ⟨(e.1, w), mem_of_lookup there, rfl⟩
    have perm := names_perm left size sub
    rw [names, names, ← Value.names_canonicalEntries, ← Value.names_canonicalEntries b.entries]
      at perm
    refine cmp_iff.mpr ⟨name, forall₂_sortByName perm fun e he f hf same => ⟨same, ?_⟩⟩
    rw [Value.canonicalEntries_eq_map] at he hf
    obtain ⟨⟨n, v⟩, own, rfl⟩ := List.mem_map.mp he
    obtain ⟨⟨m, w⟩, other, rfl⟩ := List.mem_map.mp hf
    obtain rfl : n = m := same
    obtain ⟨w', there, alike⟩ := found (n, v) own
    obtain rfl : w' = w := Option.some.inj (there.symm.trans (lookup_of_mem right other))
    exact Value.beq_iff.mp alike
  · intro same
    refine ⟨(cmp_iff.mp same).1, size_eq_of_cmp same, fun e he => ?_⟩
    obtain ⟨w, mem, alike⟩ := Value.exists_entry_of_cmp same he
    exact ⟨w, lookup_of_mem right mem, Value.beq_iff.mpr alike⟩

theorem hashWords_congr (ha : a.FloatFree) (hb : b.FloatFree) (same : a.cmp b = .eq) :
    a.hashWords = b.hashWords :=
  congrArg (List.drop 1) (Value.FloatFree.hashWords_congr ha hb same)

/-- Equality, order and hash of records agree, and none of them depends on the order in which the
entries were written. -/
theorem beq_agrees (ha : a.FloatFree) (hb : b.FloatFree)
    (left : (Value.ofRecord a).NamesApart) (right : (Value.ofRecord b).NamesApart) :
    ((a == b) = true ↔ a.cmp b = .eq) ∧
    ((a == b) = true → a.hashWords = b.hashWords) ∧
    ((Value.ofRecord a).Rearranged (.ofRecord b) → (a == b) = true) ∧
    ∀ v w : Value, v.FloatFree → w.FloatFree → (v == w) = true → v.hashWords = w.hashWords := by
  have agree : (a == b) = true ↔ a.cmp b = .eq := beq_iff_cmp left.names_nodup right.names_nodup
  refine ⟨agree, fun same => hashWords_congr ha hb (agree.mp same), fun rearranged => ?_,
    fun v w hv hw same => hv.hashWords_congr hw (Value.beq_iff.mp same)⟩
  exact agree.mpr (rearranged.cmp_eq left ha)

/-- A ship as an entry of its voyage. -/
def ship (entries : List (String × Value)) : String × Value := ("ship", .record "ship" entries)

def voyage : Record :=
  ⟨"voyage", [ship [("crew", .int (.zero .u8)), ("name", .string "Fram")], ("over", .bool true)]⟩

/-- The voyage with its entries and those of its ship in the other order. -/
def homeward : Record :=
  ⟨"voyage", [("over", .bool true), ship [("name", .string "Fram"), ("crew", .int (.zero .u8))]]⟩

theorem beq_agrees_voyage :
    (Value.ofRecord voyage).Rearranged (.ofRecord homeward) ∧ (voyage == homeward) = true ∧
      voyage.cmp homeward = .eq ∧ voyage.hashWords = homeward.hashWords ∧
      (Value.int (.zero .i8)).hashWords = (Value.int (.zero .u64)).hashWords := by
  have crewFree : (ship [("crew", .int (.zero .u8)), ("name", .string "Fram")]).2.FloatFree := by
    refine .record ?_
    simp only [List.forall_mem_cons]
    exact ⟨.int _, .string _, by simp⟩
  have crewFree' : (ship [("name", .string "Fram"), ("crew", .int (.zero .u8))]).2.FloatFree := by
    refine .record ?_
    simp only [List.forall_mem_cons]
    exact ⟨.string _, .int _, by simp⟩
  have free : voyage.FloatFree := by
    refine .record ?_
    simp only [voyage, List.forall_mem_cons]
    exact ⟨crewFree, .bool _, by simp⟩
  have free' : homeward.FloatFree := by
    refine .record ?_
    simp only [homeward, List.forall_mem_cons]
    exact ⟨.bool _, crewFree', by simp⟩
  have crewApart : (ship [("crew", .int (.zero .u8)), ("name", .string "Fram")]).2.NamesApart := by
    refine .record (by decide) ?_
    simp only [List.forall_mem_cons]
    exact ⟨.int _, .string _, by simp⟩
  have apart : (Value.ofRecord voyage).NamesApart := by
    refine .record (by decide) ?_
    simp only [voyage, List.forall_mem_cons]
    exact ⟨crewApart, .bool _, by simp⟩
  have inner : (Value.ofRecord voyage).Reordered (.record "voyage"
      [ship [("name", .string "Fram"), ("crew", .int (.zero .u8))], ("over", .bool true)]) :=
    .entry "voyage" [] _ "ship" (.here "ship" (.swap _ _ _))
  have outer : (Value.record "voyage"
      [ship [("name", .string "Fram"), ("crew", .int (.zero .u8))], ("over", .bool true)]).Reordered
      (.ofRecord homeward) := .here "voyage" (.swap _ _ _)
  have rearranged : (Value.ofRecord voyage).Rearranged (.ofRecord homeward) :=
    .tail (.single inner) outer
  have apart' : (Value.ofRecord homeward).NamesApart := outer.namesApart (inner.namesApart apart)
  obtain ⟨agree, hashes, moved, widths⟩ := beq_agrees free free' apart apart'
  have same := moved rearranged
  exact ⟨rearranged, same, agree.mp same, hashes same, widths _ _ (.int _) (.int _) rfl⟩

end Record

end RecordMapper
