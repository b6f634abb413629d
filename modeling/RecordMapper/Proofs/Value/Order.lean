import RecordMapper.Proofs.Value.Comparing

/-!
The order of values without floating-point numbers. It is total up to the equality that it decides:
records, arrays and maps are compared through their parts, at whatever depth, and integers of every
width through one view.
-/

namespace RecordMapper.Value

open Std

/-- No floating-point number occurs in the value, at whatever depth. -/
inductive FloatFree : Value → Prop
  | null : FloatFree .null
  | bool (b : Bool) : FloatFree (.bool b)
  | int (n : Integer) : FloatFree (.int n)
  | char (c : Char) : FloatFree (.char c)
  | string (s : String) : FloatFree (.string s)
  | record {name : String} {entries : List (String × Value)}
      (values : ∀ e ∈ entries, FloatFree e.2) : FloatFree (.record name entries)
  | array {items : List Value} (values : ∀ v ∈ items, FloatFree v) : FloatFree (.array items)
  | map {pairs : List (Value × Value)} (keys : ∀ p ∈ pairs, FloatFree p.1)
      (values : ∀ p ∈ pairs, FloatFree p.2) : FloatFree (.map pairs)

namespace FloatFree

variable {a b c : Value}

theorem swap_compareCanonical (ha : a.FloatFree) (hb : b.FloatFree) :
    (compareCanonical a b).swap = compareCanonical b a := by
  induction ha generalizing b with
  | null => cases hb <;> rfl
  | bool x =>
    cases hb with
    | bool y => exact (OrientedOrd.eq_swap (a := y)).symm
    | _ => rfl
  | int n =>
    cases hb with
    | int m => exact (OrientedOrd.eq_swap (a := m.view)).symm
    | _ => rfl
  | char x =>
    cases hb with
    | char y => exact (OrientedOrd.eq_swap (a := y)).symm
    | _ => rfl
  | string x =>
    cases hb with
    | string y => exact (OrientedOrd.eq_swap (a := y)).symm
    | _ => rfl
  | @record n es values ih =>
    cases hb with
    | @record m fs others =>
      have entries : (compareEntries es fs).swap = compareEntries fs es := by
        rw [compareEntries_eq, compareEntries_eq]
        refine swap_compareLex fun e he f hf => ?_
        rw [compareEntry_eq, compareEntry_eq, Ordering.swap_then, ih e he (others f hf),
          ← OrientedOrd.eq_swap]
      rw [compareCanonical, compareCanonical, Ordering.swap_then, entries, ← OrientedOrd.eq_swap]
    | _ => rfl
  | array values ih =>
    cases hb with
    | array others =>
      rw [compareCanonical, compareCanonical, compareItems_eq, compareItems_eq]
      exact swap_compareLex fun v hv w hw => ih v hv (others w hw)
    | _ => rfl
  | map keys values ihk ihv =>
    cases hb with
    | map keys' values' =>
      rw [compareCanonical, compareCanonical, comparePairs_eq, comparePairs_eq]
      refine swap_compareLex fun p hp q hq => ?_
      rw [comparePair_eq, comparePair_eq, Ordering.swap_then, ihk p hp (keys' q hq),
        ihv p hp (values' q hq)]
    | _ => rfl

/-- Only values of one kind are left once the kinds are compared. -/
theorem fits_compareCanonical (ha : a.FloatFree) (hb : b.FloatFree) (hc : c.FloatFree) :
    Fits (compareCanonical a b) (compareCanonical b c) (compareCanonical a c) := by
  induction ha generalizing b c with
  | null =>
    refine fits_of_rank fun ab bc => ?_
    cases hb with
    | null =>
      cases hc with
      | null => exact ⟨fun _ => rfl, fun _ => rfl, fun _ => rfl⟩
      | _ => cases bc
    | _ => cases ab
  | bool x =>
    refine fits_of_rank fun ab bc => ?_
    cases hb with
    | bool y =>
      cases hc with
      | bool z => exact fits_compare x y z
      | _ => cases bc
    | _ => cases ab
  | int n =>
    refine fits_of_rank fun ab bc => ?_
    cases hb with
    | int m =>
      cases hc with
      | int k => exact fits_compare n.view m.view k.view
      | _ => cases bc
    | _ => cases ab
  | char x =>
    refine fits_of_rank fun ab bc => ?_
    cases hb with
    | char y =>
      cases hc with
      | char z => exact fits_compare x y z
      | _ => cases bc
    | _ => cases ab
  | string x =>
    refine fits_of_rank fun ab bc => ?_
    cases hb with
    | string y =>
      cases hc with
      | string z => exact fits_compare x y z
      | _ => cases bc
    | _ => cases ab
  | @record n es values ih =>
    refine fits_of_rank fun ab bc => ?_
    cases hb with
    | @record m fs values' =>
      cases hc with
      | @record k gs values'' =>
        simp only [compareCanonical, compareEntries_eq]
        refine (fits_compare n m k).then fun _ _ => fits_compareLex fun e he f hf g hg => ?_
        have inner := ih e he (values' f hf) (values'' g hg)
        simp only [compareEntry_eq]
        exact (fits_compare e.1 f.1 g.1).then fun _ _ => inner
      | _ => cases bc
    | _ => cases ab
  | array values ih =>
    refine fits_of_rank fun ab bc => ?_
    cases hb with
    | array values' =>
      cases hc with
      | array values'' =>
        simp only [compareCanonical, compareItems_eq]
        exact fits_compareLex fun v hv w hw u hu => ih v hv (values' w hw) (values'' u hu)
      | _ => cases bc
    | _ => cases ab
  | map keys values ihk ihv =>
    refine fits_of_rank fun ab bc => ?_
    cases hb with
    | map keys' values' =>
      cases hc with
      | map keys'' values'' =>
        simp only [compareCanonical, comparePairs_eq]
        refine fits_compareLex fun p hp q hq r hr => ?_
        have first := ihk p hp (keys' q hq) (keys'' r hr)
        have second := ihv p hp (values' q hq) (values'' r hr)
        simp only [comparePair_eq]
        exact first.then fun _ _ => second
      | _ => cases bc
    | _ => cases ab

/-- Values that the order does not tell apart compare alike with every value, floating-point numbers
included. -/
theorem compareCanonical_congr (ha : a.FloatFree) (hb : b.FloatFree)
    (same : compareCanonical a b = .eq) (c : Value) :
    compareCanonical a c = compareCanonical b c := by
  induction ha generalizing b c with
  | null =>
    cases hb with
    | null => rfl
    | _ => cases same
  | bool x =>
    cases hb with
    | bool y =>
      obtain rfl : x = y := LawfulEqOrd.eq_of_compare same
      rfl
    | _ => cases same
  | int n =>
    cases hb with
    | int m =>
      have view : n.view = m.view := LawfulEqOrd.eq_of_compare same
      cases c <;> simp [compareCanonical, compareScalars, asDecimal?, rank, view]
    | _ => cases same
  | char x =>
    cases hb with
    | char y =>
      obtain rfl : x = y := LawfulEqOrd.eq_of_compare same
      rfl
    | _ => cases same
  | string x =>
    cases hb with
    | string y =>
      obtain rfl : x = y := LawfulEqOrd.eq_of_compare same
      rfl
    | _ => cases same
  | @record n es values ih =>
    cases hb with
    | @record m fs values' =>
      rw [compareCanonical, Ordering.then_eq_eq, compareEntries_eq] at same
      obtain ⟨names, entries⟩ := same
      obtain rfl : n = m := LawfulEqOrd.eq_of_compare names
      cases c with
      | record k gs =>
        have alike : es.compareLex compareEntry gs = fs.compareLex compareEntry gs := by
          refine compareLex_congr (fun e he f hf eq g => ?_) entries gs
          rw [compareEntry_eq, Ordering.then_eq_eq] at eq
          have name : e.1 = f.1 := LawfulEqOrd.eq_of_compare eq.1
          rw [compareEntry_eq, compareEntry_eq, name, ih e he (values' f hf) eq.2]
        rw [compareCanonical, compareCanonical, compareEntries_eq, compareEntries_eq, alike]
      | _ => rfl
    | _ => cases same
  | array values ih =>
    cases hb with
    | array values' =>
      rw [compareCanonical, compareItems_eq] at same
      cases c with
      | array us =>
        rw [compareCanonical, compareCanonical, compareItems_eq, compareItems_eq]
        exact compareLex_congr (fun v hv w hw eq u => ih v hv (values' w hw) eq u) same us
      | _ => rfl
    | _ => cases same
  | map keys values ihk ihv =>
    cases hb with
    | map keys' values' =>
      rw [compareCanonical, comparePairs_eq] at same
      cases c with
      | map rs =>
        rw [compareCanonical, compareCanonical, comparePairs_eq, comparePairs_eq]
        refine compareLex_congr (fun p hp q hq eq r => ?_) same rs
        rw [comparePair_eq, Ordering.then_eq_eq] at eq
        rw [comparePair_eq, comparePair_eq, ihk p hp (keys' q hq) eq.1,
          ihv p hp (values' q hq) eq.2]
      | _ => rfl
    | _ => cases same

theorem canonical (ha : a.FloatFree) : a.canonical.FloatFree := by
  induction ha with
  | null => exact .null
  | bool b => exact .bool b
  | int n => exact .int n
  | char c => exact .char c
  | string s => exact .string s
  | record values ih =>
    refine .record fun e he => ?_
    rw [mem_sortByName, canonicalEntries_eq_map] at he
    obtain ⟨inner, mem, rfl⟩ := List.mem_map.mp he
    exact ih inner mem
  | array values ih =>
    rw [Value.canonical, canonicalItems_eq_map]
    refine .array fun v hv => ?_
    obtain ⟨inner, mem, rfl⟩ := List.mem_map.mp hv
    exact ih inner mem
  | map keys values ihk ihv =>
    rw [Value.canonical, canonicalPairs_eq_map]
    refine .map (fun p hp => ?_) fun p hp => ?_
    · obtain ⟨inner, mem, rfl⟩ := List.mem_map.mp hp
      exact ihk inner mem
    · obtain ⟨inner, mem, rfl⟩ := List.mem_map.mp hp
      exact ihv inner mem

theorem swap_cmp (ha : a.FloatFree) (hb : b.FloatFree) : (a.cmp b).swap = b.cmp a :=
  ha.canonical.swap_compareCanonical hb.canonical

theorem fits_cmp (ha : a.FloatFree) (hb : b.FloatFree) (hc : c.FloatFree) :
    Fits (a.cmp b) (b.cmp c) (a.cmp c) :=
  ha.canonical.fits_compareCanonical hb.canonical hc.canonical

theorem cmp_congr (ha : a.FloatFree) (hb : b.FloatFree) (same : a.cmp b = .eq) (c : Value) :
    a.cmp c = b.cmp c := ha.canonical.compareCanonical_congr hb.canonical same c.canonical

theorem cmp_self (ha : a.FloatFree) : a.cmp a = .eq := by
  have swapped := ha.swap_cmp ha
  cases own : a.cmp a with
  | eq => rfl
  | lt | gt =>
    rw [own] at swapped
    cases swapped

theorem beq_comm (ha : a.FloatFree) (hb : b.FloatFree) : (a == b) = (b == a) := by
  rw [Bool.eq_iff_iff, beq_iff, beq_iff, ← ha.swap_cmp hb]
  exact Ordering.swap_eq_eq.symm

theorem beq_congr (ha : a.FloatFree) (hb : b.FloatFree) (same : (a == b) = true) (c : Value) :
    (a == c) = (b == c) := by
  rw [Bool.eq_iff_iff, beq_iff, beq_iff, ha.cmp_congr hb (beq_iff.mp same)]

end FloatFree

/-- Comparing orders values without floating-point numbers totally, up to the equality that it
decides. -/
theorem cmp_total {a b c : Value} (ha : a.FloatFree) (hb : b.FloatFree) (hc : c.FloatFree) :
    a.cmp a = .eq ∧ b.cmp a = (a.cmp b).swap ∧
      (a.cmp b ≠ .gt → b.cmp c ≠ .gt → a.cmp c ≠ .gt) ∧
      ((a == b) = true ↔ a.cmp b = .eq) ∧ (a == a) = true ∧ ((a == b) = true → (b == a) = true) ∧
      ((a == b) = true → (b == c) = true → (a == c) = true) ∧
      ((a == b) = true → a.cmp c = b.cmp c ∧ c.cmp a = c.cmp b) := by
  have fits := ha.fits_cmp hb hc
  refine ⟨ha.cmp_self, (ha.swap_cmp hb).symm, fits.not_gt, beq_iff, beq_iff.mpr ha.cmp_self,
    fun same => ?_, fun ab bc => ?_, fun same => ?_⟩
  · rwa [← ha.beq_comm hb]
  · rwa [ha.beq_congr hb ab]
  · have left := ha.cmp_congr hb (beq_iff.mp same) c
    exact ⟨left, by rw [← ha.swap_cmp hc, ← hb.swap_cmp hc, left]⟩

def reading : Value :=
  .record "p" [("x", .int (.zero .i8)), ("y", .array [.string "s", .null])]

/-- The reading with its entries in the other order and its number in another width. -/
def rereading : Value :=
  .record "p" [("y", .array [.string "s", .null]), ("x", .int (.zero .u64))]

def readings : Value := .map [(.char 'a', .bool true), (rereading, .null)]

theorem cmp_total_readings :
    reading.FloatFree ∧ rereading.FloatFree ∧ readings.FloatFree ∧
      (reading == rereading) = true ∧ reading.cmp readings = rereading.cmp readings := by
  have notes : (Value.array [.string "s", .null]).FloatFree := by
    refine .array ?_
    simp only [List.forall_mem_cons]
    exact ⟨.string _, .null, by simp⟩
  have first : reading.FloatFree := by
    refine .record ?_
    simp only [List.forall_mem_cons]
    exact ⟨.int _, notes, by simp⟩
  have second : rereading.FloatFree := by
    refine .record ?_
    simp only [List.forall_mem_cons]
    exact ⟨notes, .int _, by simp⟩
  have all : readings.FloatFree := by
    refine .map ?_ ?_
    all_goals simp only [List.forall_mem_cons]
    · exact ⟨.char _, second, by simp⟩
    · exact ⟨.bool _, .null, by simp⟩
  have same : (reading == rereading) = true := by decide +kernel
  obtain ⟨-, -, -, -, -, -, -, respects⟩ := cmp_total first second all
  exact ⟨first, second, all, same, (respects same).1⟩

end RecordMapper.Value
