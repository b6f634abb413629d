import RecordMapper.Value.Hash
import RecordMapper.Proofs.Value.Order
import RecordMapper.Proofs.Value.Parts

/-!
Hashing against the order. Values without floating-point numbers that the order does not tell apart
feed the same words into a hash, integers of different widths included.
-/

namespace RecordMapper

theorem flatMap_eq_of_forall₂ {α β : Type} {f : α → List β} {xs ys : List α}
    (alike : xs.Forall₂ (fun x y => f x = f y) ys) : xs.flatMap f = ys.flatMap f := by
  induction alike with
  | nil => rfl
  | cons head _ ih => rw [List.flatMap_cons, List.flatMap_cons, head, ih]

namespace Value

open Std

theorem hashEntries_eq_flatMap (es : List (String × Value)) :
    hashEntries es = es.flatMap fun e => .text e.1 :: e.2.hashCanonical := by
  induction es with
  | nil => rfl
  | cons e es ih =>
    cases e
    rw [hashEntries, ih]
    rfl

theorem hashItems_eq_flatMap (vs : List Value) : hashItems vs = vs.flatMap hashCanonical := by
  induction vs with
  | nil => rfl
  | cons v vs ih => rw [hashItems, ih, List.flatMap_cons]

theorem hashPairs_eq_flatMap (ps : List (Value × Value)) :
    hashPairs ps = ps.flatMap fun p => p.1.hashCanonical ++ p.2.hashCanonical := by
  induction ps with
  | nil => rfl
  | cons p ps ih =>
    cases p
    rw [hashPairs, ih]
    rfl

namespace FloatFree

variable {a b : Value}

theorem hashCanonical_congr (ha : a.FloatFree) (hb : b.FloatFree)
    (same : compareCanonical a b = .eq) : a.hashCanonical = b.hashCanonical := by
  induction ha generalizing b with
  | null =>
    cases hb with
    | null => rfl
    | _ => cases same
  | bool x =>
    cases hb with
    | bool y =>
      obtain rfl : x = y := LawfulEqOrd.eq_of_compare same
      rfl
    | _ => cases same
  | int n =>
    cases hb with
    | int m =>
      have view : n.view = m.view := LawfulEqOrd.eq_of_compare same
      rw [hashCanonical, hashCanonical, view]
    | _ => cases same
  | char x =>
    cases hb with
    | char y =>
      obtain rfl : x = y := LawfulEqOrd.eq_of_compare same
      rfl
    | _ => cases same
  | string x =>
    cases hb with
    | string y =>
      obtain rfl : x = y := LawfulEqOrd.eq_of_compare same
      rfl
    | _ => cases same
  | @record n es values ih =>
    cases hb with
    | @record m fs values' =>
      rw [compareCanonical, Ordering.then_eq_eq, compareEntries_eq, compareLex_eq_iff] at same
      obtain ⟨names, entries⟩ := same
      obtain rfl : n = m := LawfulEqOrd.eq_of_compare names
      have words : hashEntries es = hashEntries fs := by
        rw [hashEntries_eq_flatMap, hashEntries_eq_flatMap]
        refine flatMap_eq_of_forall₂ (forall₂_imp_of_mem entries fun e he f hf eq => ?_)
        rw [compareEntry_eq, Ordering.then_eq_eq] at eq
        have name : e.1 = f.1 := LawfulEqOrd.eq_of_compare eq.1
        rw [name, ih e he (values' f hf) eq.2]
      rw [hashCanonical, hashCanonical, entries.length_eq, words]
    | _ => cases same
  | @array vs values ih =>
    cases hb with
    | @array ws values' =>
      rw [compareCanonical, compareItems_eq, compareLex_eq_iff] at same
      have words : hashItems vs = hashItems ws := by
        rw [hashItems_eq_flatMap, hashItems_eq_flatMap]
        exact flatMap_eq_of_forall₂ (forall₂_imp_of_mem same fun v hv w hw =>
          ih v hv (values' w hw))
      rw [hashCanonical, hashCanonical, same.length_eq, words]
    | _ => cases same
  | @map ps keys values ihk ihv =>
    cases hb with
    | @map qs keys' values' =>
      rw [compareCanonical, comparePairs_eq, compareLex_eq_iff] at same
      have words : hashPairs ps = hashPairs qs := by
        rw [hashPairs_eq_flatMap, hashPairs_eq_flatMap]
        refine flatMap_eq_of_forall₂ (forall₂_imp_of_mem same fun p hp q hq eq => ?_)
        rw [comparePair_eq, Ordering.then_eq_eq] at eq
        rw [ihk p hp (keys' q hq) eq.1, ihv p hp (values' q hq) eq.2]
      rw [hashCanonical, hashCanonical, same.length_eq, words]
    | _ => cases same

theorem hashWords_congr (ha : a.FloatFree) (hb : b.FloatFree) (same : a.cmp b = .eq) :
    a.hashWords = b.hashWords := ha.canonical.hashCanonical_congr hb.canonical same

end FloatFree

end Value

end RecordMapper
