import Mathlib.Logic.Function.Iterate
import RecordMapper.Proofs.Schema.Described

/-!
Which types a registry describes, whatever it has described before: the well-formed ones and no
others. Describing stops before the levels of the search are used up, so what stands below them has
no part in any outcome.
-/

namespace RecordMapper

open Schema

namespace Registry

/-- The registry after describing types one after the other, whether this succeeds or not. -/
def describeAll (s : Schema) (calls : List TypeKey) (r : Registry) : Registry :=
  calls.foldl (fun r type => (describe s type r).2) r

variable {s : Schema}

theorem Reachable.after {r : Registry} (reachable : Reachable s r) (calls : List TypeKey) :
    Reachable s (describeAll s calls r) := by
  induction calls generalizing r with
  | nil => exact reachable
  | cons type calls ih => exact ih (reachable.describe type)

theorem describeFields_congr {describe other : TypeKey → Describing TypeDescriptor}
    {type : TypeKey} {fs : List FieldDeclaration}
    (same : ∀ f ∈ fs, ∀ child presence, f.shape = .nested child presence →
      ∀ r, describe child r = other child r) (taken : List String) (r : Registry) :
    describeFields s describe type taken fs r = describeFields s other type taken fs r := by
  induction fs generalizing taken r with
  | nil => rfl
  | cons f fs ih =>
    have own : ∀ r, describeAccess s describe type f r = describeAccess s other type f r := by
      intro r
      unfold describeAccess
      cases shape : f.shape with
      | scalar codec | sequence codec | mapping codec => rfl
      | nested child presence => simp only [same f List.mem_cons_self child presence shape]
    have later := ih fun g hg => same g (List.mem_cons_of_mem _ hg)
    simp only [describeFields_cons, own, later]

theorem describeStep_congr {describe other : List TypeKey → TypeKey → Describing TypeDescriptor}
    {owners : List TypeKey} {type : TypeKey} {r : Registry}
    (same : type ∉ owners → ∀ child, s.Embeds type child →
      ∀ r, describe (type :: owners) child r = other (type :: owners) child r) :
    describeStep s describe owners type r = describeStep s other owners type r := by
  unfold describeStep
  cases r.find? type with
  | some t => rfl
  | none =>
    cases accepted : s.accept owners type with
    | error failure => rfl
    | ok acceptance =>
      obtain ⟨d, contents⟩ := acceptance
      obtain ⟨declared, outside, -⟩ := accept_eq_ok_iff.mp accepted
      have fields : describeFields s (describe (type :: owners)) type [] d.fields r =
          describeFields s (other (type :: owners)) type [] d.fields r :=
        describeFields_congr (fun f hf child presence shape =>
          same outside child (.of_mem declared hf shape)) [] r
      simp only [fields]

/-- The owners of a type grow by one with each level and never exceed the schema, so describing
ends above whatever is put below the last level. -/
theorem iterate_describeStep {depth : Nat} {owners : List TypeKey} {type : TypeKey}
    (situated : s.Situated depth owners type)
    (below : List TypeKey → TypeKey → Describing TypeDescriptor) (r : Registry) :
    (describeStep s)^[depth] below owners type r = describeAt s depth owners type r := by
  induction depth generalizing owners type r with
  | zero => exact absurd situated.depth_pos (Nat.lt_irrefl 0)
  | succ depth ih =>
    rw [Function.iterate_succ_apply', describeAt_succ]
    exact describeStep_congr fun outside child embeds r =>
      ih (situated.nested outside embeds) r

theorem Reachable.ok_iff_wellFormed {r : Registry} (reachable : Reachable s r) {type : TypeKey} :
    (∃ t, (Registry.describe s type r).1 = .ok t) ↔ s.WellFormed type := by
  have agree := (reachable.refines type).outcome
  rw [← search_ok_iff, ← agree]
  cases (Registry.describe s type r).1 with
  | error failure => simp [Except.map]
  | ok t => simp [Except.map]

theorem Reachable.search_eq_error {r : Registry} (reachable : Reachable s r) {type : TypeKey}
    {failure : Failure} (failed : (Registry.describe s type r).1 = .error failure) :
    (s.search type).outcome = .error failure := by
  have agree := (reachable.refines type).outcome
  rw [failed] at agree
  exact agree.symm

/-- After any calls, describing a type ends within its levels, succeeds for the well-formed types
exactly, and fails otherwise with a mapping error and without keeping the type. -/
theorem describe_ok_iff_wellFormed (s : Schema) (calls : List TypeKey) (type : TypeKey) :
    let r := describeAll s calls {}
    (∀ below, (describeStep s)^[s.length + 1] below [] type r = describe s type r) ∧
    ((∃ t, (describe s type r).1 = .ok t) ↔ s.WellFormed type) ∧
    ∀ failure, (describe s type r).1 = .error failure →
      failure.kind = .mapping ∧ (describe s type r).2.contains type = false := by
  intro r
  have reachable : Reachable s r := Reachable.empty.after calls
  refine ⟨fun below => iterate_describeStep (.start s type) below r,
    reachable.ok_iff_wellFormed, fun failure failed => ?_⟩
  have failedSearch := reachable.search_eq_error failed
  refine ⟨kind_of_searchAt_eq_error failedSearch, Bool.eq_false_iff.mpr fun kept => ?_⟩
  obtain ⟨t, known⟩ := Option.isSome_iff_exists.mp kept
  have found := (reachable.refines type).ready.faithful.content type t known
  rw [failedSearch] at found
  cases found

end Registry

end RecordMapper
