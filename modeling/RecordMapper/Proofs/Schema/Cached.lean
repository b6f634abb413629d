import Mathlib.Data.List.Dedup
import RecordMapper.Proofs.Schema.Describable

/-!
Keeping descriptors is transparent. Whatever was described before, describing a type gives what it
gives on a new registry; a descriptor that was returned is returned ever after, and so are the
descriptors inside it.
-/

namespace RecordMapper

open Relation TypeDescriptor Schema

/-- One descriptor is that of a nested field of the other. -/
def TypeDescriptor.Nests (t child : TypeDescriptor) : Prop :=
  ∃ f ∈ t.fields, f.nested? = some child

namespace Registry

variable {s : Schema}

/-- What a sequence of calls leaves: the descriptors from before and those of the types that the
searches complete. -/
theorem Reachable.after_grown {r : Registry} (reachable : Reachable s r)
    (calls : List TypeKey) :
    r.Extends (describeAll s calls r) ∧ ∀ other, (describeAll s calls r).contains other ↔
      r.contains other ∨ ∃ type ∈ calls, other ∈ (s.search type).completed := by
  induction calls generalizing r with
  | nil => exact ⟨.refl r, fun other => by simp [describeAll]⟩
  | cons type calls ih =>
    have first := reachable.refines type
    obtain ⟨grown, contains⟩ := ih (reachable.describe type)
    refine ⟨first.grown.trans grown, fun other => ?_⟩
    have step : (describeAll s (type :: calls) r).contains other ↔ _ := contains other
    rw [step, first.contains other, or_assoc]
    refine or_congr_right ?_
    simp

theorem Faithful.find?_of_nests {r : Registry} (faithful : Faithful s r) {type : TypeKey}
    {t u : TypeDescriptor} (known : r.find? type = some t) (reached : ReflTransGen Nests t u) :
    r.find? u.key = some u := by
  induction reached with
  | refl => exact faithful.keeps known
  | tail _ nests ih =>
    obtain ⟨f, hf, nested⟩ := nests
    exact faithful.nested _ _ ih f hf _ nested

theorem mem_of_find? {r : Registry} {type : TypeKey} {t : TypeDescriptor}
    (known : r.find? type = some t) : (type, t) ∈ r.descriptors := by
  obtain ⟨entry, found, rfl⟩ := Option.map_eq_some_iff.mp known
  have key : entry.1 = type := by simpa using List.find?_some found
  exact key ▸ List.mem_of_find?_eq_some found

/-- The descriptors of a registry are told apart by their identities. -/
theorem Faithful.eq_of_identity {r : Registry} (faithful : Faithful s r) {type other : TypeKey}
    {t u : TypeDescriptor} (ht : r.find? type = some t) (hu : r.find? other = some u)
    (same : t.identity = u.identity) : type = other := by
  have distinct : (r.descriptors.map (·.2.identity)).Nodup := by
    rw [faithful.identities]
    exact List.nodup_range
  have entries := List.inj_on_of_nodup_map distinct (mem_of_find? ht) (mem_of_find? hu) same
  exact congrArg Prod.fst entries

theorem Faithful.contains_eq_false {r : Registry} (faithful : Faithful s r) {type : TypeKey}
    (cycle : TransGen s.Embeds type type) : r.contains type = false := by
  rw [contains, Option.isSome_eq_false_iff, Option.isNone_iff_eq_none]
  refine Option.eq_none_iff_forall_ne_some.mpr fun t known => ?_
  exact (faithful.describes known).wellFormed.acyclic cycle

/-- A registry with one descriptor per type is as large as the list of its types. -/
theorem Faithful.size_eq {r : Registry} (faithful : Faithful s r) {types : List TypeKey}
    (same : ∀ type, r.contains type ↔ type ∈ types) : r.size = types.dedup.length := by
  have perm : (r.descriptors.map (·.1)).Perm types.dedup := by
    refine (List.perm_ext_iff_of_nodup faithful.types (List.nodup_dedup types)).mpr fun type => ?_
    rw [← contains_iff_mem_types, same, List.mem_dedup]
  simpa [size] using perm.length_eq

/-- After any calls, failed ones included: a type is described with the same outcome as on a new
registry; what is returned is returned by every later call; the descriptors are told apart, and
each nested one is the one kept for its type; no type on a cycle is kept; and there are as many
descriptors as distinct types whose description succeeds in the searches for the calls. -/
theorem describe_describeAll (s : Schema) (calls : List TypeKey) :
    let r := describeAll s calls {}
    (∀ type, (describe s type r).1.map content = (describe s type {}).1.map content) ∧
    (∀ type t, (describe s type r).1 = .ok t → ∀ later,
      (describe s type (describeAll s later (describe s type r).2)).1 = .ok t) ∧
    (∀ type other t u, r.find? type = some t → r.find? other = some u →
      t.identity = u.identity → type = other) ∧
    (∀ type t u, r.find? type = some t → ReflTransGen Nests t u → r.find? u.key = some u) ∧
    (∀ type, TransGen s.Embeds type type → r.contains type = false) ∧
    r.size = (calls.flatMap fun type => (s.search type).completed).dedup.length := by
  intro r
  have reachable : Reachable s r := Reachable.empty.after calls
  have faithful := reachable.faithful
  refine ⟨fun type => ?_, fun type t described later => ?_,
    fun _ _ _ _ => faithful.eq_of_identity, fun _ _ _ => faithful.find?_of_nests,
    fun _ => faithful.contains_eq_false, faithful.size_eq fun other => ?_⟩
  · rw [(reachable.refines type).outcome, (Reachable.empty.refines type).outcome]
  · have known := reachable.find?_describe described
    have after := (reachable.describe type).after_grown later
    rw [describe_of_find? (after.1 type t known)]
  · rw [(Reachable.empty.after_grown calls).2 other, List.mem_flatMap]
    simp [contains, find?]

/-- A node that has a label and leads to a node is refused, and its label is kept. -/
example :
    let label : TypeDeclaration := { key := ⟨"graph", "Label"⟩, fields := [] }
    let node : TypeDeclaration :=
      { key := ⟨"graph", "Node"⟩
        fields := [{ name := "label", shape := .nested label.key .required },
          { name := "next", shape := .nested ⟨"graph", "Node"⟩ .optional }] }
    let r := describeAll [node, label] [node.key, label.key] {}
    r.contains node.key = false ∧ r.contains label.key = true ∧ r.size = 1 := by
  decide

end Registry

end RecordMapper
