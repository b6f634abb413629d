import RecordMapper.Proofs.Field.Reading

/-!
Members that are not kept. What is read from the value of a content is the content with these reset,
as keys whose values are equal are read as equal ones. Contents with them reset are all there unless
two items of a set or two keys of a map differ in them only, and then no content of the type has all
of them.
-/

namespace RecordMapper

namespace FieldType

/-- A content of which nothing is merged when it is reset, beside one that is equal to it then. -/
def Beside (t : FieldType) (compared : Bool) (d r : Datum) : Prop :=
  t.Apart d ∧ (compared = true → t.Alike r (t.reset d))

variable {t k : FieldType} {compared : Bool} {x y : Datum} {xs ys : List Datum}
  {ps qs : List (Datum × Datum)}

namespace Admits

/-- What is read from equal values is equal. -/
theorem cmp_reading (hx : t.Admits true x) (hy : t.Admits true y)
    (same : x.toValue.cmp y.toValue = .eq) :
    (t.reading x.toValue).cmp (t.reading y.toValue) = .eq := by
  induction t generalizing x y with
  | f32 | f64 | date | timestamp => cases hx
  | int t =>
    cases hx with
    | @int _ _ n type seen =>
      cases hy with
      | @int _ _ m type' seen' =>
        have views : n.view = m.view := Std.LawfulEqOrd.eq_of_compare same
        have first := read_int (type ▸ seen)
        have second := read_int (type' ▸ seen')
        rw [view_eq_val (type ▸ seen), view_eq_val (type' ▸ seen')] at views
        rw [Datum.toValue, Datum.toValue, ← type, reading_eq first, type, ← type',
          reading_eq second]
        exact Std.compare_eq_iff_eq.mpr views
  | bool | char | string | record | value =>
    cases hx
    cases hy
    exact same
  | option t ih =>
    cases hx with
    | absent =>
      cases hy with
      | absent => rfl
      | @present _ _ e _ valued =>
        have null : e.toValue = .null := Value.eq_null_of_cmp same
        rw [null] at valued
        cases valued
    | @present _ _ d content valued =>
      cases hy with
      | absent =>
        have null : d.toValue = .null := Value.eq_null_of_cmp' same
        rw [null] at valued
        cases valued
      | present content' valued' =>
        rw [reading_present content valued, reading_present content' valued']
        exact ih content content' same
  | boxed t ih =>
    cases hx with
    | boxed content =>
      cases hy with
      | boxed content' => exact (ih content content' same :)
  | sequence kind t ih =>
    cases hx with
    | @sequence _ _ _ xs ordered _ each =>
      cases hy with
      | @sequence _ _ _ ys _ _ each' =>
        simp only [Bool.or_true] at each each'
        rw [reading_sequence each, reading_sequence each']
        rw [Datum.toValue_sequence, Datum.toValue_sequence, Value.cmp_array_iff,
          List.forall₂_map_left_iff, List.forall₂_map_right_iff] at same
        refine cmp_collect (t := t) (ordered rfl) ?_
        rw [List.forall₂_map_left_iff, List.forall₂_map_right_iff]
        exact forall₂_imp_of_mem same fun a ha b hb alike =>
          ⟨(each a ha).compares, (each' b hb).compares, ih (each a ha) (each' b hb) alike⟩
  | mapping kind k t ihk iht =>
    cases hx with
    | @mapping _ _ _ _ ps ordered _ keys values =>
      cases hy with
      | @mapping _ _ _ _ qs _ _ keys' values' =>
        obtain ⟨vs, map, -, made⟩ := Datum.exists_toValue_mapping kind
          fun p hp => (keys p hp).floatFree
        obtain ⟨ws, map', -, made'⟩ := Datum.exists_toValue_mapping kind
          fun q hq => (keys' q hq).floatFree
        rw [map, map', Value.cmp_map_iff] at same
        rw [map, map', reading_map keys values made, reading_map keys' values' made']
        refine cmp_collectPairs (k := k) (t := t) (ordered rfl) ?_
        rw [List.forall₂_map_left_iff, List.forall₂_map_right_iff]
        refine forall₂_imp_of_mem same fun v hv w hw alike => ?_
        obtain ⟨p, hp, first⟩ := made.key v hv
        obtain ⟨p', hp', second⟩ := made.value v hv
        obtain ⟨q, hq, first'⟩ := made'.key w hw
        obtain ⟨q', hq', second'⟩ := made'.value w hw
        rw [Prod.map_fst, Prod.map_snd, Prod.map_fst, Prod.map_snd]
        rw [← first, ← second, ← first', ← second'] at alike ⊢
        exact ⟨⟨(keys p hp).compares, (keys' q hq).compares, ihk (keys p hp) (keys' q hq) alike.1⟩,
          (values p' hp').compares, (values' q' hq').compares,
          iht (values p' hp') (values' q' hq') alike.2⟩
  | enumeration name variants =>
    cases hx with
    | @variant _ _ _ i s distinct named =>
      cases hy with
      | @variant _ _ _ j s' distinct' named' =>
        obtain rfl : s = s' := Std.LawfulEqOrd.eq_of_compare same
        change ((enumeration name variants).reading (.string s)).cmp
          ((enumeration name variants).reading (.string s)) = .eq
        rw [reading_eq (read_variant distinct named)]
        exact Std.compare_self
  | compound name ms ih =>
    have parts := hx
    have parts' := hy
    cases hx with
    | @compound _ _ _ ds =>
      cases hy with
      | @compound _ _ _ es =>
        have values := Value.cmp_lookup same parts.nodup_names parts'.nodup_names
        rw [reading_compound parts, reading_compound parts']
        refine Datum.cmpMembers_map_eq fun m hm => ?_
        cases own : m.kept with
        | false => simp only [memberOf, own, Bool.false_eq_true, if_false, initial_cmp_self]
        | true =>
          obtain ⟨d, held, entry⟩ := parts.exists_entry m hm own
          obtain ⟨e, held', entry'⟩ := parts'.exists_entry m hm own
          have value := values m.name
          rw [entry, entry'] at value
          simp only [memberOf, own, if_true, entry, entry']
          exact ih m hm held held' value

/-- The map of the pairs that are read from those of a map. -/
theorem exists_map (kind : MappingKind) (keys : ∀ p ∈ ps, k.Admits true p.1)
    (values : ∀ p ∈ ps, t.Admits compared p.2) : ∃ map,
      (FieldType.mapping kind k t).reading (Datum.mapping kind ps).toValue = .mapping kind map ∧
      Datum.SameMap (ps.map fun p => (k.reading p.1.toValue, t.reading p.2.toValue)) map ∧
      (kind = .sorted → Ascending Datum.cmp Prod.fst map) := by
  have orders := k.compares_orders
  have compares : ∀ r ∈ ps.map fun p => (k.reading p.1.toValue, t.reading p.2.toValue),
      k.Compares r.1 := List.forall_mem_map.mpr fun p hp => (keys p hp).compares
  obtain ⟨qs, mapped, collects, made⟩ := Datum.exists_toValue_mapping kind
    fun p hp => (keys p hp).floatFree
  have respects : ∀ v ∈ ps.map (Prod.map Datum.toValue Datum.toValue),
      ∀ w ∈ ps.map (Prod.map Datum.toValue Datum.toValue), v.1.cmp w.1 = .eq →
        (k.reading v.1).cmp (k.reading w.1) = .eq :=
    List.forall_mem_map.mpr fun p hp => List.forall_mem_map.mpr fun q hq =>
      (keys p hp).cmp_reading (keys q hq)
  have gathers := collects.map k.reading t.reading respects
  rw [List.map_map] at gathers
  obtain ⟨map, collected, same, ascending⟩ := Datum.exists_collectPairs kind orders
    (gathers.holds_key compares)
  rw [mapped]
  exact ⟨map, (reading_map keys values made).trans collected,
    gathers.collects orders compares same, ascending⟩

theorem map_memberOf_eq {entries : List (String × Value)} {ms : List (Member FieldType)}
    {ds : List (Member Datum)} (members : ms.Forall₂ (Holds compared entries) ds)
    (apart : apartMembers ms ds) (each : ∀ m ∈ ms, ∀ d, m.content.Admits compared d →
      m.content.Apart d → m.content.reading d.toValue = m.content.reset d) :
    ms.map (memberOf entries) = resetMembers ms ds := by
  induction members with
  | nil => rfl
  | @cons m d ms ds holds _ ih =>
    obtain ⟨head, tail⟩ := List.forall_mem_cons.mp each
    rw [List.map_cons, resetMembers, ih apart.2 tail]
    obtain ⟨name, kept, t⟩ := m
    cases kept with
    | false => rfl
    | true =>
      have same := head d.content (holds.content rfl) (apart.1 rfl)
      rw [memberOf, resetMember, if_pos rfl, if_pos rfl, holds.entry rfl, same]

/-- What is read from the value of a content that is compared is the content with the members that
are not kept reset. -/
theorem reading_eq_reset (admits : t.Admits true x) (apart : t.Apart x) :
    t.reading x.toValue = t.reset x := by
  induction t generalizing x with
  | f32 | f64 | date | timestamp => cases admits
  | int t =>
    cases admits with
    | int type seen =>
      subst type
      exact reading_eq (read_int seen)
  | bool | char | string | record | value =>
    cases admits
    rfl
  | option t ih =>
    cases admits with
    | absent => rfl
    | present content valued =>
      rw [reading_present content valued, ih content apart]
      rfl
  | boxed t ih =>
    cases admits with
    | boxed content => exact (ih content apart :)
  | sequence kind t ih =>
    cases admits with
    | sequence _ _ each =>
      simp only [Bool.or_true] at each
      rw [reading_sequence each, List.map_congr_left fun d hd => ih (each d hd) (apart.1 d hd)]
      rfl
  | mapping kind k t ihk iht =>
    cases admits with
    | @mapping _ _ _ _ ps ordered _ keys values =>
      obtain rfl := MappingKind.eq_sorted (ordered rfl)
      have orders := k.compares_orders
      have pairs : (ps.map fun p => (k.reading p.1.toValue, t.reading p.2.toValue)) =
          ps.map (Prod.map k.reset t.reset) := List.map_congr_left fun p hp =>
        Prod.ext (ihk (keys p hp) (apart.1 p hp).1) (iht (values p hp) (apart.1 p hp).2)
      obtain ⟨map, read, same, ascending⟩ := exists_map .sorted keys values
      rw [pairs] at same
      have compares : ∀ r ∈ ps.map (Prod.map k.reset t.reset), k.Compares r.1 := by
        rw [← pairs]
        exact List.forall_mem_map.mpr fun p hp => (keys p hp).compares
      have differ : (ps.map (Prod.map k.reset t.reset)).Pairwise (Differ Datum.cmp Prod.fst) :=
        List.pairwise_map.mpr apart.2
      rw [read, reset, Datum.collectPairs_of_perm (ascending rfl) orders (same.holds_key compares)
        (same.perm differ)]
  | enumeration name variants =>
    cases admits with
    | variant distinct named => exact reading_eq (read_variant distinct named)
  | compound name ms ih =>
    have parts := admits
    cases admits with
    | compound =>
      rw [reading_compound parts, map_memberOf_eq parts.members apart fun m hm d => ih m hm]
      rfl

/-- A content that is compared and that nothing changes in is compared as it is. -/
theorem compares_self (admits : t.Admits true x) (apart : t.Apart x) (same : t.reset x = x) :
    t.Compares x := by
  have compares := admits.compares
  rwa [admits.reading_eq_reset apart, same] at compares

theorem resetMembers_eq {entries : List (String × Value)} {ms : List (Member FieldType)}
    {ds : List (Member Datum)} (members : ms.Forall₂ (Holds compared entries) ds)
    (keeps : keepsMembers ms = true) (each : ∀ m ∈ ms, ∀ d, m.content.Admits compared d →
      m.content.keepsAll = true → m.content.Apart d ∧ (compared = true → m.content.reset d = d)) :
    apartMembers ms ds ∧ (compared = true → resetMembers ms ds = ds) := by
  induction members with
  | nil => exact ⟨trivial, fun _ => rfl⟩
  | @cons m d ms ds holds _ ih =>
    obtain ⟨head, tail⟩ := List.forall_mem_cons.mp each
    rw [keepsMembers, Bool.and_eq_true, keepsMember_eq, Bool.and_eq_true] at keeps
    obtain ⟨⟨kept, inner⟩, keeps⟩ := keeps
    obtain ⟨apart, same⟩ := head d.content (holds.content kept) inner
    obtain ⟨aparts, sames⟩ := ih keeps tail
    refine ⟨⟨?_, aparts⟩, fun cmp => ?_⟩
    · cases m
      exact fun _ => apart
    · have reset : resetMember m d = ⟨m.name, m.kept, d.content⟩ := by
        cases m
        rw [resetMember, if_pos kept, same cmp]
      rw [resetMembers, sames cmp, reset, ← holds.name, ← holds.kept]

/-- A content of a type that keeps every member has none to reset. -/
theorem unmixed (admits : t.Admits compared x) (keeps : t.keepsAll = true) :
    t.Apart x ∧ (compared = true → t.reset x = x) := by
  induction t generalizing compared x with
  | f32 | f64 | date | timestamp => cases admits
  | int t | bool | char | string | record | value | enumeration name variants =>
    cases admits
    exact ⟨trivial, fun _ => rfl⟩
  | option t ih =>
    cases admits with
    | absent => exact ⟨trivial, fun _ => rfl⟩
    | present content _ =>
      obtain ⟨apart, same⟩ := ih content keeps
      exact ⟨apart, fun cmp => congrArg Datum.present (same cmp)⟩
  | boxed t ih =>
    cases admits with
    | boxed content => exact (ih content keeps :)
  | sequence kind t ih =>
    cases admits with
    | @sequence _ _ _ xs ordered arranged each =>
      have inner := fun d hd => ih (each d hd) keeps
      refine ⟨⟨fun d hd => (inner d hd).1, fun isSet => ?_⟩, fun cmp => ?_⟩
      · rw [isSet, Bool.true_or] at each inner
        have own := fun d hd => (each d hd).compares_self (inner d hd).1 ((inner d hd).2 rfl)
        refine (arranged.differ isSet t.compares_orders own).imp_of_mem fun hd he differ => ?_
        rwa [Differ, (inner _ hd).2 rfl, (inner _ he).2 rfl]
      · rw [cmp, Bool.or_true] at each inner
        have own := fun d hd => (each d hd).compares_self (inner d hd).1 ((inner d hd).2 rfl)
        have same : xs.map t.reset = xs := by
          rw [List.map_congr_left fun d hd => (inner d hd).2 rfl, List.map_id']
        rw [reset, same, Datum.collect_arranged (ordered cmp) arranged t.compares_orders own]
  | mapping kind k t ihk iht =>
    cases admits with
    | @mapping _ _ _ _ ps ordered arranged keys values =>
      rw [keepsAll, Bool.and_eq_true] at keeps
      have firsts := fun p hp => ihk (keys p hp) keeps.1
      have seconds := fun p hp => iht (values p hp) keeps.2
      have own := fun p hp => (keys p hp).compares_self (firsts p hp).1 ((firsts p hp).2 rfl)
      refine ⟨⟨fun p hp => ⟨(firsts p hp).1, (seconds p hp).1⟩, ?_⟩, fun cmp => ?_⟩
      · refine (arranged.differ k.compares_orders own).imp_of_mem fun hp hq differ => ?_
        rwa [Differ, (firsts _ hp).2 rfl, (firsts _ hq).2 rfl]
      · have same : ps.map (Prod.map k.reset t.reset) = ps := by
          conv_rhs => rw [← List.map_id ps]
          exact List.map_congr_left fun p hp =>
            Prod.ext ((firsts p hp).2 rfl) ((seconds p hp).2 cmp)
        obtain rfl := MappingKind.eq_sorted (ordered cmp)
        rw [reset, same, Datum.collectPairs_of_perm arranged k.compares_orders own (.refl _)]
  | compound name ms ih =>
    have parts := admits
    cases admits with
    | compound =>
      obtain ⟨apart, same⟩ := resetMembers_eq parts.members keeps fun m hm d => ih m hm
      exact ⟨apart, fun cmp => congrArg (Datum.compound name) (same cmp)⟩

theorem alike_sequence {kind : SequenceKind} {rs : List Datum} (ordered : kind ≠ .hashedSet)
    (alike : rs.Forall₂ t.Alike (xs.map t.reset)) (compares : ∀ d ∈ ys, t.Compares d)
    (collected : Datum.collect kind rs = .sequence kind ys) :
    (FieldType.sequence kind t).Alike (.sequence kind ys)
      ((FieldType.sequence kind t).reset (.sequence kind xs)) := by
  have resets : ∀ d ∈ xs.map t.reset, t.Compares d := by
    intro d hd
    obtain ⟨r, -, same⟩ := exists_of_forall₂ alike.flip hd
    exact same.2.1
  refine ⟨⟨rfl, compares⟩, compares_collect resets, ?_⟩
  rw [← collected]
  exact cmp_collect ordered alike

theorem alike_mapping {rs : List (Datum × Datum)}
    (alike : rs.Forall₂ (fun p q => k.Alike p.1 q.1 ∧ t.Alike p.2 q.2)
      (ps.map (Prod.map k.reset t.reset)))
    (compares : ∀ p ∈ qs, k.Compares p.1 ∧ t.Compares p.2)
    (collected : Datum.collectPairs .sorted rs = .mapping .sorted qs) :
    (FieldType.mapping .sorted k t).Alike (.mapping .sorted qs)
      ((FieldType.mapping .sorted k t).reset (.mapping .sorted ps)) := by
  have resets : ∀ p ∈ ps.map (Prod.map k.reset t.reset), k.Compares p.1 ∧ t.Compares p.2 := by
    intro p hp
    obtain ⟨r, -, same⟩ := exists_of_forall₂ alike.flip hp
    exact ⟨same.1.2.1, same.2.2.1⟩
  refine ⟨⟨rfl, compares⟩, compares_collectPairs resets, ?_⟩
  rw [← collected]
  exact cmp_collectPairs nofun alike

theorem apart_listed {kind : SequenceKind} (listed : kind.isSet = false)
    (ordered : compared = true → kind ≠ .hashedSet) (arranged : kind.Arranged ys)
    (related : xs.Forall₂ (t.Beside compared) ys) :
    (FieldType.sequence kind t).Beside compared (.sequence kind xs) (.sequence kind ys) := by
  have apart : ∀ d ∈ xs, t.Apart d := ((List.forall₂_and_left ..).mp related).1
  refine ⟨⟨apart, fun set => absurd (set.symm.trans listed) nofun⟩, fun cmp => ?_⟩
  have alike : ys.Forall₂ t.Alike (xs.map t.reset) :=
    List.forall₂_map_right_iff.mpr (related.imp fun _ _ h => h.2 cmp).flip
  have compares : ∀ d ∈ ys, t.Compares d := ((List.forall₂_and_left ..).mp alike).1
  exact alike_sequence (ordered cmp) alike compares
    (Datum.collect_arranged (ordered cmp) arranged t.compares_orders compares)

/-- Items that are equal, once they are reset, to the items of a set differ from each other then. -/
theorem apart_set {kind : SequenceKind} {rs : List Datum} (isSet : kind.isSet = true)
    (ordered : compared = true → kind ≠ .hashedSet) (arranged : kind.Arranged ys)
    (related : xs.Forall₂ (t.Beside true) rs) (perm : ys.Perm rs) :
    (FieldType.sequence kind t).Beside compared (.sequence kind xs) (.sequence kind ys) := by
  have alike : rs.Forall₂ t.Alike (xs.map t.reset) :=
    List.forall₂_map_right_iff.mpr (related.imp fun _ _ h => h.2 rfl).flip
  have apart : ∀ d ∈ xs, t.Apart d := ((List.forall₂_and_left ..).mp related).1
  have compares : ∀ d ∈ ys, t.Compares d := fun d hd =>
    ((List.forall₂_and_left ..).mp alike).1 d (perm.subset hd)
  have differ := (perm.pairwise_iff Differ.symm).mp
    (arranged.differ isSet t.compares_orders compares)
  refine ⟨⟨apart, fun _ => pairwise_differ_iff.mpr ?_⟩, fun cmp => ?_⟩
  · exact pairwise_differ_of_forall₂ t.compares_orders (fun _ _ same => same) alike differ
  · obtain rfl : kind = .sortedSet := by
      cases kind with
      | list | queue => cases isSet
      | sortedSet => rfl
      | hashedSet => exact absurd rfl (ordered cmp)
    exact alike_sequence (ordered cmp) alike compares
      (Datum.collect_of_perm arranged t.compares_orders compares perm)

theorem apart_mapping {kind : MappingKind} {rs : List (Datum × Datum)}
    (ordered : compared = true → kind ≠ .hashed) (arranged : kind.Arranged qs)
    (related : ps.Forall₂ (fun p r => k.Beside true p.1 r.1 ∧ t.Beside compared p.2 r.2) rs)
    (perm : qs.Perm rs) :
    (FieldType.mapping kind k t).Beside compared (.mapping kind ps) (.mapping kind qs) := by
  have alike : rs.Forall₂ (fun r q => k.Alike r.1 q.1) (ps.map (Prod.map k.reset t.reset)) :=
    List.forall₂_map_right_iff.mpr (related.imp fun _ _ h => h.1.2 rfl).flip
  have compares : ∀ q ∈ qs, k.Compares q.1 := by
    intro q hq
    obtain ⟨r, -, own, -⟩ := exists_of_forall₂ alike (perm.subset hq)
    exact own
  have differ := (perm.pairwise_iff Differ.symm).mp (arranged.differ k.compares_orders compares)
  have apart : (ps.map (Prod.map k.reset t.reset)).Pairwise (Differ Datum.cmp Prod.fst) :=
    pairwise_differ_of_forall₂ k.compares_orders (fun _ _ same => same) alike differ
  rw [List.pairwise_map] at apart
  refine ⟨⟨fun p hp => ?_, apart⟩, fun cmp => ?_⟩
  · obtain ⟨r, -, key, value⟩ := exists_of_forall₂ related hp
    exact ⟨key.1, value.1⟩
  · obtain rfl := MappingKind.eq_sorted (ordered cmp)
    have both : rs.Forall₂ (fun r q => k.Alike r.1 q.1 ∧ t.Alike r.2 q.2)
        (ps.map (Prod.map k.reset t.reset)) :=
      List.forall₂_map_right_iff.mpr (related.imp fun _ _ h => ⟨h.1.2 rfl, h.2.2 cmp⟩).flip
    refine alike_mapping both (fun q hq => ?_)
      (Datum.collectPairs_of_perm arranged k.compares_orders compares perm)
    obtain ⟨r, -, key, value⟩ := exists_of_forall₂ both (perm.subset hq)
    exact ⟨key.1, value.1⟩

theorem apart_of_resetsMembers {entries entries' : List (String × Value)}
    {ms : List (Member FieldType)} {ds ds' : List (Member Datum)}
    (members : ms.Forall₂ (Holds compared entries) ds)
    (members' : ms.Forall₂ (Holds compared entries') ds') (resets : resetsMembers True ms ds ds')
    (each : ∀ m ∈ ms, ∀ d d', m.content.Admits compared d → m.content.Admits compared d' →
      m.content.Resets True d d' → m.content.Beside compared d d') :
    apartMembers ms ds ∧ (compared = true → comparesMembers ms ds' ∧
      comparesMembers ms (resetMembers ms ds) ∧
        Datum.cmpMembers ds' (resetMembers ms ds) = .eq) := by
  induction members generalizing ds' with
  | nil =>
    cases members'
    exact ⟨trivial, fun _ => ⟨trivial, trivial, rfl⟩⟩
  | @cons m d ms ds holds _ ih =>
    cases members' with
    | @cons _ d' _ ds' holds' rest' =>
      obtain ⟨head, tail⟩ := List.forall_mem_cons.mp each
      obtain ⟨aparts, alikes⟩ := ih rest' resets.2 tail
      obtain ⟨name, kept, t⟩ := m
      obtain ⟨⟨-, -, own⟩, -⟩ := resets
      cases kept with
      | false =>
        refine ⟨⟨nofun, aparts⟩, fun cmp => ?_⟩
        obtain ⟨first, second, same⟩ := alikes cmp
        have own : d'.content = t.initial := own
        have fresh : Datum.cmpMember d' (resetMember ⟨name, false, t⟩ d) = .eq := by
          rw [Datum.cmpMember_eq, own]
          exact initial_cmp_self t
        refine ⟨⟨own, first⟩, ⟨rfl, second⟩, ?_⟩
        rw [resetMembers, Datum.cmpMembers, fresh, same]
        rfl
      | true =>
        obtain ⟨apart, alike⟩ := head d.content d'.content (holds.content rfl) (holds'.content rfl) own
        refine ⟨⟨fun _ => apart, aparts⟩, fun cmp => ?_⟩
        obtain ⟨first, second, same⟩ := alikes cmp
        obtain ⟨compares, compares', equal⟩ := alike cmp
        have member : Datum.cmpMember d' (resetMember ⟨name, true, t⟩ d) = .eq := by
          rw [Datum.cmpMember_eq]
          exact equal
        refine ⟨⟨compares, first⟩, ⟨compares', second⟩, ?_⟩
        rw [resetMembers, Datum.cmpMembers, member, same]
        rfl

/-- Where some content of the type is the whole of another one with the members reset that are not
kept, nothing in that one differs in them only. -/
theorem apart_of_resets (hx : t.Admits compared x) (hy : t.Admits compared y)
    (resets : t.Resets True x y) : t.Beside compared x y := by
  induction t generalizing compared x y with
  | f32 | f64 | date | timestamp => cases hx
  | int t | bool | char | string | enumeration name variants =>
    cases hx
    cases resets
    exact ⟨trivial, fun _ => ⟨trivial, trivial, Std.compare_self⟩⟩
  | record =>
    cases hx with
    | record free =>
      cases resets
      exact ⟨trivial, fun cmp => ⟨free cmp, free cmp, Value.orders.self (free cmp)⟩⟩
  | value =>
    cases hx with
    | value free =>
      cases resets
      exact ⟨trivial, fun cmp => ⟨free cmp, free cmp, Value.orders.self (free cmp)⟩⟩
  | option t ih =>
    cases hx with
    | absent =>
      cases resets
      exact ⟨trivial, fun _ => ⟨trivial, trivial, rfl⟩⟩
    | present content _ =>
      cases hy with
      | absent => cases resets
      | present content' _ => exact ih content content' resets
  | boxed t ih =>
    cases hx with
    | boxed content =>
      cases hy with
      | boxed content' => exact ih content content' resets
  | sequence kind t ih =>
    cases hx with
    | @sequence _ _ _ xs ordered _ each =>
      cases hy with
      | @sequence _ _ _ ys _ arranged each' =>
        obtain ⟨-, retains⟩ := resets
        have parts : ∀ rs, (∀ r ∈ rs, t.Admits (kind.isSet || compared) r) →
            xs.Forall₂ (t.Resets True) rs → xs.Forall₂ (t.Beside (kind.isSet || compared)) rs :=
          fun rs held related =>
            forall₂_imp_of_mem related fun d hd r hr => ih (each d hd) (held r hr)
        rw [SequenceKind.Retains] at retains
        split at retains
        next isSet =>
          obtain ⟨rs, retained, -, whole⟩ := retains
          have perm := whole trivial
          have related := parts rs (fun r hr => each' r (perm.symm.subset hr)) retained
          rw [isSet, Bool.true_or] at related
          exact apart_set isSet ordered arranged related perm
        next other =>
          have listed : kind.isSet = false := Bool.eq_false_iff.mpr other
          have related := parts ys each' retains
          rw [listed, Bool.false_or] at related
          exact apart_listed listed ordered arranged related
  | mapping kind k t ihk iht =>
    cases hx with
    | @mapping _ _ _ _ ps ordered _ keys values =>
      cases hy with
      | @mapping _ _ _ _ qs _ arranged keys' values' =>
        obtain ⟨-, rs, retained, -, whole⟩ := resets
        have perm := whole trivial
        have related := forall₂_imp_of_mem retained fun p hp r hr h =>
          And.intro (ihk (keys p hp) (keys' r (perm.symm.subset hr)) h.1)
            (iht (values p hp) (values' r (perm.symm.subset hr)) h.2)
        exact apart_mapping ordered arranged related perm
  | compound name ms ih =>
    have parts := hx
    have parts' := hy
    cases hx with
    | compound =>
      cases hy with
      | compound =>
        obtain ⟨apart, alike⟩ := apart_of_resetsMembers parts.members parts'.members resets.2
          fun m hm d d' => ih m hm
        refine ⟨apart, fun cmp => ?_⟩
        obtain ⟨compares, compares', same⟩ := alike cmp
        exact ⟨⟨rfl, compares⟩, ⟨rfl, compares'⟩, same⟩

end Admits

end FieldType

end RecordMapper
