import RecordMapper.Proofs.Field.Order
import RecordMapper.Proofs.Outcome
import RecordMapper.Proofs.Value.Integer
import RecordMapper.Proofs.Value.Parts

/-!
Reading the values of contents. Whatever a field can hold is written as a value that the type of the
field reads, part by part: items from the places that they are written in, the pairs of a map from
the map value that they collect into, and members from the entries under their names.
-/

namespace RecordMapper

namespace Datum

theorem toValues_eq_map (items : List Datum) : toValues items = items.map toValue := by
  induction items with
  | nil => rfl
  | cons d items ih => rw [toValues, ih, List.map_cons]

theorem toPairs_eq_map (pairs : List (Datum × Datum)) :
    toPairs pairs = pairs.map (Prod.map toValue toValue) := by
  induction pairs with
  | nil => rfl
  | cons p pairs ih =>
    cases p
    rw [toPairs, ih]
    rfl

theorem toValue_sequence (kind : SequenceKind) (items : List Datum) :
    (sequence kind items).toValue = .array (items.map toValue) := by
  rw [toValue, toValues_eq_map]

theorem toEntry?_eq (d : Member Datum) : toEntry? d =
    if d.kept && !d.content.toValue.isNull then some (d.name, d.content.toValue) else none := by
  cases d
  rfl

theorem toEntries_eq_filterMap (ds : List (Member Datum)) :
    toEntries ds = ds.filterMap toEntry? := by
  induction ds with
  | nil => rfl
  | cons d ds ih =>
    rw [toEntries, ih, List.filterMap_cons]
    cases toEntry? d <;> rfl

theorem mem_toEntries_iff {ds : List (Member Datum)} {e : String × Value} :
    e ∈ toEntries ds ↔ ∃ d ∈ ds, d.kept = true ∧ d.content.toValue.isNull = false ∧
      (d.name, d.content.toValue) = e := by
  rw [toEntries_eq_filterMap, List.mem_filterMap]
  refine exists_congr fun d => and_congr_right fun _ => ?_
  rw [toEntry?_eq, Option.ite_none_right_eq_some, Bool.and_eq_true, Bool.not_eq_true', and_assoc,
    Option.some.injEq]

theorem names_toEntries_sublist (ds : List (Member Datum)) :
    ((toEntries ds).map (·.1)).Sublist (ds.map (·.name)) := by
  induction ds with
  | nil => exact .slnil
  | cons d ds ih =>
    rw [toEntries, toEntry?_eq]
    split
    next e held =>
      split at held
      · cases held
        exact ih.cons_cons _
      · cases held
    next => exact ih.cons _

/-- A kept member is found under its name; it is taken for null where it has no entry. -/
theorem lookup_toEntries {ds : List (Member Datum)} (distinct : (ds.map (·.name)).Nodup)
    {d : Member Datum} (mem : d ∈ ds) (kept : d.kept = true) :
    (lookup d.name (toEntries ds)).getD .null = d.content.toValue := by
  cases valued : d.content.toValue.isNull with
  | false =>
    have names : ((toEntries ds).map (·.1)).Nodup := distinct.sublist (names_toEntries_sublist ds)
    have held := mem_toEntries_iff.mpr ⟨d, mem, kept, valued, rfl⟩
    rw [lookup_of_mem names held]
    rfl
  | true =>
    have missing : lookup d.name (toEntries ds) = none := by
      refine Option.eq_none_iff_forall_ne_some.mpr fun v found => ?_
      obtain ⟨other, mem', -, valued', same⟩ := mem_toEntries_iff.mp (mem_of_lookup found)
      obtain rfl := List.inj_on_of_nodup_map distinct mem' mem (congrArg Prod.fst same)
      rw [valued] at valued'
      cases valued'
    rw [missing, Value.isNull_iff.mp valued]
    rfl

/-- Pairs of values that are made of the keys and the contents of other pairs. -/
structure MadeOf (pairs : List (Datum × Datum)) (qs : List (Value × Value)) : Prop where
  key : ∀ q ∈ qs, ∃ p ∈ pairs, p.1.toValue = q.1
  value : ∀ q ∈ qs, ∃ p ∈ pairs, p.2.toValue = q.2

theorem MadeOf.forall_key {pairs : List (Datum × Datum)} {qs : List (Value × Value)}
    (made : MadeOf pairs qs) {P : Value → Prop} (each : ∀ p ∈ pairs, P p.1.toValue) :
    ∀ q ∈ qs, P q.1 := by
  intro q hq
  obtain ⟨p, hp, same⟩ := made.key q hq
  exact same ▸ each p hp

theorem MadeOf.forall_value {pairs : List (Datum × Datum)} {qs : List (Value × Value)}
    (made : MadeOf pairs qs) {P : Value → Prop} (each : ∀ p ∈ pairs, P p.2.toValue) :
    ∀ q ∈ qs, P q.2 := by
  intro q hq
  obtain ⟨p, hp, same⟩ := made.value q hq
  exact same ▸ each p hp

/-- A map is written as the map value that its pairs collect into. -/
theorem exists_toValue_mapping (kind : MappingKind) {pairs : List (Datum × Datum)}
    (free : ∀ p ∈ pairs, p.1.toValue.FloatFree) : ∃ qs, (mapping kind pairs).toValue = .map qs ∧
      Collects Value.cmp Prod.fst Prod.snd (pairs.map (Prod.map toValue toValue)) qs ∧
      MadeOf pairs qs := by
  rw [toValue, toPairs_eq_map]
  have keys : ∀ q ∈ pairs.map (Prod.map toValue toValue), q.1.FloatFree :=
    List.forall_mem_map.mpr free
  obtain ⟨qs, map, collects⟩ := Value.exists_mapOf keys
  refine ⟨qs, map, collects, fun q hq => ?_, fun q hq => ?_⟩
  · obtain ⟨_, ha, -, -, key, -⟩ := collects.made q hq
    obtain ⟨p, hp, rfl⟩ := List.mem_map.mp ha
    exact ⟨p, hp, key.symm⟩
  · obtain ⟨-, -, _, hb, -, value, -⟩ := collects.made q hq
    obtain ⟨p, hp, rfl⟩ := List.mem_map.mp hb
    exact ⟨p, hp, value.symm⟩

end Datum

namespace FieldType

/-- The content read from a value that the type reads. -/
def reading (t : FieldType) (v : Value) : Datum := (t.read v).toOption.getD .absent

/-- Whether the type reads the value. -/
def Reads (t : FieldType) (v : Value) : Prop := t.read v = .ok (t.reading v)

variable {t k : FieldType} {v : Value} {d : Datum}

theorem reading_eq (read : t.read v = .ok d) : t.reading v = d := by
  rw [reading, read]
  rfl

theorem Reads.of_read (read : t.read v = .ok d) : t.Reads v := by
  rw [Reads, reading_eq read, read]

theorem view_eq_val {n : Integer} (seen : n.type = .u128 → n.val ≤ IntegerType.i128.greatest) :
    n.view = n.val := by
  refine Integer.view_of_le ?_
  by_cases wide : n.type = .u128
  · exact seen wide
  · have narrow : n.type.greatest ≤ IntegerType.i128.greatest := by
      cases type : n.type <;> first | decide | exact absurd type wide
    exact Int.le_trans n.le_greatest narrow

theorem read_int {n : Integer} (seen : n.type = .u128 → n.val ≤ IntegerType.i128.greatest) :
    (int n.type).read (.int n) = .ok (.int n) := by
  have exactly := view_eq_val seen
  have mem : n.type.least ≤ n.view ∧ n.view ≤ n.type.greatest :=
    exactly.symm ▸ ⟨n.least_le, n.le_greatest⟩
  rw [read_int_of_mem mem]
  simp only [exactly]

theorem read_variant {name s : String} {variants : List String} {i : Nat}
    (distinct : variants.Nodup) (named : variants[i]? = some s) :
    (enumeration name variants).read (.string s) = .ok (.variant i s) := by
  obtain ⟨inside, here⟩ := List.getElem?_eq_some_iff.mp named
  have found : variants.findIdx? (· == s) = some i := by
    refine List.findIdx?_eq_some_iff_getElem.mpr ⟨inside, beq_iff_eq.mpr here, fun j before => ?_⟩
    rw [beq_iff_eq, ← here]
    exact fun same => Nat.ne_of_lt before (distinct.getElem_inj_iff.mp same)
  rw [read, readVariant, found]

theorem read_option (valued : v.isNull = false) (read : t.read v = .ok d) :
    (option t).read v = .ok (.present d) := by
  cases v with
  | null => cases valued
  | _ => exact map_eq_ok_iff.mpr ⟨d, read, rfl⟩

theorem read_sequence {kind : SequenceKind} {items : List Datum}
    (each : ∀ d ∈ items, t.Reads d.toValue) :
    (sequence kind t).read (Datum.sequence kind items).toValue =
      .ok (.collect kind (items.map fun d => t.reading d.toValue)) := by
  have read := mapM_eq_ok (h := Datum.toValue) each
  rw [Datum.toValue_sequence]
  exact bind_eq_ok_iff.mpr ⟨_, rfl, bind_eq_ok_iff.mpr ⟨_, read, rfl⟩⟩

theorem read_mapping {kind : MappingKind} {qs : List (Value × Value)}
    (keys : ∀ q ∈ qs, k.Reads q.1) (values : ∀ q ∈ qs, t.Reads q.2) :
    (mapping kind k t).read (.map qs) =
      .ok (.collectPairs kind (qs.map (Prod.map k.reading t.reading))) := by
  let both (q : Value × Value) : Except Failure (Datum × Datum) :=
    k.read q.1 >>= fun a => t.read q.2 >>= fun b => pure (a, b)
  have each : ∀ q ∈ qs, both q = .ok (Prod.map k.reading t.reading q) := by
    intro q hq
    have key : k.read q.1 = .ok (k.reading q.1) := keys q hq
    have value : t.read q.2 = .ok (t.reading q.2) := values q hq
    simp only [both, key, value, ok_bind]
    rfl
  have pairs := mapM_eq_ok (f := both) (h := id) each
  rw [List.map_id] at pairs
  exact bind_eq_ok_iff.mpr ⟨qs, rfl, bind_eq_ok_iff.mpr ⟨_, pairs, rfl⟩⟩

/-- The member that the type has, read from the entries of a record. -/
def memberOf (entries : List (String × Value)) (m : Member FieldType) : Member Datum :=
  ⟨m.name, m.kept, if m.kept then m.content.reading ((lookup m.name entries).getD .null)
    else m.content.initial⟩

theorem comparesMember_memberOf {entries : List (String × Value)} {m : Member FieldType}
    (compares : m.kept = true →
      m.content.Compares (m.content.reading ((lookup m.name entries).getD .null))) :
    comparesMember m (memberOf entries m) := by
  obtain ⟨name, kept, t⟩ := m
  cases kept with
  | true => exact compares rfl
  | false => exact rfl

theorem readMembers_eq {ms : List (Member FieldType)} {entries : List (String × Value)}
    (each : ∀ m ∈ ms, m.kept = true → m.content.Reads ((lookup m.name entries).getD .null)) :
    readMembers ms entries = .ok (ms.map (memberOf entries)) := by
  induction ms with
  | nil => rfl
  | cons m ms ih =>
    obtain ⟨head, tail⟩ := List.forall_mem_cons.mp each
    have first : readMember m entries = .ok (memberOf entries m) := by
      obtain ⟨name, kept, t⟩ := m
      cases kept with
      | true => exact map_eq_ok_iff.mpr ⟨_, head rfl, rfl⟩
      | false => rfl
    rw [readMembers, first, ih tail]
    rfl

theorem read_compound {name : String} {ms : List (Member FieldType)}
    {entries : List (String × Value)} {name' : String}
    (each : ∀ m ∈ ms, m.kept = true → m.content.Reads ((lookup m.name entries).getD .null)) :
    (compound name ms).read (.record name' entries) =
      .ok (.compound name (ms.map (memberOf entries))) := by
  rw [read, readMembers_eq each]
  rfl

/-- A member of a compound as the type has it in its place, and its entry. -/
structure Holds (compared : Bool) (entries : List (String × Value)) (m : Member FieldType)
    (d : Member Datum) : Prop where
  name : d.name = m.name
  kept : d.kept = m.kept
  content : m.kept = true → m.content.Admits compared d.content
  entry : m.kept = true → (lookup m.name entries).getD .null = d.content.toValue

namespace Admits

variable {t k : FieldType} {compared : Bool} {d : Datum} {name : String} {kind : MappingKind}
  {ms : List (Member FieldType)} {ds : List (Member Datum)} {pairs : List (Datum × Datum)}

/-- The members that the type has are those of the content in their places, and the value that a
kept one is read from is the value of what it holds. -/
theorem members (admits : (FieldType.compound name ms).Admits compared (.compound name ds)) :
    ms.Forall₂ (Holds compared (Datum.toEntries ds)) ds := by
  cases admits with
  | compound distinct names kept each =>
    have entries := fun d mem => Datum.lookup_toEntries (d := d) (names ▸ distinct) mem
    generalize Datum.toEntries ds = es at entries
    clear distinct
    induction ms generalizing ds with
    | nil =>
      obtain rfl := List.map_eq_nil_iff.mp names
      exact .nil
    | cons m ms ih =>
      cases ds with
      | nil => cases names
      | cons d ds =>
        rw [List.zip_cons_cons, List.forall_mem_cons] at each
        rw [List.map_cons, List.map_cons, List.cons.injEq] at names kept
        rw [List.forall_mem_cons] at entries
        have entry : m.kept = true → (lookup m.name es).getD .null = d.content.toValue := by
          rw [← names.1, ← kept.1]
          exact entries.1
        exact .cons ⟨names.1, kept.1, each.1, entry⟩ (ih names.2 kept.2 each.2 entries.2)

theorem nodup_names (admits : (FieldType.compound name ms).Admits compared (.compound name ds)) :
    ((Datum.toEntries ds).map (·.1)).Nodup := by
  cases admits with
  | compound distinct names => exact (names ▸ distinct).sublist (Datum.names_toEntries_sublist ds)

theorem exists_entry (admits : (FieldType.compound name ms).Admits compared (.compound name ds)) :
    ∀ m ∈ ms, m.kept = true → ∃ d, m.content.Admits compared d ∧
      (lookup m.name (Datum.toEntries ds)).getD .null = d.toValue := by
  intro m hm kept
  obtain ⟨d, -, holds⟩ := exists_of_forall₂ admits.members hm
  exact ⟨d.content, holds.content kept, holds.entry kept⟩

theorem floatFree (admits : t.Admits true d) : d.toValue.FloatFree := by
  induction t generalizing d with
  | f32 | f64 | date | timestamp => cases admits
  | int t =>
    cases admits
    exact .int _
  | bool =>
    cases admits
    exact .bool _
  | char =>
    cases admits
    exact .char _
  | string =>
    cases admits
    exact .string _
  | record =>
    cases admits with
    | record free => exact free rfl
  | value =>
    cases admits with
    | value free => exact free rfl
  | option t ih =>
    cases admits with
    | absent => exact .null
    | present content _ => exact (ih content :)
  | boxed t ih =>
    cases admits with
    | boxed content => exact (ih content :)
  | sequence kind t ih =>
    cases admits with
    | @sequence _ _ _ items _ _ each =>
      rw [Datum.toValue_sequence]
      refine .array fun v hv => ?_
      obtain ⟨d, hd, rfl⟩ := List.mem_map.mp hv
      have admits := each d hd
      rw [Bool.or_true] at admits
      exact ih admits
  | mapping kind k t ihk iht =>
    cases admits with
    | @mapping kind _ _ _ pairs _ _ keys values =>
      have free : ∀ p ∈ pairs, p.1.toValue.FloatFree := fun p hp => ihk (keys p hp)
      obtain ⟨qs, map, -, made⟩ := Datum.exists_toValue_mapping kind free
      rw [map]
      exact .map (made.forall_key free) (made.forall_value fun p hp => iht (values p hp))
  | enumeration name variants =>
    cases admits
    exact .string _
  | compound name ms ih =>
    have parts := admits
    cases admits with
    | compound =>
      refine .record fun e he => ?_
      obtain ⟨d, hd, own, -, rfl⟩ := Datum.mem_toEntries_iff.mp he
      obtain ⟨m, hm, held⟩ := exists_of_forall₂ parts.members.flip hd
      exact ih m hm (held.content (held.kept.symm.trans own))

/-- The value of a content is read by the type. -/
theorem reads (admits : t.Admits compared d) : t.Reads d.toValue := by
  induction t generalizing compared d with
  | f32 | f64 | date | timestamp => cases admits
  | int t =>
    cases admits with
    | @int _ _ n type seen =>
      subst type
      exact .of_read (read_int seen)
  | bool | char | string | record | value =>
    cases admits
    rfl
  | option t ih =>
    cases admits with
    | absent => rfl
    | present content valued => exact .of_read (read_option valued (ih content :))
  | boxed t ih =>
    cases admits with
    | boxed content => exact (ih content :)
  | sequence kind t ih =>
    cases admits with
    | sequence _ _ each => exact .of_read (read_sequence fun d hd => ih (each d hd))
  | mapping kind k t ihk iht =>
    cases admits with
    | @mapping kind _ _ _ pairs _ _ keys values =>
      have free : ∀ p ∈ pairs, p.1.toValue.FloatFree := fun p hp => (keys p hp).floatFree
      obtain ⟨qs, map, -, made⟩ := Datum.exists_toValue_mapping kind free
      rw [map]
      exact .of_read (read_mapping (made.forall_key fun p hp => ihk (keys p hp))
        (made.forall_value fun p hp => iht (values p hp)))
  | enumeration name variants =>
    cases admits with
    | variant distinct named => exact .of_read (read_variant distinct named)
  | compound name ms ih =>
    have parts := admits
    cases admits with
    | compound =>
      refine .of_read (read_compound fun m hm own => ?_)
      obtain ⟨d, held, entry⟩ := parts.exists_entry m hm own
      rw [entry]
      exact ih m hm held

theorem reading_present (content : t.Admits compared d) (valued : d.toValue.isNull = false) :
    (option t).reading (Datum.present d).toValue = .present (t.reading d.toValue) :=
  reading_eq (read_option valued content.reads)

theorem reading_sequence {kind : SequenceKind} {items : List Datum}
    (each : ∀ d ∈ items, t.Admits compared d) :
    (FieldType.sequence kind t).reading (Datum.sequence kind items).toValue =
      .collect kind (items.map fun d => t.reading d.toValue) :=
  reading_eq (read_sequence fun d hd => (each d hd).reads)

theorem reading_map {qs : List (Value × Value)} (keys : ∀ p ∈ pairs, k.Admits true p.1)
    (values : ∀ p ∈ pairs, t.Admits compared p.2) (made : Datum.MadeOf pairs qs) :
    (FieldType.mapping kind k t).reading (.map qs) =
      .collectPairs kind (qs.map (Prod.map k.reading t.reading)) :=
  reading_eq (read_mapping (made.forall_key fun p hp => (keys p hp).reads)
    (made.forall_value fun p hp => (values p hp).reads))

theorem reading_compound
    (admits : (FieldType.compound name ms).Admits compared (.compound name ds)) :
    (FieldType.compound name ms).reading (Datum.compound name ds).toValue =
      .compound name (ms.map (memberOf (Datum.toEntries ds))) := by
  refine reading_eq (read_compound fun m hm own => ?_)
  obtain ⟨d, held, entry⟩ := admits.exists_entry m hm own
  rw [entry]
  exact held.reads

/-- What is read from the value of a content that is compared is compared again. -/
theorem compares (admits : t.Admits true d) : t.Compares (t.reading d.toValue) := by
  induction t generalizing d with
  | f32 | f64 | date | timestamp => cases admits
  | int t =>
    cases admits with
    | @int _ _ n type seen =>
      subst type
      rw [Datum.toValue, reading_eq (read_int seen)]
      trivial
  | bool | char | string =>
    cases admits
    trivial
  | record =>
    cases admits with
    | record free => exact free rfl
  | value =>
    cases admits with
    | value free => exact free rfl
  | option t ih =>
    cases admits with
    | absent => trivial
    | present content valued =>
      rw [reading_present content valued]
      exact (ih content :)
  | boxed t ih =>
    cases admits with
    | boxed content => exact (ih content :)
  | sequence kind t ih =>
    cases admits with
    | @sequence _ _ _ items _ _ each =>
      simp only [Bool.or_true] at each
      rw [reading_sequence each]
      exact compares_collect (List.forall_mem_map.mpr fun d hd => ih (each d hd))
  | mapping kind k t ihk iht =>
    cases admits with
    | @mapping kind _ _ _ pairs _ _ keys values =>
      have free : ∀ p ∈ pairs, p.1.toValue.FloatFree := fun p hp => (keys p hp).floatFree
      obtain ⟨qs, map, -, made⟩ := Datum.exists_toValue_mapping kind free
      rw [map, reading_map keys values made]
      refine compares_collectPairs (List.forall_mem_map.mpr fun q hq => ⟨?_, ?_⟩)
      · exact made.forall_key (P := fun v => k.Compares (k.reading v))
          (fun p hp => ihk (keys p hp)) q hq
      · exact made.forall_value (P := fun v => t.Compares (t.reading v))
          (fun p hp => iht (values p hp)) q hq
  | enumeration name variants =>
    cases admits with
    | variant distinct named =>
      rw [Datum.toValue, reading_eq (read_variant distinct named)]
      trivial
  | compound name ms ih =>
    have parts := admits
    cases admits with
    | compound =>
      rw [reading_compound parts]
      refine ⟨rfl, comparesMembers_map fun m hm => comparesMember_memberOf fun own => ?_⟩
      obtain ⟨d, held, entry⟩ := parts.exists_entry m hm own
      rw [entry]
      exact ih m hm held

end Admits

end FieldType

end RecordMapper
