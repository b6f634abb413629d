import RecordMapper.Proofs.Field.Resetting
import RecordMapper.Schema.Declaration

/-!
Conversion to a value and back. It gives the content with the members reset that are not kept, with
every item and every pair that a content of the type can have then.
-/

namespace RecordMapper

namespace FieldType

/-- Some content of the type is the whole of another with the members reset that are not kept. -/
def Resettable (t : FieldType) (d : Datum) : Prop := ∃ e, t.Admits false e ∧ t.Resets True d e

namespace Admits

variable {t k : FieldType} {compared : Bool} {x y : Datum} {xs ys : List Datum}
  {ps qs : List (Datum × Datum)} {whole : Prop}

theorem isNull_reading (admits : t.Admits compared x) :
    (t.reading x.toValue).toValue.isNull = x.toValue.isNull := by
  induction t generalizing compared x with
  | f32 | f64 | date | timestamp => cases admits
  | int t =>
    cases admits with
    | int type seen =>
      subst type
      rw [Datum.toValue, reading_eq (read_int seen)]
      rfl
  | bool | char | string | record | value =>
    cases admits
    rfl
  | option t ih =>
    cases admits with
    | absent => rfl
    | present content valued =>
      rw [reading_present content valued]
      exact (ih content :)
  | boxed t ih =>
    cases admits with
    | boxed content => exact (ih content :)
  | sequence kind t ih =>
    cases admits with
    | sequence _ _ each =>
      rw [reading_sequence each]
      rfl
  | mapping kind k t ihk iht =>
    cases admits with
    | mapping _ _ keys values =>
      obtain ⟨map, read, -⟩ := exists_map kind keys values
      rw [read]
      rfl
  | enumeration name variants =>
    cases admits with
    | variant distinct named =>
      rw [Datum.toValue, reading_eq (read_variant distinct named)]
      rfl
  | compound name ms ih =>
    have parts := admits
    cases admits with
    | compound =>
      rw [reading_compound parts]
      rfl

/-- What is read from the value of a content is a content of the type again. -/
theorem admits_reading (admits : t.Admits compared x) :
    t.Admits compared (t.reading x.toValue) := by
  induction t generalizing compared x with
  | f32 | f64 | date | timestamp => cases admits
  | int t =>
    have own := admits
    cases admits with
    | int type seen =>
      subst type
      rwa [Datum.toValue, reading_eq (read_int seen)]
  | bool | char | string | record | value =>
    have own := admits
    cases admits
    exact own
  | option t ih =>
    cases admits with
    | absent => exact .absent
    | present content valued =>
      rw [reading_present content valued]
      exact .present (ih content) (content.isNull_reading.trans valued)
  | boxed t ih =>
    cases admits with
    | boxed content => exact .boxed (ih content)
  | sequence kind t ih =>
    cases admits with
    | @sequence _ _ _ xs ordered arranged each =>
      rw [reading_sequence each]
      cases isSet : kind.isSet with
      | false =>
        rw [Datum.collect_listed isSet]
        refine .sequence ordered ?_ (List.forall_mem_map.mpr fun d hd => ih (each d hd))
        cases kind with
        | list | queue => trivial
        | sortedSet | hashedSet => cases isSet
      | true =>
        rw [isSet, Bool.true_or] at each
        have compares : ∀ d ∈ xs.map fun d => t.reading d.toValue, t.Compares d :=
          List.forall_mem_map.mpr fun d hd => (each d hd).compares
        obtain ⟨set, collected, same, ascending⟩ :=
          Datum.exists_collect isSet t.compares_orders compares
        rw [collected]
        refine .sequence ordered ?_ fun z hz => ?_
        · cases kind with
          | list | queue => cases isSet
          | sortedSet => exact ascending rfl
          | hashedSet => exact same.distinct
        · obtain ⟨a, ha, -, -, made, -⟩ := same.made z hz
          obtain ⟨d, hd, rfl⟩ := List.mem_map.mp ha
          obtain rfl : z = t.reading d.toValue := made
          rw [isSet, Bool.true_or]
          exact ih (each d hd)
  | mapping kind k t ihk iht =>
    cases admits with
    | @mapping _ _ _ _ ps ordered arranged keys values =>
      obtain ⟨map, read, same, ascending⟩ := exists_map kind keys values
      rw [read]
      refine .mapping ordered ?_ (fun z hz => ?_) fun z hz => ?_
      · cases kind with
        | sorted => exact ascending rfl
        | hashed => exact same.distinct
      · obtain ⟨a, ha, -, -, made, -⟩ := same.made z hz
        obtain ⟨p, hp, rfl⟩ := List.mem_map.mp ha
        rw [made]
        exact ihk (keys p hp)
      · obtain ⟨-, -, b, hb, -, made, -⟩ := same.made z hz
        obtain ⟨p, hp, rfl⟩ := List.mem_map.mp hb
        rw [made]
        exact iht (values p hp)
  | enumeration name variants =>
    have own := admits
    cases admits with
    | variant distinct named => rwa [Datum.toValue, reading_eq (read_variant distinct named)]
  | compound name ms ih =>
    have parts := admits
    cases admits with
    | compound distinct =>
      rw [reading_compound parts]
      refine .compound distinct (by simp [memberOf]) (by simp [memberOf]) fun p hp kept => ?_
      rw [← List.map_prod_left_eq_zip] at hp
      obtain ⟨m, hm, rfl⟩ := List.mem_map.mp hp
      obtain ⟨d, held, entry⟩ := parts.exists_entry m hm kept
      have content := ih m hm held
      rw [← entry] at content
      simpa only [memberOf, if_pos kept] using content

theorem restored_set {kind : SequenceKind} (isSet : kind.isSet = true)
    (each : ∀ d ∈ xs, t.Admits true d)
    (apart : whole → (FieldType.sequence kind t).Apart (.sequence kind xs))
    (items : ∀ d ∈ xs, t.Resets whole d (t.reading d.toValue)) :
    (FieldType.sequence kind t).Resets whole (.sequence kind xs)
      ((FieldType.sequence kind t).reading (Datum.sequence kind xs).toValue) := by
  have compares : ∀ d ∈ xs.map fun d => t.reading d.toValue, t.Compares d :=
    List.forall_mem_map.mpr fun d hd => (each d hd).compares
  obtain ⟨set, collected, same, -⟩ := Datum.exists_collect isSet t.compares_orders compares
  rw [reading_sequence each, collected]
  refine ⟨rfl, ?_⟩
  rw [SequenceKind.Retains, if_pos isSet]
  refine ⟨_, ?_, same, fun holds => same.perm ?_⟩
  · rw [List.forall₂_map_right_iff, List.forall₂_same]
    exact items
  · obtain ⟨inner, differ⟩ := apart holds
    rw [List.map_congr_left fun d hd => (each d hd).reading_eq_reset (inner d hd)]
    exact pairwise_differ_iff.mp (differ isSet)

theorem restored_listed {kind : SequenceKind} (listed : kind.isSet = false)
    (each : ∀ d ∈ xs, t.Admits compared d)
    (items : ∀ d ∈ xs, t.Resets whole d (t.reading d.toValue)) :
    (FieldType.sequence kind t).Resets whole (.sequence kind xs)
      ((FieldType.sequence kind t).reading (Datum.sequence kind xs).toValue) := by
  rw [reading_sequence each, Datum.collect_listed listed]
  refine ⟨rfl, ?_⟩
  rw [SequenceKind.Retains, listed, if_neg Bool.false_ne_true, List.forall₂_map_right_iff,
    List.forall₂_same]
  exact items

theorem restored_mapping {kind : MappingKind} (keys : ∀ p ∈ ps, k.Admits true p.1)
    (values : ∀ p ∈ ps, t.Admits compared p.2)
    (apart : whole → (FieldType.mapping kind k t).Apart (.mapping kind ps))
    (firsts : ∀ p ∈ ps, k.Resets whole p.1 (k.reading p.1.toValue))
    (seconds : ∀ p ∈ ps, t.Resets whole p.2 (t.reading p.2.toValue)) :
    (FieldType.mapping kind k t).Resets whole (.mapping kind ps)
      ((FieldType.mapping kind k t).reading (Datum.mapping kind ps).toValue) := by
  obtain ⟨map, read, same, -⟩ := exists_map kind keys values
  rw [read]
  refine ⟨rfl, _, ?_, same, fun holds => same.perm ?_⟩
  · rw [List.forall₂_map_right_iff, List.forall₂_same]
    exact fun p hp => ⟨firsts p hp, seconds p hp⟩
  · obtain ⟨inner, differ⟩ := apart holds
    refine List.pairwise_map.mpr (differ.imp_of_mem fun hp hq differ => ?_)
    rwa [Differ, (keys _ hp).reading_eq_reset (inner _ hp).1,
      (keys _ hq).reading_eq_reset (inner _ hq).1]

theorem restored_members {entries : List (String × Value)} {ms : List (Member FieldType)}
    {ds : List (Member Datum)} (members : ms.Forall₂ (Holds compared entries) ds)
    (apart : whole → apartMembers ms ds) (each : ∀ m ∈ ms, ∀ d, m.content.Admits compared d →
      (whole → m.content.Apart d) → m.content.Resets whole d (m.content.reading d.toValue)) :
    resetsMembers whole ms ds (ms.map (memberOf entries)) := by
  induction members with
  | nil => trivial
  | @cons m d ms ds holds _ ih =>
    obtain ⟨head, tail⟩ := List.forall_mem_cons.mp each
    refine ⟨?_, ih (fun holds => (apart holds).2) tail⟩
    obtain ⟨name, kept, t⟩ := m
    refine ⟨rfl, rfl, ?_⟩
    cases kept with
    | false => exact rfl
    | true =>
      have content := head d.content (holds.content rfl) fun holds => (apart holds).1 rfl
      rw [← holds.entry rfl] at content
      exact content

/-- What is read from the value of a content is the content with the members that are not kept
reset, the whole of it where that keeps its items and keys apart. -/
theorem restored (admits : t.Admits compared x) (apart : whole → t.Apart x) :
    t.Resets whole x (t.reading x.toValue) := by
  induction t generalizing compared x with
  | f32 | f64 | date | timestamp => cases admits
  | int t =>
    cases admits with
    | int type seen =>
      subst type
      exact reading_eq (read_int seen)
  | bool | char | string | record | value =>
    cases admits
    rfl
  | option t ih =>
    cases admits with
    | absent => rfl
    | present content valued =>
      rw [reading_present content valued]
      exact (ih content apart :)
  | boxed t ih =>
    cases admits with
    | boxed content => exact (ih content apart :)
  | sequence kind t ih =>
    cases admits with
    | sequence _ _ each =>
      have items := fun d hd => ih (each d hd) fun holds => (apart holds).1 d hd
      cases isSet : kind.isSet with
      | true =>
        rw [isSet, Bool.true_or] at each
        exact restored_set isSet each apart items
      | false => exact restored_listed isSet each items
  | mapping kind k t ihk iht =>
    cases admits with
    | mapping _ _ keys values =>
      exact restored_mapping keys values apart
        (fun p hp => ihk (keys p hp) fun holds => ((apart holds).1 p hp).1)
        fun p hp => iht (values p hp) fun holds => ((apart holds).1 p hp).2
  | enumeration name variants =>
    cases admits with
    | variant distinct named => exact reading_eq (read_variant distinct named)
  | compound name ms ih =>
    have parts := admits
    cases admits with
    | compound =>
      rw [reading_compound parts]
      exact ⟨rfl, restored_members parts.members apart fun m hm d => ih m hm⟩

end Admits

end FieldType

/-- A letter that is kept, under a note that is not. -/
def letterType : FieldType :=
  .compound "Letter" [⟨"letter", true, .char⟩, ⟨"note", false, .string⟩]

def letter (c : Char) (note : String) : Datum :=
  .compound "Letter" [⟨"letter", true, .char c⟩, ⟨"note", false, .string note⟩]

theorem admits_letter (c : Char) (note : String) : letterType.Admits true (letter c note) :=
  .compound (by decide) rfl rfl (by
    simp only [List.zip_cons_cons, List.zip_nil_right, List.forall_mem_cons]
    exact ⟨fun _ => .char c, nofun, by simp⟩)

/-- Sets of numbers under letters. -/
def tallyType : FieldType :=
  .mapping .hashed letterType (.sequence .hashedSet (.option (.int .u128)))

def tally : Datum :=
  .mapping .hashed [
    (letter 'b' "first", .sequence .hashedSet [.present (.int (.zero .u128)), .absent]),
    (letter 'a' "last", .sequence .hashedSet [])]

/-- Two letters with different notes are one key without them, so one of the marks comes back. -/
example :
    let codec : FieldCodec := .typed (.mapping .hashed letterType .char)
    codec.get (.mapping .hashed [(letter 'a' "first", .char 'x'), (letter 'a' "last", .char 'y')]) >>=
      codec.set = .ok (.mapping .hashed [(letter 'a' "", .char 'y')]) := rfl

end RecordMapper
