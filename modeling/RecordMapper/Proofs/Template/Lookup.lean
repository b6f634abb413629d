import RecordMapper.Proofs.Template.Mirrored

/-!
Reading by identifier after any calls. Whatever calls came before and whichever of them failed, an
identifier leads to the entity that the history holds there.
-/

namespace RecordMapper

open RecordMapper.Action

/-- The histories that calls on entities of a type lead to from a session. Before and after each
call, time may pass, other types may be described, and the world may change but for the records of
the type. -/
inductive Course {σ : Type} (template : Template σ) (p : RecordManager.Place σ)
    (t : TypeDescriptor) (s₀ : Session σ) : List Change → Session σ → Prop
  | start : Course template p t s₀ [] s₀
  | pause {past : List Change} {s s' : Session σ} (before : Course template p t s₀ past s)
      (accepts : s'.registry.Accepts template.schema t)
      (alike : (p.find s.world).Alike t.name (p.find s'.world)) : Course template p t s₀ past s'
  | call {past : List Change} {s : Session σ} (before : Course template p t s₀ past s) (c : Call)
      (savable : ∀ e ∈ c.entities, t.Savable e) :
      Course template p t s₀ (t.after past c) ((c.run template t.key).run.run s).2

section

variable {σ : Type} {template : Template σ} {p : RecordManager.Place σ} {t : TypeDescriptor}
  {s₀ s : Session σ} {past : List Change}

/-- Looking an identifier up finds what the history holds there. -/
theorem Mirrored.exists_ends_findById {column : String} (serves : template.Serves p t.name)
    (identifier : t.id?.map (·.column) = some column)
    (h : Mirrored template.schema p t column past s) {k : Value} (present : k.isNull = false)
    (free : k.FloatFree) :
    ∃ found s', (template.findById t.key k).Ends s found s' ∧
      match t.holder? k past with
      | none => found = none
      | some e => ∃ e', t.toEntity (t.recordOf e) = .ok e' ∧ found = some e' := by
  obtain ⟨s₁, described, h₁⟩ := h.exists_ends_describe
  obtain ⟨rs, keeps, mirrors⟩ := h₁.stored
  have condition := t.idCondition_eq identifier present
  obtain ⟨s₂, selected, h₂⟩ := h₁.exists_ends_select serves
    { name := t.name, condition := some (.equals column k) }
  rw [keeps.select_equals (mirrors.keyed identifier), mirrors.under k free] at selected
  have looked : ∀ {found s'}, (template.single t.key
      { name := t.name, condition := some (.equals column k) }).Ends s₁ found s' →
        (template.findById t.key k).Ends s found s' := fun single =>
    described.bind ((ends_ofExcept condition s₁).bind single)
  cases held : t.holder? k past with
  | none =>
    rw [held] at selected
    exact ⟨none, s₂, looked (selected.bind (.pure none s₂)), rfl⟩
  | some e =>
    rw [held] at selected
    -- The history alone does not say that `e` can be read, but the record under the identifier is
    -- that of an entity which can.
    have stored : t.recordOf e ∈ rs.filter (Record.hasKey column k) := by
      simp [mirrors.under k free, held]
    obtain ⟨e₁, savable, same⟩ := mirrors.savable _ (List.mem_of_mem_filter stored)
    obtain ⟨e', read⟩ := savable.restored
    rw [← same] at read
    obtain ⟨s₃, converted, -⟩ := h₂.exists_ends_toEntity read
    exact ⟨some e', s₃, looked (selected.bind (converted.map some)), e', read, rfl⟩

/-- The session after calls that follow each other at once. -/
def Call.runAll (template : Template σ) (type : TypeKey) (s : Session σ) : List Call → Session σ
  | [] => s
  | c :: cs => Call.runAll template type ((c.run template type).run.run s).2 cs

theorem Course.calls (course : Course template p t s₀ past s) {cs : List Call}
    (savable : ∀ c ∈ cs, ∀ e ∈ c.entities, t.Savable e) :
    Course template p t s₀ (cs.foldl t.after past) (Call.runAll template t.key s cs) := by
  induction cs generalizing past s with
  | nil => exact course
  | cons c cs ih =>
    exact ih (course.call c (savable c List.mem_cons_self)) fun d hd =>
      savable d (List.mem_cons_of_mem _ hd)

theorem Course.mirrored {column : String} (serves : template.Serves p t.name)
    (identifier : t.id?.map (·.column) = some column) (course : Course template p t s₀ past s)
    (start : Mirrored template.schema p t column [] s₀) :
    Mirrored template.schema p t column past s := by
  induction course with
  | start => exact start
  | pause before accepts alike ih =>
    obtain ⟨rs, keeps, mirrors⟩ := ih.stored
    exact ⟨accepts, rs, keeps.of_alike alike, mirrors⟩
  | call before c savable ih =>
    obtain ⟨s', leaves, h⟩ := ih.run_leaves serves identifier c savable
    exact leaves.symm ▸ h

/-- After any course of calls, some of which may have failed, looking an identifier up gives the
entity that was last stored under it, read back from its record, or nothing when there is none or it
was deleted since. -/
theorem Template.findById_course (serves : template.Serves p t.name)
    (accepts : s₀.registry.Accepts template.schema t)
    (identifier : t.id?.map (·.column) = some ((p.find s₀.world).keyColumn t.name))
    (empty : (p.find s₀.world).table t.name = []) (course : Course template p t s₀ past s)
    {k : Value} (present : k.isNull = false) (free : k.FloatFree) :
    ∃ found s', (template.findById t.key k).Ends s found s' ∧
      match t.holder? k past with
      | none => found = none
      | some e => ∃ e', t.toEntity (t.recordOf e) = .ok e' ∧ found = some e' := by
  have start : Mirrored template.schema p t ((p.find s₀.world).keyColumn t.name) [] s₀ :=
    ⟨accepts, [], ⟨rfl, empty⟩, .nil t _⟩
  have mirrored := course.mirrored serves identifier start
  exact mirrored.exists_ends_findById serves identifier present free

end

def itemSchema : Schema :=
  [{ key := ⟨"", "Item"⟩,
     fields := [{ name := "id", shape := .scalar (.typed .value), isId := true },
      { name := "label", shape := .scalar (.typed .string) }] }]

def itemType : TypeDescriptor :=
  .mk 0 ⟨"", "Item"⟩ "Item" (itemSchema.freshWith ⟨"", "Item"⟩ [])
    [⟨"id", "_id", true, none, .value .plain (.typed .value)⟩,
      ⟨"label", "label", false, none, .value .plain (.typed .string)⟩]

def item (id : Integer) (label : String) : Entity :=
  .mk ⟨"", "Item"⟩ [("id", .content (.value (.int id))), ("label", .content (.string label))]

/-- A store, and the number of events that the template's listener has seen. -/
def itemPlace : RecordManager.Place (MemoryStore × Nat) := ⟨Prod.fst, fun m w => (m, w.2)⟩

def itemTemplate : Template (MemoryStore × Nat) :=
  ⟨itemSchema, .memory .document itemPlace true, [fun _ w => (.ok (), (w.1, w.2 + 1))]⟩

def itemSession : Session (MemoryStore × Nat) :=
  { separator := ".", clock := fun _ => ⟨0⟩, registry := {}, world := ({ database := .document }, 0) }

theorem savable_item (id : Integer) (label : String) : itemType.Savable (item id label) :=
  ⟨rfl, ⟨item id label, rfl⟩, ⟨.int id, rfl, .int id⟩⟩

/-- Identifiers that are equal in different widths, a batch that replaces, an update without a
record and a deletion under another identifier. -/
def itemCalls : List Call :=
  let two : Integer := ⟨.u8, 2, by decide, by decide⟩
  [.insert (item (.zero .u8) "a"), .insertAll [item two "b", item (.zero .i64) "c"],
    .update (item ⟨.i8, 3, by decide, by decide⟩ "d"), .deleteById (.int two)]

theorem itemTemplate_serves : itemTemplate.Serves itemPlace itemType.name := by
  refine ⟨fun _ _ => rfl, ⟨.document, true, rfl⟩, fun l hl ev w => ?_⟩
  obtain rfl := List.mem_singleton.mp hl
  exact ⟨rfl, rfl, rfl⟩

theorem findById_course_items :
    ∃ s', (itemTemplate.findById ⟨"", "Item"⟩ (.int (.zero .u16))).Ends
      (Call.runAll itemTemplate ⟨"", "Item"⟩ itemSession itemCalls)
      (some (item (.zero .i64) "c")) s' := by
  have savable : ∀ c ∈ itemCalls, ∀ e ∈ c.entities, itemType.Savable e := by
    simp [itemCalls, Call.entities, savable_item]
  have course : Course itemTemplate itemPlace itemType itemSession _ _ :=
    Course.start.calls savable
  have held : itemType.holder? (.int (.zero .u16)) (itemCalls.foldl itemType.after []) =
    some (item (.zero .i64) "c") := rfl
  obtain ⟨found, s', ends, holds⟩ := Template.findById_course itemTemplate_serves ⟨.empty, rfl⟩ rfl
    rfl course (show (Value.int (.zero .u16)).isNull = false from rfl) (.int _)
  rw [held] at holds
  obtain ⟨e', read, rfl⟩ := holds
  cases read
  exact ⟨s', ends⟩

theorem Mirrored.exists_ends_findById_item {past : List Change} {s : Session (MemoryStore × Nat)}
    (h : Mirrored itemSchema itemPlace itemType "_id" past s) {id k : Integer} {label : String}
    (held : itemType.holder? (.int k) past = some (item id label)) :
    ∃ s', (itemTemplate.findById ⟨"", "Item"⟩ (.int k)).Ends s (some (item id label)) s' := by
  obtain ⟨found, s', ends, holds⟩ := Mirrored.exists_ends_findById itemTemplate_serves rfl h
    (show (Value.int k).isNull = false from rfl) (.int k)
  rw [held] at holds
  obtain ⟨e', read, rfl⟩ := holds
  cases read
  exact ⟨s', ends⟩

/-- Several updates in one call stop where there is no record, and those before it have taken
place. -/
theorem updateAll_fails_after_replacing :
    let one : Integer := ⟨.u8, 1, by decide, by decide⟩
    let s := Call.runAll itemTemplate ⟨"", "Item"⟩ itemSession [.insert (item (.zero .u8) "a")]
    ∃ s', (itemTemplate.updateAll ⟨"", "Item"⟩ [item (.zero .u8) "b", item one "c"]).Fails s
        (.noSuchRecord "Item" "_id" (.int one)) s' ∧
      (∃ s₁, (itemTemplate.findById ⟨"", "Item"⟩ (.int (.zero .u8))).Ends s
        (some (item (.zero .u8) "a")) s₁) ∧
      ∃ s₂, (itemTemplate.findById ⟨"", "Item"⟩ (.int (.zero .u8))).Ends s'
        (some (item (.zero .u8) "b")) s₂ := by
  intro one s
  have start : Mirrored itemSchema itemPlace itemType "_id" [] itemSession :=
    ⟨⟨.empty, rfl⟩, [], ⟨rfl, rfl⟩, .nil itemType _⟩
  have stored : Mirrored itemSchema itemPlace itemType "_id" [.stored (item (.zero .u8) "a")] s :=
    (Course.start.call (.insert _) (by simp [Call.entities, savable_item])).mirrored
      itemTemplate_serves rfl start
  -- There is an item for the first update to replace and none for the second.
  rcases Mirrored.update_cases itemTemplate_serves rfl stored
      (savable_item (.zero .u8) "b") rfl with
    ⟨-, e, s₁, replaced, later⟩ | ⟨missing, -⟩
  · rcases Mirrored.update_cases itemTemplate_serves rfl later (savable_item one "c") rfl with
      ⟨present, -⟩ | ⟨-, s₂, refused, last⟩
    · cases present
    · refine ⟨s₂, ?_, stored.exists_ends_findById_item rfl, last.exists_ends_findById_item rfl⟩
      rw [Template.updateAll, List.mapM_cons, List.mapM_cons]
      exact replaced.bind_fails ((refused.bind _).bind _)
  · cases missing

end RecordMapper
