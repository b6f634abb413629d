import RecordMapper.Schema.Declaration

/-! Replacing one slot of an entity leaves its type and all other slots alone. -/

namespace RecordMapper

namespace Entity

@[simp] theorem length_slots_withSlot (e : Entity) (place : Nat) (s : Slot Entity) :
    (e.withSlot place s).slots.length = e.slots.length := by
  simp [withSlot, slots]

theorem slot?_withSlot_self {e : Entity} {place : Nat} (s : Slot Entity)
    (hp : place < e.slots.length) : (e.withSlot place s).slot? place = some s := by
  cases e with
  | mk type slots =>
    have inside : place < slots.length := hp
    simp [slot?, withSlot, Entity.slots, List.getElem?_eq_getElem inside]

theorem slot?_withSlot_of_ne {e : Entity} {place other : Nat} (s : Slot Entity)
    (hne : place ≠ other) : (e.withSlot place s).slot? other = e.slot? other := by
  simp [slot?, withSlot, slots, hne]

theorem content?_eq_some_iff {e : Entity} {place : Nat} {d : Datum} :
    e.content? place = some d ↔ e.slot? place = some (.content d) := by
  unfold content?
  split <;> simp_all

theorem child?_eq_some_iff {e child : Entity} {place : Nat} :
    e.child? place = some child ↔ e.slot? place = some (.child (some child)) := by
  unfold child?
  split <;> simp_all

end Entity

namespace Schema

theorem length_slots_fresh {s : Schema} {type : TypeKey} {d : TypeDeclaration}
    (found : s.find? type = some d) :
    (s.fresh type).slots.length = d.fields.length + d.unmapped.length := by
  simp [fresh, freshAt, found, Entity.slots]

theorem type_fresh (s : Schema) (type : TypeKey) : (s.fresh type).type = type := by
  unfold fresh freshAt
  split <;> rfl

theorem type_freshWith (s : Schema) (type : TypeKey) (contents : List (Nat × Datum)) :
    (s.freshWith type contents).type = type := by
  unfold freshWith
  suffices kept : ∀ e : Entity,
      (contents.foldl (fun e c => e.withContent c.1 c.2) e).type = e.type by
    rw [kept, type_fresh]
  induction contents with
  | nil => exact fun e => rfl
  | cons c cs ih => exact fun e => by rw [List.foldl_cons, ih]; rfl

theorem length_slots_freshWith (s : Schema) (type : TypeKey) (contents : List (Nat × Datum)) :
    (s.freshWith type contents).slots.length = (s.fresh type).slots.length := by
  unfold freshWith
  suffices kept : ∀ e : Entity,
      (contents.foldl (fun e c => e.withContent c.1 c.2) e).slots.length = e.slots.length from
    kept _
  induction contents with
  | nil => exact fun e => rfl
  | cons c cs ih =>
    intro e
    rw [List.foldl_cons, ih]
    exact e.length_slots_withSlot c.1 _

end Schema

end RecordMapper
