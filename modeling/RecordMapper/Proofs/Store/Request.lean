import RecordMapper.Proofs.Store.Memory

/-!
Requests to a store, each with the instant at which it comes. What a run of them answers is compared
with what another kind of store answers, and what it leaves is described by what each request does
to the table that it names.
-/

namespace RecordMapper

/-- The operations of a store. Those that follow paths come with the separator of the moment. -/
inductive Request where
  | insert (r : Record)
  | insertFor (r : Record) (nanos : Nat)
  | insertAll (rs : List Record)
  | update (r : Record)
  | delete (sep : String) (q : DeleteQuery)
  | clear
  | select (sep : String) (q : SelectQuery)
  | count (name : String)

inductive Answer where
  | done
  | record (r : Record)
  | records (rs : List Record)
  | number (n : Nat)

/-- How a kind of store serves a request: its answer, and the store that it leaves. -/
abbrev Service (σ : Type) := Instant → Request → σ → Except Failure Answer × σ

/-- Serves requests one after the other, whatever becomes of each. -/
def Service.run {σ : Type} (serve : Service σ) :
    List (Instant × Request) → σ → List (Except Failure Answer) × σ
  | [], s => ([], s)
  | (now, request) :: rest, s =>
    let (answer, s) := serve now request s
    let (answers, s) := Service.run serve rest s
    (answer :: answers, s)

/-- The records that a request writes. -/
def Request.written : Request → List Record
  | .insert r | .insertFor r _ | .update r => [r]
  | .insertAll rs => rs
  | .delete .. | .clear | .select .. | .count _ => []

/-- The records among the given ones that a query asks for, sorted and cut. -/
def SelectQuery.pick (sep : String) (q : SelectQuery) (rs : List Record) : List Record :=
  let sorted := (rs.filter (admits sep q.condition)).mergeSort fun a b =>
    compareBy sep a b q.sorts != .gt
  match q.limit with
  | some n => sorted.take n
  | none => sorted

theorem SelectQuery.pick_unsorted {q : SelectQuery} (sorts : q.sorts = []) (limit : q.limit = none)
    (sep : String) (rs : List Record) : q.pick sep rs = rs.filter (admits sep q.condition) := by
  simp only [pick, sorts, limit, MemoryStore.mergeSort_unsorted]

namespace MemoryStore

def Step.map {α β : Type} (f : α → β) (step : Step α) : Step β := fun s =>
  ((step s).1.map f, (step s).2)

def serve : Service MemoryStore
  | now, .insert r => Step.map .record (insert now r)
  | now, .insertFor r nanos => Step.map .record (insertFor now now r nanos)
  | now, .insertAll rs => Step.map .records (insertAll (fun _ => now) rs)
  | now, .update r => Step.map .record (update now r)
  | now, .delete sep q => Step.map (fun _ => .done) (delete now sep q)
  | _, .clear => fun s => (.ok .done, s.clear)
  | now, .select sep q => fun s => (.ok (.records (s.select now sep q)), s)
  | now, .count name => fun s => (.ok (.number (s.count now name)), s)

/-- A time to live is refused, ends within the calendar, or leads past its end. -/
theorem insertFor_cases (start now : Instant) (r : Record) (nanos : Nat) (s : MemoryStore) :
    (greatestTimeToLive < nanos ∧ insertFor start now r nanos s = (.error .timeToLiveOutOfRange, s)) ∨
    (nanos ≤ greatestTimeToLive ∧ start.nanos + nanos ≤ Instant.last.nanos ∧
      insertFor start now r nanos s = (.ok r, s.put now r (some ⟨start.nanos + nanos⟩))) ∨
    (nanos ≤ greatestTimeToLive ∧ Instant.last.nanos < start.nanos + nanos ∧
      insertFor start now r nanos s = (.error .clockOverflow, s)) := by
  unfold insertFor Instant.after?
  by_cases refused : greatestTimeToLive < nanos
  · exact .inl ⟨refused, if_pos refused⟩
  · have accepted : nanos ≤ greatestTimeToLive := Nat.le_of_not_lt refused
    rw [if_neg refused]
    by_cases within : start.nanos + nanos ≤ Instant.last.nanos
    · exact .inr (.inl ⟨accepted, within, by rw [if_pos within]⟩)
    · exact .inr (.inr ⟨accepted, Int.not_le.mp within, by rw [if_neg within]⟩)

end MemoryStore

end RecordMapper
