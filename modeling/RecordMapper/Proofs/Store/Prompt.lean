import Mathlib.Logic.Function.Basic
import RecordMapper.Proofs.Store.Request

/-!
Expiry without delay. A prompt store drops each record at the very instant at which it expires, and
knows nothing of expired ones otherwise. As long as the clock does not go back, nobody can tell the
memory store from it.
-/

namespace RecordMapper

/-- Per name a list of records in insertion order. -/
structure PromptStore where
  keyColumn : String → String
  tables : String → Table

namespace PromptStore

/-- The clock reaches an instant, and what expires by then is gone. -/
def reach (now : Instant) (p : PromptStore) : PromptStore :=
  { p with tables := fun name => (p.tables name).live now }

def setTable (name : String) (t : Table) (p : PromptStore) : PromptStore :=
  { p with tables := Function.update p.tables name t }

/-- The place of the record with a key, the first if there are several. -/
def place? (p : PromptStore) (name : String) (key : Value) : Option Nat :=
  (p.tables name).findIdx? (Table.hasKey (p.keyColumn name) key)

/-- Puts a record in the place of the one with its key, or at the end. -/
def insert (r : Record) (expiresAt : Option Instant) (p : PromptStore) : PromptStore :=
  match (r.find? (p.keyColumn r.name)).bind (p.place? r.name) with
  | some place => p.setTable r.name ((p.tables r.name).set place ⟨r, expiresAt⟩)
  | none => p.setTable r.name (p.tables r.name ++ [⟨r, expiresAt⟩])

/-- Replaces the record with the key of the given one, which takes over its place and its expiry. -/
def update (r : Record) (p : PromptStore) : Except Failure Answer × PromptStore :=
  match r.find? (p.keyColumn r.name) with
  | none => (.error (.noKeyEntry r.name (p.keyColumn r.name)), p)
  | some key =>
    match p.place? r.name key with
    | none => (.error (.noSuchRecord r.name (p.keyColumn r.name) key), p)
    | some place =>
      (.ok (.record r), p.setTable r.name
        ((p.tables r.name).modify place fun stored => { stored with record := r }))

/-- Removes the records that a condition admits. -/
def delete (sep : String) (q : DeleteQuery) (p : PromptStore) : PromptStore :=
  p.setTable q.name ((p.tables q.name).filter fun stored => !admits sep q.condition stored.record)

/-- Serves a request at an instant that the clock has reached. -/
def answer : Service PromptStore
  | _, .insert r, p => (.ok (.record r), p.insert r none)
  | now, .insertFor r nanos, p =>
    if MemoryStore.greatestTimeToLive < nanos then (.error .timeToLiveOutOfRange, p)
    else if Instant.last.nanos < now.nanos + nanos then (.error .clockOverflow, p)
    else (.ok (.record r), p.insert r (some ⟨now.nanos + nanos⟩))
  | now, .insertAll rs, p =>
    (.ok (.records rs), rs.foldl (fun p r => (p.insert r none).reach now) p)
  | _, .update r, p => p.update r
  | _, .delete sep q, p => (.ok .done, p.delete sep q)
  | _, .clear, p => (.ok .done, { p with tables := fun _ => [] })
  | _, .select sep q, p => (.ok (.records (q.pick sep ((p.tables q.name).map (·.record)))), p)
  | _, .count name, p => (.ok (.number (p.tables name).length), p)

/-- A request comes when the clock has reached its instant, and what it leaves for no longer than
that is gone at once. -/
def serve : Service PromptStore := fun now request p =>
  let served := (p.reach now).answer now request
  (served.1, served.2.reach now)

theorem reach_setTable (now : Instant) (name : String) (t : Table) (p : PromptStore) :
    (p.setTable name t).reach now = (p.reach now).setTable name (t.live now) := by
  have tables : (fun other => (Function.update p.tables name t other).live now) =
      Function.update (fun other => (p.tables other).live now) name (t.live now) := by
    funext other
    by_cases same : other = name
    · subst same
      simp
    · simp [same]
  simp only [reach, setTable, tables]

end PromptStore

namespace Table

theorem live_live {a b : Instant} (le : a.nanos ≤ b.nanos) (t : Table) :
    (t.live a).live b = t.live b := by
  rw [live, live, List.filter_filter]
  refine List.filter_congr fun stored _ => ?_
  cases expires : stored.expiresAt with
  | none => simp [StoredRecord.isExpired, expires]
  | some due =>
    have later : due.nanos ≤ a.nanos → due.nanos ≤ b.nanos := fun passed => Int.le_trans passed le
    by_cases passed : due.nanos ≤ b.nanos
    · simp [StoredRecord.isExpired, expires, passed]
    · simp [StoredRecord.isExpired, expires, passed, mt later passed]

theorem changeFirst_eq_modify (column : String) (key : Value) (change : StoredRecord → StoredRecord)
    (t : Table) : t.changeFirst column key change =
      (t.findIdx? (hasKey column key)).map fun place => t.modify place change := by
  induction t with
  | nil => rfl
  | cons s t ih =>
    rw [changeFirst, ih, List.findIdx?_cons]
    cases hasKey column key s with
    | true => rfl
    | false => cases t.findIdx? (hasKey column key) <;> rfl

end Table

namespace MemoryStore

/-- What the store shows at an instant. -/
def seenAt (now : Instant) (s : MemoryStore) : PromptStore :=
  ⟨s.keyColumn, fun name => (s.table name).live now⟩

theorem reach_seenAt {a b : Instant} (le : a.nanos ≤ b.nanos) (s : MemoryStore) :
    (s.seenAt a).reach b = s.seenAt b := by
  simp only [PromptStore.reach, seenAt, Table.live_live le]

theorem reach_seenAt_self (now : Instant) (s : MemoryStore) :
    (s.seenAt now).reach now = s.seenAt now := reach_seenAt (Int.le_refl _) s

theorem seenAt_setTable (now : Instant) (name : String) (t : Table) (s : MemoryStore) :
    (s.setTable name t).seenAt now = ((s.seenAt now).setTable name t).reach now := by
  have tables : (fun other => ((s.setTable name t).table other).live now) =
      Function.update (fun other => (s.table other).live now) name (t.live now) := by
    funext other
    by_cases same : other = name
    · subst same
      simp [table_setTable]
    · simp [table_setTable_of_ne s t same, same]
  rw [PromptStore.reach_setTable, reach_seenAt_self]
  simp only [seenAt, PromptStore.setTable, tables]
  rfl

/-- Dropping the expired records of a table does not show. -/
theorem seenAt_setTable_live (now : Instant) (name : String) (s : MemoryStore) :
    (s.setTable name ((s.table name).live now)).seenAt now = s.seenAt now := by
  rw [seenAt_setTable, PromptStore.setTable, seenAt, Function.update_eq_self]
  exact reach_seenAt_self now s

theorem insert_seenAt (now : Instant) (r : Record) (expiresAt : Option Instant) (s : MemoryStore) :
    (s.seenAt now).insert r expiresAt = (s.seenAt now).setTable r.name
      (((s.table r.name).live now).upsert (s.keyColumn r.name) ⟨r, expiresAt⟩) := by
  unfold PromptStore.insert PromptStore.place? Table.upsert
  simp only [seenAt]
  cases r.find? (s.keyColumn r.name) with
  | none => rfl
  | some key =>
    simp only [Option.bind_some, Table.changeFirst_eq_modify]
    cases ((s.table r.name).live now).findIdx? (Table.hasKey (s.keyColumn r.name) key) with
    | none => rfl
    | some place => simp [List.set_eq_modify]

theorem seenAt_put (now : Instant) (r : Record) (expiresAt : Option Instant) (s : MemoryStore) :
    (s.put now r expiresAt).seenAt now = ((s.seenAt now).insert r expiresAt).reach now := by
  rw [put, seenAt_setTable, insert_seenAt]

theorem seenAt_putAll (now : Instant) (rs : List Record) (s : MemoryStore) :
    (putAll (fun _ => now) rs s).seenAt now =
      rs.foldl (fun p r => (p.insert r none).reach now) (s.seenAt now) := by
  induction rs generalizing s with
  | nil => rfl
  | cons r rs ih =>
    rw [List.foldl_cons, ← seenAt_put]
    exact ih (s.put now r none)

theorem foldl_insert_reach (now : Instant) (rs : List Record) (s : MemoryStore) :
    (rs.foldl (fun p r => (p.insert r none).reach now) (s.seenAt now)).reach now =
      rs.foldl (fun p r => (p.insert r none).reach now) (s.seenAt now) := by
  rw [← seenAt_putAll, reach_seenAt_self]

theorem update_seenAt (now : Instant) (r : Record) (s : MemoryStore) :
    (update now r s).1.map .record = ((s.seenAt now).update r).1 ∧
      (update now r s).2.seenAt now = ((s.seenAt now).update r).2.reach now := by
  unfold update PromptStore.update PromptStore.place?
  simp only [seenAt]
  cases r.find? (s.keyColumn r.name) with
  | none => exact ⟨rfl, (reach_seenAt_self now s).symm⟩
  | some key =>
    simp only [Table.changeFirst_eq_modify]
    cases ((s.table r.name).live now).findIdx? (Table.hasKey (s.keyColumn r.name) key) with
    | none =>
      have unchanged := seenAt_setTable_live now r.name s
      exact ⟨rfl, unchanged.trans (reach_seenAt_self now s).symm⟩
    | some place => exact ⟨rfl, seenAt_setTable now r.name _ s⟩

/-- A request gets the same answer from what the store shows as from the store, and leaves alike
what they show from then on. -/
theorem serve_seenAt (now : Instant) (request : Request) (s : MemoryStore) :
    (serve now request s).1 = ((s.seenAt now).answer now request).1 ∧
      (serve now request s).2.seenAt now =
        ((s.seenAt now).answer now request).2.reach now := by
  have unchanged := (reach_seenAt_self now s).symm
  cases request with
  | insert r => exact ⟨rfl, seenAt_put now r none s⟩
  | insertFor r nanos =>
    simp only [serve, Step.map, PromptStore.answer]
    rcases insertFor_cases now now r nanos s with
      ⟨refused, left⟩ | ⟨accepted, within, left⟩ | ⟨accepted, beyond, left⟩
    · rw [left, if_pos refused]
      exact ⟨rfl, unchanged⟩
    · rw [left, if_neg (Nat.not_lt.mpr accepted), if_neg (Int.not_lt.mpr within)]
      exact ⟨rfl, seenAt_put now r _ s⟩
    · rw [left, if_neg (Nat.not_lt.mpr accepted), if_pos beyond]
      exact ⟨rfl, unchanged⟩
  | insertAll rs =>
    have batch := seenAt_putAll now rs { s with bulkInserts := s.bulkInserts + 1 }
    exact ⟨rfl, batch.trans (foldl_insert_reach now rs s).symm⟩
  | update r => exact update_seenAt now r s
  | delete sep q => exact ⟨rfl, seenAt_setTable now q.name _ s⟩
  | clear => exact ⟨rfl, rfl⟩
  | select sep q => exact ⟨rfl, unchanged⟩
  | count name => exact ⟨rfl, unchanged⟩

/-- From a prompt store that will show the same at every instant to come, requests get the same
answers. -/
theorem run_of_shows {requests : List (Instant × Request)} {s : MemoryStore} {p : PromptStore}
    (ordered : requests.Pairwise fun a b => a.1.nanos ≤ b.1.nanos)
    (shows : ∀ e ∈ requests, p.reach e.1 = s.seenAt e.1) :
    (Service.run serve requests s).1 = (Service.run PromptStore.serve requests p).1 := by
  induction requests generalizing s p with
  | nil => rfl
  | cons e requests ih =>
    obtain ⟨now, request⟩ := e
    obtain ⟨later, ordered⟩ := List.pairwise_cons.mp ordered
    obtain ⟨answer, left⟩ := serve_seenAt now request s
    rw [← shows (now, request) List.mem_cons_self] at answer left
    -- The clock only moves on, so what is left shows alike at the instants of the requests behind.
    have rest : ∀ e ∈ requests, (PromptStore.serve now request p).2.reach e.1 =
        (serve now request s).2.seenAt e.1 := by
      intro e he
      rw [PromptStore.serve, ← left]
      exact reach_seenAt (later e he) _
    simp only [Service.run, answer, ih ordered rest]
    rfl

/-- Whether expired records are dropped at once or by a later write, and what failed requests leave
behind, cannot be told from the answers as long as the clock does not go back. -/
theorem run_eq_run_prompt (s : MemoryStore) {requests : List (Instant × Request)}
    (ordered : requests.Pairwise fun a b => a.1.nanos ≤ b.1.nanos) :
    (Service.run serve requests s).1 =
      (Service.run PromptStore.serve requests ⟨s.keyColumn, s.table⟩).1 :=
  run_of_shows ordered fun _ _ => rfl

def ticketStore : MemoryStore := { database := .document, keys := [("Ticket", "code")] }

def ticket (code : Integer) (holder : String) : Record :=
  ⟨"Ticket", [("code", .int code), ("holder", .string holder)]⟩

/-- The first ticket has expired when another one with its code comes. A later one is still alive
when two more come at once and when one of them is deleted, and is gone before the end. -/
def ticketRequests : List (Instant × Request) :=
  let two : Integer := ⟨.i16, 2, by decide, by decide⟩
  let three : Integer := ⟨.u64, 3, by decide, by decide⟩
  [(⟨0⟩, .insertFor (ticket (.zero .u8) "a") 5), (⟨0⟩, .insert (ticket two "b")),
    (⟨5⟩, .insert (ticket (.zero .i64) "c")), (⟨6⟩, .insertFor (ticket two "d") 0),
    (⟨6⟩, .update (ticket two "e")), (⟨6⟩, .count "Ticket"),
    (⟨7⟩, .update (ticket (.zero .u8) "f")), (⟨8⟩, .insertFor (ticket two "g") 5),
    (⟨9⟩, .insertAll [ticket (.zero .i32) "i", ticket three "h"]),
    (⟨10⟩, .select "." { name := "Ticket" }),
    (⟨11⟩, .delete "." { name := "Ticket", condition := some (.equals "holder" (.string "h")) }),
    (⟨12⟩, .select "." { name := "Ticket" }), (⟨13⟩, .select "." { name := "Ticket" }),
    (⟨14⟩, .clear), (⟨14⟩, .count "Ticket")]

theorem run_eq_run_prompt_tickets :
    (ticketRequests.Pairwise fun a b => a.1.nanos ≤ b.1.nanos) ∧
      let two : Integer := ⟨.i16, 2, by decide, by decide⟩
      let three : Integer := ⟨.u64, 3, by decide, by decide⟩
      (Service.run serve ticketRequests ticketStore).1 =
        [.ok (.record (ticket (.zero .u8) "a")), .ok (.record (ticket two "b")),
          .ok (.record (ticket (.zero .i64) "c")), .ok (.record (ticket two "d")),
          .error (.noSuchRecord "Ticket" "code" (.int two)),
          .ok (.number 1), .ok (.record (ticket (.zero .u8) "f")), .ok (.record (ticket two "g")),
          .ok (.records [ticket (.zero .i32) "i", ticket three "h"]),
          .ok (.records [ticket (.zero .i32) "i", ticket two "g", ticket three "h"]), .ok .done,
          .ok (.records [ticket (.zero .i32) "i", ticket two "g"]),
          .ok (.records [ticket (.zero .i32) "i"]), .ok .done, .ok (.number 0)] := by
  have ordered : ticketRequests.Pairwise fun a b => a.1.nanos ≤ b.1.nanos := by decide
  refine ⟨ordered, ?_⟩
  intro two three
  refine (run_eq_run_prompt _ ordered).trans ?_
  -- Sorting does not unfold, so that the selects are answered by a lemma.
  have everything (rs : List Record) : rs = SelectQuery.pick "." { name := "Ticket" } rs := by
    rw [SelectQuery.pick_unsorted rfl rfl]
    exact (List.filter_eq_self.mpr fun _ _ => rfl).symm
  rw [everything [ticket (.zero .i32) "i", ticket two "g", ticket three "h"],
    everything [ticket (.zero .i32) "i", ticket two "g"], everything [ticket (.zero .i32) "i"]]
  with_unfolding_all rfl

end MemoryStore

end RecordMapper
