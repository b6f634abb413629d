import RecordMapper.Proofs.Store.Keyed
import RecordMapper.Proofs.Store.Prompt

/-!
One record for each key. As long as no key contains floating-point numbers, no two records of a
table, expired or not, have the same key, and writing a record leaves alone what does not share its
key. Records without a key stand beside each other.
-/

namespace RecordMapper

namespace Record

/-- Both records have a key, and it is the same. -/
def sharesKey (column : String) (a b : Record) : Bool := (b.find? column).any (a.hasKey column)

/-- The record has no key, or one without floating-point numbers. -/
def FreeKey (column : String) (r : Record) : Prop := ∀ v, r.find? column = some v → v.FloatFree

variable {column : String} {r old x : Record} {v : Value}

theorem sharesKey_of_find? (own : r.find? column = some v) (x : Record) :
    x.sharesKey column r = x.hasKey column v := by
  simp [sharesKey, own]

theorem FreeKey.exists_key (free : r.FreeKey column) (held : r.hasKey column v = true) :
    ∃ w, r.find? column = some w ∧ w.FloatFree := by
  obtain ⟨w, own, -⟩ := (Option.any_eq_true _ _).mp held
  exact ⟨w, own, free w own⟩

/-- What is apart from a record is apart from another one with the same key. -/
theorem Apart.of_hasKey (own : r.find? column = some v) (free : v.FloatFree)
    (oldFree : old.FreeKey column) (same : old.hasKey column v = true) (xFree : x.FreeKey column) :
    (old.Apart column x → r.Apart column x) ∧ (x.Apart column old → x.Apart column r) := by
  obtain ⟨w, theirs, wFree⟩ := oldFree.exists_key same
  have equal : (w == v) = true := by rwa [← hasKey_of_find? theirs]
  constructor
  · intro apart u k hu hk
    cases own.symm.trans hu
    rw [← wFree.beq_congr free equal]
    exact apart w k theirs hk
  · intro apart k u hk hu
    cases own.symm.trans hu
    have kFree := xFree k hk
    rw [kFree.beq_comm free, ← wFree.beq_congr free equal, ← kFree.beq_comm wFree]
    exact apart k w hk theirs

end Record

namespace Table

/-- No two records have the same key, and no key contains floating-point numbers. -/
structure Distinct (column : String) (t : Table) : Prop where
  free : ∀ s ∈ t, s.record.FreeKey column
  apart : t.Pairwise fun a b => a.record.Apart column b.record

variable {column : String} {t t' front back : Table} {old new : StoredRecord} {v : Value}

theorem Distinct.nil (column : String) : Distinct column [] := ⟨by simp, .nil⟩

theorem Distinct.sublist (h : t.Distinct column) (sub : t'.Sublist t) : t'.Distinct column :=
  ⟨fun s hs => h.free s (sub.subset hs), h.apart.sublist sub⟩

theorem Distinct.live (h : t.Distinct column) (now : Instant) : (t.live now).Distinct column :=
  h.sublist List.filter_sublist

theorem Distinct.replaced (h : Distinct column (front ++ old :: back))
    (own : new.record.find? column = some v) (free : v.FloatFree)
    (same : old.record.hasKey column v = true) : Distinct column (front ++ new :: back) := by
  have oldFree := h.free old (by simp)
  have moves : ∀ s ∈ front ++ old :: back,
      (old.record.Apart column s.record → new.record.Apart column s.record) ∧
        (s.record.Apart column old.record → s.record.Apart column new.record) := fun s hs =>
    Record.Apart.of_hasKey own free oldFree same (h.free s hs)
  constructor
  · intro s hs
    rcases List.mem_append.mp hs with before | here
    · exact h.free s (by simp [before])
    · rcases List.mem_cons.mp here with rfl | behind
      · intro u hu
        cases own.symm.trans hu
        exact free
      · exact h.free s (by simp [behind])
  · obtain ⟨first, rest, across⟩ := List.pairwise_append.mp h.apart
    obtain ⟨next, last⟩ := List.pairwise_cons.mp rest
    refine List.pairwise_append.mpr ⟨first, List.pairwise_cons.mpr ⟨?_, last⟩, ?_⟩
    · exact fun s hs => (moves s (by simp [hs])).1 (next s hs)
    · intro a ha b hb
      rcases List.mem_cons.mp hb with rfl | behind
      · exact (moves a (by simp [ha])).2 (across a ha old List.mem_cons_self)
      · exact across a ha b (List.mem_cons_of_mem _ behind)

theorem Distinct.added (h : t.Distinct column) (free : new.record.FreeKey column)
    (apart : ∀ s ∈ t, s.record.Apart column new.record) : Distinct column (t ++ [new]) := by
  constructor
  · intro s hs
    rcases List.mem_append.mp hs with before | here
    · exact h.free s before
    · rwa [List.mem_singleton.mp here]
  · refine List.pairwise_append.mpr ⟨h.apart, List.pairwise_singleton _ _, ?_⟩
    simpa using apart

/-- What writing a record makes of a table: nothing else, or the record in the place of one with its
key, or the record at the end. -/
inductive Written (column : String) (r : Record) (t : Table) : Table → Prop
  | unchanged : Written column r t t
  | stored (expiresAt : Option Instant) : Written column r t (t.upsert column ⟨r, expiresAt⟩)
  | updated {key : Value} {after : Table} (own : r.find? column = some key)
      (changed : t.changeFirst column key (fun old => { old with record := r }) = some after) :
      Written column r t after

theorem Written.cases {r : Record} (h : Written column r t t') :
    t' = t ∨
    ((∀ s ∈ t, s.record.Apart column r) ∧ ∃ expiresAt, t' = t ++ [⟨r, expiresAt⟩]) ∨
    ∃ key front old back expiresAt, r.find? column = some key ∧ t = front ++ old :: back ∧
      old.record.hasKey column key = true ∧ t' = front ++ ⟨r, expiresAt⟩ :: back := by
  cases h with
  | unchanged => exact .inl rfl
  | stored expiresAt =>
    rcases upsert_cases column ⟨r, expiresAt⟩ t with
      ⟨apart, added⟩ | ⟨key, front, old, back, own, split, same, -, put⟩
    · exact .inr (.inl ⟨apart, expiresAt, added⟩)
    · exact .inr (.inr ⟨key, front, old, back, expiresAt, own, split, same, put⟩)
  | @updated key _ own changed =>
    rcases changeFirst_cases column key (fun old => { old with record := r }) t with
      ⟨none_of, -⟩ | ⟨front, old, back, split, same, -, some_of⟩
    · cases none_of.symm.trans changed
    · cases some_of.symm.trans changed
      exact .inr (.inr ⟨key, front, old, back, old.expiresAt, own, split, same, rfl⟩)

theorem Distinct.written {r : Record} (h : t.Distinct column) (free : r.FreeKey column)
    (written : Written column r t t') : t'.Distinct column := by
  rcases written.cases with rfl | ⟨apart, expiresAt, rfl⟩ |
    ⟨key, front, old, back, expiresAt, own, rfl, same, rfl⟩
  · exact h
  · exact h.added free apart
  · exact h.replaced own (free key own) same

/-- The records that do not share the key of a record, in table order. -/
def others (column : String) (r : Record) (t : Table) : Table :=
  t.filter fun stored => !stored.record.sharesKey column r

theorem Written.others_sublist {r : Record} (written : Written column r t t') :
    (t.others column r).Sublist t' := by
  rcases written.cases with rfl | ⟨-, expiresAt, rfl⟩ |
    ⟨key, front, old, back, expiresAt, own, rfl, same, rfl⟩
  · exact List.filter_sublist
  · exact List.filter_sublist.trans (List.sublist_append_left _ _)
  · have shared : old.record.sharesKey column r = true := by
      rw [Record.sharesKey_of_find? own, same]
    rw [others, List.filter_append, List.filter_cons_of_neg (by simp [shared])]
    exact List.filter_sublist.append (List.filter_sublist.trans (List.sublist_cons_self _ _))

end Table

/-- The record that a request writes alone. -/
def Request.subject? : Request → Option Record
  | .insert r | .insertFor r _ | .update r => some r
  | .insertAll _ | .delete .. | .clear | .select .. | .count _ => none

theorem Request.mem_written_of_subject? {r : Record} (request : Request)
    (subject : request.subject? = some r) : r ∈ request.written := by
  cases request <;> simp_all [Request.subject?, Request.written]

namespace MemoryStore

variable {s : MemoryStore} {r : Record} {name : String} {t : Table} {request : Request}

/-- A request that writes one record leaves the store as it is, or drops the expired records of the
record's table and writes it there. -/
theorem serve_subject_cases (subject : request.subject? = some r) (now : Instant)
    (s : MemoryStore) :
    (serve now request s).2 = s ∨
      ∃ t, Table.Written (s.keyColumn r.name) r ((s.table r.name).live now) t ∧
        (serve now request s).2 = s.setTable r.name t := by
  cases request with
  | insert r =>
    cases subject
    exact .inr ⟨_, .stored none, rfl⟩
  | insertFor r nanos =>
    cases subject
    simp only [serve, Step.map]
    rcases insertFor_cases now now r nanos s with ⟨-, left⟩ | ⟨-, -, left⟩ | ⟨-, -, left⟩
    · exact .inl (congrArg Prod.snd left)
    · exact .inr ⟨_, .stored _, congrArg Prod.snd left⟩
    · exact .inl (congrArg Prod.snd left)
  | update r =>
    cases subject
    simp only [serve, Step.map, update]
    cases own : r.find? (s.keyColumn r.name) with
    | none => exact .inl rfl
    | some key =>
      simp only
      split
      next t changed => exact .inr ⟨t, .updated own changed, rfl⟩
      next => exact .inr ⟨_, .unchanged, rfl⟩
  | insertAll _ | delete _ _ | clear | select _ _ | count _ => cases subject

/-- The keys stand under the given columns, and no table has two records with the same key. -/
structure Distinct (column : String → String) (s : MemoryStore) : Prop where
  keys : s.keyColumn = column
  tables : ∀ name, (s.table name).Distinct (column name)

variable {column : String → String}

theorem Distinct.setTable (h : s.Distinct column) (distinct : t.Distinct (column name)) :
    (s.setTable name t).Distinct column := by
  refine ⟨h.keys, fun other => ?_⟩
  by_cases same : other = name
  · subst same
    rw [table_setTable]
    exact distinct
  · rw [table_setTable_of_ne s t same]
    exact h.tables other

theorem Distinct.written (h : s.Distinct column) (free : r.FreeKey (column r.name))
    {now : Instant} (written : Table.Written (s.keyColumn r.name) r ((s.table r.name).live now) t) :
    (s.setTable r.name t).Distinct column := by
  rw [h.keys] at written
  exact h.setTable (((h.tables r.name).live now).written free written)

theorem Distinct.putAll {rs : List Record} (h : s.Distinct column)
    (free : ∀ r ∈ rs, r.FreeKey (column r.name)) (clock : Clock) :
    (MemoryStore.putAll clock rs s).Distinct column := by
  induction rs generalizing s clock with
  | nil => exact h
  | cons r rs ih =>
    have first : (s.put (clock 0) r none).Distinct column :=
      h.written (free r List.mem_cons_self) (.stored none)
    exact ih first (fun r hr => free r (List.mem_cons_of_mem _ hr)) _

theorem Distinct.serve (h : s.Distinct column)
    (free : ∀ r ∈ request.written, r.FreeKey (column r.name)) (now : Instant) :
    (serve now request s).2.Distinct column := by
  cases subject : request.subject? with
  | some r =>
    rcases serve_subject_cases subject now s with same | ⟨t, written, left⟩
    · rwa [same]
    · rw [left]
      exact h.written (free r (request.mem_written_of_subject? subject)) written
  | none =>
    cases request with
    | insertAll rs =>
      have counted : ({ s with bulkInserts := s.bulkInserts + 1 } : MemoryStore).Distinct column :=
        ⟨h.keys, h.tables⟩
      exact counted.putAll free _
    | delete sep q =>
      exact h.setTable (((h.tables q.name).live now).sublist List.filter_sublist)
    | clear => exact ⟨h.keys, fun name => .nil _⟩
    | select sep q => exact h
    | count name => exact h
    | insert _ | insertFor _ _ | update _ => cases subject

theorem Distinct.run {requests : List (Instant × Request)} (h : s.Distinct column)
    (free : ∀ e ∈ requests, ∀ r ∈ e.2.written, r.FreeKey (column r.name)) :
    (Service.run MemoryStore.serve requests s).2.Distinct column := by
  induction requests generalizing s with
  | nil => exact h
  | cons e requests ih =>
    have first := h.serve (free e List.mem_cons_self) e.1
    exact ih first fun e he => free e (List.mem_cons_of_mem _ he)

/-- However many requests have come at whatever instants, no two records of a table have the same
key. The next request that writes one record leaves the other tables alone, and of the unexpired
records of its own table those that do not share the key, in their order. -/
theorem run_distinct (empty : s.tables = []) {requests : List (Instant × Request)}
    (free : ∀ e ∈ requests, ∀ r ∈ e.2.written, r.FreeKey (s.keyColumn r.name)) :
    let before := (Service.run serve requests s).2
    (∀ name, (before.table name).Pairwise fun a b =>
        a.record.Apart (s.keyColumn name) b.record) ∧
      ∀ now request r, request.subject? = some r →
        let after := (serve now request before).2
        (∀ name, name ≠ r.name → after.table name = before.table name) ∧
          (((before.table r.name).live now).others (s.keyColumn r.name) r).Sublist
            (after.table r.name) := by
  intro before
  have start : s.Distinct s.keyColumn := by
    refine ⟨rfl, fun name => ?_⟩
    rw [table, empty]
    exact .nil _
  have distinct : before.Distinct s.keyColumn := start.run free
  refine ⟨fun name => (distinct.tables name).apart, fun now request r subject => ?_⟩
  rw [← distinct.keys]
  rcases serve_subject_cases subject now before with same | ⟨t, written, left⟩
  · rw [same]
    exact ⟨fun _ _ => rfl, List.filter_sublist.trans List.filter_sublist⟩
  · rw [left]
    refine ⟨fun name ne => table_setTable_of_ne before t ne, ?_⟩
    rw [table_setTable]
    exact written.others_sublist

theorem run_distinct_tickets :
    (∀ e ∈ ticketRequests.take 4, ∀ r ∈ e.2.written, r.FreeKey (ticketStore.keyColumn r.name)) ∧
      let before := (Service.run serve (ticketRequests.take 4) ticketStore).2
      let two : Integer := ⟨.i16, 2, by decide, by decide⟩
      before.table "Ticket" = [⟨ticket two "d", some ⟨6⟩⟩, ⟨ticket (.zero .i64) "c", none⟩] ∧
        ((before.table "Ticket").Pairwise fun a b => a.record.Apart "code" b.record) ∧
        [⟨ticket (.zero .i64) "c", none⟩].Sublist
          ((serve ⟨8⟩ (.insert (ticket two "f")) before).2.table "Ticket") := by
  have ticketFree (code : Integer) (holder : String) :
      (ticket code holder).FreeKey (ticketStore.keyColumn "Ticket") := by
    intro v own
    cases own
    exact .int code
  have free : ∀ e ∈ ticketRequests.take 4, ∀ r ∈ e.2.written,
      r.FreeKey (ticketStore.keyColumn r.name) := by
    simp only [ticketRequests, List.take_succ_cons, List.take_zero, List.forall_mem_cons,
      Request.written]
    exact ⟨⟨ticketFree _ _, by simp⟩, ⟨ticketFree _ _, by simp⟩, ⟨ticketFree _ _, by simp⟩,
      ⟨ticketFree _ _, by simp⟩, by simp⟩
  obtain ⟨distinct, frame⟩ := run_distinct rfl free
  refine ⟨free, ?_⟩
  intro before two
  exact ⟨rfl, distinct "Ticket", (frame ⟨8⟩ (.insert (ticket two "f")) _ rfl).2⟩

end MemoryStore

end RecordMapper
