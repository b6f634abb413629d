import Mathlib.Logic.Relation
import RecordMapper.Proofs.Template.Lookup
import RecordMapper.Template.Async

/-!
Operations in flight. Cancelling an operation through any handle on it and claiming its completion
are single steps that may come in any order between the store's reply and the report to the caller.
-/

namespace RecordMapper

open RecordMapper.Action

variable {σ : Type}

/-- The operations that can be submitted. -/
inductive AsyncCall where
  | insert (type : TypeKey) (e : Entity)
  | insertFor (type : TypeKey) (e : Entity) (nanos : Nat)
  | update (type : TypeKey) (e : Entity)
  | delete (q : DeleteQuery)
  | select (type : TypeKey) (q : SelectQuery)

namespace AsyncCall

def submit (t : AsyncTemplate σ) : AsyncCall → Action σ AsyncOperation
  | insert type e => t.insert type e
  | insertFor type e nanos => t.insertFor type e nanos
  | update type e => t.update type e
  | delete q => pure (AsyncTemplate.delete q)
  | select type q => pure (AsyncTemplate.select type q)

/-- The operation of the same name of a template that waits for its store. -/
def await (t : Template σ) : AsyncCall → Action σ AsyncResult
  | insert type e => .entity <$> t.insert type e
  | insertFor type e nanos => .entity <$> t.insertFor type e nanos
  | update type e => .entity <$> t.update type e
  | delete q => (fun _ => .nothing) <$> t.delete q
  | select type q => .entities <$> t.select type q

end AsyncCall

namespace AsyncTemplate

variable {t : AsyncTemplate σ} {m : RecordManager σ}

/-- The template that waits for a manager, with the same schema and listeners. -/
def waiting (t : AsyncTemplate σ) (m : RecordManager σ) : Template σ := ⟨t.schema, m, t.workflow⟩

/-- The two parts of a write, with the store's part between them. -/
theorem submit_bind {store : Record → Action σ Record} {request : Record → StoreRequest}
    (performs : ∀ r, m.perform (request r) = do return [← store r]) (type : TypeKey) (e : Entity) :
    (t.submit type e request >>= fun op => m.perform op.request >>= t.finish op.completion) =
      .entity <$> t.workflow.flow t.schema type e store := by
  simp only [submit, Workflow.flow, Workflow.flowWith, performs, finish, bind_assoc, pure_bind,
    map_eq_pure_bind]

end AsyncTemplate

theorem AsyncCall.await_eq (t : AsyncTemplate σ) (m : RecordManager σ) (call : AsyncCall) :
    call.await (t.waiting m) =
      call.submit t >>= fun op => m.perform op.request >>= t.finish op.completion := by
  cases call with
  | insert type e => exact (AsyncTemplate.submit_bind (fun _ => rfl) type e).symm
  | insertFor type e nanos => exact (AsyncTemplate.submit_bind (fun _ => rfl) type e).symm
  | update type e => exact (AsyncTemplate.submit_bind (fun _ => rfl) type e).symm
  | delete q =>
    simp only [await, submit, AsyncTemplate.delete, Template.delete, AsyncTemplate.waiting,
      RecordManager.perform, AsyncTemplate.finish, bind_assoc, pure_bind, map_eq_pure_bind]
  | select type q =>
    simp only [await, submit, AsyncTemplate.select, Template.select, AsyncTemplate.waiting,
      RecordManager.perform, bind_assoc, pure_bind, map_eq_pure_bind]
    rfl

namespace Pending

/-- The answers to cancellation that a state can have given: none while it is open, and otherwise
all the same. -/
def Answered : Pending → List Bool → Prop
  | pending, answers => answers = []
  | cancelled, answers => true ∈ answers ∧ false ∉ answers
  | completed, answers => true ∉ answers

variable {p : Pending} {answers : List Bool}

theorem Answered.cancel (h : p.Answered answers) :
    p.cancel.2.Answered (answers ++ [p.cancel.1]) := by
  cases p with
  | pending =>
    obtain rfl : answers = [] := h
    simp [Pending.cancel, Answered]
  | cancelled =>
    obtain ⟨granted, refused⟩ := h
    simp [Pending.cancel, Answered, refused]
  | completed => simpa [Pending.cancel, Answered] using h

theorem Answered.complete (h : p.Answered answers) : p.complete.2.Answered answers := by
  cases p with
  | pending =>
    obtain rfl : answers = [] := h
    simp [Pending.complete, Answered]
  | cancelled => exact h
  | completed => exact h

theorem Answered.eq_cancelled_iff (h : p.Answered answers) : p = .cancelled ↔ true ∈ answers := by
  cases p with
  | pending =>
    obtain rfl : answers = [] := h
    simp
  | cancelled => simpa using h.1
  | completed => simpa [Answered] using h

theorem cancel_ne_completed (unclaimed : p ≠ .completed) : p.cancel.2 ≠ .completed := by
  cases p with
  | pending => simp [Pending.cancel]
  | cancelled => simp [Pending.cancel]
  | completed => exact absurd rfl unclaimed

theorem cancel_of_ne (settled : p ≠ .pending) : p.cancel.2 = p := by
  cases p with
  | pending => exact absurd rfl settled
  | cancelled => rfl
  | completed => rfl

theorem complete_of_ne (settled : p ≠ .pending) : p.complete.2 = p := by
  cases p with
  | pending => exact absurd rfl settled
  | cancelled => rfl
  | completed => rfl

end Pending

/-- How far an operation has come. -/
inductive Stage where
  | called
  | refused (failure : Failure)
  | submitted (op : AsyncOperation)
  | replied (op : AsyncOperation) (reply : Except Failure (List Record))
  /-- Completion has been claimed, and the caller will be told. -/
  | claimed (op : AsyncOperation) (reply : Except Failure (List Record))
  | done

/-- Whether there are handles on the operation. -/
def Stage.handled : Stage → Bool
  | called | refused _ => false
  | _ => true

/-- Whether nothing is left to be done. -/
def Stage.final : Stage → Bool
  | refused _ | done => true
  | _ => false

/-- An operation on its way, in a session where nothing else goes on. -/
structure Flight (σ : Type) where
  stage : Stage := .called
  /-- The state that all handles share. -/
  pending : Pending := .pending
  /-- What calls of cancel have returned, the oldest first. -/
  answers : List Bool := []
  /-- What the store has been asked to do. -/
  requests : List StoreRequest := []
  /-- What the caller has been told. -/
  reports : List (Except Failure AsyncResult) := []
  session : Session σ

namespace Flight

/-- What can happen next. -/
inductive Step (t : AsyncTemplate σ) (m : RecordManager σ) (call : AsyncCall) :
    Flight σ → Flight σ → Prop
  | refuse {f : Flight σ} {failure : Failure} {s : Session σ} (stage : f.stage = .called)
      (failed : (call.submit t).Fails f.session failure s) :
      Step t m call f { f with stage := .refused failure, session := s }
  | submit {f : Flight σ} {op : AsyncOperation} {s : Session σ} (stage : f.stage = .called)
      (ended : (call.submit t).Ends f.session op s) :
      Step t m call f
        { f with stage := .submitted op, requests := f.requests ++ [op.request], session := s }
  | cancel {f : Flight σ} (handled : f.stage.handled = true) :
      Step t m call f
        { f with pending := f.pending.cancel.2, answers := f.answers ++ [f.pending.cancel.1] }
  | reply {f : Flight σ} {op : AsyncOperation} {reply : Except Failure (List Record)}
      {s : Session σ} (stage : f.stage = .submitted op)
      (performed : (m.perform op.request).run.run f.session = (reply, s)) :
      Step t m call f { f with stage := .replied op reply, session := s }
  | claim {f : Flight σ} {op : AsyncOperation} {reply : Except Failure (List Record)}
      (stage : f.stage = .replied op reply) :
      Step t m call f
        { f with stage := if f.pending.complete.1 then .claimed op reply else .done,
                 pending := f.pending.complete.2 }
  | report {f : Flight σ} {op : AsyncOperation} {reply : Except Failure (List Record)}
      {result : Except Failure AsyncResult} {s : Session σ} (stage : f.stage = .claimed op reply)
      (finished :
        (ofExcept reply >>= t.finish op.completion).run.run f.session = (result, s)) :
      Step t m call f { f with stage := .done, reports := f.reports ++ [result], session := s }

abbrev Run (t : AsyncTemplate σ) (m : RecordManager σ) (call : AsyncCall) :
    Flight σ → Flight σ → Prop := Relation.ReflTransGen (Step t m call)

variable {t : AsyncTemplate σ} {m : RecordManager σ} {call : AsyncCall} {s : Session σ}
  {f g : Flight σ}

/-- The session is what the part before the store and the store have left. -/
def Stored (t : AsyncTemplate σ) (m : RecordManager σ) (call : AsyncCall) (s : Session σ)
    (op : AsyncOperation) (reply : Except Failure (List Record)) (s' : Session σ) : Prop :=
  ∃ mid, (call.submit t).Ends s op mid ∧ (m.perform op.request).run.run mid = (reply, s')

/-- The flights of an operation that was called in a session, stage by stage. -/
inductive Reached (t : AsyncTemplate σ) (m : RecordManager σ) (call : AsyncCall) (s : Session σ) :
    Flight σ → Prop
  | called : Reached t m call s { session := s }
  | refused {failure : Failure} {s' : Session σ} (failed : (call.submit t).Fails s failure s') :
      Reached t m call s { stage := .refused failure, session := s' }
  | submitted {op : AsyncOperation} {s' : Session σ} {p : Pending} {answers : List Bool}
      (ended : (call.submit t).Ends s op s') (unclaimed : p ≠ .completed) :
      Reached t m call s ⟨.submitted op, p, answers, [op.request], [], s'⟩
  | replied {op : AsyncOperation} {reply : Except Failure (List Record)} {s' : Session σ}
      {p : Pending} {answers : List Bool} (stored : Stored t m call s op reply s')
      (unclaimed : p ≠ .completed) :
      Reached t m call s ⟨.replied op reply, p, answers, [op.request], [], s'⟩
  | claimed {op : AsyncOperation} {reply : Except Failure (List Record)} {s' : Session σ}
      {answers : List Bool} (stored : Stored t m call s op reply s') :
      Reached t m call s ⟨.claimed op reply, .completed, answers, [op.request], [], s'⟩
  | dropped {op : AsyncOperation} {reply : Except Failure (List Record)} {s' : Session σ}
      {answers : List Bool} (stored : Stored t m call s op reply s') :
      Reached t m call s ⟨.done, .cancelled, answers, [op.request], [], s'⟩
  | reported {op : AsyncOperation} {reply : Except Failure (List Record)}
      {result : Except Failure AsyncResult} {s' s'' : Session σ} {answers : List Bool}
      (stored : Stored t m call s op reply s')
      (finished : (ofExcept reply >>= t.finish op.completion).run.run s' = (result, s'')) :
      Reached t m call s ⟨.done, .completed, answers, [op.request], [result], s''⟩

theorem Reached.step (reached : Reached t m call s f) (step : Step t m call f g) :
    Reached t m call s g := by
  cases step with
  | refuse stage failed =>
    cases reached with
    | called => exact .refused failed
    | _ => cases stage
  | submit stage ended =>
    cases reached with
    | called => exact .submitted ended (by simp)
    | _ => cases stage
  | cancel handled =>
    cases reached with
    | called => cases handled
    | refused => cases handled
    | submitted ended unclaimed => exact .submitted ended (Pending.cancel_ne_completed unclaimed)
    | replied stored unclaimed => exact .replied stored (Pending.cancel_ne_completed unclaimed)
    | claimed stored => exact .claimed stored
    | dropped stored => exact .dropped stored
    | reported stored finished => exact .reported stored finished
  | reply stage performed =>
    cases reached with
    | submitted ended unclaimed =>
      cases stage
      exact .replied ⟨_, ended, performed⟩ unclaimed
    | _ => cases stage
  | claim stage =>
    cases reached with
    | @replied _ _ _ p _ stored unclaimed =>
      cases stage
      cases p with
      | pending => exact .claimed stored
      | cancelled => exact .dropped stored
      | completed => exact absurd rfl unclaimed
    | _ => cases stage
  | report stage finished =>
    cases reached with
    | claimed stored =>
      cases stage
      exact .reported stored finished
    | _ => cases stage

theorem Step.answered (step : Step t m call f g) (answered : f.pending.Answered f.answers) :
    g.pending.Answered g.answers := by
  cases step with
  | cancel => exact answered.cancel
  | claim => exact answered.complete
  | refuse | submit | reply | report => exact answered

theorem Step.pending_eq (step : Step t m call f g) (settled : f.pending ≠ .pending) :
    g.pending = f.pending := by
  cases step with
  | cancel => exact Pending.cancel_of_ne settled
  | claim => exact Pending.complete_of_ne settled
  | refuse | submit | reply | report => rfl

theorem Step.done (step : Step t m call f g) (done : f.stage = .done) : g.stage = .done := by
  cases step with
  | cancel => exact done
  | refuse stage | submit stage | reply stage | claim stage | report stage =>
    cases done.symm.trans stage

/-- What every step preserves holds after any run. -/
theorem Run.preserves {P : Flight σ → Prop} (run : Run t m call f g)
    (each : ∀ {f g}, Step t m call f g → P f → P g) (start : P f) : P g := by
  induction run with
  | refl => exact start
  | tail _ step ih => exact each step ih

theorem Run.reached (run : Run t m call f g) (reached : Reached t m call s f) :
    Reached t m call s g :=
  run.preserves (fun step reached => reached.step step) reached

theorem Run.pending_eq (run : Run t m call f g) (settled : f.pending ≠ .pending) :
    g.pending = f.pending := by
  refine run.preserves (P := fun g => g.pending = f.pending) (fun step same => ?_) rfl
  exact (step.pending_eq (same ▸ settled)).trans same

/-- Nothing behind the store runs for a cancelled operation. -/
theorem Reached.of_cancelled (reached : Reached t m call s f) (cancelled : f.pending = .cancelled) :
    f.reports = [] ∧ ∃ op mid, (call.submit t).Ends s op mid ∧
      (f.session = mid ∨ (m.perform op.request).Leaves mid f.session) := by
  cases reached with
  | submitted ended => exact ⟨rfl, _, _, ended, .inl rfl⟩
  | replied stored | dropped stored =>
    obtain ⟨mid, ended, performed⟩ := stored
    exact ⟨rfl, _, mid, ended, .inr (congrArg Prod.snd performed)⟩
  | called | refused | claimed | reported => cases cancelled

theorem Reached.of_done (reached : Reached t m call s f) (done : f.stage = .done)
    (kept : f.pending ≠ .cancelled) :
    f.reports = [((call.await (t.waiting m)).run.run s).1] ∧
      f.session = ((call.await (t.waiting m)).run.run s).2 := by
  cases reached with
  | dropped => exact absurd rfl kept
  | reported stored finished =>
    obtain ⟨mid, ended, performed⟩ := stored
    rw [AsyncCall.await_eq, ended.run_bind, run_bind performed, finished]
    exact ⟨rfl, rfl⟩
  | called | refused | submitted | replied | claimed => cases done

theorem Reached.of_reports (reached : Reached t m call s f) (told : f.reports ≠ []) :
    f.pending = .completed ∧ f.stage = .done := by
  cases reached with
  | reported => exact ⟨rfl, rfl⟩
  | called | refused | submitted | replied | claimed | dropped => exact absurd rfl told

theorem Reached.of_fails (reached : Reached t m call s f) {failure : Failure} {s' : Session σ}
    (failed : (call.submit t).Fails s failure s') :
    f.requests = [] ∧ f.reports = [] ∧ (f.session = s ∨ f.session = s') := by
  cases reached with
  | called => exact ⟨rfl, rfl, .inl rfl⟩
  | refused refusal =>
    cases failed.symm.trans refusal
    exact ⟨rfl, rfl, .inr rfl⟩
  | submitted ended => exact absurd ended (failed.not_ends _ _)
  | replied stored | claimed stored | dropped stored | reported stored =>
    obtain ⟨mid, ended, -⟩ := stored
    exact absurd ended (failed.not_ends _ _)

theorem exists_run_of_step (step : Step t m call f g) (answers : g.answers = f.answers)
    (rest : ∃ h, Run t m call g h ∧ h.answers = g.answers ∧ h.stage.final = true) :
    ∃ h, Run t m call f h ∧ h.answers = f.answers ∧ h.stage.final = true := by
  obtain ⟨h, run, same, final⟩ := rest
  exact ⟨h, .head step run, same.trans answers, final⟩

/-- A flight can always be brought to its end without further calls of cancel. -/
theorem exists_run (t : AsyncTemplate σ) (m : RecordManager σ) (call : AsyncCall) (f : Flight σ) :
    ∃ g, Run t m call f g ∧ g.answers = f.answers ∧ g.stage.final = true := by
  have of_final {f : Flight σ} (final : f.stage.final = true) :
      ∃ g, Run t m call f g ∧ g.answers = f.answers ∧ g.stage.final = true :=
    ⟨f, .refl, rfl, final⟩
  have of_claimed {f : Flight σ} {op reply} (stage : f.stage = .claimed op reply) :
      ∃ g, Run t m call f g ∧ g.answers = f.answers ∧ g.stage.final = true :=
    exists_run_of_step (.report stage rfl) rfl (of_final rfl)
  have of_replied {f : Flight σ} {op reply} (stage : f.stage = .replied op reply) :
      ∃ g, Run t m call f g ∧ g.answers = f.answers ∧ g.stage.final = true := by
    refine exists_run_of_step (.claim stage) rfl ?_
    cases f.pending with
    | pending => exact of_claimed rfl
    | cancelled | completed => exact of_final rfl
  have of_submitted {f : Flight σ} {op} (stage : f.stage = .submitted op) :
      ∃ g, Run t m call f g ∧ g.answers = f.answers ∧ g.stage.final = true :=
    exists_run_of_step (.reply stage rfl) rfl (of_replied rfl)
  cases stage : f.stage with
  | called =>
    cases ran : (call.submit t).run.run f.session with
    | mk outcome s =>
      cases outcome with
      | error failure => exact exists_run_of_step (.refuse stage ran) rfl (of_final rfl)
      | ok op => exact exists_run_of_step (.submit stage ran) rfl (of_submitted rfl)
  | refused failure => exact of_final (by rw [stage]; rfl)
  | submitted op => exact of_submitted stage
  | replied op reply => exact of_replied stage
  | claimed op reply => exact of_claimed stage
  | done => exact of_final (by rw [stage]; rfl)

/-- What an asynchronous template runs in one go are the steps behind the submission. -/
theorem exists_run_eq {op : AsyncOperation} (call : AsyncCall) (stage : f.stage = .submitted op)
    (untold : f.reports = []) :
    ∃ g, Run t m call f g ∧ g.stage = .done ∧
      t.run m op f.pending f.session = ((g.reports.head?, g.pending), g.session) := by
  obtain ⟨_, p, answers, requests, _, s⟩ := f
  cases stage
  cases untold
  have reply : Step t m call ⟨.submitted op, p, answers, requests, [], s⟩ _ := .reply rfl rfl
  cases p with
  | pending => exact ⟨_, .head reply (.head (.claim rfl) (.single (.report rfl rfl))), rfl, rfl⟩
  | cancelled | completed => exact ⟨_, .head reply (.single (.claim rfl)), rfl, rfl⟩

/-- Cancelling an operation and telling its caller exclude each other. Once a cancel was granted, so
is every other, and nothing behind the store runs: the session is what the submission and the store
have left. A caller is told once and for all, and then no cancel is granted; without one, it is told
what the waiting template answers. A submission that fails asks nothing of the store. -/
theorem cancel_excludes_report (run : Run t m call { session := s } f) (later : Run t m call f g) :
    (true ∈ f.answers → g.reports = [] ∧ false ∉ g.answers ∧
      ∃ op mid, (call.submit t).Ends s op mid ∧
        (g.session = mid ∨ (m.perform op.request).Leaves mid g.session)) ∧
    (f.reports ≠ [] → f.reports.length = 1 ∧ g.reports = f.reports ∧ true ∉ g.answers) ∧
    (f.stage = .done → true ∉ f.answers →
      f.reports = [((call.await (t.waiting m)).run.run s).1] ∧
        f.session = ((call.await (t.waiting m)).run.run s).2) ∧
    (f.pending ≠ .pending → g.pending = f.pending) ∧
    (∀ failure s', (call.submit t).Fails s failure s' →
      g.requests = [] ∧ g.reports = [] ∧ (g.session = s ∨ g.session = s')) ∧
    ∃ h, Run t m call g h ∧ h.answers = g.answers ∧ h.stage.final = true := by
  have reached := run.reached .called
  have reached' := later.reached reached
  have answered := run.preserves Step.answered rfl
  have answered' := later.preserves Step.answered answered
  refine ⟨fun granted => ?_, fun told => ?_, fun done refused => ?_, later.pending_eq,
    fun failure s' => reached'.of_fails, exists_run t m call g⟩
  · have cancelled := answered.eq_cancelled_iff.mpr granted
    have cancelled' := (later.pending_eq (by simp [cancelled])).trans cancelled
    rw [cancelled'] at answered'
    obtain ⟨silent, left⟩ := reached'.of_cancelled cancelled'
    exact ⟨silent, answered'.2, left⟩
  · obtain ⟨completed, done⟩ := reached.of_reports told
    have completed' := (later.pending_eq (by simp [completed])).trans completed
    obtain ⟨report, -⟩ := reached.of_done done (by simp [completed])
    obtain ⟨report', -⟩ := reached'.of_done (later.preserves Step.done done) (by simp [completed'])
    rw [completed'] at answered'
    exact ⟨by rw [report]; rfl, report'.trans report.symm, answered'⟩
  · exact reached.of_done done fun cancelled => refused (answered.eq_cancelled_iff.mp cancelled)

end Flight

def itemAsync : AsyncTemplate (MemoryStore × Nat) := ⟨itemSchema, itemTemplate.workflow⟩

def itemInsert : AsyncCall := .insert ⟨"", "Item"⟩ (item (.zero .u8) "a")

abbrev ItemRun : Flight (MemoryStore × Nat) → Flight (MemoryStore × Nat) → Prop :=
  Flight.Run itemAsync itemTemplate.manager itemInsert

/-- An insert that is cancelled while the store works and again behind its reply, and one that is
cancelled too late. The listener of the template hears of two events before the store and of two
behind it. -/
theorem cancel_excludes_report_items :
    (∃ f g, ItemRun { session := itemSession } f ∧ ItemRun f g ∧ f.answers = [true] ∧
      g.stage = .done ∧ g.answers = [true, true] ∧ g.session.world.2 = 2 ∧ g.reports = []) ∧
    ∃ f g, ItemRun { session := itemSession } f ∧ ItemRun f g ∧ f.stage = .done ∧
      g.answers = [false] ∧ f.session.world.2 = 4 ∧
      g.reports = [.ok (.entity (item (.zero .u8) "a"))] := by
  have submit : Flight.Step itemAsync itemTemplate.manager itemInsert
      { session := itemSession } _ := .submit rfl rfl
  have cancelled : ∃ f g, ItemRun { session := itemSession } f ∧ ItemRun f g ∧
      f.answers = [true] ∧ g.stage = .done ∧ g.answers = [true, true] ∧ g.session.world.2 = 2 :=
    ⟨_, _, .head submit (.single (.cancel rfl)),
      .head (.reply rfl rfl) (.head (.cancel rfl) (.single (.claim rfl))), rfl, rfl, rfl, rfl⟩
  have completed : ∃ f g, ItemRun { session := itemSession } f ∧ ItemRun f g ∧ f.stage = .done ∧
      f.answers = [] ∧ g.answers = [false] ∧ f.session.world.2 = 4 ∧ f.reports ≠ [] :=
    ⟨_, _, .head submit (.head (.reply rfl rfl) (.head (.claim rfl) (.single (.report rfl rfl)))),
      .single (.cancel rfl), rfl, rfl, rfl, rfl, by simp⟩
  constructor
  · obtain ⟨f, g, run, later, granted, done, answers, heard⟩ := cancelled
    have silent := ((Flight.cancel_excludes_report run later).1 (by simp [granted])).1
    exact ⟨f, g, run, later, granted, done, answers, heard, silent⟩
  · obtain ⟨f, g, run, later, done, uncancelled, answers, heard, told⟩ := completed
    obtain ⟨-, reported, awaited, -⟩ := Flight.cancel_excludes_report run later
    have same := (reported told).2.1
    have reply := (awaited done (by simp [uncancelled])).1
    exact ⟨f, g, run, later, done, answers, heard, same.trans reply⟩

end RecordMapper
