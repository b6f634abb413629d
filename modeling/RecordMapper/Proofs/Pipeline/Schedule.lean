import Mathlib.Data.List.Basic
import RecordMapper.Pipeline.Workflow
import RecordMapper.Proofs.Store.Session

/-!
The order of the pipeline. What it does is written out as one schedule, listener by listener, and
every run takes the steps of the schedule in turn, to its end or up to the first that breaks.
-/

namespace RecordMapper.Workflow

open RecordMapper.Action

/-- What a listener or the action can note down of the pipeline. -/
inductive Note where
  | heard (place : Nat) (ev : Event)
  | acted (given : Record)

/-- A step of the pipeline, with what it is given and what it gives where it is done. -/
inductive Step where
  /-- The listener at a place is notified. -/
  | notify (place : Nat) (ev : Event)
  | write (e : Entity) (r : Record)
  | act (given stored : Record)
  | read (stored : Record) (e : Entity)

/-- All listeners hear of an event, in the order they were added. -/
def heard (count : Nat) (ev : Event) : List Step := (List.range count).map (.notify · ev)

def before (count : Nat) (e : Entity) (r : Record) : List Step :=
  heard count (.preEntity e) ++ .write e r :: heard count (.preRecord r)

def after (count : Nat) (stored : Record) (e' : Entity) : List Step :=
  heard count (.postRecord stored) ++ .read stored e' :: heard count (.postEntity e')

def schedule (count : Nat) (e : Entity) (r stored : Record) (e' : Entity) : List Step :=
  before count e r ++ .act r stored :: after count stored e'

variable {σ α β : Type} (ls : Workflow σ) (t : TypeDescriptor) (action : Record → Action σ Record)

namespace Step

/-- The step is done, and leaves a session. -/
inductive Done : Step → Session σ → Session σ → Prop
  | notify {place : Nat} {l : Listener σ} {ev : Event} {s : Session σ} {world : σ}
    (there : ls[place]? = some l) (passes : l ev s.world = (.ok (), world)) :
    Done (.notify place ev) s { s with world }
  | write {e : Entity} {r : Record} (written : t.toRecord e = .ok r) (s : Session σ) :
    Done (.write e r) s s
  | act {given stored : Record} {s s' : Session σ} (ends : (action given).Ends s stored s') :
    Done (.act given stored) s s'
  | read {stored : Record} {e : Entity} (read : t.toEntity stored = .ok e) (s : Session σ) :
    Done (.read stored e) s s

/-- The step breaks with a failure, and leaves a session. -/
inductive Broken : Step → Session σ → Failure → Session σ → Prop
  | notify {place : Nat} {l : Listener σ} {ev : Event} {s : Session σ} {world : σ}
    {message : String} (there : ls[place]? = some l)
    (refuses : l ev s.world = (.error message, world)) :
    Broken (.notify place ev) s (.listener ev.phase message) { s with world }
  | write {e : Entity} {r : Record} {failure : Failure} (refused : t.toRecord e = .error failure)
    (s : Session σ) : Broken (.write e r) s failure s
  | act {given stored : Record} {failure : Failure} {s s' : Session σ}
    (fails : (action given).Fails s failure s') : Broken (.act given stored) s failure s'
  | read {stored : Record} {e : Entity} {failure : Failure}
    (refused : t.toEntity stored = .error failure) (s : Session σ) :
    Broken (.read stored e) s failure s

def isAct : Step → Bool
  | act .. => true
  | _ => false

/-- What is noted down of a step, which is nothing if it only converts. -/
def note? : Step → Option Note
  | notify place ev => some (.heard place ev)
  | act given _ => some (.acted given)
  | write .. | read .. => none

end Step

/-- The world holds a journal, in which each listener and the action enter what reaches them. -/
structure Journaled (journal : σ → List Note) : Prop where
  heard : ∀ (place : Nat) (l : Listener σ), ls[place]? = some l → ∀ ev w,
    journal (l ev w).2 = journal w ++ [.heard place ev]
  acted : ∀ given s,
    journal ((action given).run.run s).2.world = journal s.world ++ [.acted given]

/-- The steps are done one after another. -/
inductive Trail : List Step → Session σ → Session σ → Prop
  | nil (s : Session σ) : Trail [] s s
  | cons {step : Step} {steps : List Step} {s s' s'' : Session σ}
    (first : step.Done ls t action s s') (rest : Trail steps s' s'') : Trail (step :: steps) s s''

/-- Some of the steps are done, the next breaks, and the action fails there and then. -/
def Stops (steps : List Step) (x : Action σ α) (s : Session σ) : Prop :=
  ∃ done step later failure s₁ s', steps = done ++ step :: later ∧ Trail ls t action done s s₁ ∧
    step.Broken ls t action s₁ failure s' ∧ x.Fails s failure s'

/-- The same listeners over a world with a journal. -/
def noted : Workflow (σ × List Note) :=
  ls.mapIdx fun place l ev w => ((l ev w.1).1, (l ev w.1).2, w.2 ++ [.heard place ev])

/-- The same action over a world with a journal. -/
def notedAction (given : Record) : Action (σ × List Note) Record := fun s =>
  let (outcome, s') := (action given).run.run { s with world := s.world.1 }
  (outcome, { s' with world := (s'.world, s.world.2 ++ [.acted given]) })

variable {ls t action}

/-- Whatever the listeners and the action do, a journal can be kept of it. -/
theorem journaled_noted : Journaled (noted ls) (notedAction action) Prod.snd := by
  refine ⟨fun place l there ev w => ?_, fun given s => rfl⟩
  rw [noted, List.getElem?_mapIdx, Option.map_eq_some_iff] at there
  obtain ⟨plain, -, rfl⟩ := there
  rfl

section

variable {s s' s'' : Session σ} {front steps : List Step} {x : Action σ α} {f : α → Action σ β}

theorem Trail.append (first : Trail ls t action front s s')
    (rest : Trail ls t action steps s' s'') : Trail ls t action (front ++ steps) s s'' := by
  induction first with
  | nil => exact rest
  | cons done _ ih => exact .cons done (ih rest)

theorem Trail.single {step : Step} (done : step.Done ls t action s s') :
    Trail ls t action [step] s s' := .cons done (.nil s')

theorem Stops.append (h : Stops ls t action steps x s) (more : List Step) :
    Stops ls t action (steps ++ more) x s := by
  obtain ⟨done, step, later, failure, s₁, s', rfl, trail, broken, fails⟩ := h
  exact ⟨done, step, later ++ more, failure, s₁, s', by simp, trail, broken, fails⟩

theorem Stops.bind (h : Stops ls t action steps x s) (f : α → Action σ β) :
    Stops ls t action steps (x >>= f) s := by
  obtain ⟨done, step, later, failure, s₁, s', split, trail, broken, fails⟩ := h
  exact ⟨done, step, later, failure, s₁, s', split, trail, broken, fails.bind f⟩

/-- Stopping behind what has been done. -/
theorem Stops.behind {a : α} (trail : Trail ls t action front s s') (ends : x.Ends s a s')
    (h : Stops ls t action steps (f a) s') : Stops ls t action (front ++ steps) (x >>= f) s := by
  obtain ⟨done, step, later, failure, s₁, s'', rfl, rest, broken, fails⟩ := h
  exact ⟨front ++ done, step, later, failure, s₁, s'', by simp, trail.append rest, broken,
    ends.bind_fails fails⟩

theorem Stops.first {step : Step} {failure : Failure}
    (broken : step.Broken ls t action s failure s') (fails : x.Fails s failure s')
    (later : List Step) : Stops ls t action (step :: later) x s :=
  ⟨[], step, later, failure, s, s', rfl, .nil s, broken, fails⟩

end

/-- The listeners behind a place are notified one after another. -/
theorem fire_from (ev : Event) (front back : Workflow σ) (split : ls = front ++ back)
    (s : Session σ) :
    (∃ s', (fire ev back).Ends s () s' ∧
      Trail ls t action ((List.range' front.length back.length).map (.notify · ev)) s s') ∨
    Stops ls t action ((List.range' front.length back.length).map (.notify · ev)) (fire ev back) s
    := by
  induction back generalizing front s with
  | nil => exact .inl ⟨s, .pure () s, .nil s⟩
  | cons l back ih =>
    have there : ls[front.length]? = some l := by simp [split]
    rw [List.length_cons, List.range'_succ, List.map_cons]
    cases heard : l ev s.world with
    | mk verdict world =>
      cases verdict with
      | error message =>
        refine .inr (.first (.notify there heard) (.bind (fails_onWorld world ?_) _) _)
        simp [heard, Except.mapError]
      | ok passed =>
        have done : Step.Done ls t action (.notify front.length ev) s { s with world } :=
          .notify there heard
        have ends : (onWorld fun w => ((l ev w).1.mapError (.listener ev.phase ·), (l ev w).2)).Ends
            s () { s with world } := ends_onWorld world (by simp [heard, Except.mapError])
        have onward := ih (front ++ [l]) (by simp [split]) { s with world }
        rw [List.length_append, List.length_singleton] at onward
        rcases onward with ⟨s', rest, trail⟩ | stops
        · exact .inl ⟨s', ends.bind rest, .cons done trail⟩
        · exact .inr (stops.behind (.single done) ends)

theorem fire_cases (ls : Workflow σ) (t : TypeDescriptor) (action : Record → Action σ Record)
    (ev : Event) (s : Session σ) :
    (∃ s', (fire ev ls).Ends s () s' ∧ Trail ls t action (heard ls.length ev) s s') ∨
    Stops ls t action (heard ls.length ev) (fire ev ls) s := by
  unfold heard
  rw [List.range_eq_range']
  exact fire_from ev [] ls rfl s

/-- Up to the action, from an entity. -/
theorem prepare_cases (ls : Workflow σ) (t : TypeDescriptor) (action : Record → Action σ Record)
    (e : Entity) (s : Session σ) :
    (∃ r s', (prepare ls t e).Ends s r s' ∧ Trail ls t action (before ls.length e r) s s') ∨
    ∃ r, Stops ls t action (before ls.length e r) (prepare ls t e) s := by
  obtain ⟨s₁, announced, trail₁⟩ | stops := fire_cases ls t action (.preEntity e) s
  swap
  · exact .inr ⟨.empty "", (stops.append _).bind _⟩
  cases recorded : t.toRecord e with
  | error failure =>
    have fails := (fails_ofExcept recorded s₁).bind fun r => do fire (.preRecord r) ls; pure r
    exact .inr ⟨.empty "", .behind trail₁ announced (.first (.write recorded s₁) fails _)⟩
  | ok r =>
    have written : Trail ls t action [.write e r] s₁ s₁ := .single (.write recorded s₁)
    have converted := ends_ofExcept recorded s₁
    rcases fire_cases ls t action (.preRecord r) s₁ with ⟨s₂, shown, trail₂⟩ | stops
    · exact .inl ⟨r, s₂, announced.bind (converted.bind (shown.bind (.pure r s₂))),
        trail₁.append (written.append trail₂)⟩
    · exact .inr ⟨r, .behind trail₁ announced (.behind written converted (stops.bind _))⟩

/-- Behind the action, from the record it returned. Where nothing is read from it, any entity
stands for what would have been. -/
theorem complete_cases (e : Entity) (stored : Record) (s : Session σ) :
    (∃ e' s', (complete ls t stored).Ends s e' s' ∧
      Trail ls t action (after ls.length stored e') s s') ∨
    ∃ e', Stops ls t action (after ls.length stored e') (complete ls t stored) s := by
  obtain ⟨s₁, announced, trail₁⟩ | stops := fire_cases ls t action (.postRecord stored) s
  swap
  · exact .inr ⟨e, (stops.append _).bind _⟩
  cases read : t.toEntity stored with
  | error failure =>
    have fails := (fails_ofExcept read s₁).bind fun e => do fire (.postEntity e) ls; pure e
    exact .inr ⟨e, .behind trail₁ announced (.first (.read read s₁) fails _)⟩
  | ok e' =>
    have converted := ends_ofExcept read s₁
    have done : Trail ls t action [.read stored e'] s₁ s₁ := .single (.read read s₁)
    rcases fire_cases ls t action (.postEntity e') s₁ with ⟨s₂, shown, trail₂⟩ | stops
    · exact .inl ⟨e', s₂, announced.bind (converted.bind (shown.bind (.pure e' s₂))),
        trail₁.append (done.append trail₂)⟩
    · exact .inr ⟨e', .behind trail₁ announced (.behind done converted (stops.bind _))⟩

theorem flowWith_cases (ls : Workflow σ) (t : TypeDescriptor) (e : Entity)
    (action : Record → Action σ Record) (s : Session σ) :
    (∃ r stored e' s', (flowWith ls t e action).Ends s e' s' ∧
      Trail ls t action (schedule ls.length e r stored e') s s') ∨
    ∃ r stored e', Stops ls t action (schedule ls.length e r stored e') (flowWith ls t e action) s
    := by
  obtain ⟨r, s₁, prepared, trail₁⟩ | ⟨r, stops⟩ := prepare_cases ls t action e s
  swap
  · exact .inr ⟨r, r, e, (stops.append _).bind _⟩
  cases ran : (action r).run.run s₁ with
  | mk outcome s₂ =>
    cases outcome with
    | error failure =>
      have fails : (action r).Fails s₁ failure s₂ := ran
      exact .inr ⟨r, r, e, .behind trail₁ prepared (.first (.act fails) (fails.bind _) _)⟩
    | ok stored =>
      have ends : (action r).Ends s₁ stored s₂ := ran
      have acted : Trail ls t action [.act r stored] s₁ s₂ := .single (.act ends)
      rcases complete_cases e stored s₂ with ⟨e', s₃, completed, trail₃⟩ | ⟨e', stops⟩
      · exact .inl ⟨r, stored, e', s₃, prepared.bind (ends.bind completed),
          trail₁.append (acted.append trail₃)⟩
      · exact .inr ⟨r, stored, e', .behind trail₁ prepared (.behind acted ends stops)⟩

section

variable {journal : σ → List Note} {s s' : Session σ} {step : Step} {steps : List Step}

theorem Step.Done.journaled (done : step.Done ls t action s s')
    (kept : Journaled ls action journal) :
    journal s'.world = journal s.world ++ step.note?.toList := by
  cases done with
  | @notify place l ev s world there passes =>
    have noted := kept.heard place l there ev s.world
    rwa [passes] at noted
  | @act given stored s s' ends =>
    have noted := kept.acted given s
    rwa [ends] at noted
  | write | read => exact (List.append_nil _).symm

theorem Step.Broken.journaled {failure : Failure} (broken : step.Broken ls t action s failure s')
    (kept : Journaled ls action journal) :
    journal s'.world = journal s.world ++ step.note?.toList := by
  cases broken with
  | @notify place l ev s world message there refuses =>
    have noted := kept.heard place l there ev s.world
    rwa [refuses] at noted
  | @act given stored failure s s' fails =>
    have noted := kept.acted given s
    rwa [fails] at noted
  | write | read => exact (List.append_nil _).symm

theorem Trail.journaled (trail : Trail ls t action steps s s')
    (kept : Journaled ls action journal) :
    journal s'.world = journal s.world ++ steps.filterMap Step.note? := by
  induction trail with
  | nil s => exact (List.append_nil _).symm
  | @cons step steps s s₁ s' done _ ih =>
    rw [ih, done.journaled kept, List.append_assoc]
    cases noted : step.note? <;> simp [noted]

theorem Step.Broken.of_notify {place : Nat} {ev : Event} {failure : Failure}
    (broken : (Step.notify place ev).Broken ls t action s failure s') :
    ∃ message, failure = .listener ev.phase message := by
  cases broken with
  | notify there refuses => exact ⟨_, rfl⟩

end

theorem countP_heard (count : Nat) (ev : Event) : (heard count ev).countP Step.isAct = 0 := by
  rw [List.countP_eq_zero]
  intro step mem
  obtain ⟨place, -, rfl⟩ := List.mem_map.mp mem
  exact Bool.false_ne_true

theorem countP_before (count : Nat) (e : Entity) (r : Record) :
    (before count e r).countP Step.isAct = 0 := by
  simp [before, countP_heard, Step.isAct]

theorem countP_after (count : Nat) (stored : Record) (e' : Entity) :
    (after count stored e').countP Step.isAct = 0 := by
  simp [after, countP_heard, Step.isAct]

/-- The schedule has one step that acts, and it comes with all that stand before it. -/
theorem countP_take_schedule (count : Nat) (e : Entity) (r stored : Record) (e' : Entity)
    (n : Nat) :
    ((schedule count e r stored e').take n).countP Step.isAct =
      if (before count e r).length < n then 1 else 0 := by
  have none_of_take : ∀ {steps : List Step} (m : Nat), steps.countP Step.isAct = 0 →
      (steps.take m).countP Step.isAct = 0 := by
    intro steps m none
    exact Nat.le_zero.mp (none ▸ (List.take_sublist m steps).countP_le)
  rw [schedule, List.take_append, List.countP_append, none_of_take n (countP_before count e r)]
  split
  next behind =>
    obtain ⟨m, gap⟩ := Nat.exists_eq_add_of_lt behind
    rw [gap, Nat.add_assoc, Nat.add_sub_cancel_left, List.take_succ_cons, List.countP_cons,
      none_of_take m (countP_after count stored e')]
    rfl
  next ahead =>
    rw [Nat.sub_eq_zero_of_le (Nat.le_of_not_lt ahead)]
    rfl

/-- Of what is taken up, the step that breaks included, at most one step acts, and one does if all
that stand before it are done. -/
theorem countP_carried {count : Nat} {e e' : Entity} {r stored : Record} {done rest : List Step}
    (split : schedule count e r stored e' = done ++ rest) :
    (done ++ rest.take 1).countP Step.isAct ≤ 1 ∧
      ((done ++ rest.take 1).countP Step.isAct = 1 ↔ before count e r <+: done) := by
  have carried : done ++ rest.take 1 = (schedule count e r stored e').take (done.length + 1) := by
    rw [split, List.take_length_add_append]
  have ahead : before count e r <+: schedule count e r stored e' := List.prefix_append _ _
  rw [split] at ahead
  have reached : before count e r <+: done ↔ (before count e r).length < done.length + 1 := by
    rw [Nat.lt_succ_iff]
    exact ⟨List.IsPrefix.length_le,
      List.prefix_of_prefix_length_le ahead (List.prefix_append done rest)⟩
  rw [carried, countP_take_schedule, reached]
  split <;> simp_all

/-- A run takes the steps of one schedule in turn. Where all are done it gives the entity read
last, otherwise the failure of the first that breaks, and behind that one nothing happens. The
action runs at most once, and it does so if all the steps before it are done. -/
theorem flowWith_schedule (ls : Workflow σ) (t : TypeDescriptor) (e : Entity)
    (action : Record → Action σ Record) (s : Session σ) :
    ∃ r stored e' done rest outcome s₁ s',
      schedule ls.length e r stored e' = done ++ rest ∧
      Trail ls t action done s s₁ ∧
      (flowWith ls t e action).run.run s = (outcome, s') ∧
      (rest = [] ∧ outcome = .ok e' ∧ s' = s₁ ∨
        ∃ step later failure, rest = step :: later ∧ outcome = .error failure ∧
          step.Broken ls t action s₁ failure s' ∧
          ∀ place ev, step = .notify place ev → failure.kind = .hook ∧
            ∃ message, failure.message =
              "Persist listener failed at " ++ ev.phase.name ++ ": " ++ message) ∧
      (done ++ rest.take 1).countP Step.isAct ≤ 1 ∧
      ((done ++ rest.take 1).countP Step.isAct = 1 ↔ before ls.length e r <+: done) ∧
      ∀ journal, Journaled ls action journal →
        journal s'.world = journal s.world ++ (done ++ rest.take 1).filterMap Step.note? := by
  rcases flowWith_cases ls t e action s with
    ⟨r, stored, e', s', ends, trail⟩ |
    ⟨r, stored, e', done, step, later, failure, s₁, s', split, trail, broken, fails⟩
  · have whole : schedule ls.length e r stored e' = schedule ls.length e r stored e' ++ [] :=
      (List.append_nil _).symm
    refine ⟨r, stored, e', _, [], .ok e', s', s', whole, trail, ends, .inl ⟨rfl, rfl, rfl⟩,
      (countP_carried whole).1, (countP_carried whole).2, fun journal kept => ?_⟩
    rw [List.take_nil, List.append_nil]
    exact trail.journaled kept
  · refine ⟨r, stored, e', done, step :: later, .error failure, s₁, s', split, trail, fails,
      .inr ⟨step, later, failure, rfl, rfl, broken, ?_⟩, (countP_carried split).1,
      (countP_carried split).2, fun journal kept => ?_⟩
    · rintro place ev rfl
      obtain ⟨message, rfl⟩ := broken.of_notify
      exact ⟨rfl, message, rfl⟩
    · rw [broken.journaled kept, trail.journaled kept, List.append_assoc]
      cases noted : step.note? <;> simp [noted]

end RecordMapper.Workflow
