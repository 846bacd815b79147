import StagedWorkflow.Proofs.Overlay
import StagedWorkflow.Proofs.Routine

/-!
# Logging does not interfere

Whichever logger an execution is given, it comes to the same: the same
outcome, workflow, stores and tokens, the same calls of actions, and the same
records, sent to that logger and to no other (`Runner.same_for_any_logger`).
The reason is that a run, and routines around it, never look at the logger or
at the journal, so that everything they do is the same if the journal is told
otherwise (`Routine.course_relay`). An execution from some journal with some
logger is therefore the one from an empty journal with a fixed logger, told
for the logger and after what was there (`addressed`).
-/

namespace StagedWorkflow

variable {β : Type}

/-! ## Programs with what they tell, also if they do not end -/

namespace Program

variable {S : Signature} {α γ ε : Type}

/-- Follows a program, with the words of the answers one after another, up to
the first request that is not answered. -/
def trace (answer : (r : S.Request) → Option (S.Answer r) × List ε) :
    Program S α → Option α × List ε
  | .done a => (some a, [])
  | .ask r next =>
    match answer r with
    | (none, word) => (none, word)
    | (some a, word) =>
      let (b, more) := (next a).trace answer
      (b, word ++ more)

variable {answer : (r : S.Request) → Option (S.Answer r) × List ε} {p : Program S α}

/-- **Tracing is following**, but for the word. -/
theorem fst_trace : (p.trace answer).1 = p.follow fun r => (answer r).1 := by
  induction p with
  | done => rfl
  | ask r next ih =>
    rw [trace, follow]
    rcases answer r with ⟨status, word⟩
    cases status with
    | none => rfl
    | some a => exact ih a

/-- What is made of the result in the end tells nothing. -/
theorem trace_bind_done {f : α → γ} :
    (p >>= fun a => .done (f a)).trace answer =
      ((p.trace answer).1.map f, (p.trace answer).2) := by
  induction p with
  | done => rfl
  | ask r next ih =>
    rw [ask_bind, trace, trace]
    rcases answer r with ⟨status, word⟩
    cases status with
    | none => rfl
    | some a => simp only [ih]

end Program

/-! ## The course of an execution -/

/-- What an execution comes to, if it ends, and the actions that it calls. -/
abbrev Course (β : Type) := Option (Run.Result β) × List (Call β)

/-- The course of a run. -/
def Run.course (behave : Action β → Behaviour β) (steps : Nat) (x : Execution β) : Course β :=
  (run ⟨x.token, x.logger, behave⟩ steps x.workflow x.world,
    calls ⟨x.token, x.logger, behave⟩ steps x.workflow x.world)

namespace Routine

/-- The course of a run with routines around it, the first outermost. -/
def course (behave : Action β → Behaviour β) (steps : Nat) :
    List (Routine β) → Execution β → Course β
  | [], x => Run.course behave steps x
  | routine :: inner, x => (routine.conduct x).trace (course behave steps inner)

variable {behave : Action β → Behaviour β} {steps : Nat} {routines : List (Routine β)}
  {x : Execution β}

/-- **A course comes to what the routines come to as middleware.** -/
theorem fst_course :
    (course behave steps routines x).1 =
      (Middleware.compose (.stages behave steps) (routines.map middleware)).exec x := by
  induction routines generalizing x with
  | nil => rfl
  | cons routine inner ih =>
    have inside : (fun y => (course behave steps inner y).1) =
        (Middleware.compose (.stages behave steps) (inner.map middleware)).exec :=
      funext fun y => ih
    rw [course, Program.fst_trace, inside]
    rfl

end Routine

/-! ## Telling for another logger -/

/-- That a telling of journals takes what is sent to a logger for the same
sent to another, and leaves all else as it is. -/
structure Relays (old new : Logger) (tell : List Event → List Event) : Prop where
  sent : ∀ journal record,
    tell (journal ++ [.logged old record]) = tell journal ++ [.logged new record]
  kept : ∀ journal event, event.isRecord = false →
    tell (journal ++ [event]) = tell journal ++ [event]

theorem Relays.tells {old new : Logger} {tell : List Event → List Event}
    (relays : Relays old new tell) : Tells old new tell :=
  ⟨relays.sent, fun journal who answer => relays.kept journal (.reported who answer) rfl⟩

/-- An execution for another logger, with the journal told otherwise. -/
def Execution.relay (new : Logger) (tell : List Event → List Event) (x : Execution β) :
    Execution β :=
  ⟨x.token, new, x.workflow, x.world.retell tell⟩

/-- A course with its journals told otherwise. -/
def Course.relay (tell : List Event → List Event) (course : Course β) : Course β :=
  (course.1.map (Run.Result.retell tell), course.2.map (Call.retell tell))

namespace Routine

variable {behave : Action β → Behaviour β} {steps : Nat} {routines : List (Routine β)}
  {x : Execution β} {old new : Logger} {tell : List Event → List Event}

/-- **A program of a routine does the same however the journal is told**, if
that is so of what is inside. -/
theorem trace_interpret {α : Type} (relays : Relays old new tell)
    {inside : Execution β → Course β}
    (same : ∀ y, y.logger = old → inside (y.relay new tell) = (inside y).relay tell)
    {p : Program (signature β) α} {journal : List Event} :
    (interpret new p (tell journal)).trace inside =
      (((interpret old p journal).trace inside).1.map fun (a, journal) => (a, tell journal),
        ((interpret old p journal).trace inside).2.map (Call.retell tell)) := by
  induction p generalizing journal with
  | done => rfl
  | ask r next ih =>
    cases r with
    | send record =>
      rw [interpret, interpret, ← relays.sent]
      exact ih ()
    | tell remark =>
      rw [interpret, interpret, ← relays.kept journal remark.1 remark.2]
      exact ih ()
    | call token view =>
      have called : inside ⟨token, new, view.workflow, view.world (tell journal)⟩ =
          (inside ⟨token, old, view.workflow, view.world journal⟩).relay tell :=
        same ⟨token, old, view.workflow, view.world journal⟩ rfl
      rw [interpret, interpret, Program.trace, Program.trace, called]
      rcases inside ⟨token, old, view.workflow, view.world journal⟩ with ⟨status, word⟩
      cases status with
      | none => rfl
      | some result =>
        have rest := @ih (.of result.workflow result.world, result.outcome) result.world.journal
        have sees : View.of (result.retell tell).workflow (result.retell tell).world =
            .of result.workflow result.world := rfl
        have told : (result.retell tell).world.journal = tell result.world.journal := rfl
        have ended : (result.retell tell).outcome = result.outcome := rfl
        simp only [Course.relay, Option.map_some, sees, told, ended, rest, List.map_append]

/-- **The course of an execution is the same however the journal is told.** -/
theorem course_relay (relays : Relays x.logger new tell) :
    course behave steps routines (x.relay new tell) =
      (course behave steps routines x).relay tell := by
  induction routines generalizing x with
  | nil =>
    rw [course, course, Run.course, Run.course, Course.relay]
    refine Prod.ext ?_ ?_
    · exact Run.run_retell (c := ⟨x.token, x.logger, behave⟩) relays.tells
    · exact Run.calls_retell (c := ⟨x.token, x.logger, behave⟩) relays.tells
  | cons routine inner ih =>
    have inside (y : Execution β) (same : y.logger = x.logger) :
        course behave steps inner (y.relay new tell) =
          (course behave steps inner y).relay tell := ih (same ▸ relays)
    have sees : View.of (x.relay new tell).workflow (x.relay new tell).world =
        .of x.workflow x.world := rfl
    rw [course, course, conduct, conduct, sees]
    -- what a routine ends with is put together in the last step
    let put (last : (View β × Outcome) × List Event) : Run.Result β :=
      ⟨last.1.1.workflow, last.1.1.world last.2, last.1.2⟩
    let p := routine x.token (.of x.workflow x.world)
    show (interpret new p (tell x.world.journal) >>= fun last => .done (put last)).trace _ =
      Course.relay tell
        ((interpret x.logger p x.world.journal >>= fun last => .done (put last)).trace _)
    rw [Program.trace_bind_done, Program.trace_bind_done, trace_interpret relays inside]
    simp only [Course.relay, Option.map_map]
    rfl

end Routine

/-! ## What is told to whom -/

/-- The event, with the record in it sent to a logger. -/
def Event.sentTo (logger : Logger) : Event → Event
  | logged _ record => .logged logger record
  | other => other

/-- What a logger is sent by an event, as level and text. -/
def Event.sent? (logger : Logger) : Event → Option (Level × String)
  | logged own record => if own = logger then some (record.level, record.message) else none
  | _ => none

/-- What a logger has been sent, in order. -/
def World.sent (w : World) (logger : Logger) : List (Level × String) :=
  w.journal.filterMap (Event.sent? logger)

/-- A journal after what was there, told for a logger. -/
def addressed (before : List Event) (logger : Logger) (told : List Event) : List Event :=
  before ++ told.map (Event.sentTo logger)

theorem relays_addressed {old new : Logger} {before : List Event} :
    Relays old new (addressed before new) where
  sent journal record := by simp [addressed, Event.sentTo]
  kept journal event other := by
    have same : event.sentTo new = event := by
      cases event with
      | logged => cases other
      | reported | entered | noted | returned | left => rfl
    simp [addressed, same]

/-- Other loggers are sent nothing. -/
theorem filterMap_sent?_of_ne {logger other : Logger} (ne : other ≠ logger) {told : List Event} :
    (told.map (Event.sentTo logger)).filterMap (Event.sent? other) = [] := by
  refine List.filterMap_eq_nil_iff.mpr fun event mem => ?_
  obtain ⟨event, -, rfl⟩ := List.mem_map.mp mem
  cases event with
  | logged own record => exact if_neg ne.symm
  | reported | entered | noted | returned | left => rfl

/-- **Whoever is told is sent the same.** -/
theorem filterMap_sent?_self {a b : Logger} {told : List Event} :
    (told.map (Event.sentTo a)).filterMap (Event.sent? a) =
      (told.map (Event.sentTo b)).filterMap (Event.sent? b) := by
  rw [List.filterMap_map, List.filterMap_map]
  refine List.filterMap_congr fun event _ => ?_
  cases event with
  | logged own record => exact (if_pos rfl).trans (if_pos rfl).symm
  | reported | entered | noted | returned | left => rfl

/-- **That two worlds have come of one, and tell the same to two loggers.** -/
structure World.TellsSame (before : World) (a b : Logger) (w v : World) : Prop where
  heap : w.heap = v.heap
  signals : w.signals = v.signals
  /-- The same has been told, with records for one logger or the other. -/
  told : ∃ told, w.journal = addressed before.journal a told ∧
    v.journal = addressed before.journal b told
  /-- So both have been sent the same. -/
  sent : ∃ records, w.sent a = before.sent a ++ records ∧ v.sent b = before.sent b ++ records
  /-- And no other has been sent anything. -/
  others : ∀ other, (other ≠ a → w.sent other = before.sent other) ∧
    (other ≠ b → v.sent other = before.sent other)

/-- What is told from an empty journal on can be told for either. -/
theorem World.tellsSame_retell (before : World) (a b : Logger) (w : World) :
    before.TellsSame a b (w.retell (addressed before.journal a))
      (w.retell (addressed before.journal b)) where
  heap := rfl
  signals := rfl
  told := ⟨w.journal, rfl, rfl⟩
  sent := by
    refine ⟨(w.journal.map (Event.sentTo a)).filterMap (Event.sent? a), ?_, ?_⟩
    · exact List.filterMap_append
    · rw [filterMap_sent?_self (b := b)]
      exact List.filterMap_append
  others other := by
    constructor <;> intro ne
    all_goals
      rw [sent, retell, addressed, List.filterMap_append, filterMap_sent?_of_ne ne, List.append_nil]
      rfl

/-- That two runs have ended the same, and told the same to two loggers. -/
structure Run.Result.SameBut (before : World) (a b : Logger) (x y : Result β) : Prop where
  outcome : x.outcome = y.outcome
  workflow : x.workflow = y.workflow
  world : before.TellsSame a b x.world y.world

theorem Run.Result.SameBut.summary_eq {before : World} {a b : Logger} {x y : Result β}
    (same : x.SameBut before a b y) : x.summary = y.summary := by
  rw [summary, summary, same.workflow, same.outcome]

/-- That two stages have been executed the same. -/
structure Pass.Result.SameBut (before : World) (a b : Logger) (x y : Result β) : Prop where
  outcome : x.outcome = y.outcome
  site : x.site = y.site
  world : before.TellsSame a b x.world y.world

/-- A call without what was in the journal. -/
def Call.quiet (call : Call β) : Call β :=
  call.retell fun _ => []

/-- Calls are the same however the journal is told. -/
theorem Call.map_quiet_retell {tell tell' : List Event → List Event} {calls : List (Call β)} :
    (calls.map (Call.retell tell)).map Call.quiet =
      (calls.map (Call.retell tell')).map Call.quiet := by
  rw [List.map_map, List.map_map]
  rfl

/-- What comes of a result that is told in two ways. -/
theorem rel_map {ρ ω : Type} {S : ω → ω → Prop} {f g : ρ → ω} (related : ∀ r, S (f r) (g r))
    (o : Option ρ) : Option.Rel S (o.map f) (o.map g) := by
  cases o with
  | none => exact .none
  | some r => exact .some (related r)

namespace Routine

variable (behave : Action β → Behaviour β) (steps : Nat) (routines : List (Routine β))

/-- **From one start, told for two loggers**, an execution takes the same
course. -/
theorem course_sameBut (x : Execution β) (before : World) (a b : Logger) :
    Option.Rel (Run.Result.SameBut before a b)
        (course behave steps routines (x.relay a (addressed before.journal a))).1
        (course behave steps routines (x.relay b (addressed before.journal b))).1 ∧
      (course behave steps routines (x.relay a (addressed before.journal a))).2.map Call.quiet =
        (course behave steps routines (x.relay b (addressed before.journal b))).2.map
          Call.quiet := by
  rw [course_relay relays_addressed, course_relay relays_addressed]
  refine ⟨rel_map (fun result => ⟨rfl, rfl, ?_⟩) _, Call.map_quiet_retell⟩
  exact World.tellsSame_retell before a b result.world

end Routine

namespace World

/-- A world with nothing in its journal. -/
def blank (w : World) : World :=
  { w with journal := [] }

/-- Every world is told after what was in its journal. -/
theorem retell_blank {w : World} {logger : Logger} :
    w.blank.retell (addressed w.journal logger) = w := by
  simp [blank, retell, addressed]

end World

/-- Options are merged the same for every logger. -/
theorem Runner.mergeOptions_retell {old new : Logger} {tell : List Event → List Event}
    (tells : Tells old new tell) {initial : StoreId} {workflow : Workflow β} {world : World} :
    mergeOptions new initial workflow (world.retell tell) =
      (mergeOptions old initial workflow world).retell tell := by
  have same : (world.retell tell).heap = world.heap := rfl
  simp only [mergeOptions, same, World.ask_retell]
  split
  · rfl
  · rw [World.retell_notify tells]

/-- The execution that options lead to, for a runner with a logger. -/
def RunOptions.execution (options : RunOptions) (own : Logger) (workflow : Workflow β)
    (world : World) : Execution β :=
  ⟨options.token, options.logger.getD own, workflow, options.begun own workflow world⟩

namespace Runner

section

variable (behave : Action β → Behaviour β) (steps : Nat) (routines : List (Routine β))
  (workflow : Workflow β) (world : World)

/-- **A workflow is executed the same for two loggers.** -/
theorem course_execute (token : Token) (a b : Logger) :
    Option.Rel (Run.Result.SameBut world a b)
        (Routine.course behave steps routines ⟨token, a, workflow, world⟩).1
        (Routine.course behave steps routines ⟨token, b, workflow, world⟩).1 ∧
      (Routine.course behave steps routines ⟨token, a, workflow, world⟩).2.map Call.quiet =
        (Routine.course behave steps routines ⟨token, b, workflow, world⟩).2.map Call.quiet := by
  -- any logger does to begin with
  let x : Execution β := ⟨token, .discard, workflow, world.blank⟩
  have begins (logger : Logger) :
      x.relay logger (addressed world.journal logger) = ⟨token, logger, workflow, world⟩ := by
    rw [Execution.relay, World.retell_blank]
  have same := Routine.course_sameBut behave steps routines x world a b
  rwa [begins, begins] at same

/-- **And with options**, whose logger goes before that of the runner. -/
theorem course_executeWith (token : Token) (initial : StoreId) (own own' : Logger)
    (logger logger' : Option Logger) :
    let x := (⟨logger, token, initial⟩ : RunOptions).execution own workflow world
    let y := (⟨logger', token, initial⟩ : RunOptions).execution own' workflow world
    Option.Rel (Run.Result.SameBut world (logger.getD own) (logger'.getD own'))
        (Routine.course behave steps routines x).1 (Routine.course behave steps routines y).1 ∧
      (Routine.course behave steps routines x).2.map Call.quiet =
        (Routine.course behave steps routines y).2.map Call.quiet := by
  intro x y
  let z : Execution β :=
    ⟨token, .discard, workflow, mergeOptions .discard initial workflow world.blank⟩
  have begins (logger : Option Logger) (own : Logger) :
      z.relay (logger.getD own) (addressed world.journal (logger.getD own)) =
        (⟨logger, token, initial⟩ : RunOptions).execution own workflow world := by
    rw [Execution.relay, ← mergeOptions_retell relays_addressed.tells, World.retell_blank]
    rfl
  have same := Routine.course_sameBut behave steps routines z world (logger.getD own)
    (logger'.getD own')
  rwa [begins, begins] at same

/-- **A stage is executed the same for two loggers.** -/
theorem executeStage_sameBut (token : Token) (a b : Logger) (stage : Stage β) :
    Option.Rel (Pass.Result.SameBut world a b)
        (executeStage ⟨token, a, behave⟩ steps stage workflow world)
        (executeStage ⟨token, b, behave⟩ steps stage workflow world) ∧
      (stageCalls ⟨token, a, behave⟩ steps stage workflow world).map Call.quiet =
        (stageCalls ⟨token, b, behave⟩ steps stage workflow world).map Call.quiet := by
  let c : Setting β := ⟨token, .discard, behave⟩
  have tells (logger : Logger) : Tells c.logger logger (addressed world.journal logger) :=
    relays_addressed.tells
  have executes (logger : Logger) :
      executeStage ⟨token, logger, behave⟩ steps stage workflow world =
        (executeStage c steps stage workflow world.blank).map
          (Pass.Result.retell (addressed world.journal logger)) := by
    have retold : executeStage ⟨token, logger, behave⟩ steps stage workflow
        (world.blank.retell (addressed world.journal logger)) = _ := Pass.run_retell (tells logger)
    rwa [World.retell_blank] at retold
  have calls (logger : Logger) :
      stageCalls ⟨token, logger, behave⟩ steps stage workflow world =
        (stageCalls c steps stage workflow world.blank).map
          (Call.retell (addressed world.journal logger)) := by
    have retold : stageCalls ⟨token, logger, behave⟩ steps stage workflow
        (world.blank.retell (addressed world.journal logger)) = _ :=
      stageCalls_retell (tells logger)
    rwa [World.retell_blank] at retold
  rw [executes, executes, calls, calls]
  refine ⟨rel_map (fun result => ⟨rfl, rfl, ?_⟩) _, Call.map_quiet_retell⟩
  exact World.tellsSame_retell world a b result.world

end

/-- **Logging does not interfere.** Let a runner have any routines as its
layers. Executing a workflow, executing it with options and executing a single
stage take the same course with one logger or another: both end, or both run
out of steps; the outcome, the workflow, the stores and the tokens are the
same in the end, and the actions called are the same, with the same to see
each time. The records told are the same, in level and text, and all are sent
to the logger given; with options that is theirs if they have one, and else
the runner's, and no other logger is sent any. Routines are the layer that
reports how long a run took, and every layer that passes its logger on and is
given by parts, as those are that a session describes. -/
theorem same_for_any_logger (behave : Action β → Behaviour β) (steps : Nat)
    (routines : List (Routine β)) :
    let runner (own : Logger) : Runner β := ⟨own, routines.map Routine.middleware⟩
    let course := Routine.course behave steps routines
    (∀ own x, (course x).1 = ((runner own).execute (.stages behave steps)).exec x) ∧
    (∀ own own' a b token workflow world,
      Option.Rel (Run.Result.SameBut world a b)
        ((runner own).execute (.stages behave steps) token a workflow world)
        ((runner own').execute (.stages behave steps) token b workflow world) ∧
      (course ⟨token, a, workflow, world⟩).2.map Call.quiet =
        (course ⟨token, b, workflow, world⟩).2.map Call.quiet) ∧
    (∀ own own' logger logger' token initial workflow world,
      let options : RunOptions := ⟨logger, token, initial⟩
      let options' : RunOptions := ⟨logger', token, initial⟩
      Option.Rel (fun first second => first.1 = second.1 ∧
          first.2.SameBut world (logger.getD own) (logger'.getD own') second.2)
        ((runner own).executeWith (.stages behave steps) options workflow world)
        ((runner own').executeWith (.stages behave steps) options' workflow world) ∧
      (course (options.execution own workflow world)).2.map Call.quiet =
        (course (options'.execution own' workflow world)).2.map Call.quiet) ∧
    (∀ a b token stage workflow world,
      Option.Rel (Pass.Result.SameBut world a b)
        (executeStage ⟨token, a, behave⟩ steps stage workflow world)
        (executeStage ⟨token, b, behave⟩ steps stage workflow world) ∧
      (stageCalls ⟨token, a, behave⟩ steps stage workflow world).map Call.quiet =
        (stageCalls ⟨token, b, behave⟩ steps stage workflow world).map Call.quiet) ∧
    Routine.timing.middleware = Middleware.timing (β := β) ∧
    (∀ l : Routine.Parts β, l.routine.middleware = l.layer.middleware) ∧
    ∀ (defs : Script.Definitions) (l : Session.LayerSpec),
      (l.parts defs).layer = { l with logger := none }.build defs := by
  intro runner course
  have executes (own : Logger) (x : Execution β) :
      (course x).1 = ((runner own).execute (.stages behave steps)).exec x := Routine.fst_course
  refine ⟨executes, fun own own' a b token workflow world => ?_, ?_,
    fun a b token stage workflow world =>
      executeStage_sameBut behave steps workflow world token a b stage,
    Routine.middleware_timing, fun l => ?_, fun defs l => Session.LayerSpec.layer_parts⟩
  · have same := course_execute behave steps routines workflow world token a b
    rw [executes own, executes own'] at same
    exact same
  · intro own own' logger logger' token initial workflow world options options'
    obtain ⟨results, calls⟩ :=
      course_executeWith behave steps routines workflow world token initial own own' logger logger'
    refine ⟨?_, calls⟩
    have summarizes (own : Logger) (options : RunOptions) :
        (runner own).executeWith (.stages behave steps) options workflow world =
          (course (options.execution own workflow world)).1.map fun result =>
            (result.summary, result) := by
      rw [executes own]
      rfl
    rw [summarizes, summarizes]
    change Option.Rel _ (course (options.execution own workflow world)).1
      (course (options'.execution own' workflow world)).1 at results
    generalize (course (options.execution own workflow world)).1 = ended at results ⊢
    generalize (course (options'.execution own' workflow world)).1 = ended' at results ⊢
    cases results with
    | none => exact .none
    | some same => exact .some ⟨same.summary_eq, same⟩
  · rw [Routine.middleware, Routine.Parts.conduct_routine, Layer.middleware_conduct]

-- options that bring a logger: the one of the runner is sent nothing
example :
    ((⟨.facade, [Middleware.timing]⟩ : Runner Sample.Code).executeWith (.stages Sample.behave 4)
      ⟨some .recorder, ⟨0, none⟩, 1⟩ (Sample.workflow .rest) Sample.world).map
        (fun ran => (ran.2.world.sent .facade, (ran.2.world.sent .recorder).map Prod.fst)) =
      some ([], [.info, .info, .debug, .info, .info, .info]) := by decide

end Runner

end StagedWorkflow
