import StagedWorkflow.Proofs.Routine

/-!
# Layers that do not read the log back

A layer can pass on any token and any logger, and send records to any of them,
without ever reading back what has been logged. Such a layer is a `Wrapper`: a
program that is given a task, which is all there is of an execution besides
the journal, and can ask for two things only, to have a task executed inside
and to have an event written down. The journal is carried along when the
program is interpreted (`Wrapper.interpret`), which makes a middleware of it.

A routine is a wrapper that sends its records to the logger it was given, and
passes on that logger (`Wrapper.conduct_ofRoutine`) or one of its own
(`Wrapper.conduct_ofParts`). So every layer that a session describes is one
(`Session.MiddlewareSpec.middleware_wrapper`).
-/

namespace StagedWorkflow

variable {α β γ : Type}

/-- What an executor is given, besides the journal. -/
structure Task (β : Type) where
  token : Token
  logger : Logger
  view : View β

namespace Task

/-- The task of an execution. -/
def of (x : Execution β) : Task β :=
  ⟨x.token, x.logger, .of x.workflow x.world⟩

/-- The execution of a task, from a journal on. -/
def execution (task : Task β) (journal : List Event) : Execution β :=
  ⟨task.token, task.logger, task.view.workflow, task.view.world journal⟩

end Task

/-- What an executor comes to, besides the journal. -/
structure Ending (β : Type) where
  view : View β
  outcome : Outcome

namespace Ending

/-- What there is of a result besides the journal. -/
def of (result : Run.Result β) : Ending β :=
  ⟨.of result.workflow result.world, result.outcome⟩

/-- The result, with a journal. -/
def result (ending : Ending β) (journal : List Event) : Run.Result β :=
  ⟨ending.view.workflow, ending.view.world journal, ending.outcome⟩

end Ending

namespace Wrapper

/-- What a wrapper can ask for. -/
inductive Request (β : Type) where
  /-- To execute a task inside. -/
  | call (task : Task β)
  /-- To write an event down. -/
  | write (event : Event)

/-- What a request is answered with. -/
abbrev Answer : Request β → Type
  | .call _ => Ending β
  | .write _ => Unit

/-- The requests of a wrapper with their answers. -/
abbrev signature (β : Type) : Signature := ⟨Request β, Answer⟩

end Wrapper

/-- **A layer that does not read the log back**: what it does for a task. -/
abbrev Wrapper (β : Type) := Task β → Program (Wrapper.signature β) (Ending β)

namespace Wrapper

/-- The program of calls that is meant: it carries the journal along. -/
def interpret : Program (signature β) α → List Event →
    Program (Execution.signature β) (α × List Event)
  | .done a, journal => .done (a, journal)
  | .ask (.call task) next, journal =>
    .ask (task.execution journal) fun result =>
      interpret (next (.of result)) result.world.journal
  | .ask (.write event) next, journal => interpret (next ()) (journal ++ [event])

/-- The conduct of a wrapper. -/
def conduct (wrapper : Wrapper β) : Conduct β := fun x => do
  let (ending, journal) ← interpret (wrapper (.of x)) x.world.journal
  pure (ending.result journal)

/-- The middleware that a wrapper is. -/
def middleware (wrapper : Wrapper β) : Middleware β :=
  wrapper.conduct.middleware

theorem interpret_bind_done {p : Program (signature β) α} {f : α → γ} {journal : List Event} :
    interpret (p >>= fun a => .done (f a)) journal =
      interpret p journal >>= fun (a, journal) => .done (f a, journal) := by
  induction p generalizing journal with
  | done => rfl
  | ask r next ih =>
    cases r with
    | call task => exact congrArg (Program.ask _) (funext fun result => ih _)
    | write event => exact ih _

/-! ## Routines are wrappers -/

/-- What a routine asks for: it calls with one logger, and sends to another. -/
def ofRequest (called given : Logger) : Routine.Request β → Request β
  | .call token view => .call ⟨token, called, view⟩
  | .send record => .write (.logged given record)
  | .tell remark => .write remark.1

/-- What it is answered with. -/
def toAnswer (called given : Logger) :
    (r : Routine.Request β) → Answer (ofRequest called given r) → Routine.Answer r
  | .call _ _, ending => (ending.view, ending.outcome)
  | .send _, answer | .tell _, answer => answer

/-- A routine as a wrapper, which calls with a logger of its own if it has
one. -/
def ofRoutine (own : Option Logger) (routine : Routine β) : Wrapper β := fun task => do
  let called := own.getD task.logger
  let (view, outcome) ← (routine task.token task.view).embed
    (T := signature β) (ofRequest called task.logger) (toAnswer called task.logger)
  pure ⟨view, outcome⟩

/-- The program with another logger in all its calls. -/
def relog (called : Logger) (p : Program (Execution.signature β) α) :
    Program (Execution.signature β) α :=
  p.embed (T := Execution.signature β) (fun x : Execution β => { x with logger := called })
    fun _ answer => answer

theorem relog_bind {called : Logger} {p : Program (Execution.signature β) α}
    {f : α → Program (Execution.signature β) γ} :
    relog called (p >>= f) = relog called p >>= fun a => relog called (f a) := by
  induction p with
  | done => rfl
  | ask x next ih => exact congrArg (Program.ask _) (funext ih)

/-- **The calls of a routine are the same as a wrapper**, but for the logger
that is passed on. -/
theorem interpret_embed {called given : Logger} {p : Program (Routine.signature β) α}
    {journal : List Event} :
    interpret (p.embed (T := signature β) (ofRequest called given) (toAnswer called given))
      journal = relog called (Routine.interpret given p journal) := by
  induction p generalizing journal with
  | done => rfl
  | ask r next ih =>
    cases r with
    | call token view => exact congrArg (Program.ask _) (funext fun result => ih _)
    | send record => exact ih _
    | tell remark => exact ih _

theorem conduct_ofRoutine_eq {own : Option Logger} {routine : Routine β} {x : Execution β} :
    (ofRoutine own routine).conduct x = relog (own.getD x.logger) (routine.conduct x) := by
  let called := own.getD x.logger
  let p := routine x.token (.of x.workflow x.world)
  -- what the routine has ended with is only put together otherwise
  have ended : interpret (ofRoutine own routine (.of x)) x.world.journal =
      relog called (Routine.interpret x.logger p x.world.journal) >>= fun (last, journal) =>
        .done (⟨last.1, last.2⟩, journal) := by
    rw [← interpret_embed]
    exact interpret_bind_done (f := fun last : View β × Outcome => (⟨last.1, last.2⟩ : Ending β))
  rw [conduct, ended, bind_assoc, Routine.conduct, relog_bind]
  rfl

/-- A program that passes its logger on does so anyway. -/
theorem relog_interpret {logger : Logger} {p : Program (Routine.signature β) α}
    {journal : List Event} :
    relog logger (Routine.interpret logger p journal) = Routine.interpret logger p journal := by
  induction p generalizing journal with
  | done => rfl
  | ask r next ih =>
    cases r with
    | call token view => exact congrArg (Program.ask _) (funext fun result => ih _)
    | send record => exact ih _
    | tell remark => exact ih _

/-- **A routine is a wrapper.** -/
theorem conduct_ofRoutine {routine : Routine β} :
    (ofRoutine none routine).conduct = routine.conduct := by
  funext x
  rw [conduct_ofRoutine_eq, Routine.conduct, relog_bind]
  exact congrArg (· >>= _) relog_interpret

section

variable {l : Layer β} {own called : Logger} {token : Token}

theorem relog_callsProgram (silent : l.logger = none) {calls : Nat} {last : Run.Result β} :
    { l with logger := some own }.callsProgram token called calls last =
      relog own (l.callsProgram token called calls last) := by
  have once (workflow : Workflow β) (world : World) :
      { l with logger := some own }.callProgram token called workflow world =
        relog own (l.callProgram token called workflow world) := by
    rw [Layer.callProgram, Layer.callProgram, silent]
    cases l.token <;> rfl
  induction calls generalizing last with
  | zero => rfl
  | succ calls ih =>
    rw [Layer.callsProgram, Layer.callsProgram, relog_bind, once]
    refine congrArg (Bind.bind _) (funext fun result => ?_)
    by_cases going : (result.outcome.isOk || l.keepGoing) = true
    · simp only [going, if_true]
      exact ih
    · simp only [going]
      rfl

/-- A layer that passes on a logger of its own calls as it would have done,
but for the logger. -/
theorem conduct_withLogger (silent : l.logger = none) {x : Execution β} :
    { l with logger := some own }.conduct x = relog own (l.conduct x) := by
  rw [Layer.conduct, Layer.conduct, relog_bind, ← relog_callsProgram silent]
  rfl

end

/-- **So is a layer given by the parts of a routine**, whichever logger it
passes on. -/
theorem conduct_ofParts {own : Option Logger} {l : Routine.Parts β} :
    (ofRoutine own l.routine).conduct = { l.layer with logger := own }.conduct := by
  cases own with
  | none => rw [conduct_ofRoutine, Routine.Parts.conduct_routine]; rfl
  | some own =>
    funext x
    rw [conduct_ofRoutine_eq, Routine.Parts.conduct_routine, conduct_withLogger rfl]
    rfl

/-- The layer that reports how long a run took. -/
def timing : Wrapper β :=
  ofRoutine none Routine.timing

theorem middleware_timing : timing.middleware = Middleware.timing (β := β) := by
  rw [middleware, timing, conduct_ofRoutine]
  exact Routine.middleware_timing

end Wrapper

namespace Session

/-- What a described middleware is as a wrapper. -/
def MiddlewareSpec.wrapper (defs : Script.Definitions) : MiddlewareSpec → Wrapper Script
  | timing => .timing
  | layer spec => .ofRoutine spec.logger (spec.parts defs).routine

/-- **Every middleware that a session describes is a wrapper.** -/
theorem MiddlewareSpec.middleware_wrapper {defs : Script.Definitions} {spec : MiddlewareSpec} :
    (spec.wrapper defs).middleware = spec.build defs := by
  cases spec with
  | timing => exact Wrapper.middleware_timing
  | layer spec =>
    rw [wrapper, Wrapper.middleware, Wrapper.conduct_ofParts, LayerSpec.layer_parts]
    exact Layer.middleware_conduct

end Session

end StagedWorkflow
