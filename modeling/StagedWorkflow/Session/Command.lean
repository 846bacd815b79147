import StagedWorkflow.Session.RunnerSpec
/-!
# Sessions

A session sets up a workflow and a runner, and then takes commands one
after another: operations on the workflow, runs in their several forms, and
changes of the runner. Each command is answered in plain form, together
with the events it gave rise to.
-/

namespace StagedWorkflow

namespace Session

open Script

/-- The logger of a run: a given one, or the runner's. -/
inductive Channel where
  | given (logger : Logger)
  | runner

/-- One command of a session. -/
inductive Command where
  | workflow (op : WorkflowOp)
  | execute (token : TokenSpec) (logger : Channel) (shown : Bool)
  | executeWith (token : TokenSpec) (logger : Option Logger) (initial : List (String × Literal))
      (shown : Bool)
  /-- Executes a stage outside the workflow. -/
  | executeStage (name : String) (token : TokenSpec) (logger : Logger) (shown : Bool)
  /-- Executes layers around a base that is a layer with nothing inside. -/
  | compose (base : Ref LayerSpec) (layers : List (Ref MiddlewareSpec)) (token : TokenSpec)
      (logger : Logger) (shown : Bool)
  /-- Carries a script out as if an action were called, and drops the
  changes it requests. -/
  | context (which : StageName) (token : TokenSpec) (logger : Logger) (body : Script)
  | useMiddleware (middleware : Ref MiddlewareSpec)
  | newRunner (runner : Ref RunnerSpec)
  | cancelToken (token : TokenSpec)

/-- What stays the same through a session. -/
structure Settings where
  vocabulary : Vocabulary
  /-- How many steps a run, and each of its passes, can take. -/
  steps : Nat

/-- A session under way. -/
structure State where
  workspace : Workspace
  runner : Runner Script
  /-- The tokens that commands share, by name. -/
  tokens : Table Token

namespace State

/-- The token that is described. A shared token is made live, the first
time it is named. -/
def token (s : State) : TokenSpec → Token × State
  | .fresh kind =>
    let (token, world) := kind.makeIn s.workspace.world
    (token, { s with workspace := { s.workspace with world } })
  | .shared name =>
    match s.tokens.get? name with
    | some token => (token, s)
    | none =>
      let (token, world) := TokenKind.live.makeIn s.workspace.world
      (token, { s with
        workspace := { s.workspace with world }, tokens := s.tokens.insert name token })

/-- The session with another world. -/
def setWorld (s : State) (world : World) : State :=
  { s with workspace := { s.workspace with world } }

/-- The session after a run. -/
def afterRun (s : State) (result : Run.Result Script) : State :=
  { s with workspace :=
    { s.workspace with workflow := result.workflow, world := result.world } }

/-- The session after a pass over a stage of a name outside the workflow. -/
def afterPass (s : State) (name : String) (result : Pass.Result Script) : State :=
  let detached :=
    match result.site.seat with
    | .detached stage => s.workspace.detached.insert name stage
    -- a pass leaves the stage where it stood
    | .member _ => s.workspace.detached
  { s with workspace := ⟨result.site.workflow, result.world, detached⟩ }

/-- Executes the workflow of a session. -/
def execute (s : State) (executor : Executor Script) (token : Token) (logger : Logger)
    (shown : Bool) : Option (Datum × State) :=
  (executor token logger s.workspace.workflow s.workspace.world).map fun result =>
    (Outcome.datum result.outcome shown, s.afterRun result)

/-- Executes the workflow of a session with options. -/
def executeWith (s : State) (base : Executor Script) (options : RunOptions) (shown : Bool) :
    Option (Datum × State) :=
  (s.runner.executeWith base options s.workspace.workflow s.workspace.world).map
    fun (summary, result) =>
      let s := s.afterRun result
      let (left, w) := s.workspace.play (Heap.History.dumpDatum options.initial)
      (.record [("workflow_id", .text summary.workflowId), ("success", .truth summary.success),
        ("error", summary.error.elim .null (·.datum shown)), ("options_left", left)],
        { s with workspace := w })

/-- Carries a script out against a stage. -/
def context (s : State) (defs : Definitions) (stage : Stage Script) (token : Token)
    (logger : Logger) (body : Script) : Datum × State :=
  let inv : Invocation Script := ⟨token, logger, s.workspace.workflow, stage⟩
  let (result, after) := inv.perform (Script.runAll defs "ctx" body).run s.workspace.world
  let failure :=
    match result with
    | .ok () => none
    | .error fault => some fault.message
  (.record [("result", .textOrNull failure), ("pending", .count after.queue.length)],
    s.setWorld after.world)

end State

/-- The executor that runs the stages of a session's workflow. -/
def Settings.base (settings : Settings) : Executor Script :=
  .stages (Script.behave settings.vocabulary.scripts) settings.steps

/-- Carries out a command, unless a run takes more steps than allowed. -/
def Command.run (settings : Settings) (s : State) : Command → Option (Datum × State)
  | workflow op =>
    let (answer, workspace) := op.run settings.vocabulary.scripts s.workspace
    some (answer, { s with workspace })
  | execute token channel shown =>
    let (token, s) := s.token token
    let logger :=
      match channel with
      | .given logger => logger
      | .runner => s.runner.logger
    s.execute (s.runner.execute settings.base) token logger shown
  | executeWith token logger initial shown =>
    let (token, s) := s.token token
    let (initial, w) := s.workspace.play (Heap.History.createFrom initial)
    { s with workspace := w }.executeWith settings.base ⟨logger, token, initial⟩ shown
  | executeStage name token logger shown =>
    match s.workspace.detached.get? name with
    | none => some (.text "no stage", s)
    | some stage =>
      let (token, s) := s.token token
      let w := s.workspace
      let setting : Setting Script := ⟨token, logger, Script.behave settings.vocabulary.scripts⟩
      (Runner.executeStage setting settings.steps stage w.workflow w.world).map fun result =>
        (Outcome.datum result.outcome shown, s.afterPass name result)
  | compose base layers token logger shown =>
    let (token, s) := s.token token
    let executor :=
      Middleware.compose (settings.vocabulary.layer base).executor
        (layers.map settings.vocabulary.middleware)
    s.execute executor token logger shown
  | context which token logger body =>
    match s.workspace.stage? which with
    | none => some (.text "no stage", s)
    | some stage =>
      let (token, s) := s.token token
      some (s.context settings.vocabulary.scripts stage token logger body)
  | useMiddleware middleware =>
    let runner := s.runner.use (settings.vocabulary.middleware middleware)
    some (.count runner.layers.length, { s with runner })
  | newRunner ref =>
    let runner := settings.vocabulary.runner ref
    some (.count runner.layers.length, { s with runner })
  | cancelToken token =>
    let (token, s) := s.token token
    some (.null, s.setWorld (s.workspace.world.cancel token))

/-- Carries out a command, and answers it together with its events. -/
def Command.answer (settings : Settings) (s : State) (command : Command) :
    Option (Datum × State) :=
  (command.run settings (s.setWorld { s.workspace.world with journal := [] })).map
    fun (answer, s) =>
      let events := s.workspace.world.journal.filterMap Event.datum?
      (.record ([("r", answer)] ++ if events.isEmpty then [] else [("ev", .list events)]), s)

end Session

end StagedWorkflow
