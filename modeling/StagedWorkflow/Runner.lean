import StagedWorkflow.Middleware
/-!
# Runners

A runner holds a logger and a list of middleware, and executes workflows
through them. With options, entries are first merged into the workflow's
store, and a logger can be given for the one run.
-/

namespace StagedWorkflow

/-- What executes workflows. -/
structure Runner (β : Type) where
  logger : Logger
  layers : List (Middleware β)

/-- The settings of one run. -/
structure RunOptions where
  /-- The logger of the run; the runner's if there is none. -/
  logger : Option Logger
  token : Token
  /-- The store whose entries are merged before the run. -/
  initial : StoreId

/-- What is said of a run with options. -/
structure RunSummary where
  workflowId : String
  success : Bool
  error : Option RunError

namespace Runner

variable {β : Type}

/-- The runner with the standard logger and no middleware. -/
def standard : Runner β :=
  ⟨.standard, []⟩

/-- The runner with one more middleware, inside those it has. -/
def use (r : Runner β) (layer : Middleware β) : Runner β :=
  { r with layers := r.layers ++ [layer] }

/-- Executes a workflow through the middleware. -/
def execute (r : Runner β) (base : Executor β) : Executor β :=
  Middleware.compose base r.layers

@[simp] theorem execute_standard {base : Executor β} : standard.execute base = base := rfl

/-- A middleware that is added stands next to the base. -/
theorem execute_use {r : Runner β} {layer : Middleware β} {base : Executor β} :
    (r.use layer).execute base = r.execute (layer base) := by
  simp [execute, use, Middleware.compose_append]

/-- Merges the entries of some options into the workflow's store. -/
def mergeOptions (logger : Logger) (initial : StoreId) (workflow : Workflow β) (world : World) :
    World :=
  -- options without entries are not reported
  if (world.heap.contents initial).isEmpty then world
  else
    let (merged, world) := world.ask (.merge workflow.store initial {})
    world.notify logger (.optionsMerged merged workflow.id)

/-- Executes a workflow with options. -/
def executeWith (r : Runner β) (base : Executor β) (options : RunOptions)
    (workflow : Workflow β) (world : World) : Option (RunSummary × Run.Result β) :=
  let logger := options.logger.getD r.logger
  let world := mergeOptions logger options.initial workflow world
  (r.execute base options.token logger workflow world).map fun result =>
    (⟨result.workflow.id, result.outcome.isOk,
      match result.outcome with
      | .ok () => none
      | .error error => some error⟩, result)

/-- Executes one stage against a workflow it need not belong to. -/
def executeStage (c : Setting β) (steps : Nat) (stage : Stage β) (workflow : Workflow β)
    (world : World) : Option (Pass.Result β) :=
  Pass.run c steps ⟨workflow, .detached stage⟩ stage world

end Runner

end StagedWorkflow
