import StagedWorkflow.Run
/-!
# Middleware

A middleware wraps the execution of a whole run: it is handed the executor
inside it and makes another one, which may do something before and after,
leave the inner one out, or call it again. Of several, the first is the
outermost (`Middleware.compose_append`).
-/

namespace StagedWorkflow

/-- What executes a workflow for a token and a logger. -/
abbrev Executor (β : Type) :=
  Token → Logger → Workflow β → World → Option (Run.Result β)

/-- What makes an executor around another. -/
abbrev Middleware (β : Type) := Executor β → Executor β

namespace Executor

variable {β : Type}

/-- The executor that runs the stages. -/
def stages (behave : Action β → Behaviour β) (steps : Nat) : Executor β :=
  fun token logger workflow world => Run.run ⟨token, logger, behave⟩ steps workflow world

/-- The executor that does nothing and succeeds. -/
def idle : Executor β :=
  fun _ _ workflow world => some ⟨workflow, world, .ok ()⟩

end Executor

namespace Middleware

variable {β : Type}

/-- The executor with layers around it, the first outermost. -/
def compose (base : Executor β) (layers : List (Middleware β)) : Executor β :=
  layers.foldr (fun layer next => layer next) base

@[simp] theorem compose_nil {base : Executor β} : compose base [] = base := rfl

@[simp] theorem compose_cons {base : Executor β} {layer : Middleware β}
    {layers : List (Middleware β)} :
    compose base (layer :: layers) = layer (compose base layers) := rfl

/-- Layers can be put around the base some at a time, from the inside out. -/
theorem compose_append {base : Executor β} {outer inner : List (Middleware β)} :
    compose base (outer ++ inner) = compose (compose base inner) outer :=
  List.foldr_append

/-- What is reported of a run that was timed. -/
def timingNotice (result : Run.Result β) : Notice :=
  match result.outcome with
  | .ok () => .runFinished result.workflow.id
  | .error error => .runFailed result.workflow.id error

/-- The layer that reports how long the run inside took, and whether it
succeeded. -/
def timing : Middleware β :=
  fun next token logger workflow world =>
    (next token logger workflow world).map fun result =>
      { result with world := result.world.notify logger (timingNotice result) }

end Middleware

end StagedWorkflow
