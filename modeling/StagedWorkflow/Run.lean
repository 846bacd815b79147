import StagedWorkflow.Pass
/-!
# Runs

A run executes a workflow: it takes the positions of the stage list in
order, checks the token at each, passes over the stages whose id is
disabled, and makes a pass over each other one. Stages that actions append
are reached in their turn. The first pass that does not succeed ends the
run.
-/

namespace StagedWorkflow

/-- How a run ended. -/
structure Run.Result (β : Type) where
  workflow : Workflow β
  world : World
  outcome : Outcome

/-- A run under way. -/
structure Run (β : Type) where
  workflow : Workflow β
  world : World
  /-- The position that is next. -/
  index : Nat
  /-- The number of stages executed. -/
  executed : Nat

namespace Run

variable {β : Type}

/-- Sends a notice of the run to the logger. -/
def notify (r : Run β) (c : Setting β) (notice : Notice) : Run β :=
  { r with world := r.world.notify c.logger notice }

/-- The run ends. -/
def finish (r : Run β) (outcome : Outcome) : Step (Run β) (Result β) :=
  .finish ⟨r.workflow, r.world, outcome⟩

/-- The run goes on to the next position. -/
def advance (r : Run β) : Step (Run β) (Result β) :=
  .again { r with index := r.index + 1 }

/-- Begins a run. -/
def start (c : Setting β) (workflow : Workflow β) (world : World) : Run β :=
  ⟨workflow, world.notify c.logger (.workflowStarting workflow.id workflow.size), 0, 0⟩

/-- Goes on from a pass that has ended. -/
def afterPass (r : Run β) (pass : Pass.Result β) : Step (Run β) (Result β) :=
  let r := { r with workflow := pass.site.workflow, world := pass.world }
  match pass.outcome with
  | .error error => r.finish (.error error)
  | .ok () => { r with executed := r.executed + 1 }.advance

/-- Takes the next position. -/
def step (c : Setting β) (steps : Nat) (r : Run β) : Option (Step (Run β) (Result β)) :=
  match r.workflow.stages[r.index]? with
  | none =>
    some ((r.notify c
      (.workflowCompleted r.workflow.id r.executed r.workflow.size)).finish (.ok ()))
  | some stage =>
    -- the token comes before the record: a disabled stage can be where a run stops
    match r.world.check c.token with
    | (.error reason, world) =>
      let r := { r with world }
      some ((r.notify c (.workflowCancelled r.index r.workflow.id stage.id reason)).finish
        (.error (.cancelled r.workflow.id (.stage stage.id) reason)))
    | (.ok (), world) =>
      let r := { r with world }
      if r.workflow.isStageEnabled stage.id then
        (Pass.run c steps ⟨r.workflow, .member r.index⟩ stage r.world).map r.afterPass
      else some (r.notify c (.stageSkipped r.index stage.id)).advance

/-- Executes a workflow; the run and each of its passes take at most a
number of steps. -/
def run (c : Setting β) (steps : Nat) (workflow : Workflow β) (world : World) :
    Option (Result β) :=
  Loop.run (step c steps) steps (start c workflow world)

end Run

end StagedWorkflow
