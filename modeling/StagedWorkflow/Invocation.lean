import StagedWorkflow.Workflow
import StagedWorkflow.World
/-!
# Invocations

While an action is carried out it sees the workflow and its stage as they
were when it was called. It reads and writes stores at once, but changes
of structure it can only request: they are queued as mutations, for the
engine to apply if the action succeeds. A behaviour is a program of such
requests; nothing else can happen during an invocation.
-/

namespace StagedWorkflow

/-- A change of structure, requested by an action. -/
inductive Mutation (β : Type) where
  /-- Append an action to the current stage. -/
  | addAction (action : Action β)
  /-- Append a stage to the workflow. -/
  | addStage (stage : Stage β)
  /-- Switch the actions of an id in the current stage. -/
  | setActionEnabled (id : String) (enabled : Bool)
  /-- Switch the stages of an id. -/
  | setStageEnabled (id : String) (enabled : Bool)

/-- What an action sees while it is carried out. -/
structure Invocation (β : Type) where
  token : Token
  logger : Logger
  workflow : Workflow β
  stage : Stage β

namespace Invocation

variable {β : Type}

/-- Where an action finds itself. -/
structure Here where
  workflowId : String
  stageId : String
  /-- The store shared by the run. -/
  store : StoreId

/-- What an action can ask for. -/
inductive Request (β : Type) where
  /-- A read or write of the stores. -/
  | heap (r : Heap.Request)
  /-- The ids of the workflow and of the current stage, and the shared store. -/
  | here
  /-- The current stage. -/
  | stage
  /-- The whole workflow. -/
  | workflow
  /-- Whether the run's token is done. -/
  | check
  /-- To cancel the run's token. -/
  | cancel
  /-- To send a record to the run's logger. -/
  | log (level : Level) (text : String)
  /-- To report an answer. -/
  | report (who : String) (answer : Datum)
  /-- To queue a mutation. -/
  | record (mutation : Mutation β)
  /-- The number of mutations queued. -/
  | pending

/-- What a request is answered with. A queued mutation is answered as it
stands in the queue. -/
abbrev Answer : Request β → Type
  | .heap r => Heap.Answer r
  | .here => Here
  | .stage => Stage β
  | .workflow => Workflow β
  | .check => Except CancelReason Unit
  | .cancel | .log _ _ | .report _ _ => Unit
  | .record _ => Mutation β
  | .pending => Nat

/-- The requests of an action with their answers. -/
abbrev signature (β : Type) : Signature := ⟨Request β, Answer⟩

/-- What changes during an invocation: the world, and the queue. -/
structure State (β : Type) where
  world : World
  queue : List (Mutation β)

/-- The mutation as it enters the queue. A stage gets a store of initial
data that is its own. -/
def take (mutation : Mutation β) (world : World) : Mutation β × World :=
  match mutation with
  | .addStage stage =>
    let (initial, world) := world.ask (.clone stage.initial)
    (.addStage { stage with initial }, world)
  | other => (other, world)

/-- Answers a request of the action. -/
def answer (inv : Invocation β) (r : Request β) (s : State β) : Answer r × State β :=
  match r with
  | .heap r => let (a, world) := s.world.ask r; (a, { s with world })
  | .here => (⟨inv.workflow.id, inv.stage.id, inv.workflow.store⟩, s)
  | .stage => (inv.stage, s)
  | .workflow => (inv.workflow, s)
  | .check => let (status, world) := s.world.check inv.token; (status, { s with world })
  | .cancel => ((), { s with world := s.world.cancel inv.token })
  | .log level text =>
    ((), { s with world := s.world.write (.logged inv.logger (.custom level text)) })
  | .report who answer => ((), { s with world := s.world.write (.reported who answer) })
  | .record mutation =>
    let (taken, world) := take mutation s.world
    (taken, ⟨world, s.queue ++ [taken]⟩)
  | .pending => (s.queue.length, s)

end Invocation

/-- What an action does when it is carried out: requests, and in the end
success or a fault. -/
abbrev Behaviour (β : Type) := Program (Invocation.signature β) (Except Fault Unit)

namespace Invocation

variable {β : Type}

/-- Carries out a behaviour, from an empty queue. -/
def perform (inv : Invocation β) (behaviour : Behaviour β) (world : World) :
    Except Fault Unit × State β :=
  behaviour.run inv.answer ⟨world, []⟩

end Invocation

end StagedWorkflow
