import StagedWorkflow.Runner
import StagedWorkflow.Proofs.Trail
import StagedWorkflow.Proofs.Amendment

/-!
# Calls

What a run did, read off the states that it went through. A position of a
list is *reached* when a step is taken from it; a stage is *entered* when a
pass over it begins (`Run.entered?`), and an action is *called* when its code
is carried out (`Pass.call?`). A call knows what the action saw, and what
came of it: its result, the world as the action left it, and the mutations
it recorded, which take effect if it succeeds (`Call.granted`).
-/

namespace StagedWorkflow

variable {β : Type}

/-- An action that is carried out. -/
structure Call (β : Type) where
  /-- The workflow and the stage, as they are when the action is called. -/
  site : Site β
  stage : Stage β
  /-- The position of the action in its stage. -/
  index : Nat
  action : Action β
  /-- The world in which the code begins. -/
  world : World

namespace Call

/-- Where the stage of the action stands. -/
def place (call : Call β) : Place :=
  call.site.place

/-- What comes of a call. -/
def ended (c : Setting β) (call : Call β) : Except Fault Unit × Invocation.State β :=
  (⟨c.token, c.logger, call.site.workflow, call.stage⟩ : Invocation β).perform
    (c.behave call.action) call.world

/-- What the action answers. -/
def result (c : Setting β) (call : Call β) : Except Fault Unit :=
  (call.ended c).1

/-- The world, as the action leaves it. -/
def left (c : Setting β) (call : Call β) : World :=
  (call.ended c).2.world

/-- The mutations that the action records, in order. -/
def queue (c : Setting β) (call : Call β) : List (Mutation β) :=
  (call.ended c).2.queue

/-- The mutations that take effect: those of an action that succeeds. -/
def granted (c : Setting β) (call : Call β) : List (Mutation β) :=
  match call.result c with
  | .ok () => call.queue c
  | .error _ => []

/-- The actions that a call adds to its stage, in the order recorded. -/
def actionsAdded (c : Setting β) (call : Call β) : List (Action β) :=
  (call.granted c).filterMap Mutation.action?

/-- The stages that a call adds to the workflow, in the order recorded. -/
def stagesAdded (c : Setting β) (call : Call β) : List (Stage β) :=
  (call.granted c).filterMap Mutation.stage?

variable {c : Setting β} {call : Call β}

theorem granted_of_ok (ok : call.result c = .ok ()) : call.granted c = call.queue c := by
  simp [granted, ok]

theorem granted_of_error {source : Fault} (fault : call.result c = .error source) :
    call.granted c = [] := by
  simp [granted, fault]

end Call

namespace Pass

/-- The call of an action at the next position. -/
def calling (c : Setting β) (p : Pass β) (stage : Stage β) (action : Action β) : Call β :=
  ⟨p.site, stage, p.index, action,
    (p.world.check c.token).2.notify c.logger
      (.actionExecuting p.site.place p.index p.stageId action.id action.name)⟩

/-- The action that is called at the next position. There is none where the
stage is over, the token is done or the action is disabled. -/
def call? (c : Setting β) (p : Pass β) : Option (Call β) :=
  match p.site.stage? with
  | none => none
  | some stage =>
    match stage.slots[p.index]? with
    | none => none
    | some slot =>
      match (p.world.check c.token).1 with
      | .error _ => none
      | .ok () => if slot.enabled then some (p.calling c stage slot.action) else none

/-- The states a pass takes a step from. -/
def trail (c : Setting β) (steps : Nat) (p : Pass β) : List (Pass β) :=
  Loop.trail (fun p => some (p.step c)) steps p

/-- The actions that a pass calls, in order. -/
def calls (c : Setting β) (steps : Nat) (p : Pass β) : List (Call β) :=
  (p.trail c steps).filterMap (·.call? c)

/-- The positions that a pass reaches, in order. -/
def reached (c : Setting β) (steps : Nat) (p : Pass β) : List Nat :=
  ((p.trail c steps).filter fun p => (p.site.slot? p.index).isSome).map Pass.index

/-- The pass over a stage, if it begins. -/
def entered? (c : Setting β) (site : Site β) (stage : Stage β) (world : World) :
    Option (Pass β) :=
  match start c site stage world with
  | .finish _ => none
  | .again pass => some pass

end Pass

namespace Run

/-- The pass that begins at the next position. There is none where the
workflow is over, the token is done or the stage is disabled. -/
def entered? (c : Setting β) (r : Run β) : Option (Pass β) :=
  match r.workflow.stages[r.index]? with
  | none => none
  | some stage =>
    match r.world.check c.token with
    | (.error _, _) => none
    | (.ok (), world) =>
      if r.workflow.isStageEnabled stage.id then
        Pass.entered? c ⟨r.workflow, .member r.index⟩ stage world
      else none

/-- The actions that are called at the next position, in order. -/
def callsHere (c : Setting β) (steps : Nat) (r : Run β) : List (Call β) :=
  match r.entered? c with
  | none => []
  | some pass => pass.calls c steps

/-- The states a run takes a step from. -/
def trail (c : Setting β) (steps : Nat) (workflow : Workflow β) (world : World) : List (Run β) :=
  Loop.trail (step c steps) steps (start c workflow world)

/-- The positions of the stage list that a run reaches, in order. -/
def reached (c : Setting β) (steps : Nat) (workflow : Workflow β) (world : World) : List Nat :=
  ((trail c steps workflow world).filter fun r => r.index < r.workflow.size).map Run.index

/-- The positions of the stages that a run enters, in order. -/
def entries (c : Setting β) (steps : Nat) (workflow : Workflow β) (world : World) : List Nat :=
  ((trail c steps workflow world).filter fun r => (r.entered? c).isSome).map Run.index

/-- The actions that a run calls, in order. -/
def calls (c : Setting β) (steps : Nat) (workflow : Workflow β) (world : World) :
    List (Call β) :=
  (trail c steps workflow world).flatMap (callsHere c steps)

/-- The positions of the actions that a run calls, in order: of the stage in
the workflow, and of the action in the stage. -/
def positions (c : Setting β) (steps : Nat) (workflow : Workflow β) (world : World) :
    List (Nat × Nat) :=
  (trail c steps workflow world).flatMap fun r =>
    (r.callsHere c steps).map fun call => (r.index, call.index)

end Run

namespace Runner

/-- The actions that are called when one stage is executed, in order. -/
def stageCalls (c : Setting β) (steps : Nat) (stage : Stage β) (workflow : Workflow β)
    (world : World) : List (Call β) :=
  match Pass.entered? c ⟨workflow, .detached stage⟩ stage world with
  | none => []
  | some pass => pass.calls c steps

end Runner

/-! ## A small workflow

For the statements about runs to be seen at work: actions that grow the
workflow they are in, cancel its token or fail, in a stage whose id the
stages that are added share. -/

namespace Sample

/-- What an action of the sample does. -/
inductive Code where
  | rest
  /-- Add an action and a stage that go on with other code. -/
  | grow (next : Code)
  /-- Cancel the token, and add an action. -/
  | quit
  /-- Write to the shared store, switch the stages off, and fail. -/
  | fail

/-- A stage with one action, and initial data in a store of its own. -/
def stage (code : Code) : Stage Code :=
  ⟨"s", "s", "", ∅, [⟨⟨.bare "a", code⟩, true⟩], 1⟩

/-- How the code of the sample is carried out. -/
def behave (action : Action Code) : Behaviour Code :=
  match action.code with
  | .rest => .done (.ok ())
  | .grow next =>
    .ask (.record (.addAction ⟨.bare "late", next⟩)) fun _ =>
      .ask (.record (.addStage (stage next))) fun _ => .done (.ok ())
  | .quit =>
    .ask .cancel fun _ =>
      .ask (.record (.addAction ⟨.bare "late", .rest⟩)) fun _ => .done (.ok ())
  | .fail =>
    .ask (.heap (.putNil 0 "mark")) fun _ =>
      .ask (.record (.setStageEnabled "s" false)) fun _ => .done (.error (.text "no"))

/-- A workflow with one stage, which is enabled. -/
def workflow (code : Code) : Workflow Code :=
  ⟨"w", "w", "", ∅, [stage code], 0, (∅ : Table Bool).insert "s" true⟩

/-- A live token without deadline, and a logger that throws away. -/
def setting : Setting Code :=
  ⟨⟨0, none⟩, .discard, behave⟩

/-- A world with the two stores of the sample and its token. -/
def world : World :=
  ⟨⟨#[∅, ∅], 0, []⟩, ⟨[false], .standing 0⟩, []⟩

end Sample

end StagedWorkflow
