import StagedWorkflow.Site
import StagedWorkflow.Loop
/-!
# Passes

A pass executes one stage: it merges the initial data, and then takes the
positions of the stage's list in order. The token is checked before the
stage and before every position, disabled actions are passed over, and the
mutations of an action are applied as soon as it has succeeded, so that the
list is read afresh at every position. The first action that fails ends the
pass, and its mutations are dropped.
-/

namespace StagedWorkflow

/-- What a run is given: its token, its logger, and how actions are carried
out. -/
structure Setting (β : Type) where
  token : Token
  logger : Logger
  behave : Action β → Behaviour β

/-- How a pass ended. -/
structure Pass.Result (β : Type) where
  site : Site β
  world : World
  outcome : Outcome

/-- A pass under way. -/
structure Pass (β : Type) where
  site : Site β
  world : World
  /-- The id the stage had when it was entered. -/
  stageId : String
  /-- The position that is next. -/
  index : Nat
  /-- The number of actions carried out. -/
  executed : Nat

namespace Pass

variable {β : Type}

/-- Sends a notice of the pass to the logger. -/
def notify (p : Pass β) (c : Setting β) (notice : Notice) : Pass β :=
  { p with world := p.world.notify c.logger notice }

/-- The pass ends. -/
def finish (p : Pass β) (outcome : Outcome) : Step (Pass β) (Result β) :=
  .finish ⟨p.site, p.world, outcome⟩

/-- The pass goes on to the next position. -/
def advance (p : Pass β) : Step (Pass β) (Result β) :=
  .again { p with index := p.index + 1 }

/-- Enters a stage: reports it, and merges its initial data into the
workflow's store. -/
def enter (c : Setting β) (site : Site β) (stage : Stage β) (world : World) : Pass β :=
  let world := world.notify c.logger (.stageStarting site.place stage.id stage.size)
  let (merged, world) := world.ask (.merge site.workflow.store stage.initial {})
  let world :=
    if 0 < merged then world.notify c.logger (.initialMerged site.place stage.id merged) else world
  ⟨site, world, stage.id, 0, 0⟩

/-- Begins a pass over a stage, unless the token is done. -/
def start (c : Setting β) (site : Site β) (stage : Stage β) (world : World) :
    Step (Pass β) (Result β) :=
  match world.check c.token with
  | (.error reason, world) =>
    .finish ⟨site, world.notify c.logger (.stageCancelled site.place stage.id reason),
      .error (.cancelled site.workflow.id (.stage stage.id) reason)⟩
  | (.ok (), world) => .again (enter c site stage world)

/-- What an action sees that is called now. -/
def invocation (p : Pass β) (c : Setting β) (stage : Stage β) : Invocation β :=
  ⟨c.token, c.logger, p.site.workflow, stage⟩

/-- Calls an action, and goes on if it succeeds. -/
def invoke (p : Pass β) (c : Setting β) (stage : Stage β) (action : Action β) :
    Step (Pass β) (Result β) :=
  let p := p.notify c (.actionExecuting p.site.place p.index p.stageId action.id action.name)
  let (result, state) := (p.invocation c stage).perform (c.behave action) p.world
  match result with
  | .error source =>
    -- the queue is dropped, and what was written to stores stays written
    let p := { p with world := state.world }
    (p.notify c (.actionFailed p.site.place p.index p.stageId action.id source)).finish
      (.error (.action p.stageId action.id action.name source))
  | .ok () =>
    -- the queue is applied at once, so the next position sees what it appended
    let (notices, site) := p.site.applyAll state.queue
    { p with
      site, world := state.world.notifyAll c.logger notices, executed := p.executed + 1 }.advance

/-- Takes the next position. -/
def step (c : Setting β) (p : Pass β) : Step (Pass β) (Result β) :=
  match p.site.stage? with
  -- a member is never removed, so this is not reached
  | none => p.finish (.ok ())
  | some stage =>
    match stage.slots[p.index]? with
    | none => (p.notify c (.stageCompleted p.site.place p.stageId p.executed)).finish (.ok ())
    | some slot =>
      -- the token comes before the flag: a disabled action can be where a run stops
      match p.world.check c.token with
      | (.error reason, world) =>
        let p := { p with world }
        (p.notify c (.actionCancelled p.site.place p.index p.stageId slot.action.id reason)).finish
          (.error (.cancelled p.site.workflow.id (.action slot.action.id p.stageId) reason))
      | (.ok (), world) =>
        let p := { p with world }
        if slot.enabled then p.invoke c stage slot.action
        else (p.notify c (.actionSkipped p.site.place p.index p.stageId slot.action.id)).advance

/-- Executes a stage, in at most a number of steps. -/
def run (c : Setting β) (steps : Nat) (site : Site β) (stage : Stage β) (world : World) :
    Option (Result β) :=
  match start c site stage world with
  | .finish result => some result
  | .again pass => Loop.run (fun p => some (p.step c)) steps pass

end Pass

end StagedWorkflow
