import StagedWorkflow.Script.Act
/-!
# Operations on a workflow

What the owner of a workflow does to it between runs, or a layer around a
run before and after: store operations, questions, changes of the workflow
and of its stages, and the handling of stages outside of it. Every
operation has an answer in plain form; none fails.
-/

namespace StagedWorkflow

namespace Session

open Script

/-- The texts a workflow or stage is titled with. -/
inductive Title where
  | id | name | description
  deriving DecidableEq

/-- An operation on one stage. -/
inductive StageOp where
  | addAction (action : ActionRef)
  | setActionEnabled (id : String) (enabled : Bool)
  | setInitial (key : String) (value : Literal)
  /-- Writes a title as it is. -/
  | setTitle (title : Title) (text : String)
  | insertTag (tag : String)
  | removeTag (tag : String)
  | query (query : StageQuery)

/-- A stage of the workflow by id, or one outside of it by name. -/
inductive StageName where
  | member (id : String)
  | detached (name : String)

/-- An operation on a workflow. -/
inductive WorkflowOp where
  /-- An operation on a store, the workflow's if none is named. -/
  | store (target : Option Selector) (op : StoreOp)
  | query (query : WorkflowQuery)
  | addStage (stage : StageRef)
  | setStageEnabled (id : String) (enabled : Bool)
  | enableAll
  /-- Writes a title as it is. -/
  | setTitle (title : Title) (text : String)
  | insertTag (tag : String)
  | removeTag (tag : String)
  /-- Keeps a stage outside the workflow. -/
  | detach (name : String) (stage : StageRef)
  /-- Moves a stage from outside into the workflow. -/
  | attach (name : String)
  | stage (which : StageName) (op : StageOp)

/-- A workflow, the world it lives in, and stages outside of it. -/
structure Workspace where
  workflow : Workflow Script
  world : World
  detached : Table (Stage Script)

/-- A stage with one of its titles written. -/
def retitleStage (title : Title) (text : String) (stage : Stage Script) : Stage Script :=
  match title with
  | .id => { stage with id := text }
  | .name => { stage with name := text }
  | .description => { stage with description := text }

/-- A workflow with one of its titles written. -/
def retitleWorkflow (title : Title) (text : String) (workflow : Workflow Script) :
    Workflow Script :=
  match title with
  | .id => { workflow with id := text }
  | .name => { workflow with name := text }
  | .description => { workflow with description := text }

/-- Carries out an operation on a stage. -/
def StageOp.run (defs : Definitions) (stage : Stage Script) (world : World) :
    StageOp → Datum × Stage Script × World
  | addAction action =>
    (.null, ((action.resolve defs).map ActionSpec.build).elim stage stage.addAction, world)
  | setActionEnabled id enabled =>
    let (found, stage) := stage.setActionEnabled id enabled
    (.truth found, stage, world)
  | setInitial key value =>
    (.null, stage, (world.play (Heap.History.putLiteral stage.initial key value)).2)
  | setTitle title text => (.null, retitleStage title text stage, world)
  | insertTag tag =>
    let (isNew, tags) := stage.tags.insert tag
    (.truth isNew, { stage with tags }, world)
  | removeTag tag =>
    let (was, tags) := stage.tags.remove tag
    (.truth was, { stage with tags }, world)
  | query q =>
    let (answer, world) := world.play (q.answer stage)
    (answer, stage, world)

namespace Workspace

/-- The stage of a name. -/
def stage? (w : Workspace) : StageName → Option (Stage Script)
  | .member id => w.workflow.stage? id
  | .detached name => w.detached.get? name

/-- The workspace with another stage of a name. -/
def setStage (w : Workspace) (which : StageName) (stage : Stage Script) : Workspace :=
  match which with
  | .member id => { w with workflow := w.workflow.modifyStage id fun _ => stage }
  | .detached name => { w with detached := w.detached.insert name stage }

/-- The store that a selector stands for, outside of actions. -/
def select (w : Workspace) : Selector → Option StoreId
  | .workflow => some w.workflow.store
  | .stage id => (w.workflow.stage? id).map (·.initial)
  | .detached name => (w.detached.get? name).map (·.initial)
  | .number _ | .current | .nowhere => none

/-- Plays a history on the heap of the workspace. -/
def play {α : Type} (w : Workspace) (history : Heap.History α) : α × Workspace :=
  let (a, world) := w.world.play history
  (a, { w with world })

/-- Changes the workflow of the workspace. -/
def edit (w : Workspace) (f : Workflow Script → Workflow Script) : Workspace :=
  { w with workflow := f w.workflow }

/-- Carries out a store operation, and answers a store error as it is. -/
def runStoreOp (w : Workspace) (target : Option Selector) (op : StoreOp) : Datum × Workspace :=
  match w.select (target.getD .workflow) with
  | none => (.text "no store", w)
  | some s =>
    match w.play (op.run s (op.selector?.bind w.select)).run with
    | (.ok answer, w) => (answer, w)
    | (.error error, w) => (error.datum, w)

end Workspace

/-- Carries out an operation on a workflow. -/
def WorkflowOp.run (defs : Definitions) (w : Workspace) : WorkflowOp → Datum × Workspace
  | store target op => w.runStoreOp target op
  | query q => w.play (q.answer w.workflow)
  | addStage ref =>
    match ref.resolve defs with
    | none => (.null, w)
    | some spec =>
      let (built, w) := w.play (spec.build defs)
      (.null, w.edit (·.addStage built))
  | setStageEnabled id enabled => (.null, w.edit (·.setStageEnabled id enabled))
  | enableAll => (.null, w.edit (·.enableAllStages))
  | setTitle title text => (.null, w.edit (retitleWorkflow title text))
  | insertTag tag =>
    let (isNew, tags) := w.workflow.tags.insert tag
    (.truth isNew, w.edit ({ · with tags }))
  | removeTag tag =>
    let (was, tags) := w.workflow.tags.remove tag
    (.truth was, w.edit ({ · with tags }))
  | detach name ref =>
    match ref.resolve defs with
    | none => (.null, w)
    | some spec =>
      let (built, w) := w.play (spec.build defs)
      (.null, { w with detached := w.detached.insert name built })
  | attach name =>
    match w.detached.get? name with
    | none => (.truth false, w)
    | some found =>
      let w := w.edit (·.addStage found)
      (.truth true, { w with detached := w.detached.erase name })
  | stage which op =>
    match w.stage? which with
    | none => (.text "no stage", w)
    | some found =>
      let (answer, changed, world) := op.run defs found w.world
      (answer, { w with world }.setStage which changed)

/-- Carries out the operations of a layer, which sees no stages outside the
workflow, and notes their answers. -/
def runLayerOps (defs : Definitions) (layer : String) (ops : List WorkflowOp)
    (workflow : Workflow Script) (world : World) : Workflow Script × World :=
  ops.foldl (fun (workflow, world) op =>
    let (answer, w) := op.run defs ⟨workflow, world, ∅⟩
    -- what an operation leaves outside the workflow is gone with it
    (w.workflow, if answer.isNull then w.world else w.world.write (.noted layer answer)))
    (workflow, world)

end Session

end StagedWorkflow
