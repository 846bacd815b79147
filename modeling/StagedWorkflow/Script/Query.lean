import StagedWorkflow.Workflow
import StagedWorkflow.Report
/-!
# Queries

What can be asked about a stage or a workflow, with answers in plain form.
Answers that show the entries of a store read the heap for them.
-/

namespace StagedWorkflow

namespace Script

variable {β : Type}

/-- A question about a stage. -/
inductive StageQuery where
  | info
  | action (id : String)
  | enabled (id : String)
  | withTag (tag : String)
  | withAllTags (tags : List String)
  | withAnyTag (tags : List String)
  | hasTag (tag : String)
  | outline (pretty : Bool)

/-- A question about a workflow. -/
inductive WorkflowQuery where
  | state
  | enabled (id : String)
  | stage (id : String)
  | withTag (tag : String)
  | withAllTags (tags : List String)
  | withAnyTag (tags : List String)
  | hasTag (tag : String)
  | size
  | ids
  | outline (pretty : Bool)

/-- The ids of actions. -/
def actionIds (actions : List (Action β)) : Datum :=
  .texts (actions.map (·.id))

/-- The ids of stages. -/
def stageIds (stages : List (Stage β)) : Datum :=
  .texts (stages.map (·.id))

/-- An action as one line of its stage. -/
def actionLine (stage : Stage β) (action : Action β) : Datum :=
  .list [.text action.id, .text action.name, .truth (stage.isActionEnabled action.id)]

/-- What is told of a stage. -/
def stageFields (stage : Stage β) : Heap.History (List (String × Datum)) := do
  let initial ← Heap.History.dumpDatum stage.initial
  return [("id", .text stage.id), ("name", .text stage.name),
    ("description", .text stage.description), ("tags", .texts stage.tags.toList),
    ("len", .count stage.size), ("empty", .truth stage.isEmpty),
    ("actions", .list (stage.actions.map (actionLine stage))), ("initial", initial)]

/-- A stage in plain form. -/
def stageDatum (stage : Stage β) : Heap.History Datum :=
  .record <$> stageFields stage

/-- A stage as a member of a workflow. -/
def memberDatum (workflow : Workflow β) (stage : Stage β) : Heap.History Datum := do
  let fields ← stageFields stage
  return .record (fields ++ [("enabled", .truth (workflow.isStageEnabled stage.id))])

/-- A workflow in plain form. -/
def workflowDatum (workflow : Workflow β) : Heap.History Datum := do
  let stages ← workflow.stages.mapM (memberDatum workflow)
  let store ← Heap.History.dumpDatum workflow.store
  return .record [("id", .text workflow.id), ("name", .text workflow.name),
    ("description", .text workflow.description), ("tags", .texts workflow.tags.toList),
    ("len", .count workflow.size), ("empty", .truth workflow.isEmpty),
    ("stages", .list stages), ("store", store)]

/-- What is told of one action. -/
def actionDatum (action : Action β) : Datum :=
  .record [("id", .text action.id), ("name", .text action.name),
    ("description", .text action.identity.description),
    ("tags", .texts action.identity.tags.toList)]

/-- The entries of some stores, by number. -/
def contentsOf (stores : List StoreId) : Heap.History (List (StoreId × Store)) :=
  stores.mapM fun s => return (s, ← Heap.History.ask (.contents s))

/-- Answers a question about a stage. -/
def StageQuery.answer (stage : Stage β) : StageQuery → Heap.History Datum
  | info => stageDatum stage
  | action id => return (stage.action? id).elim .null actionDatum
  | enabled id => return .truth (stage.isActionEnabled id)
  | withTag tag => return actionIds (stage.actionsWithTag tag)
  | withAllTags tags => return actionIds (stage.actionsWithAllTags tags)
  | withAnyTag tags => return actionIds (stage.actionsWithAnyTag tags)
  | hasTag tag => return .truth (Tagged.hasTag stage tag)
  | outline pretty => do
    let initial ← Heap.History.ask (.contents stage.initial)
    return (stage.outline initial).datum pretty

/-- Answers a question about a workflow. -/
def WorkflowQuery.answer (workflow : Workflow β) : WorkflowQuery → Heap.History Datum
  | state => workflowDatum workflow
  | enabled id => return .truth (workflow.isStageEnabled id)
  | stage id => (workflow.stage? id).elim (pure .null) stageDatum
  | withTag tag => return stageIds (workflow.stagesWithTag tag)
  | withAllTags tags => return stageIds (workflow.stagesWithAllTags tags)
  | withAnyTag tags => return stageIds (workflow.stagesWithAnyTag tags)
  | hasTag tag => return .truth (Tagged.hasTag workflow tag)
  | size => return .count workflow.size
  | ids => return stageIds workflow.stages
  | outline pretty => do
    let stores ← contentsOf (workflow.store :: workflow.stages.map (·.initial))
    return (workflow.outline fun s => (stores.lookup s).getD ∅).datum pretty

end Script

end StagedWorkflow
