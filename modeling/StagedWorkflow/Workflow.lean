import StagedWorkflow.Stage
/-!
# Workflows

A workflow is an ordered list of stages that share a store. Whether a stage
is enabled is recorded by id, apart from the list: stages that share an id
are enabled and disabled together, and an id can have a record before a
stage of that id is there. Stages are appended and never removed.
-/

namespace StagedWorkflow

open Text (Outline trim)

/-- Ordered stages, and the store they share. -/
structure Workflow (β : Type) where
  id : String
  name : String
  description : String
  tags : TagSet
  stages : List (Stage β)
  /-- The store shared by all stages. -/
  store : StoreId
  /-- Whether the stages of an id are enabled. -/
  enabled : Table Bool

namespace Workflow

variable {β : Type}

/-- A workflow without stages, whose id and name are trimmed. -/
def titled (id name description : String) (tags : TagSet) (store : StoreId) : Workflow β :=
  ⟨trim id, trim name, description, tags, [], store, ∅⟩

instance : Tagged (Workflow β) := ⟨Workflow.tags⟩

/-- The number of stages, disabled ones included. -/
def size (w : Workflow β) : Nat :=
  w.stages.length

/-- Whether there are no stages. -/
def isEmpty (w : Workflow β) : Bool :=
  w.stages.isEmpty

/-- The first stage of an id. -/
def stage? (w : Workflow β) (id : String) : Option (Stage β) :=
  w.stages.find? (·.id == id)

/-- The workflow with one more stage at its end. An id that is new starts
enabled, and any other stays as it was. -/
def addStage (w : Workflow β) (stage : Stage β) : Workflow β :=
  { w with stages := w.stages ++ [stage], enabled := w.enabled.insertIfNew stage.id true }

/-- Changes the stage at a position. -/
def modifyStageAt (w : Workflow β) (index : Nat) (f : Stage β → Stage β) : Workflow β :=
  { w with stages := w.stages.modify index f }

/-- Changes the first stage of an id. -/
def modifyStage (w : Workflow β) (id : String) (f : Stage β → Stage β) : Workflow β :=
  w.modifyStageAt (w.stages.findIdx (·.id == id)) f

/-- Records whether the stages of an id are enabled. -/
def setStageEnabled (w : Workflow β) (id : String) (enabled : Bool) : Workflow β :=
  { w with enabled := w.enabled.insert id enabled }

/-- Whether the stages of an id are enabled; an id without a record is not. -/
def isStageEnabled (w : Workflow β) (id : String) : Bool :=
  (w.enabled.get? id).getD false

/-- The stages that carry a tag, in order, disabled ones included. -/
def stagesWithTag (w : Workflow β) (tag : String) : List (Stage β) :=
  Tagged.withTag w.stages tag

/-- The stages that carry every one of some tags. -/
def stagesWithAllTags (w : Workflow β) (tags : List String) : List (Stage β) :=
  Tagged.withAllTags w.stages tags

/-- The stages that carry at least one of some tags. -/
def stagesWithAnyTag (w : Workflow β) (tags : List String) : List (Stage β) :=
  Tagged.withAnyTag w.stages tags

/-- Enables every id that has a record or a stage. -/
def enableAllStages (w : Workflow β) : Workflow β :=
  -- ids that are recorded without a stage are enabled too
  let recorded := w.enabled.map fun _ => true
  { w with enabled := w.stages.foldl (fun e stage => e.insert stage.id true) recorded }

/-- How a workflow is shown, with the entries of the stores it mentions. -/
def outline (w : Workflow β) (contents : StoreId → Store) : Outline :=
  .fields "Workflow"
    [("id", .text w.id), ("name", .text w.name),
      ("stages", .list (w.stages.map fun s => s.outline (contents s.initial))),
      ("enabled", .map (w.enabled.toList.map fun (id, on) => (id, .truth on))),
      ("store", (contents w.store).outline)]

@[simp] theorem stages_addStage {w : Workflow β} {stage : Stage β} :
    (w.addStage stage).stages = w.stages ++ [stage] := rfl

/-- A change of one stage keeps the number of stages. -/
@[simp] theorem size_modifyStageAt {w : Workflow β} {index : Nat} {f : Stage β → Stage β} :
    (w.modifyStageAt index f).size = w.size := by
  simp [modifyStageAt, size]

/-- **A stage that is added has a record**, and an id that had one keeps it. -/
theorem get?_enabled_addStage {w : Workflow β} {stage : Stage β} {id : String} :
    (w.addStage stage).enabled.get? id =
      if id = stage.id then some ((w.enabled.get? id).getD true) else w.enabled.get? id := by
  by_cases h : id = stage.id
  · subst h
    cases eq : w.enabled.get? stage.id <;>
      simp [addStage, Table.insertIfNew, Table.contains, eq, Table.get?_insert]
  · cases eq : w.enabled.get? stage.id <;>
      simp [addStage, Table.insertIfNew, Table.contains, eq, Table.get?_insert, h]

end Workflow

end StagedWorkflow
