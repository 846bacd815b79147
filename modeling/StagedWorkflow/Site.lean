import StagedWorkflow.Invocation
/-!
# Sites

A site is a workflow together with the stage that is executed against it.
The stage is a member of the workflow's list, or stands outside of it; both
take mutations alike (`Site.stage?_modifyStage`). Queued mutations are
applied one by one, in order (`Site.applyAll_append`).
-/

namespace StagedWorkflow

/-- The stage that is executed: by its position, or itself. -/
inductive Seat (β : Type) where
  | member (index : Nat)
  | detached (stage : Stage β)

/-- A workflow and the stage that is executed against it. -/
structure Site (β : Type) where
  workflow : Workflow β
  seat : Seat β

namespace Site

variable {β : Type}

/-- Where the stage stands. -/
def place (s : Site β) : Place :=
  match s.seat with
  | .member index => .member index
  | .detached _ => .detached

/-- The stage that is executed. -/
def stage? (s : Site β) : Option (Stage β) :=
  match s.seat with
  | .member index => s.workflow.stages[index]?
  | .detached stage => some stage

/-- The action at a position of the stage, with its flag. -/
def slot? (s : Site β) (index : Nat) : Option (Slot β) :=
  s.stage?.bind (·.slots[index]?)

/-- Changes the stage that is executed. -/
def modifyStage (s : Site β) (f : Stage β → Stage β) : Site β :=
  match s.seat with
  | .member index => { s with workflow := s.workflow.modifyStageAt index f }
  | .detached stage => { s with seat := .detached (f stage) }

/-- Changes the workflow. -/
def modifyWorkflow (s : Site β) (f : Workflow β → Workflow β) : Site β :=
  { s with workflow := f s.workflow }

/-- What is reported when a mutation is applied. -/
def notices (s : Site β) : Mutation β → List Notice
  | .addAction action => (s.stage?.map fun stage => .actionAdded action.id stage.id).toList
  | .addStage stage => [.stageAdded stage.id]
  | .setActionEnabled id enabled =>
    match s.stage? with
    | none => []
    | some stage =>
      if (stage.setActionEnabled id enabled).1 then [] else [.actionUnknown enabled id stage.id]
  -- the record of an id is written whether there is a stage or not
  | .setStageEnabled id enabled =>
    if (s.workflow.stage? id).isSome then [] else [.stageUnknown enabled id]

/-- Applies one mutation. -/
def apply (s : Site β) : Mutation β → Site β
  | .addAction action => s.modifyStage (·.addAction action)
  | .addStage stage => s.modifyWorkflow (·.addStage stage)
  | .setActionEnabled id enabled => s.modifyStage fun stage => (stage.setActionEnabled id enabled).2
  | .setStageEnabled id enabled => s.modifyWorkflow (·.setStageEnabled id enabled)

/-- Applies a queue of mutations in order, with what is reported. -/
def applyAll (s : Site β) : List (Mutation β) → List Notice × Site β
  | [] => ([], s)
  | mutation :: rest =>
    let (later, done) := (s.apply mutation).applyAll rest
    (s.notices mutation ++ later, done)

/-- A change of the stage that is executed changes that stage, wherever it
stands. -/
@[simp] theorem stage?_modifyStage {s : Site β} {f : Stage β → Stage β} :
    (s.modifyStage f).stage? = s.stage?.map f := by
  obtain ⟨workflow, seat⟩ := s
  cases seat <;> simp [modifyStage, stage?, Workflow.modifyStageAt]

@[simp] theorem place_apply {s : Site β} {mutation : Mutation β} :
    (s.apply mutation).place = s.place := by
  obtain ⟨workflow, seat⟩ := s
  cases mutation <;> cases seat <;> rfl

@[simp] theorem applyAll_nil {s : Site β} : s.applyAll [] = ([], s) := rfl

/-- Two queues are applied as the one that holds both. -/
theorem applyAll_append {s : Site β} {first second : List (Mutation β)} :
    s.applyAll (first ++ second) =
      ((s.applyAll first).1 ++ ((s.applyAll first).2.applyAll second).1,
        ((s.applyAll first).2.applyAll second).2) := by
  induction first generalizing s with
  | nil => simp
  | cons mutation rest ih => simp [applyAll, ih]

end Site

end StagedWorkflow
