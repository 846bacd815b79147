import StagedWorkflow.Text.Outline
/-!
# Errors

What can go wrong: a store does not hold what was asked of it
(`StoreError`), a cancellation token is done (`CancelReason`), an action
fails (`Fault`), and a run ends early (`RunError`). A fault can hold a run
error and a run error a fault, so causes nest to any depth; `causes` lists
them from the outside in.
-/

namespace StagedWorkflow

open Text (Outline)

/-- Why a value could not be read from a store. -/
inductive StoreError where
  | keyNotFound (key : String)
  | typeMismatch (key expected found : String)
  deriving DecidableEq

/-- Why a cancellation token is done. -/
inductive CancelReason where
  | cancelled
  | deadlineExceeded
  deriving DecidableEq

/-- Where a run was cancelled: before a stage, before an action of a stage,
or at a place described in words. -/
inductive Checkpoint where
  | stage (id : String)
  | action (id stageId : String)
  | named (description : String)
  deriving DecidableEq

mutual

/-- Why an action, or a layer around a run, failed. -/
inductive Fault where
  | text (message : String)
  | store (error : StoreError)
  | cancel (reason : CancelReason)
  | run (error : RunError)

/-- Why a run ended early. -/
inductive RunError where
  /-- An action failed, and the run stopped at it. -/
  | action (stageId actionId actionName : String) (source : Fault)
  /-- The token was done before a stage or an action. -/
  | cancelled (workflowId : String) (checkpoint : Checkpoint) (reason : CancelReason)
  /-- A layer around the run failed on its own account. -/
  | middleware (source : Fault)

end

instance : Inhabited Fault := ⟨.text ""⟩

/-- How a run ended. -/
abbrev Outcome := Except RunError Unit

namespace StoreError

/-- The text of a store error. -/
def message : StoreError → String
  | keyNotFound key => s!"key not found: '{key}'"
  | typeMismatch key expected found =>
    s!"type mismatch for key '{key}': expected {expected}, found {found}"

/-- How a store error is shown. -/
def outline : StoreError → Outline
  | keyNotFound key => .parts "KeyNotFound" [.text key]
  | typeMismatch key expected found =>
    .fields "TypeMismatch"
      [("key", .text key), ("expected", .text expected), ("found", .text found)]

end StoreError

namespace CancelReason

/-- The text of a cancellation reason. -/
def message : CancelReason → String
  | cancelled => "context cancelled"
  | deadlineExceeded => "context deadline exceeded"

/-- The name of a cancellation reason. -/
def name : CancelReason → String
  | cancelled => "Cancelled"
  | deadlineExceeded => "DeadlineExceeded"

/-- How a cancellation reason is shown. -/
def outline (reason : CancelReason) : Outline :=
  .leaf reason.name

end CancelReason

namespace Checkpoint

/-- A checkpoint in words. -/
def message : Checkpoint → String
  | stage id => s!"stage '{id}'"
  | action id stageId => s!"action '{id}' of stage '{stageId}'"
  | named description => description

end Checkpoint

mutual

/-- The text of a fault. -/
def Fault.message : Fault → String
  | .text message => message
  | .store error => error.message
  | .cancel reason => reason.message
  | .run error => error.message

/-- The text of a run error, which ends with the text of its cause. -/
def RunError.message : RunError → String
  | .action stageId actionId actionName source =>
    s!"action '{actionId}' ({actionName}) in stage '{stageId}' failed: " ++ source.message
  | .cancelled workflowId checkpoint reason =>
    s!"workflow '{workflowId}' cancelled before " ++ checkpoint.message ++ ": " ++ reason.message
  | .middleware source => "middleware error: " ++ source.message

end

mutual

/-- How a fault is shown. -/
def Fault.outline : Fault → Outline
  | .text message => .text message
  | .store error => error.outline
  | .cancel reason => reason.outline
  | .run error => error.outline

/-- How a run error is shown. -/
def RunError.outline : RunError → Outline
  | .action stageId actionId actionName source =>
    .fields "ActionExecution"
      [("stage_id", .text stageId), ("action_id", .text actionId),
        ("action_name", .text actionName), ("source", source.outline)]
  | .cancelled workflowId checkpoint reason =>
    .fields "Cancelled"
      [("workflow_id", .text workflowId), ("checkpoint", .text checkpoint.message),
        ("reason", reason.outline)]
  | .middleware source => .parts "Middleware" [source.outline]

end

mutual

/-- The causes of a fault, from the outside in. -/
def Fault.causes : Fault → List Fault
  | .run error => error.causes
  | .text _ | .store _ | .cancel _ => []

/-- The causes of a run error, from the outside in. The reason of a
cancellation is part of it and not a cause. -/
def RunError.causes : RunError → List Fault
  | .action _ _ _ source => source :: source.causes
  | .cancelled _ _ _ => []
  | .middleware source => source :: source.causes

end

namespace RunError

/-- Whether the run was cancelled, rather than failed. -/
def isCancelled : RunError → Bool
  | cancelled _ _ _ => true
  | action _ _ _ _ | middleware _ => false

/-- The stage the error is put down to, if it is an action's. -/
def stageId? : RunError → Option String
  | action stageId _ _ _ => some stageId
  | cancelled _ _ _ | middleware _ => none

/-- The action the error is put down to, if it is an action's. -/
def actionId? : RunError → Option String
  | action _ actionId _ _ => some actionId
  | cancelled _ _ _ | middleware _ => none

end RunError

end StagedWorkflow
