import StagedWorkflow.Error
/-!
# Log records

What a run tells its logger. The engine's own records are notices: each
says what happened, and where in the run, and has a level and a text. An
action can send records of its own besides.
-/

namespace StagedWorkflow

/-- The severity of a record. -/
inductive Level where
  | error | warn | info | debug | trace
  deriving DecidableEq

/-- The name of a level. -/
def Level.name : Level → String
  | error => "ERROR"
  | warn => "WARN"
  | info => "INFO"
  | debug => "DEBUG"
  | trace => "TRACE"

/-- Where records are sent. -/
inductive Logger where
  /-- Kept for inspection. -/
  | recorder
  /-- Passed on to the process-wide log. -/
  | facade
  /-- Thrown away. -/
  | discard
  deriving DecidableEq

/-- The name under which records are passed on to the process-wide log. -/
def logTarget : String := "stagerunner"

/-- The logger of a runner that was given none. -/
def Logger.standard : Logger := .facade

/-- The loggers that have been made, each known by its number, and the number
of the shared one once somebody has asked for it. -/
structure Loggers where
  made : List Logger := []
  shared : Option Nat := none
  /-- The shared logger has been made, and is the standard one. -/
  shared_made : ∀ number ∈ shared, made[number]? = some .standard := by simp

/-- The number of the shared logger, which is made when it is first asked
for. -/
def Loggers.share (l : Loggers) : Nat × Loggers :=
  match l.shared with
  | some number => (number, l)
  | none => (l.made.length, ⟨l.made ++ [.standard], some l.made.length, by simp⟩)

/-- Where a stage stands that is executed: at a position of the workflow's
list, or outside it. -/
inductive Place where
  | member (index : Nat)
  | detached
  deriving DecidableEq

/-- What the engine reports. -/
inductive Notice where
  | workflowStarting (workflowId : String) (stages : Nat)
  | workflowCancelled (index : Nat) (workflowId stageId : String) (reason : CancelReason)
  | stageSkipped (index : Nat) (stageId : String)
  | workflowCompleted (workflowId : String) (executed stages : Nat)
  | stageCancelled (place : Place) (stageId : String) (reason : CancelReason)
  | stageStarting (place : Place) (stageId : String) (actions : Nat)
  | initialMerged (place : Place) (stageId : String) (keys : Nat)
  | actionCancelled (place : Place) (index : Nat) (stageId actionId : String)
      (reason : CancelReason)
  | actionSkipped (place : Place) (index : Nat) (stageId actionId : String)
  | actionExecuting (place : Place) (index : Nat) (stageId actionId actionName : String)
  | actionFailed (place : Place) (index : Nat) (stageId actionId : String) (source : Fault)
  | stageCompleted (place : Place) (stageId : String) (executed : Nat)
  | actionAdded (actionId stageId : String)
  | stageAdded (stageId : String)
  | actionUnknown (enabled : Bool) (actionId stageId : String)
  | stageUnknown (enabled : Bool) (stageId : String)
  | optionsMerged (keys : Nat) (workflowId : String)
  | runFinished (workflowId : String)
  | runFailed (workflowId : String) (error : RunError)

namespace Notice

/-- The severity of a notice. -/
def level : Notice → Level
  | workflowStarting _ _ | workflowCompleted _ _ _ | stageStarting _ _ _
  | stageCompleted _ _ _ | runFinished _ => .info
  | workflowCancelled _ _ _ _ | stageCancelled _ _ _ | actionCancelled _ _ _ _ _
  | actionUnknown _ _ _ | stageUnknown _ _ | runFailed _ _ => .warn
  | stageSkipped _ _ | initialMerged _ _ _ | actionSkipped _ _ _ _
  | actionExecuting _ _ _ _ _ | actionAdded _ _ | stageAdded _ | optionsMerged _ _ => .debug
  | actionFailed _ _ _ _ _ => .error

/-- The text of a notice. A measured duration stands as a placeholder. -/
def message : Notice → String
  | workflowStarting workflowId stages => s!"Starting workflow '{workflowId}' ({stages} stages)"
  | workflowCancelled _ workflowId stageId reason =>
    s!"Workflow '{workflowId}' cancelled before stage '{stageId}': " ++ reason.message
  | stageSkipped _ stageId => s!"Skipping disabled stage '{stageId}'"
  | workflowCompleted workflowId executed stages =>
    s!"Workflow '{workflowId}' completed ({executed} of {stages} stages executed)"
  | stageCancelled _ stageId reason =>
    s!"Stage '{stageId}' cancelled before it started: " ++ reason.message
  | stageStarting _ stageId actions => s!"Starting stage '{stageId}' ({actions} actions)"
  | initialMerged _ stageId keys =>
    s!"Stage '{stageId}' merged {keys} initial keys into the store"
  | actionCancelled _ _ stageId actionId reason =>
    s!"Stage '{stageId}' cancelled before action '{actionId}': " ++ reason.message
  | actionSkipped _ _ stageId actionId =>
    s!"Skipping disabled action '{actionId}' in stage '{stageId}'"
  | actionExecuting _ _ stageId actionId actionName =>
    s!"Executing action '{actionId}' ({actionName}) in stage '{stageId}'"
  | actionFailed _ _ stageId actionId source =>
    s!"Action '{actionId}' in stage '{stageId}' failed: " ++ source.message
  | stageCompleted _ stageId executed =>
    s!"Stage '{stageId}' completed ({executed} actions executed)"
  | actionAdded actionId stageId => s!"Adding dynamic action '{actionId}' to stage '{stageId}'"
  | stageAdded stageId => s!"Adding dynamic stage '{stageId}'"
  | actionUnknown enabled actionId stageId =>
    "Cannot " ++ (if enabled then "enable" else "disable")
      ++ s!" unknown action '{actionId}' in stage '{stageId}'"
  | stageUnknown enabled stageId =>
    s!"Recording enabled={enabled} for unknown stage '{stageId}'"
  | optionsMerged keys workflowId =>
    s!"Merged {keys} run option keys into workflow '{workflowId}'"
  | runFinished workflowId => s!"Workflow '{workflowId}' finished in <t>"
  | runFailed workflowId error => s!"Workflow '{workflowId}' failed after <t>: " ++ error.message

end Notice

/-- One record sent to a logger. -/
inductive Record where
  /-- A notice of the engine. -/
  | engine (notice : Notice)
  /-- A record sent by an action. -/
  | custom (level : Level) (text : String)

namespace Record

/-- The severity of a record. -/
def level : Record → Level
  | engine notice => notice.level
  | custom level _ => level

/-- The text of a record. -/
def message : Record → String
  | engine notice => notice.message
  | custom _ text => text

end Record

end StagedWorkflow
