import StagedWorkflow.Heap.Request
import StagedWorkflow.World
/-!
# Reports

Errors, outcomes and events in plain form, as they are answered to whoever
asked for a run.
-/

namespace StagedWorkflow

/-- A text on one line or over several, as asked for. -/
def Text.Outline.datum (outline : Text.Outline) (pretty : Bool := false) : Datum :=
  .text (outline.render pretty)

namespace StoreError

/-- The fields of a store error in plain form. -/
def fields (error : StoreError) : List (String × Datum) :=
  match error with
  | keyNotFound key =>
    [("error", .text "KeyNotFound"), ("key", .text key), ("message", .text error.message)]
  | typeMismatch key expected found =>
    [("error", .text "TypeMismatch"), ("key", .text key), ("expected", .text expected),
      ("found", .text found), ("message", .text error.message)]

/-- A store error in plain form. -/
def datum (error : StoreError) : Datum :=
  .record error.fields

end StoreError

namespace CancelReason

/-- A cancellation reason in plain form. -/
def datum (reason : CancelReason) : Datum :=
  .record [("error", .text reason.name), ("message", .text reason.message)]

/-- The status of a token in plain form. -/
def statusDatum : Except CancelReason Unit → Datum
  | .ok () => .text "live"
  | .error reason => reason.datum

end CancelReason

namespace RunError

/-- The name of a sort of run error. -/
def sortName : RunError → String
  | action _ _ _ _ => "ActionExecution"
  | cancelled _ _ _ => "Cancelled"
  | middleware _ => "Middleware"

/-- What is said of a run error of one sort only. -/
def details : RunError → List (String × Datum)
  | action _ _ actionName _ => [("action_name", .text actionName)]
  | cancelled workflowId checkpoint reason =>
    [("workflow_id", .text workflowId), ("checkpoint", .text checkpoint.message),
      ("reason", .text reason.name)]
  | middleware _ => []

/-- The fields of a run error in plain form. -/
def fields (error : RunError) : List (String × Datum) :=
  [("error", .text error.sortName), ("message", .text error.message),
    ("is_cancelled", .truth error.isCancelled), ("stage_id", .textOrNull error.stageId?),
    ("action_id", .textOrNull error.actionId?),
    ("sources", .texts (error.causes.map Fault.message))] ++ error.details

/-- A run error in plain form, with how it is shown if asked for. -/
def datum (error : RunError) (shown : Bool) (pretty : Bool := false) : Datum :=
  .record (error.fields ++ if shown then [("debug", error.outline.datum pretty)] else [])

end RunError

/-- An outcome in plain form. -/
def Outcome.datum (outcome : Outcome) (shown : Bool) : Datum :=
  match outcome with
  | .ok () => .text "ok"
  | .error error => error.datum shown

namespace Event

/-- An event in plain form. A record that was thrown away leaves none. -/
def datum? : Event → Option Datum
  | logged .recorder record =>
    some (.list [.text "log", .text record.level.name, .text record.message])
  | logged .facade record =>
    some (.list [.text "facade", .text logTarget, .text record.level.name, .text record.message])
  | logged .discard _ => none
  | reported who answer => some (.list [.text "out", .text who, answer])
  | noted layer answer => some (.list [.text "mwout", .text layer, answer])
  | entered layer => some (.list [.text "enter", .text layer])
  | returned layer outcome =>
    some (.list [.text "next", .text layer, Outcome.datum outcome false])
  | left layer => some (.list [.text "leave", .text layer])

end Event

end StagedWorkflow
