import StagedWorkflow.Action
import StagedWorkflow.Report
import StagedWorkflow.Log
/-!
# Samples

How single identities and errors look in all their forms, and what the
library says about itself.
-/

namespace StagedWorkflow

/-- The name of the library. -/
def appName : String := "StageRunner"

/-- The version of the library. -/
def version : String := "0.1.0"

namespace Session

/-- An identity as id, name, description and tags. -/
def identityDatum (identity : Identity) : Datum :=
  .list [.text identity.id, .text identity.name, .text identity.description,
    .texts identity.tags.toList]

/-- An identity by itself and as that of an action, and whether it is the
empty one or equal to another. -/
def sampleIdentity (identity : Identity) (other : Option Identity) (pretty : Bool) : Datum :=
  let action : Action Unit := ⟨identity, ()⟩
  .record ([("base", identityDatum identity), ("fn", identityDatum action.identity),
    ("base_debug", identity.outline.datum pretty), ("fn_debug", action.outline.datum pretty),
    ("is_default", .truth (decide (identity = .bare "")))] ++
    other.toList.map fun other => ("eq", .truth (decide (identity = other))))

/-- A run error in all its forms. -/
def sampleRunError (error : RunError) (pretty : Bool) : Datum :=
  error.datum true pretty

/-- A cancellation reason in all its forms. -/
def sampleReason (reason : CancelReason) (pretty : Bool) : Datum :=
  .record [("message", .text reason.message), ("debug", reason.outline.datum pretty)]

/-- A store error in all its forms, and whether it is equal to another. -/
def sampleStoreError (error : StoreError) (other : Option StoreError) (pretty : Bool) : Datum :=
  .record (error.fields ++ [("debug", error.outline.datum pretty)] ++
    other.toList.map fun other => ("eq", .truth (decide (error = other))))

/-- What the library says about itself, and whether the logger that is given
to two who have none is the same. -/
def about (pretty : Bool) : Datum :=
  let (first, loggers) := ({} : Loggers).share
  let (second, _) := loggers.share
  .record [("version", .text version), ("app", .text appName), ("target", .text logTarget),
    ("merge_options", ({} : MergeOptions).outline.datum pretty),
    ("default_logger_shared", .truth (first == second))]

end Session

end StagedWorkflow
