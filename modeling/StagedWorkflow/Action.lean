import StagedWorkflow.TagSet
import StagedWorkflow.Text.Blank
/-!
# Actions

An action is the unit of work of a stage: an identity, and the code that is
carried out when its turn comes. What code is, is left open here; the
engine is told how to carry it out.
-/

namespace StagedWorkflow

open Text (Outline trim)

/-- What an action is called. -/
structure Identity where
  id : String
  name : String
  description : String
  tags : TagSet
  deriving DecidableEq

namespace Identity

/-- An identity whose id and name are trimmed. -/
def titled (id name : String) (description : String := "") (tags : TagSet := ∅) : Identity :=
  ⟨trim id, trim name, description, tags⟩

/-- The identity of a thing known by its id alone, which is taken as it is. -/
def bare (id : String) (tags : TagSet := ∅) : Identity :=
  ⟨id, id, "", tags⟩

/-- How an identity is shown. -/
def outline (identity : Identity) : Outline :=
  .fields "BaseAction"
    [("id", .text identity.id), ("name", .text identity.name),
      ("description", .text identity.description), ("tags", identity.tags.outline)]

end Identity

/-- A unit of work with code of type `β`. -/
structure Action (β : Type) where
  identity : Identity
  code : β

namespace Action

variable {β : Type}

/-- The id of an action. -/
abbrev id (a : Action β) : String := a.identity.id

/-- The name of an action. -/
abbrev name (a : Action β) : String := a.identity.name

instance : Tagged (Action β) := ⟨fun a => a.identity.tags⟩

/-- How an action is shown: its identity, but not its code. -/
def outline (a : Action β) : Outline :=
  .fields "FnAction" [("base", a.identity.outline)] true

end Action

end StagedWorkflow
