import StagedWorkflow.Action
import StagedWorkflow.Store
/-!
# Stages

A stage is an ordered list of actions, each with a flag that says whether
it is enabled, and a store of initial data that is merged into the
workflow's store when the stage starts. Actions are appended and switched
on or off, and never removed, so a position keeps meaning the same action.
Ids need not be unique: a look-up finds the first of an id, a switch sets
all of them.
-/

namespace StagedWorkflow

open Text (Outline trim)

/-- An action of a stage with its flag. -/
structure Slot (β : Type) where
  action : Action β
  enabled : Bool

/-- An ordered group of actions. -/
structure Stage (β : Type) where
  id : String
  name : String
  description : String
  tags : TagSet
  slots : List (Slot β)
  /-- The store of initial data. -/
  initial : StoreId

namespace Stage

variable {β : Type}

/-- A stage without actions, whose id and name are trimmed. -/
def titled (id name description : String) (tags : TagSet) (initial : StoreId) : Stage β :=
  ⟨trim id, trim name, description, tags, [], initial⟩

instance : Tagged (Stage β) := ⟨Stage.tags⟩

/-- The number of actions, disabled ones included. -/
def size (s : Stage β) : Nat :=
  s.slots.length

/-- Whether there are no actions. -/
def isEmpty (s : Stage β) : Bool :=
  s.slots.isEmpty

/-- The actions in order, disabled ones included. -/
def actions (s : Stage β) : List (Action β) :=
  s.slots.map Slot.action

/-- The first action of an id. -/
def action? (s : Stage β) (id : String) : Option (Action β) :=
  s.actions.find? (·.id == id)

/-- The stage with one more action at its end, enabled. -/
def addAction (s : Stage β) (action : Action β) : Stage β :=
  { s with slots := s.slots ++ [⟨action, true⟩] }

/-- Sets the flag of every action of an id, and answers whether there was
one. -/
def setActionEnabled (s : Stage β) (id : String) (enabled : Bool) : Bool × Stage β :=
  (s.slots.any (·.action.id == id),
    { s with slots := s.slots.map fun slot =>
        if slot.action.id == id then { slot with enabled } else slot })

/-- Whether some action of an id is enabled. -/
def isActionEnabled (s : Stage β) (id : String) : Bool :=
  s.slots.any fun slot => slot.enabled && slot.action.id == id

/-- The actions whose tags pass a test, in order, disabled ones included. -/
def actionsWhere (s : Stage β) (test : TagSet → Bool) : List (Action β) :=
  (s.slots.filter fun slot => test slot.action.identity.tags).map Slot.action

/-- The actions that carry a tag. -/
def actionsWithTag (s : Stage β) (tag : String) : List (Action β) :=
  s.actionsWhere (·.contains tag)

/-- The actions that carry every one of some tags. -/
def actionsWithAllTags (s : Stage β) (tags : List String) : List (Action β) :=
  s.actionsWhere (·.containsAll tags)

/-- The actions that carry at least one of some tags. -/
def actionsWithAnyTag (s : Stage β) (tags : List String) : List (Action β) :=
  s.actionsWhere (·.containsAny tags)

/-- How a stage is shown, with the entries of its initial data. -/
def outline (s : Stage β) (initial : Store) : Outline :=
  .fields "Stage"
    [("id", .text s.id), ("name", .text s.name), ("tags", s.tags.outline),
      ("actions", .list (s.actions.map fun a => .text a.id)), ("initial_data", initial.outline)]

@[simp] theorem slots_addAction {s : Stage β} {action : Action β} :
    (s.addAction action).slots = s.slots ++ [⟨action, true⟩] := rfl

@[simp] theorem size_addAction {s : Stage β} {action : Action β} :
    (s.addAction action).size = s.size + 1 := by
  simp [size]

@[simp] theorem size_setActionEnabled {s : Stage β} {id : String} {enabled : Bool} :
    (s.setActionEnabled id enabled).2.size = s.size := by
  simp [size, setActionEnabled]

/-- A switch keeps every action in its place. -/
@[simp] theorem actions_setActionEnabled {s : Stage β} {id : String} {enabled : Bool} :
    (s.setActionEnabled id enabled).2.actions = s.actions := by
  simp only [setActionEnabled, actions, List.map_map]
  refine List.map_congr_left fun slot _ => ?_
  simp only [Function.comp_apply]
  split <;> rfl

end Stage

end StagedWorkflow
