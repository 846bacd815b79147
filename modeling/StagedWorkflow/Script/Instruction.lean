import StagedWorkflow.Script.Query
import StagedWorkflow.Script.StoreOp
/-!
# Scripts

A script is the code of an action: a list of instructions, carried out in
order. An instruction works on stores, asks about the workflow, talks to
the logger or the token, requests changes of structure, fails, or chooses
between two scripts. Actions and stages that a script adds are given by
specifications, spelled out or by the name of a definition.
-/

namespace StagedWorkflow

namespace Script

/-- How the identity of an action is made. -/
inductive Naming where
  /-- Id and name are trimmed. -/
  | titled
  /-- The id is taken as it is, and is the name too. -/
  | bare
  deriving DecidableEq

/-- What the answer of a condition is held against. -/
inductive Test where
  /-- The answer is true. -/
  | holds
  /-- The answer is a whole number below a bound. -/
  | below (bound : Int)
  /-- The answer is a given one. -/
  | equals (answer : Datum)

/-- Whether an answer passes a test. -/
def Test.passes : Test → Datum → Bool
  | holds, answer => answer.same (.truth true)
  | below bound, answer => answer.isBelow bound
  | equals wanted, answer => answer.same wanted

mutual

/-- One instruction of a script. -/
inductive Instruction where
  /-- An operation on a store, the workflow's if none is named. A store
  error is raised, or answered. -/
  | store (target : Option Selector) (raise : Bool) (op : StoreOp)
  /-- A question about a stage of the workflow, or the current one. -/
  | stage (id : Option String) (query : StageQuery)
  | workflow (query : WorkflowQuery)
  | say (answer : Datum)
  | here
  | pending
  | log (level : Level) (text : String)
  | fail (fault : Fault)
  | cancel
  | isCancelled
  | check (raise : Bool)
  | addAction (action : ActionRef)
  | addStage (stage : StageRef)
  | setActionEnabled (id : String) (enabled : Bool)
  | setStageEnabled (id : String) (enabled : Bool)
  | branch (condition : Instruction) (test : Test) (yes no : List Instruction)

/-- An action, spelled out. -/
inductive ActionSpec where
  | mk (naming : Naming) (id name description : String) (tags : List String)
      (body : List Instruction)

/-- An action, spelled out or by name. -/
inductive ActionRef where
  | named (name : String)
  | literal (spec : ActionSpec)

/-- A stage, spelled out. -/
inductive StageSpec where
  | mk (id name description : String) (tags : List String)
      (initial : List (String × Literal)) (actions : List ActionRef) (disabled : List String)

/-- A stage, spelled out or by name. -/
inductive StageRef where
  | named (name : String)
  | literal (spec : StageSpec)

end

end Script

/-- The code of an action: its instructions, in order. -/
abbrev Script := List Script.Instruction

namespace Script

/-- The specifications that have a name. -/
structure Definitions where
  actions : List (String × ActionSpec)
  stages : List (String × StageSpec)

/-- The action that a specification describes. -/
def ActionSpec.build : ActionSpec → Action Script
  | .mk .titled id name description tags body =>
    ⟨.titled id name description (.ofList tags), body⟩
  | .mk .bare id _ _ tags body => ⟨.bare id (.ofList tags), body⟩

/-- The specification that is meant, if its name is defined. -/
def ActionRef.resolve (defs : Definitions) : ActionRef → Option ActionSpec
  | .named name => defs.actions.lookup name
  | .literal spec => some spec

/-- The specification that is meant, if its name is defined. -/
def StageRef.resolve (defs : Definitions) : StageRef → Option StageSpec
  | .named name => defs.stages.lookup name
  | .literal spec => some spec

/-- The stage that a specification describes. Its initial data is put into
a new store, and its disabled actions are switched off when all are there. -/
def StageSpec.build (defs : Definitions) : StageSpec → Heap.History (Stage Script)
  | .mk id name description tags initial actions disabled => do
    let initial ← Heap.History.createFrom initial
    let empty : Stage Script := .titled id name description (.ofList tags) initial
    -- a name that is not defined stands for no action
    let built := actions.filterMap fun action => (action.resolve defs).map ActionSpec.build
    let full := built.foldl Stage.addAction empty
    return disabled.foldl (fun stage id => (stage.setActionEnabled id false).2) full

end Script

end StagedWorkflow
