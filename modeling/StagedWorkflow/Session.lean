import StagedWorkflow.Session.Command
/-!
# Whole sessions

A session from its set-up to its last command, and what is told of it in
the end: the answers, the workflow as it was left, and the stages that were
left outside of it.
-/

namespace StagedWorkflow

/-- What a session starts from, and its commands. -/
structure Session where
  id : String
  name : String
  description : String
  tags : List String
  stages : List Script.StageRef
  store : List (String × Literal)
  runner : Session.Ref Session.RunnerSpec
  vocabulary : Session.Vocabulary
  commands : List Session.Command

namespace Session

open Script

/-- The stages that references stand for, in new stores. -/
def buildStages (defs : Definitions) (stages : List StageRef) :
    Heap.History (List (Stage Script)) :=
  (stages.filterMap (·.resolve defs)).mapM fun spec => spec.build defs

/-- The workflow a session starts from. -/
def setUp (s : Session) : Heap.History (Workflow Script) := do
  let store ← Heap.History.createFrom s.store
  let empty : Workflow Script := .titled s.id s.name s.description (.ofList s.tags) store
  return (← buildStages s.vocabulary.scripts s.stages).foldl Workflow.addStage empty

/-- A session before its first command. -/
def begin (s : Session) (time : Nat) : State :=
  let (workflow, world) := (World.startingAt time).play s.setUp
  ⟨⟨workflow, world, ∅⟩, s.vocabulary.runner s.runner, ∅⟩

/-- Carries out commands in order. -/
def answerAll (settings : Settings) : List Command → State → Option (List Datum × State)
  | [], s => some ([], s)
  | command :: rest, s => do
    let (answer, s) ← command.answer settings s
    let (answers, s) ← answerAll settings rest s
    return (answer :: answers, s)

/-- The stages outside the workflow, in plain form. -/
def detachedDatum (stages : List (String × Stage Script)) : Heap.History Datum :=
  .record <$> stages.mapM fun (name, stage) => return (name, ← stageDatum stage)

/-- Carries a session out, unless a run takes more steps than allowed. -/
def run (s : Session) (time steps : Nat) : Option Datum := do
  let (answers, last) ← answerAll ⟨s.vocabulary, steps⟩ s.commands (s.begin time)
  let (final, w) := last.workspace.play (workflowDatum last.workspace.workflow)
  let (detached, _) := w.play (detachedDatum w.detached.toList)
  return .record [("steps", .list answers), ("final", final), ("detached", detached)]

end Session

end StagedWorkflow
