import StagedWorkflow.Script.Instruction
import StagedWorkflow.Invocation
/-!
# Carrying scripts out

What an action does whose code is a script: its instructions become the
requests of an invocation, one after another, until the script is over or
an instruction fails. The answer of each instruction is reported under the
id of the action, unless it is empty.
-/

namespace StagedWorkflow

namespace Script

/-- What a script does: requests, ended early by a fault. -/
abbrev Act := ExceptT Fault (Program (Invocation.signature Script))

namespace Act

variable {α : Type}

/-- Makes one request. -/
def ask (r : Invocation.Request Script) : Act (Invocation.Answer r) :=
  ExceptT.lift (Program.request (S := Invocation.signature Script) r)

/-- Plays a history on the heap. -/
def play (history : Heap.History α) : Act α :=
  ExceptT.lift (history.embed (T := Invocation.signature Script) .heap fun _ answer => answer)

end Act

/-- The store that a selector stands for, inside an action. -/
def Selector.inAction : Selector → Act (Option StoreId)
  | .current => return some (← Act.ask .stage).initial
  | .workflow => return some (← Act.ask .here).store
  | .stage id => return (Workflow.stage? (← Act.ask .workflow) id).map (·.initial)
  | .number _ | .detached _ | .nowhere => pure none

/-- The store that a selector stands for, if there is a selector. -/
def Selector.inAction? (selector : Option Selector) : Act (Option StoreId) :=
  match selector with
  | none => pure none
  | some selector => selector.inAction

/-- Carries out a store operation inside an action. -/
def StoreOp.inAction (target : Option Selector) (raise : Bool) (op : StoreOp) : Act Datum := do
  match ← (target.getD .workflow).inAction with
  | none => pure (.text "no store")
  | some s =>
    let other ← Selector.inAction? op.selector?
    match ← Act.play (op.run s other).run with
    | .ok answer => pure answer
    | .error error => if raise then throw (.store error) else pure error.datum

/-- The stage that an instruction asks about. -/
def stageInAction : Option String → Act (Option (Stage Script))
  | none => some <$> Act.ask .stage
  | some id => return Workflow.stage? (← Act.ask .workflow) id

/-- Requests a change of structure. -/
def requestChange (mutation : Mutation Script) : Act Datum := do
  let _ ← Act.ask (.record mutation)
  pure .null

mutual

/-- Carries out an instruction, and gives its answer. -/
def Instruction.run (defs : Definitions) (who : String) : Instruction → Act Datum
  | .store target raise op => op.inAction target raise
  | .stage id query => do
    match ← stageInAction id with
    | none => pure (.text "no stage")
    | some stage => Act.play (query.answer stage)
  | .workflow query => do Act.play (query.answer (← Act.ask .workflow))
  | .say answer => pure answer
  | .here => do
    let here ← Act.ask .here
    return .texts [here.workflowId, here.stageId]
  | .pending => return .count (← Act.ask .pending)
  | .log level text => do
    Act.ask (.log level text)
    pure .null
  | .fail fault => throw fault
  | .cancel => do
    Act.ask .cancel
    pure .null
  | .isCancelled => return .truth !(← Act.ask .check).isOk
  | .check raise => do
    match ← Act.ask .check with
    | .ok () => pure (CancelReason.statusDatum (.ok ()))
    | .error reason => if raise then throw (.cancel reason) else pure reason.datum
  | .addAction action =>
    match action.resolve defs with
    | none => pure .null
    | some spec => requestChange (.addAction spec.build)
  | .addStage stage =>
    match stage.resolve defs with
    | none => pure .null
    | some spec => do requestChange (.addStage (← Act.play (spec.build defs)))
  | .setActionEnabled id enabled => requestChange (.setActionEnabled id enabled)
  | .setStageEnabled id enabled => requestChange (.setStageEnabled id enabled)
  -- the answer of the condition is not reported
  | .branch condition test yes no => do
    if test.passes (← condition.run defs who) then runAll defs who yes else runAll defs who no
    pure .null

/-- Carries out instructions in order, and reports their answers. -/
def runAll (defs : Definitions) (who : String) : List Instruction → Act Unit
  | [] => pure ()
  | instruction :: rest => do
    let answer ← instruction.run defs who
    if !answer.isNull then Act.ask (.report who answer)
    runAll defs who rest

end

/-- What an action does whose code is a script. Its answers are reported
under the action's id. -/
def behave (defs : Definitions) (action : Action Script) : Behaviour Script :=
  (runAll defs action.id action.code).run

end Script

end StagedWorkflow
