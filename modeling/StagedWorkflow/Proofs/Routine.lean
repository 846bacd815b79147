import StagedWorkflow.Proofs.Conduct
import StagedWorkflow.Session.RunnerSpec

/-!
# Layers that do not look at the logger

A layer may send records to the logger it was given and pass it on, and yet
have no way to read it. Such a layer is a `Routine`: a program that is shown
the workflow, the stores and the tokens, and can ask for three things only, to
call what is inside, to send a record, and to tell of something that is no
record. Which logger it is, and what is in the journal, is left to the
interpretation of the program (`Routine.interpret`), which makes a middleware
of it (`Routine.middleware`).

The layer that reports how long a run took is one of them
(`Routine.middleware_timing`), and so are layers given by their parts, if they
pass the logger on and their parts go by what a routine is shown
(`Routine.Parts.conduct_routine`). The layers that sessions describe have such
parts (`Session.LayerSpec.layer_parts`).
-/

namespace StagedWorkflow

variable {β : Type}

/-- What there is of an execution, besides its logger and the journal. -/
structure View (β : Type) where
  workflow : Workflow β
  heap : Heap
  signals : Signals

namespace View

/-- What is seen of a workflow in a world. -/
def of (workflow : Workflow β) (world : World) : View β :=
  ⟨workflow, world.heap, world.signals⟩

/-- The world that is seen, with a journal. -/
def world (view : View β) (journal : List Event) : World :=
  ⟨view.heap, view.signals, journal⟩

end View

/-- Whether an event is a record that is sent to a logger. -/
def Event.isRecord : Event → Bool
  | logged _ _ => true
  | reported _ _ | entered _ | noted _ _ | returned _ _ | left _ => false

/-- What can be told besides records. -/
abbrev Remark := { event : Event // event.isRecord = false }

namespace Routine

/-- What a routine can ask for. -/
inductive Request (β : Type) where
  /-- To execute what is inside, for a token and the logger that was given. -/
  | call (token : Token) (view : View β)
  /-- To send a record to the logger that was given. -/
  | send (record : Record)
  /-- To tell of something that is no record. -/
  | tell (remark : Remark)

/-- What a request is answered with: a call with what is seen then, and how it
has ended. -/
abbrev Answer : Request β → Type
  | .call _ _ => View β × Outcome
  | .send _ | .tell _ => Unit

/-- The requests of a routine with their answers. -/
abbrev signature (β : Type) : Signature := ⟨Request β, Answer⟩

end Routine

/-- **A layer that does not look at the logger**: what it does for a token,
going by what it sees. -/
abbrev Routine (β : Type) := Token → View β → Program (Routine.signature β) (View β × Outcome)

namespace Routine

variable {α γ : Type}

/-- The program of calls that is meant, for a logger: it carries the journal
along. -/
def interpret (logger : Logger) :
    Program (signature β) α → List Event → Program (Execution.signature β) (α × List Event)
  | .done a, journal => .done (a, journal)
  | .ask (.call token view) next, journal =>
    .ask ⟨token, logger, view.workflow, view.world journal⟩ fun result =>
      interpret logger (next (.of result.workflow result.world, result.outcome))
        result.world.journal
  | .ask (.send record) next, journal =>
    interpret logger (next ()) (journal ++ [.logged logger record])
  | .ask (.tell remark) next, journal => interpret logger (next ()) (journal ++ [remark.1])

/-- The conduct of a routine. -/
def conduct (routine : Routine β) : Conduct β := fun x => do
  let ((view, outcome), journal) ←
    interpret x.logger (routine x.token (.of x.workflow x.world)) x.world.journal
  pure ⟨view.workflow, view.world journal, outcome⟩

/-- The middleware that a routine is. -/
def middleware (routine : Routine β) : Middleware β :=
  routine.conduct.middleware

/-- **One program after another** is interpreted as one after the other, which
finds the journal that the first has left. -/
theorem interpret_bind {logger : Logger} {p : Program (signature β) α}
    {f : α → Program (signature β) γ} {journal : List Event} :
    interpret logger (p >>= f) journal =
      interpret logger p journal >>= fun (a, journal) => interpret logger (f a) journal := by
  induction p generalizing journal with
  | done => rfl
  | ask r next ih =>
    cases r with
    | call token view => exact congrArg (Program.ask _) (funext fun result => ih _)
    | send record => exact ih _
    | tell remark => exact ih _

/-- The layer that reports how long a run took. -/
def timing : Routine β := fun token view =>
  .ask (.call token view) fun (view, outcome) =>
    .ask (.send (.engine (Middleware.timingNotice ⟨view.workflow, view.world [], outcome⟩)))
      fun _ => .done (view, outcome)

theorem middleware_timing : timing.middleware = Middleware.timing (β := β) := by
  have same : timing.conduct = Middleware.timingConduct (β := β) := rfl
  rw [middleware, same]
  exact Middleware.timing_conduct.1

/-! ## Layers given by their parts -/

/-- The parts of a layer that passes its logger on, each of which goes by what
a routine is shown. -/
structure Parts (β : Type) where
  name : String
  /-- What is done before the calls, and told of it. -/
  before : View β → View β × List Remark
  /-- What is done after them. -/
  after : View β → View β × List Remark
  /-- How often what is inside is called, at most. -/
  calls : Nat
  /-- Go on calling after an error. -/
  keepGoing : Bool
  /-- The token of a call, made anew for each; the given one if there is none. -/
  token : Option (Signals → Token × Signals)
  cancel : Option Layer.Moment
  verdict : Layer.Verdict

/-- Tells of one thing after another. -/
def tellAll : List Remark → Program (signature β) Unit
  | [] => .done ()
  | remark :: rest => .ask (.tell remark) fun _ => tellAll rest

theorem interpret_tellAll {logger : Logger} {remarks : List Remark} {journal : List Event} :
    interpret (β := β) logger (tellAll remarks) journal =
      .done ((), journal ++ remarks.map Subtype.val) := by
  induction remarks generalizing journal with
  | nil => rw [List.map_nil, List.append_nil]; rfl
  | cons remark rest ih => rw [tellAll, interpret, ih, List.append_assoc]; rfl

namespace Parts

variable (l : Parts β)

/-- A part of a layer as a change of workflow and world. -/
def onWorld (part : View β → View β × List Remark) (workflow : Workflow β) (world : World) :
    Workflow β × World :=
  let (view, remarks) := part (.of workflow world)
  (view.workflow, view.world (world.journal ++ remarks.map Subtype.val))

/-- The layer of the parts. -/
def layer : Layer β where
  name := l.name
  before := onWorld l.before
  after := onWorld l.after
  calls := l.calls
  keepGoing := l.keepGoing
  token := l.token.map fun fresh world =>
    let (token, signals) := fresh world.signals
    (token, { world with signals })
  logger := none
  cancel := l.cancel
  verdict := l.verdict

/-- Cancels the token given, if this is the moment for it. -/
def cancelAt (moment : Layer.Moment) (token : Token) (view : View β) : View β :=
  if l.cancel = some moment then { view with signals := view.signals.cancel token } else view

/-- Calls what is inside once. -/
def callOnce (token : Token) (view : View β) : Program (signature β) (View β × Outcome) :=
  let (token, signals) :=
    match l.token with
    | none => (token, view.signals)
    | some fresh => fresh view.signals
  .ask (.call token { view with signals }) fun result =>
    .ask (.tell ⟨.returned l.name result.2, rfl⟩) fun _ => .done result

/-- Calls it up to a number of times. -/
def callTimes (token : Token) :
    Nat → View β × Outcome → Program (signature β) (View β × Outcome)
  | 0, last => .done last
  | calls + 1, last => do
    let result ← l.callOnce token last.1
    if result.2.isOk || l.keepGoing then callTimes token calls result else pure result

/-- Does what is done after the calls. -/
def finish (token : Token) (last : View β × Outcome) :
    Program (signature β) (View β × Outcome) := do
  let (view, remarks) := l.after (l.cancelAt .after token last.1)
  tellAll (remarks ++ [⟨.left l.name, rfl⟩])
  pure (view, l.verdict.apply last.2)

/-- The routine of the parts. -/
def routine : Routine β := fun token view => do
  let (view, remarks) := l.before (l.cancelAt .before token view)
  tellAll (⟨.entered l.name, rfl⟩ :: remarks)
  l.callTimes token l.calls (view, .ok ()) >>= l.finish token

variable {l} {logger : Logger} {token : Token}

theorem interpret_callOnce {workflow : Workflow β} {world : World} :
    interpret logger (l.callOnce token (.of workflow world)) world.journal =
      l.layer.callProgram token logger workflow world >>= fun last =>
        pure ((.of last.workflow last.world, last.outcome), last.world.journal) := by
  simp only [callOnce, Layer.callProgram, layer]
  cases l.token <;> rfl

theorem interpret_callTimes {calls : Nat} {last : Run.Result β} :
    interpret logger (l.callTimes token calls (.of last.workflow last.world, last.outcome))
        last.world.journal =
      l.layer.callsProgram token logger calls last >>= fun last =>
        pure ((.of last.workflow last.world, last.outcome), last.world.journal) := by
  induction calls generalizing last with
  | zero => rfl
  | succ calls ih =>
    rw [callTimes, Layer.callsProgram, interpret_bind, interpret_callOnce, bind_assoc, bind_assoc]
    refine congrArg (Bind.bind _) (funext fun result => ?_)
    rw [pure_bind]
    by_cases going : (result.outcome.isOk || l.keepGoing) = true
    · simp only [layer, going, if_true]
      exact ih
    · simp only [layer, going]
      rfl

theorem of_cancelAt {moment : Layer.Moment} {workflow : Workflow β} {world : World} :
    View.of workflow (l.layer.cancelAt moment token world) =
      l.cancelAt moment token (.of workflow world) := by
  by_cases now : l.cancel = some moment <;> simp only [Layer.cancelAt, cancelAt, layer, now] <;> rfl

theorem journal_cancelAt {moment : Layer.Moment} {world : World} :
    (l.layer.cancelAt moment token world).journal = world.journal := by
  by_cases now : l.cancel = some moment <;> simp [Layer.cancelAt, layer, now, World.cancel]

theorem interpret_finish {last : Run.Result β} :
    interpret logger (l.finish token (.of last.workflow last.world, last.outcome))
        last.world.journal =
      let (workflow, world) :=
        l.layer.after last.workflow (l.layer.cancelAt .after token last.world)
      let world := world.write (.left l.name)
      .done ((.of workflow world, l.verdict.apply last.outcome), world.journal) := by
  have told : (l.layer.cancelAt .after token last.world).journal = last.world.journal :=
    journal_cancelAt
  rw [finish, ← of_cancelAt, ← told]
  simp only [interpret_bind, interpret_tellAll, Program.done_bind, List.map_append]
  rw [← List.append_assoc]
  rfl

/-- **A layer given by such parts is a routine.** -/
theorem conduct_routine : l.routine.conduct = l.layer.conduct := by
  funext x
  -- where the calls begin
  let begun : World := l.layer.cancelAt .before x.token (x.world.write (.entered l.name))
  let first : Run.Result β :=
    ⟨(l.layer.before x.workflow begun).1, (l.layer.before x.workflow begun).2, .ok ()⟩
  have sees : View.of x.workflow begun = l.cancelAt .before x.token (.of x.workflow x.world) :=
    of_cancelAt
  have told : begun.journal = x.world.journal ++ [.entered l.name] := journal_cancelAt
  have starts : interpret x.logger (l.routine x.token (.of x.workflow x.world)) x.world.journal =
      interpret x.logger
        (l.callTimes x.token l.calls (.of first.workflow first.world, first.outcome) >>=
          l.finish x.token) first.world.journal := by
    rw [routine, ← sees]
    simp only [interpret_bind, interpret_tellAll, Program.done_bind, List.map_cons]
    rw [List.append_cons, ← told]
    rfl
  rw [Routine.conduct, starts, interpret_bind, interpret_callTimes]
  simp only [bind_assoc, pure_bind, interpret_finish]
  rfl

end Parts

end Routine

/-! ## Layers that sessions describe -/

namespace Session

open Script
open Routine (Parts)

/-- The workspace with another journal. -/
def Workspace.rewrite (journal : List Event) (w : Workspace) : Workspace :=
  { w with world := { w.world with journal } }

variable {defs : Definitions} {journal : List Event}

theorem Workspace.runStoreOp_rewrite {w : Workspace} {target : Option Selector} {op : StoreOp} :
    (w.rewrite journal).runStoreOp target op =
      ((w.runStoreOp target op).1, (w.runStoreOp target op).2.rewrite journal) := by
  have selects : (w.rewrite journal).select = w.select := by
    funext selector
    cases selector <;> rfl
  rw [runStoreOp, runStoreOp, selects]
  cases w.select (target.getD .workflow) with
  | none => rfl
  | some s =>
    have plays {α : Type} (history : Heap.History α) : (w.rewrite journal).play history =
        ((w.play history).1, (w.play history).2.rewrite journal) := rfl
    simp only [plays]
    rcases w.play (op.run s (op.selector?.bind w.select)).run with ⟨answer, after⟩
    cases answer <;> rfl

/-- **An operation on a workflow does not look at the journal.** -/
theorem WorkflowOp.run_rewrite {w : Workspace} {op : WorkflowOp} :
    op.run defs (w.rewrite journal) =
      ((op.run defs w).1, (op.run defs w).2.rewrite journal) := by
  cases op with
  | store target op => exact Workspace.runStoreOp_rewrite
  | query | setStageEnabled | enableAll | setTitle | insertTag | removeTag => rfl
  | addStage ref =>
    simp only [WorkflowOp.run]
    cases ref.resolve defs <;> rfl
  | detach name ref =>
    simp only [WorkflowOp.run]
    cases ref.resolve defs <;> rfl
  | attach name =>
    have same : (w.rewrite journal).detached = w.detached := rfl
    simp only [WorkflowOp.run, same]
    cases w.detached.get? name <;> rfl
  | stage which op =>
    have same : (w.rewrite journal).stage? which = w.stage? which := by cases which <;> rfl
    simp only [WorkflowOp.run, same]
    cases w.stage? which with
    | none => rfl
    | some found => cases op <;> cases which <;> rfl

/-- What is done by operations of a layer, and told of them. -/
def opsPart (defs : Definitions) (layer : String) (ops : List WorkflowOp) (view : View Script) :
    View Script × List Remark :=
  ops.foldl (fun (view, remarks) op =>
    let (answer, w) := op.run defs ⟨view.workflow, view.world [], ∅⟩
    (.of w.workflow w.world,
      if answer.isNull then remarks else remarks ++ [⟨.noted layer answer, rfl⟩]))
    (view, [])

/-- **The operations of a layer go by what a routine is shown.** -/
theorem runLayerOps_eq {layer : String} {ops : List WorkflowOp} :
    runLayerOps defs layer ops = Parts.onWorld (opsPart defs layer ops) := by
  funext workflow world
  -- what has been told so far is put after what was there
  let place (done : View Script × List Remark) : Workflow Script × World :=
    (done.1.workflow, done.1.world (world.journal ++ done.2.map Subtype.val))
  have begins : (workflow, world) = place (.of workflow world, []) := by
    simp [place, View.of, View.world]
  rw [runLayerOps, begins]
  refine List.foldl_hom place fun (view, remarks) op => ?_
  have here : (⟨view.workflow, view.world (world.journal ++ remarks.map Subtype.val), ∅⟩ :
      Workspace) = (⟨view.workflow, view.world [], ∅⟩ : Workspace).rewrite _ := rfl
  simp only [place, here, WorkflowOp.run_rewrite]
  split
  · rfl
  · simp only [List.map_append, ← List.append_assoc]
    rfl

/-- The parts of a layer that passes its logger on. -/
def LayerSpec.parts (defs : Definitions) (l : LayerSpec) : Parts Script where
  name := l.name
  before := opsPart defs l.name l.before
  after := opsPart defs l.name l.after
  calls := l.calls
  keepGoing := l.keepGoing
  token := l.token.map TokenKind.make
  cancel := l.cancel
  verdict := l.verdict

/-- **A layer that a session describes has such parts**, if it passes its
logger on. -/
theorem LayerSpec.layer_parts {l : LayerSpec} :
    (l.parts defs).layer = { l with logger := none }.build defs := by
  simp only [Parts.layer, parts, build, runLayerOps_eq, Option.map_map]
  rfl

end Session

end StagedWorkflow
