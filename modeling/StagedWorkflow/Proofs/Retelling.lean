import StagedWorkflow.Proofs.Simulation
import StagedWorkflow.Proofs.Turn

/-!
# Journals told otherwise

Nothing that a run does depends on its journal or on the logger it was
given: records are only ever added. So the journal of a run can be told
otherwise, with other events before it or another logger in it, and the run
is the same but for the telling (`Run.run_retell`), and so are its calls
(`Run.calls_retell`). `Tells` is what a telling must keep to: a record that
is added is added to the journal as told.
-/

namespace StagedWorkflow

variable {β : Type} {c : Setting β} {old new : Logger} {tell : List Event → List Event}

/-- That a telling of journals takes what is sent to a logger for the same
sent to another, and leaves reports as they are. -/
structure Tells (old new : Logger) (tell : List Event → List Event) : Prop where
  logged : ∀ journal record,
    tell (journal ++ [.logged old record]) = tell journal ++ [.logged new record]
  reported : ∀ journal who answer,
    tell (journal ++ [.reported who answer]) = tell journal ++ [.reported who answer]

/-- Events can be told before all others. -/
theorem tells_append (earlier : List Event) : Tells old old (earlier ++ ·) :=
  ⟨fun _ _ => (List.append_assoc _ _ _).symm, fun _ _ _ => (List.append_assoc _ _ _).symm⟩

namespace World

/-- The world with its journal told otherwise. -/
def retell (tell : List Event → List Event) (w : World) : World :=
  { w with journal := tell w.journal }

variable {w : World}

theorem retell_notify (tells : Tells old new tell) {notice : Notice} :
    (w.notify old notice).retell tell = (w.retell tell).notify new notice := by
  simp [retell, notify, write, tells.logged]

theorem retell_notifyAll (tells : Tells old new tell) {notices : List Notice} :
    (w.notifyAll old notices).retell tell = (w.retell tell).notifyAll new notices := by
  unfold notifyAll
  induction notices generalizing w with
  | nil => rfl
  | cons notice rest ih => rw [List.foldl_cons, List.foldl_cons, ih, retell_notify tells]

theorem check_retell {token : Token} :
    (w.retell tell).check token = ((w.check token).1, (w.check token).2.retell tell) := rfl

theorem ask_retell {r : Heap.Request} :
    (w.retell tell).ask r = ((w.ask r).1, (w.ask r).2.retell tell) := rfl

end World

namespace Invocation

/-- An invocation that tells its journal otherwise. -/
def State.retell {β : Type} (tell : List Event → List Event) (s : State β) : State β :=
  { s with world := s.world.retell tell }

variable {inv : Invocation β} {s : State β}

theorem answer_retell (tells : Tells inv.logger new tell) {r : Request β} :
    ({ inv with logger := new } : Invocation β).answer r (s.retell tell) =
      ((inv.answer r s).1, (inv.answer r s).2.retell tell) := by
  cases r with
  | log level text =>
    simp [answer, State.retell, World.retell, World.write, tells.logged]
  | report who answer =>
    simp [Invocation.answer, State.retell, World.retell, World.write, tells.reported]
  | record mutation => cases mutation <;> rfl
  | heap | here | stage | workflow | check | cancel | pending => rfl

/-- **No action notices how its journal is told.** -/
theorem run_retell (tells : Tells inv.logger new tell) {behaviour : Behaviour β} :
    behaviour.run ({ inv with logger := new } : Invocation β).answer (s.retell tell) =
      ((behaviour.run inv.answer s).1, (behaviour.run inv.answer s).2.retell tell) := by
  induction behaviour generalizing s with
  | done => rfl
  | ask r next ih =>
    simp only [Program.run, answer_retell tells]
    exact ih _

end Invocation

/-- A call that tells its journal otherwise. -/
def Call.retell {β : Type} (tell : List Event → List Event) (call : Call β) : Call β :=
  { call with world := call.world.retell tell }

namespace Pass

/-- A pass that tells its journal otherwise. -/
def retell (tell : List Event → List Event) (p : Pass β) : Pass β :=
  { p with world := p.world.retell tell }

/-- The end of a pass, with its journal told otherwise. -/
def Result.retell (tell : List Event → List Event) (r : Result β) : Result β :=
  { r with world := r.world.retell tell }

variable {p : Pass β}

theorem calling_retell (tells : Tells c.logger new tell) {stage : Stage β} {action : Action β} :
    (p.retell tell).calling { c with logger := new } stage action =
      (p.calling c stage action).retell tell := by
  rw [calling, calling, Call.retell, World.retell_notify tells]
  rfl

/-- The same is called. -/
theorem call?_retell (tells : Tells c.logger new tell) :
    (p.retell tell).call? { c with logger := new } = (p.call? c).map (Call.retell tell) := by
  have sites : (p.retell tell).site = p.site := rfl
  have positions : (p.retell tell).index = p.index := rfl
  have checks : ((p.retell tell).world.check c.token).1 = (p.world.check c.token).1 := rfl
  simp only [call?, sites, positions, checks, calling_retell tells]
  cases p.site.stage? with
  | none => rfl
  | some stage =>
    simp only
    cases stage.slots[p.index]? with
    | none => rfl
    | some slot =>
      simp only
      cases (p.world.check c.token).1 with
      | error reason => rfl
      | ok => cases slot.enabled <;> rfl

/-- A call comes to the same. -/
theorem ended_retell (tells : Tells c.logger new tell) (stage : Stage β) (action : Action β) :
    ((p.retell tell).calling { c with logger := new } stage action).ended
        { c with logger := new } =
      (((p.calling c stage action).ended c).1,
        ((p.calling c stage action).ended c).2.retell tell) := by
  let inv : Invocation β := ⟨c.token, c.logger, p.site.workflow, stage⟩
  let begun : Invocation.State β := ⟨(p.calling c stage action).world, []⟩
  rw [calling_retell tells]
  show (c.behave action).run ({ inv with logger := new } : Invocation β).answer
      (begun.retell tell) = _
  exact Invocation.run_retell tells

/-- **A step is the same however the journal is told.** -/
theorem step_retell (tells : Tells c.logger new tell) :
    (p.retell tell).step { c with logger := new } =
      (p.step c).map (retell tell) (Result.retell tell) := by
  cases here : p.site.stage? with
  | none =>
    have here' : (p.retell tell).site.stage? = none := here
    rw [step, step, here, here']
    rfl
  | some stage =>
    have here' : (p.retell tell).site.stage? = some stage := here
    rw [step_eq here, step_eq here']
    have slots : stage.slots[(p.retell tell).index]? = stage.slots[p.index]? := rfl
    have checks : ((p.retell tell).world.check c.token).1 = (p.world.check c.token).1 := rfl
    simp only [slots, checks]
    cases stage.slots[p.index]? with
    | none =>
      simp only [Step.map, Result.retell, World.retell_notify tells]
      rfl
    | some slot =>
      cases (p.world.check c.token).1 with
      | error reason =>
        simp only [Step.map, Result.retell, World.retell_notify tells]
        rfl
      | ok =>
        cases on : slot.enabled with
        | false =>
          simp only [on, Bool.false_eq_true, if_false, Step.map]
          rw [retell, retell, World.retell_notify tells]
          rfl
        | true =>
          have ended := ended_retell (p := p) tells stage slot.action
          simp only [on, if_true, Call.result, Call.left, Call.queue, ended]
          cases ((p.calling c stage slot.action).ended c).1 with
          | error source =>
            simp only [Step.map, Result.retell, Invocation.State.retell, World.retell_notify tells]
            rfl
          | ok =>
            simp only [Step.map, retell, Invocation.State.retell, World.retell_notifyAll tells]

/-- A stage is entered the same. -/
theorem enter_retell (tells : Tells c.logger new tell) {site : Site β} {stage : Stage β}
    {world : World} :
    enter { c with logger := new } site stage (world.retell tell) =
      (enter c site stage world).retell tell := by
  simp only [enter, retell, ← World.retell_notify tells, World.ask_retell]
  split
  · rw [World.retell_notify tells]
  · rfl

/-- **A stage is executed the same however the journal is told.** -/
theorem run_retell (tells : Tells c.logger new tell) {steps : Nat} {site : Site β}
    {stage : Stage β} {world : World} :
    run { c with logger := new } steps site stage (world.retell tell) =
      (run c steps site stage world).map (Result.retell tell) := by
  simp only [run, start, World.check_retell]
  rcases world.check c.token with ⟨status, after⟩
  cases status with
  | error reason =>
    simp only [Option.map_some, Result.retell, World.retell_notify tells]
  | ok =>
    simp only [enter_retell tells]
    exact Loop.run_map (f := retell tell) fun p => congrArg some (step_retell tells)

/-- **The same actions are called, however the journal is told.** -/
theorem calls_retell (tells : Tells c.logger new tell) {steps : Nat} :
    (p.retell tell).calls { c with logger := new } steps =
      (p.calls c steps).map (Call.retell tell) := by
  have states : (p.retell tell).trail { c with logger := new } steps =
      (p.trail c steps).map (retell tell) :=
    Loop.trail_map fun p => congrArg some (step_retell tells)
  rw [calls, calls, states, List.filterMap_map, List.map_filterMap]
  exact List.filterMap_congr fun p _ => call?_retell tells

theorem entered?_retell (tells : Tells c.logger new tell) {site : Site β} {stage : Stage β}
    {world : World} :
    entered? { c with logger := new } site stage (world.retell tell) =
      (entered? c site stage world).map (retell tell) := by
  simp only [entered?, start, World.check_retell]
  rcases world.check c.token with ⟨status, after⟩
  cases status with
  | error reason => rfl
  | ok => exact congrArg some (enter_retell tells)

end Pass

namespace Run

/-- A run that tells its journal otherwise. -/
def retell (tell : List Event → List Event) (r : Run β) : Run β :=
  { r with world := r.world.retell tell }

/-- The end of a run, with its journal told otherwise. -/
def Result.retell (tell : List Event → List Event) (r : Result β) : Result β :=
  { r with world := r.world.retell tell }

variable {r : Run β} {steps : Nat}

theorem step_retell (tells : Tells c.logger new tell) :
    (r.retell tell).step { c with logger := new } steps =
      (r.step c steps).map (Step.map (retell tell) (Result.retell tell)) := by
  simp only [step, retell, World.check_retell]
  cases r.workflow.stages[r.index]? with
  | none =>
    simp only [notify, finish, Option.map_some, Step.map, Result.retell,
      World.retell_notify tells]
  | some stage =>
    rcases r.world.check c.token with ⟨status, world⟩
    cases status with
    | error reason =>
      simp only [notify, finish, Option.map_some, Step.map, Result.retell,
        World.retell_notify tells]
    | ok =>
      cases on : r.workflow.isStageEnabled stage.id with
      | true =>
        simp only [on, if_true, Pass.run_retell tells, Option.map_map]
        refine congrFun (congrArg Option.map (funext fun passed => ?_)) _
        cases outcome : passed.outcome <;>
          simp [afterPass, Pass.Result.retell, outcome, finish, advance, Step.map, retell,
            Result.retell]
      | false =>
        simp only [on, Bool.false_eq_true, if_false, notify, advance, Option.map_some, Step.map,
          retell, World.retell_notify tells]

theorem start_retell (tells : Tells c.logger new tell) {workflow : Workflow β} {world : World} :
    start { c with logger := new } workflow (world.retell tell) =
      (start c workflow world).retell tell := by
  simp only [start, retell, World.retell_notify tells]

/-- **A run is the same however its journal is told.** -/
theorem run_retell (tells : Tells c.logger new tell) {workflow : Workflow β} {world : World} :
    run { c with logger := new } steps workflow (world.retell tell) =
      (run c steps workflow world).map (Result.retell tell) := by
  rw [run, run, start_retell tells]
  exact Loop.run_map fun r => step_retell tells

theorem callsHere_retell (tells : Tells c.logger new tell) :
    (r.retell tell).callsHere { c with logger := new } steps =
      (r.callsHere c steps).map (Call.retell tell) := by
  have entry : (r.retell tell).entered? { c with logger := new } =
      (r.entered? c).map (Pass.retell tell) := by
    simp only [entered?, retell, World.check_retell]
    cases r.workflow.stages[r.index]? with
    | none => rfl
    | some stage =>
      rcases r.world.check c.token with ⟨status, after⟩
      cases status with
      | error reason => rfl
      | ok =>
        cases on : r.workflow.isStageEnabled stage.id with
        | false => simp [on]
        | true =>
          simp only [on, if_true]
          exact Pass.entered?_retell tells
  rw [callsHere, callsHere, entry]
  cases r.entered? c with
  | none => rfl
  | some pass => exact Pass.calls_retell tells

/-- **And it calls the same actions.** -/
theorem calls_retell (tells : Tells c.logger new tell) {workflow : Workflow β} {world : World} :
    calls { c with logger := new } steps workflow (world.retell tell) =
      (calls c steps workflow world).map (Call.retell tell) := by
  have states : trail { c with logger := new } steps workflow (world.retell tell) =
      (trail c steps workflow world).map (retell tell) := by
    rw [trail, trail, start_retell tells]
    exact Loop.trail_map fun r => step_retell tells
  rw [calls, calls, states, List.flatMap_map, List.map_flatMap]
  exact List.flatMap_congr fun r _ => callsHere_retell tells

end Run

/-- So does the execution of one stage. -/
theorem Runner.stageCalls_retell (tells : Tells c.logger new tell) {steps : Nat} {stage : Stage β}
    {workflow : Workflow β} {world : World} :
    stageCalls { c with logger := new } steps stage workflow (world.retell tell) =
      (stageCalls c steps stage workflow world).map (Call.retell tell) := by
  rw [stageCalls, stageCalls, Pass.entered?_retell tells]
  cases Pass.entered? c ⟨workflow, .detached stage⟩ stage world with
  | none => rfl
  | some pass => exact Pass.calls_retell tells

end StagedWorkflow
