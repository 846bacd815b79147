import StagedWorkflow.Proofs.Chronicle
import StagedWorkflow.Proofs.Omission
import StagedWorkflow.Proofs.Order

/-!
# The scenes of a run

What can be seen of a step of a run, wherever it is made, is the id of the
stage that it enters and what its calls come to (`Run.scene`). The scenes of a
run tell which stages it has entered and what it has called
(`Run.map_stageId_visits`, `Run.map_move_calls`), and those of a step what is
granted there (`Run.granted_eq`). A step that enters a stage comes to what the
pass comes to, however many steps that takes (`Run.takes_of_entered`), and of
the others it is known what they are.
-/

namespace StagedWorkflow

variable {β : Type} {c : Setting β}

/-- A stage that is entered, and what the calls there come to. -/
structure Scene (β : Type) where
  stageId : String
  moves : List (Move β)

namespace Run

/-- What is seen of the next step of a run. -/
def scene (c : Setting β) (steps : Nat) (r : Run β) : List (Scene β) :=
  match r.entered? c with
  | none => []
  | some pass => [⟨pass.stageId, (pass.calls c steps).map (Call.move c)⟩]

/-- The steps of a run, each with what is seen of it. -/
abbrev takes (c : Setting β) :
    Run β → Step (Run β) (Result β) → List (Scene β) → Prop :=
  Loop.Takes (step c) fun steps r => r.scene c steps

/-- The scenes of a run, in order. -/
def scenes (c : Setting β) (steps : Nat) (workflow : Workflow β) (world : World) :
    List (Scene β) :=
  (trail c steps workflow world).flatMap (scene c steps)

variable {steps : Nat} {r : Run β} {x : Step (Run β) (Result β)} {shown : List (Scene β)}
  {workflow : Workflow β} {world : World}

theorem scene_of_entered?_eq_none (h : r.entered? c = none) : r.scene c steps = [] := by
  rw [scene, h]

/-! ## What is told by scenes -/

/-- What is granted in a step is what is granted in its scene. -/
theorem granted_eq :
    r.granted c steps =
      (r.scene c steps).flatMap fun scene => scene.moves.flatMap Move.granted := by
  rw [granted, callsHere, scene]
  cases r.entered? c with
  | none => rfl
  | some pass => simp [List.flatMap_map, Call.move]

/-- **The calls of a run come to what its scenes show.** -/
theorem map_move_calls :
    (calls c steps workflow world).map (Call.move c) =
      (scenes c steps workflow world).flatMap Scene.moves := by
  rw [calls, scenes, List.map_flatMap, List.flatMap_assoc]
  refine List.flatMap_congr fun r _ => ?_
  rw [callsHere, scene]
  cases r.entered? c <;> simp

/-- **The stages that a run enters are those of its scenes.** -/
theorem map_stageId_visits :
    (visits c steps workflow world).map Visit.stageId =
      (scenes c steps workflow world).map Scene.stageId := by
  rw [visits, scenes]
  induction trail c steps workflow world with
  | nil => rfl
  | cons r rest ih =>
    rw [List.flatMap_cons, List.map_append, ← ih, List.filterMap_cons]
    cases entry : r.entered? c <;> simp [visit?, scene, entry]

/-! ## What a step comes to -/

/-- A step that enters a stage makes a whole pass over it. -/
theorem exists_enters_of_step (taken : r.step c steps = some x) {pass : Pass β}
    (entry : r.entered? c = some pass) :
    ∃ stage result, r.Enters c steps stage pass result := by
  have own {stage : Stage β} {other : Pass β} {result : Pass.Result β}
      (enters : r.Enters c steps stage other result) : r.Enters c steps stage pass result := by
    obtain rfl : other = pass := Option.some.inj (enters.entry.symm.trans entry)
    exact enters
  cases turn taken with
  | completed past none => rw [none] at entry; cases entry
  | cancelled found done none => rw [none] at entry; cases entry
  | skipped found live off none => rw [none] at entry; cases entry
  | refused found live on done none => rw [none] at entry; cases entry
  | stopped enters fault => exact ⟨_, _, own enters⟩
  | passed enters ok => exact ⟨_, _, own enters⟩

/-- A step that is taken shows the same, however many steps its pass may
take. -/
theorem scene_mono {m n : Nat} (le : m ≤ n) (taken : r.step c m = some x) :
    r.step c n = some x ∧ r.scene c n = r.scene c m := by
  refine ⟨step_mono le taken, ?_⟩
  rw [scene, scene]
  cases entry : r.entered? c with
  | none => rfl
  | some pass =>
    obtain ⟨stage, result, enters⟩ := exists_enters_of_step taken entry
    have same : pass.trail c n = pass.trail c m :=
      (enters.traces.run_eq (Nat.le_trans Loop.length_trail_le le)).2
    simp only [Pass.calls, same]

/-- How a run goes on from a pass. -/
theorem afterPass_eq {result : Pass.Result β} :
    r.afterPass result =
      match result.outcome with
      | .ok () => .again ⟨result.site.workflow, result.world, r.index + 1, r.executed + 1⟩
      | .error error => .finish ⟨result.site.workflow, result.world, .error error⟩ := by
  rw [afterPass]
  cases result.outcome <;> rfl

/-- **A step that enters a stage** comes to what the pass comes to. -/
theorem takes_of_entered {pass : Pass β} (entry : r.entered? c = some pass) :
    takes c r x shown ↔
      ∃ result moves, Pass.Comes c pass moves result ∧ x = r.afterPass result ∧
        shown = [⟨pass.stageId, moves⟩] := by
  constructor
  · rintro ⟨steps, taken, rfl⟩
    obtain ⟨stage, result, enters⟩ := exists_enters_of_step taken entry
    refine ⟨result, _, Pass.comes_iff.mpr ⟨steps, enters.traces, rfl⟩, ?_, ?_⟩
    · rw [afterPass_eq]
      exact Option.some.inj (taken.symm.trans enters.step_eq)
    · simp only [scene, entry]
  · rintro ⟨result, _, comes, rfl, rfl⟩
    obtain ⟨steps, traces, rfl⟩ := Pass.comes_iff.mp comes
    obtain ⟨stage, enters⟩ : ∃ stage, r.Enters c steps stage pass result :=
      exists_enters entry traces
    exact ⟨steps, by rw [afterPass_eq]; exact enters.step_eq, by simp only [scene, entry]⟩

/-- A step that enters none is known. -/
theorem takes_of_step (entry : r.entered? c = none) {y : Step (Run β) (Result β)}
    (known : ∀ steps, r.step c steps = some y) :
    takes c r x shown ↔ x = y ∧ shown = [] := by
  constructor
  · rintro ⟨steps, taken, rfl⟩
    exact ⟨Option.some.inj (taken.symm.trans (known steps)), scene_of_entered?_eq_none entry⟩
  · rintro ⟨rfl, rfl⟩
    exact ⟨0, known 0, scene_of_entered?_eq_none entry⟩

/-- Past the end of the list a run is completed. -/
theorem step_of_past (past : r.workflow.stages[r.index]? = none) :
    r.entered? c = none ∧ ∀ steps, r.step c steps = some
      (.finish ⟨r.workflow,
        r.world.notify c.logger (.workflowCompleted r.workflow.id r.executed r.workflow.size),
        .ok ()⟩) :=
  ⟨by simp [entered?, past], fun steps => by simp [step, past, finish, notify]⟩

/-- A stage that is disabled is passed over, if the token is live. -/
theorem step_of_off {stage : Stage β} (found : r.workflow.stages[r.index]? = some stage)
    (live : (r.world.check c.token).1 = .ok ())
    (off : r.workflow.isStageEnabled stage.id = false) :
    r.entered? c = none ∧ ∀ steps, r.step c steps = some
      (.again ⟨r.workflow,
        (r.world.check c.token).2.notify c.logger (.stageSkipped r.index stage.id),
        r.index + 1, r.executed⟩) := by
  rcases check : r.world.check c.token with ⟨status, after⟩
  obtain rfl : status = .ok () := by simpa [check] using live
  exact ⟨by simp [entered?, found, check, off],
    fun steps => by simp [step, found, check, off, advance, notify]⟩

/-- One that is enabled is entered, if the token passes both checks. -/
theorem entered?_of_cleared {stage : Stage β} (found : r.workflow.stages[r.index]? = some stage)
    (cleared : r.Cleared c stage) (on : r.workflow.isStageEnabled stage.id = true) :
    r.entered? c =
      some (Pass.enter c r.site stage ((r.world.check c.token).2.check c.token).2) := by
  rcases check : r.world.check c.token with ⟨status, after⟩
  obtain rfl : status = .ok () := by simpa [check] using cleared.1
  have still := cleared.2 on
  rw [check] at still
  simp only [entered?, found, check, on, if_true]
  exact Pass.entered?_eq_some_iff.mpr ⟨still, rfl⟩

end Run

end StagedWorkflow
