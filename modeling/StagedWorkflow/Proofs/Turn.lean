import Mathlib.Tactic.Convert
import StagedWorkflow.Proofs.Call

/-!
# What a step comes to

Everything that the step of a pass can come to (`Pass.Turn`), and
everything that the step of a run can (`Run.Turn`): one constructor for each
case, with what was found at the position, what the token said, and the
state the step ends in. All facts about passes and runs are read off these
two, by cases on the step and by induction on the trail; where two passes are
compared, the step is better seen as one expression (`Pass.step_eq`).
-/

namespace StagedWorkflow

variable {β : Type} {c : Setting β}

/-- A token that is live for good passes a check. -/
theorem World.check_of_live {world : World} {token : Token} (limit : token.deadline = none)
    (unset : world.signals.isSet token = false) : world.check token = (.ok (), world) := by
  simp [check, Signals.check, unset, limit]

namespace Pass

/-- What the step of a pass over a stage comes to. -/
inductive Turn (c : Setting β) (p : Pass β) (stage : Stage β) :
    Step (Pass β) (Result β) → Prop where
  /-- There is no such position: the stage is completed. -/
  | completed (past : stage.slots[p.index]? = none) (call : p.call? c = none) :
      Turn c p stage
        (.finish ⟨p.site,
          p.world.notify c.logger (.stageCompleted p.site.place p.stageId p.executed), .ok ()⟩)
  /-- The token is done. -/
  | cancelled {slot : Slot β} {reason : CancelReason} (found : stage.slots[p.index]? = some slot)
      (done : (p.world.check c.token).1 = .error reason) (call : p.call? c = none) :
      Turn c p stage
        (.finish ⟨p.site,
          (p.world.check c.token).2.notify c.logger
            (.actionCancelled p.site.place p.index p.stageId slot.action.id reason),
          .error (.cancelled p.site.workflow.id (.action slot.action.id p.stageId) reason)⟩)
  /-- The action is disabled. -/
  | skipped {slot : Slot β} (found : stage.slots[p.index]? = some slot)
      (live : (p.world.check c.token).1 = .ok ()) (off : slot.enabled = false)
      (call : p.call? c = none) :
      Turn c p stage
        (.again ⟨p.site,
          (p.world.check c.token).2.notify c.logger
            (.actionSkipped p.site.place p.index p.stageId slot.action.id),
          p.stageId, p.index + 1, p.executed⟩)
  /-- The action is called, and fails. -/
  | failed {slot : Slot β} {source : Fault} (found : stage.slots[p.index]? = some slot)
      (live : (p.world.check c.token).1 = .ok ()) (on : slot.enabled = true)
      (call : p.call? c = some (p.calling c stage slot.action))
      (fault : (p.calling c stage slot.action).result c = .error source) :
      Turn c p stage
        (.finish ⟨p.site,
          ((p.calling c stage slot.action).left c).notify c.logger
            (.actionFailed p.site.place p.index p.stageId slot.action.id source),
          .error (.action p.stageId slot.action.id slot.action.name source)⟩)
  /-- The action is called, and succeeds. -/
  | succeeded {slot : Slot β} (found : stage.slots[p.index]? = some slot)
      (live : (p.world.check c.token).1 = .ok ()) (on : slot.enabled = true)
      (call : p.call? c = some (p.calling c stage slot.action))
      (ok : (p.calling c stage slot.action).result c = .ok ()) :
      Turn c p stage
        (.again ⟨(p.site.applyAll ((p.calling c stage slot.action).queue c)).2,
          ((p.calling c stage slot.action).left c).notifyAll c.logger
            (p.site.applyAll ((p.calling c stage slot.action).queue c)).1,
          p.stageId, p.index + 1, p.executed + 1⟩)

/-- **Every step of a pass is one of these.** -/
theorem turn {p : Pass β} {stage : Stage β} (here : p.site.stage? = some stage) :
    Turn c p stage (p.step c) := by
  cases found : stage.slots[p.index]? with
  | none =>
    have call : p.call? c = none := by simp [call?, here, found]
    convert Turn.completed found call using 1
    simp [step, here, found, finish, notify]
  | some slot =>
    rcases check : p.world.check c.token with ⟨status, world⟩
    have status_eq : (p.world.check c.token).1 = status := by rw [check]
    cases status with
    | error reason =>
      have call : p.call? c = none := by simp [call?, here, found, check]
      convert Turn.cancelled found status_eq call using 1
      simp [step, here, found, check, finish, notify]
    | ok =>
      cases on : slot.enabled with
      | false =>
        have call : p.call? c = none := by simp [call?, here, found, check, on]
        convert Turn.skipped found status_eq on call using 1
        simp [step, here, found, check, on, advance, notify]
      | true =>
        have call : p.call? c = some (p.calling c stage slot.action) := by
          simp [call?, here, found, check, on]
        have invoked : p.step c =
            ({ p with world := (p.world.check c.token).2 } : Pass β).invoke c stage
              slot.action := by
          simp [step, here, found, check, on]
        rcases ended : (p.calling c stage slot.action).ended c with ⟨result, state⟩
        -- the call that the step makes is the one that is recorded
        have performed : (⟨c.token, c.logger, p.site.workflow, stage⟩ : Invocation β).perform
            (c.behave slot.action) (p.calling c stage slot.action).world = (result, state) := ended
        simp only [calling] at performed
        cases result with
        | error source =>
          have fault : (p.calling c stage slot.action).result c = .error source := by
            rw [Call.result, ended]
          convert Turn.failed found status_eq on call fault using 1
          rw [invoked, Call.left, ended]
          simp [invoke, notify, invocation, performed, finish]
        | ok =>
          have ok : (p.calling c stage slot.action).result c = .ok () := by
            rw [Call.result, ended]
          convert Turn.succeeded found status_eq on call ok using 1
          rw [invoked, Call.left, Call.queue, ended]
          simp [invoke, notify, invocation, performed, advance]

/-- What a step comes to, spelled out by what is found at the position. -/
theorem step_eq {p : Pass β} {stage : Stage β} (here : p.site.stage? = some stage) :
    p.step c =
      match stage.slots[p.index]? with
      | none =>
        .finish ⟨p.site,
          p.world.notify c.logger (.stageCompleted p.site.place p.stageId p.executed), .ok ()⟩
      | some slot =>
        match (p.world.check c.token).1 with
        | .error reason =>
          .finish ⟨p.site,
            (p.world.check c.token).2.notify c.logger
              (.actionCancelled p.site.place p.index p.stageId slot.action.id reason),
            .error (.cancelled p.site.workflow.id (.action slot.action.id p.stageId) reason)⟩
        | .ok () =>
          if slot.enabled then
            match (p.calling c stage slot.action).result c with
            | .error source =>
              .finish ⟨p.site,
                ((p.calling c stage slot.action).left c).notify c.logger
                  (.actionFailed p.site.place p.index p.stageId slot.action.id source),
                .error (.action p.stageId slot.action.id slot.action.name source)⟩
            | .ok () =>
              .again ⟨(p.site.applyAll ((p.calling c stage slot.action).queue c)).2,
                ((p.calling c stage slot.action).left c).notifyAll c.logger
                  (p.site.applyAll ((p.calling c stage slot.action).queue c)).1,
                p.stageId, p.index + 1, p.executed + 1⟩
          else
            .again ⟨p.site,
              (p.world.check c.token).2.notify c.logger
                (.actionSkipped p.site.place p.index p.stageId slot.action.id),
              p.stageId, p.index + 1, p.executed⟩ := by
  have turned := turn (c := c) here
  generalize p.step c = s at turned ⊢
  cases turned with
  | completed past => rw [past]
  | cancelled found done => simp only [found, done]
  | skipped found live off => simp [found, live, off]
  | failed found live on call fault => simp only [found, live, on, fault, if_true]
  | succeeded found live on call ok => simp only [found, live, on, ok, if_true]

/-- A pass that begins has just entered its stage. -/
theorem entered?_eq_some_iff {site : Site β} {stage : Stage β} {world : World} {pass : Pass β} :
    entered? c site stage world = some pass ↔
      (world.check c.token).1 = .ok () ∧
        pass = enter c site stage (world.check c.token).2 := by
  rcases check : world.check c.token with ⟨status, after⟩
  cases status with
  | error reason => simp [entered?, start, check]
  | ok => simp [entered?, start, check, eq_comm]

/-- That a pass from its beginning goes through the trail and ends. -/
abbrev Traces (c : Setting β) : Pass β → List (Pass β) → Result β → Prop :=
  Loop.Traces fun p => some (p.step c)

end Pass

namespace Run

/-- That a run makes a whole pass over the stage at its next position. -/
structure Enters (c : Setting β) (steps : Nat) (r : Run β) (stage : Stage β) (pass : Pass β)
    (result : Pass.Result β) : Prop where
  found : r.workflow.stages[r.index]? = some stage
  live : (r.world.check c.token).1 = .ok ()
  on : r.workflow.isStageEnabled stage.id = true
  still : ((r.world.check c.token).2.check c.token).1 = .ok ()
  entry : r.entered? c = some pass
  pass_eq : pass =
    Pass.enter c ⟨r.workflow, .member r.index⟩ stage ((r.world.check c.token).2.check c.token).2
  traces : Pass.Traces c pass (pass.trail c steps) result

/-- What the step of a run comes to. -/
inductive Turn (c : Setting β) (steps : Nat) (r : Run β) : Step (Run β) (Result β) → Prop where
  /-- There is no such position: the workflow is completed. -/
  | completed (past : r.workflow.stages[r.index]? = none) (entry : r.entered? c = none) :
      Turn c steps r
        (.finish ⟨r.workflow,
          r.world.notify c.logger (.workflowCompleted r.workflow.id r.executed r.workflow.size),
          .ok ()⟩)
  /-- The token is done. -/
  | cancelled {stage : Stage β} {reason : CancelReason}
      (found : r.workflow.stages[r.index]? = some stage)
      (done : (r.world.check c.token).1 = .error reason) (entry : r.entered? c = none) :
      Turn c steps r
        (.finish ⟨r.workflow,
          (r.world.check c.token).2.notify c.logger
            (.workflowCancelled r.index r.workflow.id stage.id reason),
          .error (.cancelled r.workflow.id (.stage stage.id) reason)⟩)
  /-- The stage is disabled. -/
  | skipped {stage : Stage β} (found : r.workflow.stages[r.index]? = some stage)
      (live : (r.world.check c.token).1 = .ok ())
      (off : r.workflow.isStageEnabled stage.id = false) (entry : r.entered? c = none) :
      Turn c steps r
        (.again ⟨r.workflow,
          (r.world.check c.token).2.notify c.logger (.stageSkipped r.index stage.id),
          r.index + 1, r.executed⟩)
  /-- The token has got done when the stage is about to start. -/
  | refused {stage : Stage β} {reason : CancelReason}
      (found : r.workflow.stages[r.index]? = some stage)
      (live : (r.world.check c.token).1 = .ok ())
      (on : r.workflow.isStageEnabled stage.id = true)
      (done : ((r.world.check c.token).2.check c.token).1 = .error reason)
      (entry : r.entered? c = none) :
      Turn c steps r
        (.finish ⟨r.workflow,
          ((r.world.check c.token).2.check c.token).2.notify c.logger
            (.stageCancelled (.member r.index) stage.id reason),
          .error (.cancelled r.workflow.id (.stage stage.id) reason)⟩)
  /-- The stage is entered, and its pass does not succeed. -/
  | stopped {stage : Stage β} {pass : Pass β} {result : Pass.Result β} {error : RunError}
      (enters : r.Enters c steps stage pass result) (fault : result.outcome = .error error) :
      Turn c steps r (.finish ⟨result.site.workflow, result.world, .error error⟩)
  /-- The stage is entered, and its pass succeeds. -/
  | passed {stage : Stage β} {pass : Pass β} {result : Pass.Result β}
      (enters : r.Enters c steps stage pass result) (ok : result.outcome = .ok ()) :
      Turn c steps r
        (.again ⟨result.site.workflow, result.world, r.index + 1, r.executed + 1⟩)

/-- **Every step of a run is one of these**, unless its pass runs out of
steps. -/
theorem turn {steps : Nat} {r : Run β} {s : Step (Run β) (Result β)}
    (taken : r.step c steps = some s) : Turn c steps r s := by
  rw [step] at taken
  cases found : r.workflow.stages[r.index]? with
  | none =>
    have entry : r.entered? c = none := by simp [entered?, found]
    convert Turn.completed found entry using 1
    simpa [found, finish, notify, eq_comm] using taken
  | some stage =>
    rcases check : r.world.check c.token with ⟨status, world⟩
    have status_eq : (r.world.check c.token).1 = status := by rw [check]
    cases status with
    | error reason =>
      have entry : r.entered? c = none := by simp [entered?, found, check]
      convert Turn.cancelled found status_eq entry using 1
      simpa [found, check, finish, notify, eq_comm] using taken
    | ok =>
      cases on : r.workflow.isStageEnabled stage.id with
      | false =>
        have entry : r.entered? c = none := by simp [entered?, found, check, on]
        convert Turn.skipped found status_eq on entry using 1
        simpa [found, check, on, advance, notify, eq_comm] using taken
      | true =>
        have entry : r.entered? c =
            Pass.entered? c ⟨r.workflow, .member r.index⟩ stage world := by
          simp [entered?, found, check, on]
        have run : (Pass.run c steps ⟨r.workflow, .member r.index⟩ stage world).map
            ({ r with world } : Run β).afterPass = some s := by
          simpa [found, check, on] using taken
        obtain ⟨result, ran, rfl⟩ := Option.map_eq_some_iff.mp run
        rcases again : world.check c.token with ⟨status, entered⟩
        cases status with
        | error reason =>
          have refused : ((r.world.check c.token).2.check c.token).1 = .error reason := by
            rw [check, again]
          have none : r.entered? c = none := by simp [entry, Pass.entered?, Pass.start, again]
          convert Turn.refused found status_eq on refused none using 1
          obtain rfl : _ = result := by simpa [Pass.run, Pass.start, again] using ran
          simp [afterPass, finish, check, again, Site.place]
        | ok =>
          have pass_eq : r.entered? c =
              some (Pass.enter c ⟨r.workflow, .member r.index⟩ stage entered) := by
            simp [entry, Pass.entered?, Pass.start, again]
          have loop : Loop.run (fun p => some (p.step c)) steps
              (Pass.enter c ⟨r.workflow, .member r.index⟩ stage entered) = some result := by
            simpa [Pass.run, Pass.start, again] using ran
          have enters : r.Enters c steps stage
              (Pass.enter c ⟨r.workflow, .member r.index⟩ stage entered) result :=
            ⟨found, status_eq, on, by rw [check, again], pass_eq, by rw [check, again],
              Loop.traces_trail loop⟩
          cases outcome : result.outcome with
          | error error =>
            convert Turn.stopped enters outcome using 1
            simp [afterPass, outcome, finish]
          | ok =>
            convert Turn.passed enters outcome using 1
            simp [afterPass, outcome, advance]

variable {steps : Nat} {r : Run β}

/-- What a stage must be like that is entered. -/
theorem entered?_eq_some {pass : Pass β} (entry : r.entered? c = some pass) :
    ∃ stage, r.workflow.stages[r.index]? = some stage ∧
      (r.world.check c.token).1 = .ok () ∧ r.workflow.isStageEnabled stage.id = true ∧
      Pass.entered? c ⟨r.workflow, .member r.index⟩ stage (r.world.check c.token).2 =
        some pass := by
  rw [entered?] at entry
  split at entry
  next => cases entry
  next stage found =>
    split at entry
    next => cases entry
    next world check =>
      split at entry
      next on => exact ⟨stage, found, by rw [check], on, by rw [check]; exact entry⟩
      next => cases entry

/-- A stage is entered for a whole pass, if the pass ends. -/
theorem exists_enters {pass : Pass β} {result : Pass.Result β} (entry : r.entered? c = some pass)
    (traces : Pass.Traces c pass (pass.trail c steps) result) :
    ∃ stage, r.Enters c steps stage pass result := by
  obtain ⟨stage, found, live, on, begins⟩ := entered?_eq_some entry
  obtain ⟨still, pass_eq⟩ := Pass.entered?_eq_some_iff.mp begins
  exact ⟨stage, found, live, on, still, entry, pass_eq, traces⟩

/-- **The step that makes a whole pass**: the run goes on from the pass, or
ends with it. -/
theorem Enters.step_eq {stage : Stage β} {pass : Pass β} {result : Pass.Result β}
    (h : r.Enters c steps stage pass result) :
    r.step c steps = some
      (match result.outcome with
      | .ok () => .again ⟨result.site.workflow, result.world, r.index + 1, r.executed + 1⟩
      | .error error => .finish ⟨result.site.workflow, result.world, .error error⟩) := by
  rcases check : r.world.check c.token with ⟨status, world⟩
  rcases again : world.check c.token with ⟨status', entered⟩
  obtain rfl : status = .ok () := by simpa [check] using h.live
  obtain rfl : status' = .ok () := by simpa [check, again] using h.still
  have pass_eq : pass = Pass.enter c ⟨r.workflow, .member r.index⟩ stage entered := by
    simpa [check, again] using h.pass_eq
  have loop : Loop.run (fun p => some (p.step c)) steps pass = some result :=
    (h.traces.run_eq Loop.length_trail_le).1
  have ran : Pass.run c steps ⟨r.workflow, .member r.index⟩ stage world = some result := by
    simpa [Pass.run, Pass.start, again, ← pass_eq] using loop
  cases outcome : result.outcome with
  | ok => simp [step, h.found, check, h.on, ran, afterPass, outcome, advance]
  | error error => simp [step, h.found, check, h.on, ran, afterPass, outcome, finish]

end Run

/-- More steps never change how a pass ends. -/
theorem Pass.run_mono {steps more : Nat} {site : Site β} {stage : Stage β} {world : World}
    {result : Pass.Result β} (le : steps ≤ more)
    (h : Pass.run c steps site stage world = some result) :
    Pass.run c more site stage world = some result := by
  rw [run] at h ⊢
  split at h
  · exact h
  · exact Loop.run_mono (fun _ _ => id) le h

/-- More steps never change a step of a run. -/
theorem Run.step_mono {steps more : Nat} {r : Run β} {s : Step (Run β) (Result β)}
    (le : steps ≤ more) (h : r.step c steps = some s) : r.step c more = some s := by
  rw [step] at h ⊢
  split at h
  next => exact h
  next =>
    split at h
    next => exact h
    next =>
      dsimp only at h ⊢
      split at h
      next on =>
        obtain ⟨result, ran, rfl⟩ := Option.map_eq_some_iff.mp h
        rw [if_pos on, Pass.run_mono le ran]
        rfl
      next off =>
        rw [if_neg off]
        exact h

end StagedWorkflow
