import StagedWorkflow.Proofs.Failure
import StagedWorkflow.Proofs.Journal
import StagedWorkflow.Proofs.Retelling

/-!
# What the records tell of a run

The engine keeps its counters and sends its records at many places of two
loops that have several ways out. This file says that the records
nevertheless tell one story, and that it is what has happened. The landmarks
among them, a stage that starts, a stage that is completed and an action that
fails, are those of the stages entered, each followed by the next (`Story`,
proved of a run in `Run.Traces.story`), and the last record says how the run
has ended and how far it has come (`Closing`, in `Run.Traces.closes`). What
there is to count is read off the story.
-/

namespace StagedWorkflow

variable {β : Type} {c : Setting β}

/-! ## The landmarks -/

/-- What the records of the engine tell of the stages of a run. -/
inductive Landmark where
  | started (place : Place) (stageId : String)
  | completed (place : Place) (stageId : String) (executed : Nat)
  /-- An action of the stage has failed. -/
  | failed (stageId actionId : String)
  deriving DecidableEq

namespace Landmark

/-- The stage that has started. -/
def started? : Landmark → Option (Place × String)
  | started place stageId => some (place, stageId)
  | completed _ _ _ | failed _ _ => none

/-- The stage that is completed, with the number of actions it reports. -/
def completed? : Landmark → Option (Place × String × Nat)
  | completed place stageId executed => some (place, stageId, executed)
  | started _ _ | failed _ _ => none

/-- Whether it is a failure. -/
def isFailed : Landmark → Bool
  | failed _ _ => true
  | started _ _ | completed _ _ _ => false

end Landmark

/-- The landmark that a notice is. -/
def Notice.landmark? : Notice → Option Landmark
  | stageStarting place stageId _ => some (.started place stageId)
  | stageCompleted place stageId executed => some (.completed place stageId executed)
  | actionFailed _ _ stageId actionId _ => some (.failed stageId actionId)
  | _ => none

/-- Notices of the level of an error are those of failures. -/
theorem Notice.level_eq_error_iff {notice : Notice} :
    notice.level = .error ↔ notice.landmark?.any Landmark.isFailed = true := by
  cases notice <;> simp [level, landmark?, Landmark.isFailed]

/-- The landmarks among notices, in order. -/
def landmarks (notices : List Notice) : List Landmark :=
  notices.filterMap Notice.landmark?

@[simp] theorem landmarks_append {first second : List Notice} :
    landmarks (first ++ second) = landmarks first ++ landmarks second :=
  List.filterMap_append

@[simp] theorem landmarks_nil : landmarks [] = [] := rfl

@[simp] theorem landmarks_cons {notice : Notice} {rest : List Notice} :
    landmarks (notice :: rest) = notice.landmark?.toList ++ landmarks rest := by
  cases mark : notice.landmark? <;> simp [landmarks, mark]

/-- No mutation that is applied is a landmark. -/
@[simp] theorem Site.landmarks_applyAll {s : Site β} {queue : List (Mutation β)} :
    landmarks (s.applyAll queue).1 = [] := by
  refine List.filterMap_eq_nil_iff.mpr fun notice mem => ?_
  have own := isAmendment_of_mem_applyAll mem
  cases notice <;> first | rfl | cases own

/-- Failures are the notices of the level of an error. -/
theorem length_filter_level_error {notices : List Notice} :
    (notices.filter (·.level = .error)).length =
      ((landmarks notices).filter Landmark.isFailed).length := by
  induction notices with
  | nil => rfl
  | cons notice rest ih =>
    have own := @Notice.level_eq_error_iff notice
    rw [landmarks_cons, List.filter_append, List.length_append, ← ih, List.filter_cons]
    cases mark : notice.landmark? with
    | none => simp [own, mark]
    | some landmark =>
      by_cases failed : landmark.isFailed = true
      · simp [own, mark, failed, Nat.add_comm]
      · simp [own, mark, failed]

namespace Outcome

/-- How many stages a run leaves that are entered and not completed: one, if
it ends at an action and not before a stage. -/
def unfinished : Outcome → Nat
  | .error (.action _ _ _ _) | .error (.cancelled _ (.action _ _) _) => 1
  | _ => 0

/-- How many actions have failed in a run: it ends with the first. -/
def failures : Outcome → Nat
  | .error (.action _ _ _ _) => 1
  | _ => 0

end Outcome

/-- A stage that was entered. -/
structure Visit where
  place : Place
  stageId : String
  /-- The number of actions called there. -/
  calls : Nat

namespace Visit

/-- The landmark of its start. -/
def started (visit : Visit) : Landmark :=
  .started visit.place visit.stageId

/-- The landmark of its end, which counts the actions. -/
def completed (visit : Visit) : Landmark :=
  .completed visit.place visit.stageId visit.calls

end Visit

/-- **What is told of a run** that has entered some stages and ended with an
outcome. Each stage is started and completed before the next; only the last
one is not completed, where the run ends in it. -/
inductive Story : Outcome → List Visit → List Landmark → Prop where
  /-- The run is completed. -/
  | completed : Story (.ok ()) [] []
  /-- The run is cancelled before a stage. -/
  | cancelled {workflowId stageId : String} {reason : CancelReason} :
    Story (.error (.cancelled workflowId (.stage stageId) reason)) [] []
  /-- The run is cancelled before an action of the stage it is in. -/
  | stopped {visit : Visit} {workflowId actionId stageId : String} {reason : CancelReason} :
    Story (.error (.cancelled workflowId (.action actionId stageId) reason)) [visit]
      [visit.started]
  /-- An action fails of the stage it is in. -/
  | failed {visit : Visit} {stageId actionId actionName : String} {source : Fault} :
    Story (.error (.action stageId actionId actionName source)) [visit]
      [visit.started, .failed stageId actionId]
  /-- A stage is completed, and the run goes on. -/
  | passed {outcome : Outcome} {visit : Visit} {visits : List Visit} {told : List Landmark}
      (rest : Story outcome visits told) :
    Story outcome (visit :: visits) (visit.started :: visit.completed :: told)

namespace Story

variable {outcome : Outcome} {visits : List Visit} {told : List Landmark}

/-- **As many stages are told to start as were entered.** -/
theorem started_eq (h : Story outcome visits told) :
    told.filterMap Landmark.started? = visits.map fun visit => (visit.place, visit.stageId) := by
  induction h with
  | completed | cancelled | stopped | failed => rfl
  | passed rest ih => exact congrArg (List.cons _) ih

/-- **All of them are told to be completed**, with as many actions as were
called, but for one in which the run ends. -/
theorem completed_eq (h : Story outcome visits told) :
    ∃ finished inside, visits = finished ++ inside ∧
      told.filterMap Landmark.completed? =
        finished.map (fun visit => (visit.place, visit.stageId, visit.calls)) ∧
      inside.length = outcome.unfinished := by
  induction h with
  | completed | cancelled => exact ⟨[], [], rfl, rfl, rfl⟩
  | @stopped visit => exact ⟨[], [visit], rfl, rfl, rfl⟩
  | @failed visit => exact ⟨[], [visit], rfl, rfl, rfl⟩
  | @passed outcome visit visits told rest ih =>
    obtain ⟨finished, inside, rfl, completed, length⟩ := ih
    exact ⟨visit :: finished, inside, rfl, congrArg (List.cons _) completed, length⟩

/-- **One failure is told if an action has failed**, and else none. -/
theorem length_failed (h : Story outcome visits told) :
    (told.filter Landmark.isFailed).length = outcome.failures := by
  induction h with
  | completed | cancelled | stopped | failed => rfl
  | passed rest ih => exact ih

end Story

/-! ## The last record -/

/-- **What the last record of a run says**, by how the run has ended: of
which level it is, and what it reads. -/
inductive Closing (workflowId : String) (entered size : Nat) : Outcome → Level → String → Prop where
  | completed :
    Closing workflowId entered size (.ok ()) .info
      s!"Workflow '{workflowId}' completed ({entered} of {size} stages executed)"
  | failed {stageId actionId actionName : String} {source : Fault} :
    Closing workflowId entered size (.error (.action stageId actionId actionName source)) .error
      (s!"Action '{actionId}' in stage '{stageId}' failed: " ++ source.message)
  | beforeStage {stageId : String} {reason : CancelReason} :
    Closing workflowId entered size (.error (.cancelled workflowId (.stage stageId) reason)) .warn
      (s!"Workflow '{workflowId}' cancelled before stage '{stageId}': " ++ reason.message)
  | beforeStart {stageId : String} {reason : CancelReason} :
    Closing workflowId entered size (.error (.cancelled workflowId (.stage stageId) reason)) .warn
      (s!"Stage '{stageId}' cancelled before it started: " ++ reason.message)
  | beforeAction {actionId stageId : String} {reason : CancelReason} :
    Closing workflowId entered size
      (.error (.cancelled workflowId (.action actionId stageId) reason)) .warn
      (s!"Stage '{stageId}' cancelled before action '{actionId}': " ++ reason.message)

/-- That the last record in a journal is a notice that closes a run. -/
def World.Closes (c : Setting β) (workflowId : String) (entered size : Nat) (outcome : Outcome)
    (w : World) : Prop :=
  ∃ earlier notice, w.journal = earlier ++ [.logged c.logger (.engine notice)] ∧
    Closing workflowId entered size outcome notice.level notice.message

theorem World.closes_notify {w : World} {workflowId : String} {entered size : Nat}
    {outcome : Outcome} {notice : Notice}
    (closing : Closing workflowId entered size outcome notice.level notice.message) :
    (w.notify c.logger notice).Closes c workflowId entered size outcome :=
  ⟨w.journal, notice, World.journal_notify, closing⟩

/-! ## A pass -/

namespace Pass

variable {place : Place} {stageId : String} {p : Pass β} {states : List (Pass β)}
  {result : Result β}

/-- What is told of a pass after its start. -/
def ending (visit : Visit) : Outcome → List Landmark
  | .ok () => [visit.completed]
  | .error (.action stageId actionId _ _) => [.failed stageId actionId]
  | .error _ => []

/-- **What a pass tells counts what it has called.** -/
theorem Traces.landmarks_eq (h : Traces c p states result) (start : p.Seated place stageId) :
    landmarks result.world.notices = landmarks p.world.notices ++
      ending ⟨place, stageId, p.executed + (states.filterMap (·.call? c)).length⟩
        result.outcome := by
  induction h with
  | @last p result taken =>
    obtain ⟨stage, -, -, -, turn⟩ := start.turn (Option.some.inj taken)
    have place_eq := start.place_eq
    have stageId_eq := start.stageId_eq
    cases turn with
    | completed past call =>
      simp [call, Notice.landmark?, ending, Visit.completed, place_eq, stageId_eq]
    | cancelled found done call => simp [Notice.landmark?, ending]
    | failed found live on call fault => simp [Notice.landmark?, ending]
  | @next p t states result taken rest ih =>
    have seated := start.again (Option.some.inj taken)
    obtain ⟨stage, -, -, -, turn⟩ := start.turn (Option.some.inj taken)
    rw [ih seated]
    cases turn with
    | skipped found live off call => simp [call, Notice.landmark?]
    | succeeded found live on call ok =>
      simp [call, Notice.landmark?, Nat.add_assoc, Nat.add_comm 1]

/-- **A pass that does not succeed ends inside its stage**, and its last
record says so. -/
theorem Traces.closes (h : Traces c p states result) (start : p.Seated place stageId)
    {error : RunError} (fault : result.outcome = .error error) (entered size : Nat) :
    Outcome.unfinished (.error error) = 1 ∧
      result.world.Closes c p.site.workflow.id entered size (.error error) := by
  obtain ⟨last, hlast, finish⟩ := h.exists_last
  have id_eq := h.workflow_id start last hlast
  obtain ⟨stage, -, -, -, turn⟩ := (h.seated start last hlast).turn (Option.some.inj finish)
  cases turn with
  | completed => cases fault
  | cancelled =>
    obtain rfl := Except.error.inj fault
    rw [id_eq]
    exact ⟨rfl, World.closes_notify .beforeAction⟩
  | failed =>
    obtain rfl := Except.error.inj fault
    exact ⟨rfl, World.closes_notify .failed⟩

/-- **A call that fails is the error of its pass**, whatever the fault. -/
theorem Traces.outcome_eq_of_fault (h : Traces c p states result) (start : p.Seated place stageId)
    {call : Call β} (hcall : call ∈ states.filterMap (·.call? c)) {source : Fault}
    (fault : call.result c = .error source) :
    result.outcome = .error (.action call.stage.id call.action.id call.action.name source) := by
  obtain ⟨q, hq, called⟩ := List.mem_filterMap.mp hcall
  have seated := h.seated start q hq
  have ends := step_of_call? called
  simp only [fault] at ends
  rcases h.mem_cases hq with ⟨t, -, taken⟩ | ⟨-, taken⟩
  · cases ends.symm.trans (Option.some.inj taken)
  · obtain rfl := Step.finish.inj (ends.symm.trans (Option.some.inj taken))
    -- the id that the pass has kept is that of the stage the action has seen
    obtain ⟨stage, here, id_eq, -⟩ := seated.standing
    obtain ⟨own, slot, here', -, rfl⟩ := call?_eq_some called
    obtain rfl : own = stage := Option.some.inj (here'.symm.trans here)
    have id_eq' : (q.calling c own slot.action).stage.id = q.stageId :=
      id_eq.trans seated.stageId_eq.symm
    rw [id_eq']

end Pass

/-! ## A run -/

namespace Run

variable {steps : Nat} {workflow : Workflow β} {world : World} {r : Run β}
  {states : List (Run β)} {result : Result β}

/-- The stage that is entered at the next position. -/
def visit? (c : Setting β) (steps : Nat) (r : Run β) : Option Visit :=
  (r.entered? c).map fun pass =>
    ⟨.member r.index, pass.stageId, (pass.calls c steps).length⟩

/-- The stages that a run enters, in order. -/
def visits (c : Setting β) (steps : Nat) (workflow : Workflow β) (world : World) : List Visit :=
  (trail c steps workflow world).filterMap (visit? c steps)

theorem visit?_of_entered?_eq_none (h : r.entered? c = none) : r.visit? c steps = none := by
  rw [visit?, h]
  rfl

namespace Enters

variable {stage : Stage β} {pass : Pass β} {passed : Pass.Result β}

theorem visit?_eq (h : r.Enters c steps stage pass passed) :
    r.visit? c steps =
      some ⟨.member r.index, stage.id, (pass.calls c steps).length⟩ := by
  rw [visit?, h.entry, ← h.seated.stageId_eq]
  rfl

/-- What is told of a stage that is entered. -/
theorem landmarks_eq (h : r.Enters c steps stage pass passed) :
    landmarks passed.world.notices = landmarks r.world.notices ++
      .started (.member r.index) stage.id ::
        Pass.ending ⟨.member r.index, stage.id, (pass.calls c steps).length⟩ passed.outcome := by
  have begins : landmarks pass.world.notices =
      landmarks r.world.notices ++ [.started (.member r.index) stage.id] := by
    have ask {w : World} {request : Heap.Request} : (w.ask request).2.notices = w.notices := rfl
    rw [h.pass_eq]
    simp only [Pass.enter]
    split <;> simp [ask, Notice.landmark?, Site.place]
  have executed : pass.executed = 0 := by
    rw [h.pass_eq]
    rfl
  rw [h.traces.landmarks_eq h.seated, begins, executed, Nat.zero_add, List.append_assoc]
  rfl

end Enters

/-- **A run tells the story of the stages that it enters.** -/
theorem Traces.story (h : Traces c steps r states result) :
    ∃ told, landmarks result.world.notices = landmarks r.world.notices ++ told ∧
      Story result.outcome (states.filterMap (visit? c steps)) told := by
  -- no other notice of a run is a landmark
  have silent {w : World} {notice : Notice} (none : notice.landmark? = none) :
      landmarks (w.notify c.logger notice).notices = landmarks w.notices := by
    simp [none]
  have checked {w : World} : (w.check c.token).2.notices = w.notices := rfl
  induction h with
  | @last r result taken =>
    cases turn taken with
    | completed past entry =>
      refine ⟨[], by rw [silent rfl, List.append_nil], ?_⟩
      simpa [visit?_of_entered?_eq_none entry] using Story.completed
    | cancelled found done entry =>
      refine ⟨[], by rw [silent rfl, checked, List.append_nil], ?_⟩
      simpa [visit?_of_entered?_eq_none entry] using Story.cancelled
    | refused found live on done entry =>
      refine ⟨[], by rw [silent rfl, checked, checked, List.append_nil], ?_⟩
      simpa [visit?_of_entered?_eq_none entry] using Story.cancelled
    | @stopped stage pass passed error enters fault =>
      refine ⟨_, enters.landmarks_eq, ?_⟩
      obtain ⟨inside, -, -, -, closing⟩ := enters.traces.closes enters.seated fault 0 0
      simp only [List.filterMap_cons, List.filterMap_nil, enters.visit?_eq, fault]
      cases error with
      | action => exact .failed
      | middleware => cases inside
      | cancelled workflowId checkpoint reason =>
        cases checkpoint with
        | action => exact .stopped
        | stage => cases inside
        | named => cases inside
  | @next r t states result taken rest ih =>
    obtain ⟨told, eq, story⟩ := ih
    cases turn taken with
    | skipped found live off entry =>
      refine ⟨told, by rw [eq, silent rfl, checked], ?_⟩
      rw [List.filterMap_cons_none (visit?_of_entered?_eq_none entry)]
      exact story
    | passed enters ok =>
      rw [List.filterMap_cons_some enters.visit?_eq]
      refine ⟨_, ?_, .passed story⟩
      rw [eq, enters.landmarks_eq, ok, List.append_assoc]
      rfl

/-- **The last record of a run says how it has ended**, how many stages it
has entered and how many there are. -/
theorem Traces.closes (h : Traces c steps r states result) :
    result.world.Closes c r.workflow.id
      (r.executed + (states.filterMap (visit? c steps)).length) result.workflow.size
      result.outcome := by
  induction h with
  | @last r result taken =>
    cases turn taken with
    | completed past entry =>
      have none : [r].filterMap (visit? c steps) = [] := by
        simp [visit?_of_entered?_eq_none entry]
      rw [none]
      exact World.closes_notify .completed
    | cancelled => exact World.closes_notify .beforeStage
    | refused => exact World.closes_notify .beforeStart
    | stopped enters fault =>
      have id_eq : r.workflow.id = _ := congrArg (·.site.workflow.id) enters.pass_eq.symm
      rw [id_eq]
      exact (enters.traces.closes enters.seated fault _ _).2
  | @next r t states result taken rest ih =>
    have id_eq : t.workflow.id = r.workflow.id := by
      rw [(again taken).2.2, Site.workflow_applyAll]
      rfl
    rw [id_eq] at ih
    cases turn taken with
    | skipped found live off entry =>
      rw [List.filterMap_cons_none (visit?_of_entered?_eq_none entry)]
      exact ih
    | passed enters ok =>
      rw [List.filterMap_cons_some enters.visit?_eq, List.length_cons]
      have count (n : Nat) : r.executed + 1 + n = r.executed + (n + 1) := by omega
      rw [← count]
      exact ih

/-- **A call that fails is the error of its run**, whatever the fault. -/
theorem Traces.outcome_eq_of_fault (h : Traces c steps r states result) {call : Call β}
    (hcall : call ∈ states.flatMap (callsHere c steps)) {source : Fault}
    (fault : call.result c = .error source) :
    result.outcome = .error (.action call.stage.id call.action.id call.action.name source) := by
  obtain ⟨s, hs, here⟩ := List.mem_flatMap.mp hcall
  cases entry : s.entered? c with
  | none => rw [callsHere_of_entered?_eq_none entry] at here; cases here
  | some pass =>
    rw [callsHere, entry] at here
    obtain ⟨stage, passed, enters, ends⟩ := h.enters hs entry
    have stops := enters.traces.outcome_eq_of_fault enters.seated here fault
    rcases ends with ⟨ok, -⟩ | ⟨-, outcome_eq, -⟩
    · rw [ok] at stops
      cases stops
    · rw [← outcome_eq, stops]

/-- A run adds to the journal, and first of all that it starts. -/
theorem exists_told (h : run c steps workflow world = some result) :
    ∃ told, told ≠ [] ∧ result.world.journal = world.journal ++ told := by
  -- what follows its start does not depend on what is in the journal then
  let blank : Run β := ⟨workflow, { world with journal := [] }, 0, 0⟩
  have begins : start c workflow world =
      blank.retell ((start c workflow world).world.journal ++ ·) := by
    simp [start, blank, retell, World.retell, World.notify, World.write]
  rw [run, begins, Loop.run_map fun r => step_retell (tells_append _)] at h
  obtain ⟨ended, -, rfl⟩ := Option.map_eq_some_iff.mp h
  refine ⟨.logged c.logger (.engine (.workflowStarting workflow.id workflow.size)) ::
    ended.world.journal, List.cons_ne_nil _ _, ?_⟩
  simp [Result.retell, World.retell, start]

/-- **That the records of a run tell what it has done.** -/
structure Chronicle (c : Setting β) (steps : Nat) (workflow : Workflow β) (world : World)
    (result : Result β) (told : List Event) : Prop where
  journal : result.world.journal = world.journal ++ told
  /-- The run is completed, or cancelled, or an action of it has failed; its
  last record is of the level for that and says so, and if it is completed,
  then with the number of stages entered and of those there are. -/
  closing : ∃ record, told.getLast? = some (.logged c.logger record) ∧
    Closing workflow.id (visits c steps workflow world).length result.workflow.size
      result.outcome record.level record.message
  /-- The stages that are reported to start are those that were entered. -/
  started : (landmarks (told.filterMap Event.notice?)).filterMap Landmark.started? =
    (visits c steps workflow world).map fun visit => (visit.place, visit.stageId)
  /-- So are those that are reported to be completed, with the number of
  actions called there, but for one where the run ends inside a stage. -/
  completed : ∃ finished inside, visits c steps workflow world = finished ++ inside ∧
    (landmarks (told.filterMap Event.notice?)).filterMap Landmark.completed? =
      finished.map (fun visit => (visit.place, visit.stageId, visit.calls)) ∧
    inside.length = result.outcome.unfinished
  /-- The engine reports one error if an action has failed, and else none. -/
  errors : ((told.filterMap Event.notice?).filter (·.level = .error)).length =
    result.outcome.failures
  /-- An action that fails is the error of the run, also one that fails
  because it was cancelled. -/
  faults : ∀ call ∈ calls c steps workflow world, ∀ source, call.result c = .error source →
    result.outcome = .error (.action call.stage.id call.action.id call.action.name source)

/-- **Outcome, course and records of a run tell the same story**, whatever
its actions do and whatever they log. -/
theorem chronicle_of_run (h : run c steps workflow world = some result) :
    ∃ told, Chronicle c steps workflow world result told := by
  have traces := traces_trail h
  obtain ⟨told, nonempty, journal⟩ := exists_told h
  obtain ⟨marked, marked_eq, story⟩ := traces.story
  have begins : landmarks (start c workflow world).world.notices = landmarks world.notices := by
    simp [start, Notice.landmark?]
  have told_eq : landmarks (told.filterMap Event.notice?) = marked := by
    rw [begins, World.notices, journal, List.filterMap_append, landmarks_append] at marked_eq
    exact List.append_cancel_left marked_eq
  obtain ⟨earlier, notice, last, closing⟩ := traces.closes
  have last_eq : told.getLast? = some (.logged c.logger (.engine notice)) := by
    rw [← List.getLast?_append_of_ne_nil world.journal nonempty, ← journal, last]
    exact List.getLast?_concat
  refine ⟨told, journal, ⟨_, last_eq, ?_⟩, told_eq ▸ story.started_eq, told_eq ▸ story.completed_eq,
    ?_, fun call hcall source => traces.outcome_eq_of_fault hcall⟩
  · have entered : (start c workflow world).executed = 0 := rfl
    rw [entered, Nat.zero_add] at closing
    exact closing
  · rw [length_filter_level_error, told_eq, story.length_failed]

/-- A run that grows and stops midway, and one that is cancelled. -/
theorem chronicle_of_run_grow :
    (∃ result, run Sample.setting 4 (Sample.workflow (.grow (.grow .fail))) Sample.world =
        some result ∧
      ∃ told, Chronicle Sample.setting 4 (Sample.workflow (.grow (.grow .fail))) Sample.world
        result told) ∧
    ∃ result, run Sample.setting 4 (Sample.workflow .quit) Sample.world = some result ∧
      ∃ told, Chronicle Sample.setting 4 (Sample.workflow .quit) Sample.world result told :=
  ⟨⟨_, rfl, chronicle_of_run rfl⟩, _, rfl, chronicle_of_run rfl⟩

example : (run Sample.setting 4 (Sample.workflow (.grow .fail)) Sample.world).map
    (fun result => landmarks result.world.notices) =
      some [.started (.member 0) "s", .failed "s" "late"] := by decide

end Run

end StagedWorkflow
