import StagedWorkflow.Proofs.Journal

/-!
# Order and completeness of a run

A run takes the positions of a list that grows while it is walked. This file
says that it does so exactly once, in order, and without leaving one out:
the positions it calls actions at increase (`Run.pairwise_positions`), what
is done at each is decided by the switch as it stands when the position is
reached, and a run that succeeds has reached every position of the lists as
they are at its end (`Run.Traces.reached_eq`, `Pass.Traces.reached_eq`).
`Run.inOrder_of_run` puts the three together.
-/

namespace StagedWorkflow

variable {β : Type} {c : Setting β}

namespace Pass

variable {place : Place} {stageId : String} {p : Pass β} {states : List (Pass β)}
  {result : Result β}

/-- The calls of a pass stand where its positions were reached. -/
theorem Traces.pairwise_calls (h : Traces c p states result) (start : p.Seated place stageId) :
    (states.filterMap (·.call? c)).Pairwise (·.index < ·.index) := by
  rw [List.pairwise_filterMap]
  refine (h.pairwise_index start).imp fun lt call hcall call' hcall' => ?_
  obtain ⟨_, _, _, _, rfl⟩ := call?_eq_some hcall
  obtain ⟨_, _, _, _, rfl⟩ := call?_eq_some hcall'
  exact lt

/-- **A pass that succeeds has reached every position** of its stage, as the
stage is at the end. -/
theorem Traces.reached_eq (h : Traces c p states result) (start : p.Seated place stageId)
    (ok : result.outcome = .ok ()) :
    ∃ stage, result.site.stage? = some stage ∧
      (states.filter fun q => (q.site.slot? q.index).isSome).map Pass.index =
        List.range' p.index (stage.size - p.index) := by
  have seated := h.seated start
  have ended {q : Pass β} (hq : q ∈ states) (taken : q.step c = .finish result) :
      ∃ stage, result.site.stage? = some stage ∧ q.index = stage.size ∧
        (q.site.slot? q.index).isSome = false := by
    obtain ⟨stage, here, -, le, turn⟩ := (seated q hq).turn taken
    cases turn with
    | completed past =>
      have ge : stage.size ≤ q.index := List.getElem?_eq_none_iff.mp past
      exact ⟨stage, here, by omega, by simp [Site.slot?, here, past]⟩
    | cancelled => cases ok
    | failed => cases ok
  obtain ⟨last, hlast, finish⟩ := h.exists_last
  obtain ⟨stage, there, -, -⟩ := ended hlast (Option.some.inj finish)
  refine ⟨stage, there, h.map_filter_eq_range' ?_ ?_⟩
  · intro q hq t taken
    obtain ⟨own, here, -, -, turn⟩ := (seated q hq).turn (Option.some.inj taken)
    refine ⟨?_, (seated q hq).index_again (Option.some.inj taken)⟩
    cases turn with
    | skipped found => simp [Site.slot?, here, found]
    | succeeded found => simp [Site.slot?, here, found]
  · intro q hq taken
    obtain ⟨own, there', size, outside⟩ := ended hq (Option.some.inj taken)
    obtain rfl : own = stage := Option.some.inj (there'.symm.trans there)
    exact ⟨outside, size⟩

end Pass

namespace Run

variable {steps : Nat} {workflow : Workflow β} {world : World} {r : Run β}
  {states : List (Run β)} {result : Result β}

/-- The calls made at a position of the stage list, as positions. -/
theorem pairwise_callsHere (h : Traces c steps r states result) {s : Run β} (hs : s ∈ states) :
    (s.callsHere c steps).Pairwise (·.index < ·.index) := by
  cases entry : s.entered? c with
  | none => simp [callsHere, entry]
  | some pass =>
    obtain ⟨stage, passed, enters, -⟩ := h.enters hs entry
    rw [enters.callsHere_eq]
    exact enters.traces.pairwise_calls enters.seated

/-- **No position is called twice, and the order is that of the lists.** -/
theorem pairwise_positions (h : run c steps workflow world = some result) :
    (positions c steps workflow world).Pairwise (Prod.Lex (· < ·) (· < ·)) := by
  have traces := traces_trail h
  rw [positions, List.pairwise_flatMap]
  constructor
  · intro r hr
    rw [List.pairwise_map]
    refine (pairwise_callsHere traces hr).imp fun lt => ?_
    exact Prod.Lex.right _ lt
  · refine traces.pairwise_index.imp fun {r s} lt x hx y hy => ?_
    obtain ⟨_, _, rfl⟩ := List.mem_map.mp hx
    obtain ⟨_, _, rfl⟩ := List.mem_map.mp hy
    exact Prod.Lex.left _ _ lt

/-- **The journal shows the course of a run**: the stages that are entered
and the actions that are called, in order. -/
theorem reported_of_run (h : run c steps workflow world = some result) :
    result.world.marks = world.marks ++
      (Run.trail c steps workflow world).flatMap fun r =>
        match r.entered? c with
        | none => []
        | some _ => .entered (.member r.index) ::
          (r.callsHere c steps).map fun call => .called (.member r.index) call.index := by
  have traces := traces_trail h
  have begins : (start c workflow world).world.marks = world.marks := by
    simp [start, World.marks, Notice.mark?]
  rw [traces.marks_eq, begins]
  refine congrArg _ (List.flatMap_congr fun r hr => ?_)
  cases entry : r.entered? c with
  | none => exact marksHere_of_entered?_eq_none entry
  | some pass =>
    have calls_eq : r.callsHere c steps = pass.calls c steps := by rw [callsHere, entry]
    have placed : (r.callsHere c steps).map Call.mark =
        (r.callsHere c steps).map fun call => .called (.member r.index) call.index := by
      refine List.map_congr_left fun call hcall => ?_
      rw [Call.mark, Run.place_of_mem_callsHere hcall]
    rw [calls_eq] at placed
    rw [marksHere, entry]
    simp only [placed, calls_eq]

/-- **A run that succeeds has reached every position** of the stage list, as
it is at the end. -/
theorem Traces.reached_eq (h : Traces c steps r states result) (le : r.index ≤ r.workflow.size)
    (ok : result.outcome = .ok ()) :
    (states.filter fun s => s.index < s.workflow.size).map Run.index =
      List.range' r.index (result.workflow.size - r.index) := by
  refine h.map_filter_eq_range' ?_ ?_
  · intro s _ t taken
    obtain ⟨lt, index, -⟩ := again taken
    exact ⟨by simpa using lt, index⟩
  · intro s hs taken
    have le := h.index_le le s hs
    cases turn taken with
    | completed past =>
      have ge : s.workflow.size ≤ s.index := List.getElem?_eq_none_iff.mp past
      exact ⟨by simpa using ge, show s.index = s.workflow.size by omega⟩
    | cancelled => cases ok
    | refused => cases ok
    | stopped => cases ok

/-- That the token passes the checks made for the position of a stage: one
when it is reached, and one more when the stage is enabled and starts. -/
def Cleared (c : Setting β) (r : Run β) (stage : Stage β) : Prop :=
  (r.world.check c.token).1 = .ok () ∧
    (r.workflow.isStageEnabled stage.id = true →
      ((r.world.check c.token).2.check c.token).1 = .ok ())

/-- **What a run does in which order**, and that nothing is left out. -/
structure InOrder (c : Setting β) (steps : Nat) (workflow : Workflow β) (world : World)
    (result : Result β) : Prop where
  /-- The positions at which actions are called increase, the position of
  the stage before that of the action. -/
  increasing : (positions c steps workflow world).Pairwise (Prod.Lex (· < ·) (· < ·))
  /-- The journal shows the stages that are entered and the actions that are
  called, each where it stands, and no others. -/
  reported : result.world.marks = world.marks ++
    (trail c steps workflow world).flatMap fun r =>
      match r.entered? c with
      | none => []
      | some _ => .entered (.member r.index) ::
        (r.callsHere c steps).map fun call => .called (.member r.index) call.index
  /-- A stage that is reached is entered exactly if its id is enabled then. -/
  entered_iff : ∀ r ∈ trail c steps workflow world, ∀ stage,
    r.workflow.stages[r.index]? = some stage → r.Cleared c stage →
      ((r.entered? c).isSome ↔ r.workflow.isStageEnabled stage.id = true)
  /-- Unless the token is done: then the run ends there. -/
  stage_cancelled : ∀ r ∈ trail c steps workflow world, ∀ stage,
    r.workflow.stages[r.index]? = some stage → ¬ r.Cleared c stage →
      r.entered? c = none ∧ (trail c steps workflow world).getLast? = some r ∧
        ∃ reason, result.outcome = .error (.cancelled workflow.id (.stage stage.id) reason)
  /-- An action that is reached in a stage that is entered is called exactly
  if its own slot is enabled then. -/
  called_iff : ∀ r ∈ trail c steps workflow world, ∀ pass, r.entered? c = some pass →
    ∀ p ∈ pass.trail c steps, ∀ slot, p.site.slot? p.index = some slot →
      (p.world.check c.token).1 = .ok () → ((p.call? c).isSome ↔ slot.enabled = true)
  /-- Unless the token is done: then the pass and the run end there. -/
  action_cancelled : ∀ r ∈ trail c steps workflow world, ∀ pass, r.entered? c = some pass →
    ∀ p ∈ pass.trail c steps, ∀ slot, p.site.slot? p.index = some slot →
      ∀ reason, (p.world.check c.token).1 = .error reason →
        p.call? c = none ∧ (pass.trail c steps).getLast? = some p ∧
          (trail c steps workflow world).getLast? = some r ∧
          result.outcome =
            .error (.cancelled workflow.id (.action slot.action.id p.stageId) reason)
  /-- A run that succeeds has reached all stages there are at its end. -/
  stages_reached : result.outcome = .ok () →
    reached c steps workflow world = List.range result.workflow.size
  /-- In each that it entered, it has reached all actions there are. -/
  actions_reached : result.outcome = .ok () →
    ∀ r ∈ trail c steps workflow world, ∀ pass, r.entered? c = some pass →
      ∃ stage, result.workflow.stages[r.index]? = some stage ∧
        pass.reached c steps = List.range stage.size

/-- What a position comes to whose stage is reached. -/
theorem Traces.cleared_cases (h : Traces c steps r states result) {s : Run β} (hs : s ∈ states)
    {stage : Stage β} (found : s.workflow.stages[s.index]? = some stage) :
    (s.Cleared c stage → ((s.entered? c).isSome ↔ s.workflow.isStageEnabled stage.id = true)) ∧
      (¬ s.Cleared c stage → s.entered? c = none ∧ states.getLast? = some s ∧
        ∃ reason,
          result.outcome = .error (.cancelled r.workflow.id (.stage stage.id) reason)) := by
  have id_eq := h.workflow_id s hs
  have same {other : Stage β} (here : s.workflow.stages[s.index]? = some other) :
      other = stage := Option.some.inj (here.symm.trans found)
  rcases h.mem_cases hs with ⟨t, -, taken⟩ | ⟨last, taken⟩
  · cases turn taken with
    | skipped here live off entry =>
      obtain rfl := same here
      refine ⟨fun _ => by simp [entry, off], fun not => absurd ⟨live, fun on => ?_⟩ not⟩
      rw [off] at on
      cases on
    | passed enters ok =>
      obtain rfl := same enters.found
      exact ⟨fun _ => by simp [enters.entry, enters.on],
        fun not => absurd ⟨enters.live, fun _ => enters.still⟩ not⟩
  · cases turn taken with
    | completed past entry => rw [past] at found; cases found
    | cancelled here done entry =>
      obtain rfl := same here
      refine ⟨fun cleared => ?_, fun _ => ⟨entry, last, _, by rw [id_eq]⟩⟩
      rw [cleared.1] at done
      cases done
    | refused here live on done entry =>
      obtain rfl := same here
      refine ⟨fun cleared => ?_, fun _ => ⟨entry, last, _, by rw [id_eq]⟩⟩
      rw [cleared.2 on] at done
      cases done
    | stopped enters fault =>
      obtain rfl := same enters.found
      exact ⟨fun _ => by simp [enters.entry, enters.on],
        fun not => absurd ⟨enters.live, fun _ => enters.still⟩ not⟩

end Run

/-- What a position comes to whose action is reached. -/
theorem Pass.Traces.checked_cases {place : Place} {stageId : String} {p : Pass β}
    {states : List (Pass β)} {result : Pass.Result β} (h : Pass.Traces c p states result)
    (start : p.Seated place stageId) {q : Pass β} (hq : q ∈ states) {slot : Slot β}
    (found : q.site.slot? q.index = some slot) :
    ((q.world.check c.token).1 = .ok () → ((q.call? c).isSome ↔ slot.enabled = true)) ∧
      ∀ reason, (q.world.check c.token).1 = .error reason →
        q.call? c = none ∧ states.getLast? = some q ∧
          result.outcome =
            .error (.cancelled p.site.workflow.id (.action slot.action.id q.stageId) reason) := by
  have id_eq := h.workflow_id start q hq
  have same {stage : Stage β} (here : q.site.stage? = some stage) {own : Slot β}
      (at_q : stage.slots[q.index]? = some own) : own = slot := by
    rw [Site.slot?, here, Option.bind_some, at_q] at found
    exact Option.some.inj found
  rcases h.mem_cases hq with ⟨t, -, taken⟩ | ⟨last, taken⟩
  · obtain ⟨stage, here, -, -, turn⟩ := (h.seated start q hq).turn (Option.some.inj taken)
    cases turn with
    | skipped at_q live off call =>
      obtain rfl := same here at_q
      exact ⟨fun _ => by simp [call, off], fun reason done => by rw [live] at done; cases done⟩
    | succeeded at_q live on call ok =>
      obtain rfl := same here at_q
      exact ⟨fun _ => by simp [call, on], fun reason done => by rw [live] at done; cases done⟩
  · obtain ⟨stage, here, -, -, turn⟩ := (h.seated start q hq).turn (Option.some.inj taken)
    cases turn with
    | completed past =>
      rw [Site.slot?, here, Option.bind_some, past] at found
      cases found
    | cancelled at_q done call =>
      obtain rfl := same here at_q
      refine ⟨fun live => ?_, fun reason done' => ?_⟩
      · rw [live] at done
        cases done
      · obtain rfl := Except.error.inj (done.symm.trans done')
        exact ⟨call, last, by rw [id_eq]⟩
    | failed at_q live on call fault =>
      obtain rfl := same here at_q
      exact ⟨fun _ => by simp [call, on], fun reason done => by rw [live] at done; cases done⟩

namespace Run

variable {steps : Nat} {workflow : Workflow β} {world : World} {r : Run β}
  {states : List (Run β)} {result : Result β}

/-- Where the token is done before an action, the pass and the run end. -/
theorem Traces.action_cancelled (h : Traces c steps r states result) {s : Run β} (hs : s ∈ states)
    {pass : Pass β} (entry : s.entered? c = some pass) {p : Pass β} (hp : p ∈ pass.trail c steps)
    {slot : Slot β} (found : p.site.slot? p.index = some slot) {reason : CancelReason}
    (done : (p.world.check c.token).1 = .error reason) :
    p.call? c = none ∧ (pass.trail c steps).getLast? = some p ∧ states.getLast? = some s ∧
      result.outcome =
        .error (.cancelled r.workflow.id (.action slot.action.id p.stageId) reason) := by
  obtain ⟨stage, passed, enters, ends⟩ := h.enters hs entry
  obtain ⟨call, last, outcome⟩ :=
    (enters.traces.checked_cases enters.seated hp found).2 reason done
  rcases ends with ⟨ok, -⟩ | ⟨last', outcome', -⟩
  · rw [ok] at outcome
    cases outcome
  · have id_eq : pass.site.workflow.id = r.workflow.id := by
      rw [enters.pass_eq]
      exact h.workflow_id s hs
    exact ⟨call, last, last', by rw [← outcome', outcome, id_eq]⟩

/-- **In each stage that it entered**, a run that succeeds has reached every
position, as the stage is at the end. -/
theorem Traces.actions_reached (h : Traces c steps r states result) (ok : result.outcome = .ok ())
    {s : Run β} (hs : s ∈ states) {pass : Pass β} (entry : s.entered? c = some pass) :
    ∃ stage, result.workflow.stages[s.index]? = some stage ∧
      pass.reached c steps = List.range stage.size := by
  obtain ⟨stage, passed, enters, ends⟩ := h.enters hs entry
  rcases ends with ⟨succeeded, t, ht, taken, workflow_eq⟩ | ⟨-, -, fault, -⟩
  · obtain ⟨final, here, positions⟩ := enters.traces.reached_eq enters.seated succeeded
    refine ⟨final, ?_, ?_⟩
    · -- the pass is over, and the run past its stage
      obtain ⟨lt, index, -⟩ := again taken
      obtain ⟨rest, later, -⟩ := h.exists_suffix ht
      have place : passed.site.place = .member s.index := by
        rw [enters.site_eq, Site.place_applyAll]
        rfl
      rw [Site.stage?_of_place place, ← workflow_eq] at here
      have inside : s.index < t.workflow.size := (List.getElem?_eq_some_iff.mp here).1
      rw [← here]
      exact Traces.getElem?_stages_of_lt later (by omega) inside
    · have index : pass.index = 0 := by rw [enters.pass_eq]; rfl
      rw [index] at positions
      rw [List.range_eq_range']
      exact positions
  · exact absurd ok fault

/-- **A run is in order**, whatever its actions do: it calls each position
at most once and in the order of the lists, it decides by the switches as
they stand, and where it succeeds it leaves nothing out. -/
theorem inOrder_of_run (h : run c steps workflow world = some result) :
    InOrder c steps workflow world result where
  increasing := pairwise_positions h
  reported := reported_of_run h
  entered_iff r hr stage found := ((traces_trail h).cleared_cases hr found).1
  stage_cancelled r hr stage found := ((traces_trail h).cleared_cases hr found).2
  called_iff r hr pass entry p hp slot found := by
    obtain ⟨stage, passed, enters, -⟩ := (traces_trail h).enters hr entry
    exact (enters.traces.checked_cases enters.seated hp found).1
  action_cancelled r hr pass entry p hp slot found reason done :=
    (traces_trail h).action_cancelled hr entry hp found done
  stages_reached ok := by
    rw [reached, List.range_eq_range', trail]
    exact (traces_trail h).reached_eq (Nat.zero_le _) ok
  actions_reached ok r hr pass entry := (traces_trail h).actions_reached ok hr entry

/-- A run that grows: the stage gets a second action, and is followed by a
stage of the same id. -/
theorem inOrder_of_run_grow : ∃ result,
    run Sample.setting 4 (Sample.workflow (.grow .rest)) Sample.world = some result ∧
      InOrder Sample.setting 4 (Sample.workflow (.grow .rest)) Sample.world result :=
  ⟨_, rfl, inOrder_of_run rfl⟩

example : positions Sample.setting 4 (Sample.workflow (.grow .rest)) Sample.world =
    [(0, 0), (0, 1), (1, 0)] := by decide

end Run

end StagedWorkflow
