import StagedWorkflow.Proofs.Course

/-!
# Failing actions

A run stops at the first action that fails, and the last call is the only
one that did (`FailsAt`). What the action recorded is dropped as a whole:
the workflow is as the action saw it, with the mutations of all earlier
calls applied and none of its own. What it wrote to stores stays written,
and nothing happens after it but the report of the failure. The same holds
of a stage that is executed on its own (`stops_at_failure`).
-/

namespace StagedWorkflow

variable {β : Type} {c : Setting β}

/-- **That calls end with one that fails**, and what is left of the world
then. -/
structure FailsAt (c : Setting β) (calls : List (Call β)) (error : RunError) (world : World)
    (earlier : List (Call β)) (last : Call β) : Prop where
  /-- No action is called after the one that fails. -/
  calls_eq : calls = earlier ++ [last]
  earlier_ok : ∀ call ∈ earlier, call.result c = .ok ()
  /-- The action has run in the stage that it saw. -/
  stage_eq : last.site.stage? = some last.stage
  /-- The error says which action failed, where, and why; and the world is
  as that action left it, but for the report. -/
  failed : ∃ source, last.result c = .error source ∧
    error = .action last.stage.id last.action.id last.action.name source ∧
    world = (last.left c).notify c.logger
      (.actionFailed last.place last.index last.stage.id last.action.id source)

/-- Calls that succeed can come before. -/
theorem FailsAt.append {calls before earlier : List (Call β)} {error : RunError} {world : World}
    {last : Call β} (h : FailsAt c calls error world earlier last)
    (ok : ∀ call ∈ before, call.result c = .ok ()) :
    FailsAt c (before ++ calls) error world (before ++ earlier) last where
  calls_eq := by rw [h.calls_eq, List.append_assoc]
  earlier_ok call hcall := by
    rcases List.mem_append.mp hcall with hcall | hcall
    · exact ok call hcall
    · exact h.earlier_ok call hcall
  stage_eq := h.stage_eq
  failed := h.failed

/-- What takes effect is what the calls before recorded. -/
theorem FailsAt.granted_eq {calls earlier : List (Call β)} {error : RunError} {world : World}
    {last : Call β} (h : FailsAt c calls error world earlier last) :
    calls.flatMap (Call.granted c) = earlier.flatMap (Call.queue c) := by
  obtain ⟨source, fault, -, -⟩ := h.failed
  have granted : earlier.flatMap (Call.granted c) = earlier.flatMap (Call.queue c) :=
    List.flatMap_congr fun call hcall => Call.granted_of_ok (h.earlier_ok call hcall)
  rw [h.calls_eq, List.flatMap_append, granted]
  simp [Call.granted_of_error fault]

namespace Pass

variable {place : Place} {stageId : String} {p : Pass β} {states : List (Pass β)}
  {result : Result β}

/-- Every call of a pass that succeeds has succeeded. -/
theorem Traces.result_ok (h : Traces c p states result) (start : p.Seated place stageId)
    (ok : result.outcome = .ok ()) :
    ∀ call ∈ states.filterMap (·.call? c), call.result c = .ok () := by
  induction h with
  | last taken =>
    obtain ⟨stage, -, -, -, turn⟩ := start.turn (Option.some.inj taken)
    cases turn with
    | completed past call => simp [call]
    | cancelled => cases ok
    | failed => cases ok
  | next taken rest ih =>
    have later := ih (start.again (Option.some.inj taken)) ok
    obtain ⟨stage, -, -, -, turn⟩ := start.turn (Option.some.inj taken)
    cases turn with
    | skipped found live off call => simpa [call] using later
    | succeeded found live on call ok' => simpa [call, ok'] using later

/-- **A pass stops at the first action that fails.** -/
theorem Traces.failsAt (h : Traces c p states result) (start : p.Seated place stageId)
    {error : RunError} (fault : result.outcome = .error error) (failed : error.actionId?.isSome) :
    ∃ earlier last, FailsAt c (states.filterMap (·.call? c)) error result.world earlier last ∧
      result.site = last.site := by
  induction h with
  | @last p result taken =>
    obtain ⟨stage, here, id_eq, -, turn⟩ := start.turn (Option.some.inj taken)
    cases turn with
    | completed => cases fault
    | cancelled =>
      obtain rfl := Except.error.inj fault
      cases failed
    | @failed slot source found live on call fails =>
      obtain rfl := Except.error.inj fault
      have stageId_eq : p.stageId = stage.id := start.stageId_eq.trans id_eq.symm
      refine ⟨[], p.calling c stage slot.action,
        ⟨by simp [call], by simp, here, source, fails, ?_, ?_⟩, rfl⟩
      · rw [stageId_eq]
        rfl
      · rw [stageId_eq]
        rfl
  | @next p t states result taken rest ih =>
    obtain ⟨earlier, last, fails, site⟩ := ih (start.again (Option.some.inj taken)) fault
    obtain ⟨stage, -, -, -, turn⟩ := start.turn (Option.some.inj taken)
    cases turn with
    | skipped found live off call => exact ⟨earlier, last, by simpa [call] using fails, site⟩
    | @succeeded slot found live on call ok =>
      have ok_first : ∀ call ∈ [p.calling c stage slot.action], call.result c = .ok () := by
        simpa using ok
      refine ⟨p.calling c stage slot.action :: earlier, last, ?_, site⟩
      simpa [call] using fails.append ok_first

end Pass

/-- The workflow after a call that its stage is a member of. -/
def Call.settle (c : Setting β) (workflow : Workflow β) (call : Call β) : Workflow β :=
  ((⟨workflow, call.site.seat⟩ : Site β).applyAll (call.granted c)).2.workflow

/-- Calls made at one position settle as one queue applied there. -/
theorem Call.foldl_settle {workflow : Workflow β} {index : Nat} {calls : List (Call β)}
    (here : ∀ call ∈ calls, call.place = .member index) :
    calls.foldl (settle c) workflow =
      ((⟨workflow, .member index⟩ : Site β).applyAll (calls.flatMap (granted c))).2.workflow := by
  induction calls generalizing workflow with
  | nil => rfl
  | cons call rest ih =>
    have seat : call.site.seat = .member index :=
      Site.seat_of_place (here call List.mem_cons_self)
    have stays : ((⟨workflow, .member index⟩ : Site β).applyAll (call.granted c)).2 =
        ⟨call.settle c workflow, .member index⟩ := by
      rw [settle, seat]
      exact Site.eq_of_place (Site.place_applyAll.trans rfl)
    rw [List.foldl_cons, ih fun other hother => here other (List.mem_cons_of_mem _ hother),
      List.flatMap_cons, Site.applyAll_append, stays]

namespace Run

variable {steps : Nat} {workflow : Workflow β} {world : World} {r : Run β}
  {states : List (Run β)} {result : Result β}

/-- **A run settles its calls one after another**, however it ends. -/
theorem Traces.workflow_eq (h : Traces c steps r states result) :
    result.workflow = (states.flatMap (callsHere c steps)).foldl (Call.settle c) r.workflow := by
  induction h with
  | @last r result taken =>
    have here : ∀ call ∈ r.callsHere c steps, call.place = .member r.index :=
      fun _ => place_of_mem_callsHere
    rw [(finish_eq taken).2, List.flatMap_singleton, Call.foldl_settle here]
    rfl
  | @next r t states result taken rest ih =>
    have here : ∀ call ∈ r.callsHere c steps, call.place = .member r.index :=
      fun _ => place_of_mem_callsHere
    rw [ih, (again taken).2.2, List.flatMap_cons, List.foldl_append, Call.foldl_settle here]
    rfl

/-- **A run stops at the first action that fails**, in the stage that it
entered last. -/
theorem Traces.failsAt (h : Traces c steps r states result) {error : RunError}
    (fault : result.outcome = .error error) (failed : error.actionId?.isSome) :
    ∃ earlier last,
      FailsAt c (states.flatMap (callsHere c steps)) error result.world earlier last ∧
        result.workflow = last.site.workflow ∧
        ((states.filter fun s => (s.entered? c).isSome).map Run.index).getLast?.map Place.member =
          some last.place := by
  induction h with
  | @last r result taken =>
    cases turn taken with
    | completed => cases fault
    | cancelled =>
      obtain rfl := Except.error.inj fault
      cases failed
    | refused =>
      obtain rfl := Except.error.inj fault
      cases failed
    | @stopped stage pass passed _ enters stops =>
      obtain rfl := Except.error.inj fault
      obtain ⟨earlier, last, fails, site⟩ := enters.traces.failsAt enters.seated stops failed
      have calls : [r].flatMap (callsHere c steps) =
          (pass.trail c steps).filterMap (·.call? c) := by
        rw [List.flatMap_singleton, enters.callsHere_eq]
        rfl
      refine ⟨earlier, last, calls ▸ fails, by rw [site], ?_⟩
      have hlast : last ∈ r.callsHere c steps := by
        rw [← List.flatMap_singleton (callsHere c steps) r, calls, fails.calls_eq]
        simp
      rw [place_of_mem_callsHere hlast]
      simp [enters.entry]
  | @next r t states result taken rest ih =>
    obtain ⟨earlier, last, fails, workflow_eq, entry⟩ := ih fault
    cases turn taken with
    | skipped found live off none =>
      refine ⟨earlier, last, ?_, workflow_eq, ?_⟩
      · simpa [callsHere_of_entered?_eq_none none] using fails
      · simpa [none] using entry
    | passed enters ok =>
      have all_ok : ∀ call ∈ r.callsHere c steps, call.result c = .ok () := by
        rw [enters.callsHere_eq]
        exact enters.traces.result_ok enters.seated ok
      refine ⟨r.callsHere c steps ++ earlier, last, fails.append all_ok, workflow_eq, ?_⟩
      rw [List.filter_cons_of_pos (by simp [enters.entry]), List.map_cons, List.getLast?_cons]
      obtain ⟨index, last_entry, place⟩ := Option.map_eq_some_iff.mp entry
      simp [last_entry, place]

end Run

/-- **An action that fails stops everything**, with its own mutations
dropped, those of all actions before it applied, and what it wrote to
stores kept. -/
theorem stops_at_failure (c : Setting β) (steps : Nat) (workflow : Workflow β) (world : World) :
    (∀ result, Run.run c steps workflow world = some result →
      ∀ stageId actionId actionName source,
        result.outcome = .error (.action stageId actionId actionName source) →
        ∃ earlier last,
          FailsAt c (Run.calls c steps workflow world)
            (.action stageId actionId actionName source) result.world earlier last ∧
          (Run.entries c steps workflow world).getLast?.map Place.member = some last.place ∧
          result.workflow = last.site.workflow ∧
          result.workflow = earlier.foldl (Call.settle c) workflow) ∧
    (∀ stage result, Runner.executeStage c steps stage workflow world = some result →
      ∀ stageId actionId actionName source,
        result.outcome = .error (.action stageId actionId actionName source) →
        ∃ earlier last,
          FailsAt c (Runner.stageCalls c steps stage workflow world)
            (.action stageId actionId actionName source) result.world earlier last ∧
          result.site = last.site ∧
          result.site =
            ((⟨workflow, .detached stage⟩ : Site β).applyAll
              (earlier.flatMap (Call.queue c))).2) := by
  constructor
  · intro result h stageId actionId actionName source fault
    have traces := Run.traces_trail h
    obtain ⟨earlier, last, fails, site, entry⟩ := traces.failsAt fault rfl
    refine ⟨earlier, last, fails, entry, site, ?_⟩
    obtain ⟨failure, result_eq, -, -⟩ := fails.failed
    rw [traces.workflow_eq, fails.calls_eq, List.foldl_append]
    simp [Call.settle, Call.granted_of_error result_eq, Run.start]
  · intro stage result h stageId actionId actionName source fault
    rcases Pass.traces_of_run h with ⟨pass, entry, traces⟩ | ⟨reason, cancelled⟩
    · obtain ⟨-, pass_eq⟩ := Pass.entered?_eq_some_iff.mp entry
      have here : (⟨workflow, .detached stage⟩ : Site β).stage? = some stage := rfl
      have seated : pass.Seated .detached stage.id := by
        rw [pass_eq]
        exact Pass.seated_enter here
      have calls : Runner.stageCalls c steps stage workflow world =
          (pass.trail c steps).filterMap (·.call? c) := by
        rw [Runner.stageCalls, entry]
        rfl
      obtain ⟨earlier, last, fails, site⟩ := traces.failsAt seated fault rfl
      refine ⟨earlier, last, calls ▸ fails, site, ?_⟩
      rw [traces.site_eq seated, fails.granted_eq, pass_eq]
      rfl
    · rw [cancelled] at fault
      cases fault

/-- An action that another one has added fails, in a run and in a stage that
is executed on its own. -/
theorem stops_at_failure_grow :
    (∃ result, Run.run Sample.setting 4 (Sample.workflow (.grow .fail)) Sample.world =
        some result ∧
      ∃ earlier last, FailsAt Sample.setting
        (Run.calls Sample.setting 4 (Sample.workflow (.grow .fail)) Sample.world)
        (.action "s" "late" "late" (.text "no")) result.world earlier last) ∧
    ∃ result, Runner.executeStage Sample.setting 4 (Sample.stage (.grow .fail))
        (Sample.workflow .rest) Sample.world = some result ∧
      ∃ earlier last, FailsAt Sample.setting
        (Runner.stageCalls Sample.setting 4 (Sample.stage (.grow .fail)) (Sample.workflow .rest)
          Sample.world)
        (.action "s" "late" "late" (.text "no")) result.world earlier last := by
  obtain ⟨earlier, last, fails, -⟩ :=
    (stops_at_failure Sample.setting 4 (Sample.workflow (.grow .fail)) Sample.world).1
      _ rfl _ _ _ _ rfl
  obtain ⟨earlier', last', fails', -⟩ :=
    (stops_at_failure Sample.setting 4 (Sample.workflow .rest) Sample.world).2
      (Sample.stage (.grow .fail)) _ rfl _ _ _ _ rfl
  exact ⟨⟨_, rfl, earlier, last, fails⟩, _, rfl, earlier', last', fails'⟩

end StagedWorkflow
