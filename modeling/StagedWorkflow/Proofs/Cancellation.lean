import StagedWorkflow.Proofs.Course

/-!
# Runs whose token gets done

A token is done once it is cancelled or its deadline has passed
(`Signals.Done`), and only an action can make it so while a run is under
way. The run then stops at the next position, which is looked for in the
lists as the action has left them, and whose switch does not matter
(`Pass.step_of_done`, `Run.step_of_done`). If there is no next position at
all, the run succeeds. `Run.stops_when_done` says so for a token that is
done from the beginning, and for one that is done after some call.
-/

namespace StagedWorkflow

variable {β : Type} {c : Setting β}

/-- **That a token is done, and why.** A cancellation comes before a
deadline. -/
inductive Signals.Done (s : Signals) (token : Token) : CancelReason → Prop where
  /-- It was cancelled. -/
  | cancelled (set : s.isSet token = true) : Done s token .cancelled
  /-- Its deadline has passed. -/
  | expired {deadline : Nat} (unset : s.isSet token = false)
      (limit : token.deadline = some deadline) (passed : deadline ≤ s.clock.now) :
      Done s token .deadlineExceeded

/-- A check fails if the token is done, and says why. -/
theorem Signals.check_eq_error_iff {s : Signals} {token : Token} {reason : CancelReason} :
    (s.check token).1 = .error reason ↔ s.Done token reason := by
  rw [check]
  constructor
  · intro failed
    cases set : s.isSet token with
    | true =>
      rw [set] at failed
      obtain rfl : CancelReason.cancelled = reason := by simpa using failed
      exact .cancelled set
    | false =>
      rw [set] at failed
      cases limit : token.deadline with
      | none => simp [limit] at failed
      | some deadline =>
        by_cases passed : deadline ≤ s.clock.now
        · obtain rfl : CancelReason.deadlineExceeded = reason := by
            simpa [limit, Clock.read, passed] using failed
          exact .expired set limit passed
        · simp [limit, Clock.read, passed] at failed
  · intro done
    cases done with
    | cancelled set => simp [set]
    | expired unset limit passed => simp [unset, limit, Clock.read, passed]

theorem World.check_of_done {w : World} {token : Token} {reason : CancelReason}
    (done : w.signals.Done token reason) : (w.check token).1 = .error reason :=
  Signals.check_eq_error_iff.mpr done

/-- A token that is done passes no check. -/
theorem World.not_live_of_done {w : World} {token : Token} {reason : CancelReason}
    (done : w.signals.Done token reason) : (w.check token).1 ≠ .ok () := by
  rw [check_of_done done]
  exact nofun

@[simp] theorem World.heap_notifyAll {w : World} {logger : Logger} {notices : List Notice} :
    (w.notifyAll logger notices).heap = w.heap := by
  rw [notifyAll_eq]

@[simp] theorem World.signals_notifyAll {w : World} {logger : Logger} {notices : List Notice} :
    (w.notifyAll logger notices).signals = w.signals := by
  rw [notifyAll_eq]

/-- **That a run is cancelled** before what the text names: the error holds
the workflow, the text and the reason, and a warning is sent last. -/
structure CancelledBefore (logger : Logger) (workflowId text : String) (reason : CancelReason)
    (world : World) (outcome : Outcome) : Prop where
  outcome_eq : ∃ checkpoint, outcome = .error (.cancelled workflowId checkpoint reason) ∧
    checkpoint.message = text
  warned : ∃ notice, notice.level = .warn ∧
    world.journal.getLast? = some (.logged logger (.engine notice))

section

variable {logger : Logger} {workflowId id stageId : String} {reason : CancelReason}
  {world : World} {notice : Notice}

theorem cancelledBefore_action (warning : notice.level = .warn) :
    CancelledBefore logger workflowId s!"action '{id}' of stage '{stageId}'" reason
      (world.notify logger notice) (.error (.cancelled workflowId (.action id stageId) reason)) :=
  ⟨⟨_, rfl, rfl⟩, notice, warning, by simp⟩

theorem cancelledBefore_stage (warning : notice.level = .warn) :
    CancelledBefore logger workflowId s!"stage '{id}'" reason
      (world.notify logger notice) (.error (.cancelled workflowId (.stage id) reason)) :=
  ⟨⟨_, rfl, rfl⟩, notice, warning, by simp⟩

end

namespace Pass

variable {p : Pass β} {stage : Stage β} {reason : CancelReason}

/-- **A pass whose token is done stops at the next position**, enabled or
not. If there is none, it succeeds. -/
theorem step_of_done (here : p.site.stage? = some stage)
    (done : p.world.signals.Done c.token reason) :
    ∃ result : Result β, p.step c = .finish result ∧ p.call? c = none ∧
      result.site = p.site ∧ result.world.heap = p.world.heap ∧
      match stage.slots[p.index]? with
      | some slot =>
        CancelledBefore c.logger p.site.workflow.id
          s!"action '{slot.action.id}' of stage '{p.stageId}'" reason result.world result.outcome
      | none => result.outcome = .ok () ∧ result.world.signals = p.world.signals := by
  rcases taken : p.step c with next | result
  · have goes : Turn c p stage (.again next) := taken ▸ turn here
    cases goes with
    | skipped found live => exact absurd live (World.not_live_of_done done)
    | succeeded found live => exact absurd live (World.not_live_of_done done)
  · have ends : Turn c p stage (.finish result) := taken ▸ turn here
    refine ⟨result, rfl, ?_⟩
    cases ends with
    | completed past call =>
      rw [past]
      exact ⟨call, rfl, rfl, rfl, rfl⟩
    | @cancelled slot reason' found done' call =>
      obtain rfl : reason = reason' :=
        Except.error.inj ((World.check_of_done done).symm.trans done')
      rw [found]
      exact ⟨call, rfl, rfl, cancelledBefore_action rfl⟩
    | failed found live => exact absurd live (World.not_live_of_done done)

/-- What comes of a pass after a call at which its token gets done. -/
structure StoppedAfter (c : Setting β) (stageId : String) (call : Call β)
    (reason : CancelReason) (result : Result β) : Prop where
  heap_eq : result.world.heap = (call.left c).heap
  site_eq : result.site = (call.site.applyAll (call.granted c)).2
  failed : ∀ source, call.result c = .error source →
    result.outcome = .error (.action stageId call.action.id call.action.name source)
  cancelled : call.result c = .ok () → ∃ stage, result.site.stage? = some stage ∧
    stage.id = call.stage.id ∧
    match stage.slots[call.index + 1]? with
    | some slot =>
      CancelledBefore c.logger result.site.workflow.id
        s!"action '{slot.action.id}' of stage '{stageId}'" reason result.world result.outcome
    | none => result.outcome = .ok () ∧ result.world.signals = (call.left c).signals

/-- **A pass ends with the call** at which its token gets done, or one step
later. -/
theorem traces_of_done {call : Call β} (called : p.call? c = some call)
    (done : (call.left c).signals.Done c.token reason) :
    ∃ states result, Traces c p states result ∧ states.length ≤ 2 ∧
      states.filterMap (·.call? c) = [call] ∧ StoppedAfter c p.stageId call reason result := by
  have step_eq := step_of_call? called
  obtain ⟨stage, slot, here, -, rfl⟩ := call?_eq_some called
  cases ended : (p.calling c stage slot.action).result c with
  | error source =>
    simp only [ended] at step_eq
    refine ⟨[p], _, .last (by rw [step_eq]), by simp, by simp [called], rfl, ?_, ?_, ?_⟩
    · rw [Call.granted_of_error ended]
      rfl
    · intro source' fault
      obtain rfl : source = source' := Except.error.inj (ended.symm.trans fault)
      rfl
    · intro ok
      rw [ended] at ok
      cases ok
  | ok =>
    simp only [ended] at step_eq
    -- the pass goes on to a state whose token is done
    generalize next_eq : (⟨(p.site.applyAll _).2, _, _, _, _⟩ : Pass β) = next at step_eq
    have site_eq : next.site =
        (p.site.applyAll ((p.calling c stage slot.action).queue c)).2 := by rw [← next_eq]
    have there : next.site.stage? =
        some (stage.amendAll ((p.calling c stage slot.action).queue c)) := by
      rw [site_eq]
      exact Site.stage?_applyAll here
    have signals_eq : next.world.signals = ((p.calling c stage slot.action).left c).signals := by
      rw [← next_eq, World.signals_notifyAll]
    have heap_eq : next.world.heap = ((p.calling c stage slot.action).left c).heap := by
      rw [← next_eq, World.heap_notifyAll]
    have done' : next.world.signals.Done c.token reason := by rwa [signals_eq]
    obtain ⟨result, last, none, site, heap, outcome⟩ := step_of_done there done'
    refine ⟨[p, next], result, .next (by rw [step_eq]) (.last (by rw [last])), by simp,
      by simp [called, none], heap.trans heap_eq, ?_, ?_, ?_⟩
    · rw [site, site_eq, Call.granted_of_ok ended]
      rfl
    · intro source fault
      rw [ended] at fault
      cases fault
    · intro _
      have index_eq : next.index = p.index + 1 := by rw [← next_eq]
      have stageId_eq : next.stageId = p.stageId := by rw [← next_eq]
      rw [index_eq, stageId_eq, ← site, signals_eq] at outcome
      exact ⟨_, site ▸ there, Stage.id_amendAll, outcome⟩

/-- A pass with such a call ends, and the call is its last. -/
theorem exists_traces_of_done {steps more : Nat} {call : Call β} (hcall : call ∈ p.calls c steps)
    (done : (call.left c).signals.Done c.token reason) (lt : steps < more) :
    ∃ result, Traces c p (p.trail c more) result ∧ (p.calls c more).getLast? = some call ∧
      ∃ q ∈ p.trail c more, q.call? c = some call ∧
        StoppedAfter c q.stageId call reason result := by
  obtain ⟨q, hq, called⟩ := List.mem_filterMap.mp hcall
  obtain ⟨ending, result, ends, short, only, stopped⟩ := traces_of_done called done
  -- the whole pass: what came before the call, and the ending
  obtain ⟨earlier, before, whole⟩ := Loop.exists_traces_of_mem (fun _ _ => id) hq ends
  have enough : (earlier ++ ending).length ≤ more := by
    rw [List.length_append]
    omega
  have trail_eq : p.trail c more = earlier ++ ending := (whole.run_eq enough).2
  rw [calls, trail_eq, List.filterMap_append, only]
  exact ⟨result, whole, by simp, q, List.mem_append_right _ ends.first_mem, called, stopped⟩

end Pass

namespace Run

/-- What comes of a run that is to stop at a position of the stage list. -/
def StopsAtStage (c : Setting β) (reason : CancelReason) (result : Result β) (i : Nat) : Prop :=
  match result.workflow.stages[i]? with
  | some stage =>
    CancelledBefore c.logger result.workflow.id s!"stage '{stage.id}'" reason result.world
      result.outcome
  | none => result.outcome = .ok ()

/-- What comes of a run that is to stop at a position of a stage: if the
stage is over, it is the next position of the list. -/
def StopsAtAction (c : Setting β) (reason : CancelReason) (result : Result β) (i j : Nat) :
    Prop :=
  ∃ stage, result.workflow.stages[i]? = some stage ∧
    match stage.slots[j]? with
    | some slot =>
      CancelledBefore c.logger result.workflow.id
        s!"action '{slot.action.id}' of stage '{stage.id}'" reason result.world result.outcome
    | none => StopsAtStage c reason result (i + 1)

variable {steps : Nat} {r : Run β} {reason : CancelReason}

/-- **A run whose token is done stops at the next position**, enabled or
not. If there is none, it succeeds. -/
theorem step_of_done (done : r.world.signals.Done c.token reason) :
    ∃ result : Result β, r.step c steps = some (.finish result) ∧ r.entered? c = none ∧
      result.workflow = r.workflow ∧ result.world.heap = r.world.heap ∧
      StopsAtStage c reason result r.index := by
  have fails := World.check_of_done done
  have dead := World.not_live_of_done done
  obtain ⟨s, taken⟩ : ∃ s, r.step c steps = some s := by
    rw [step]
    split
    next => exact ⟨_, rfl⟩
    next =>
      split
      next => exact ⟨_, rfl⟩
      next check => exact absurd (by rw [check]) dead
  cases turn taken with
  | completed past entry => exact ⟨_, taken, entry, rfl, rfl, by rw [StopsAtStage, past]⟩
  | @cancelled stage reason' found done' entry =>
    obtain rfl : reason = reason' := Except.error.inj (fails.symm.trans done')
    refine ⟨_, taken, entry, rfl, rfl, ?_⟩
    rw [StopsAtStage, found]
    exact cancelledBefore_stage rfl
  | skipped _ live => exact absurd live dead
  | refused _ live => exact absurd live dead
  | stopped enters => exact absurd enters.live dead
  | passed enters => exact absurd enters.live dead

/-- **How a run has ended** after a call at which its token got done. -/
structure StoppedAfter (c : Setting β) (call : Call β) (reason : CancelReason) (i : Nat)
    (result : Result β) : Prop where
  place_eq : call.place = .member i
  /-- No initial data is merged after the call. -/
  heap_eq : result.world.heap = (call.left c).heap
  /-- What the call recorded is applied, if it succeeds. -/
  workflow_eq : result.workflow = (call.site.applyAll (call.granted c)).2.workflow
  failed : ∀ source, call.result c = .error source →
    result.outcome = .error (.action call.stage.id call.action.id call.action.name source)
  cancelled : call.result c = .ok () → StopsAtAction c reason result i (call.index + 1)

/-- A stage with such a call is entered for a whole pass. -/
theorem exists_enters_of_done {more : Nat} {call : Call β} (hcall : call ∈ r.callsHere c steps)
    (done : (call.left c).signals.Done c.token reason) (lt : steps < more) :
    ∃ stage pass passed, r.Enters c more stage pass passed ∧
      (r.callsHere c more).getLast? = some call ∧ call.place = .member r.index ∧
      Pass.StoppedAfter c call.stage.id call reason passed := by
  cases entry : r.entered? c with
  | none =>
    rw [callsHere_of_entered?_eq_none entry] at hcall
    cases hcall
  | some pass =>
    have hcall' : call ∈ pass.calls c steps := by rwa [callsHere, entry] at hcall
    obtain ⟨passed, traces, last, p, hp, called, stopped⟩ :=
      Pass.exists_traces_of_done hcall' done lt
    obtain ⟨stage, enters⟩ := exists_enters entry traces
    have seated := traces.seated enters.seated p hp
    obtain ⟨own, slot, here, -, rfl⟩ := Pass.call?_eq_some called
    obtain ⟨own', here', own_id, -⟩ := seated.standing
    obtain rfl : own = own' := Option.some.inj (here.symm.trans here')
    have id_eq : p.stageId = own.id := seated.stageId_eq.trans own_id.symm
    refine ⟨stage, pass, passed, enters, ?_, seated.place_eq, ?_⟩
    · rw [enters.callsHere_eq]
      exact last
    · rw [id_eq] at stopped
      exact stopped

/-- **A run ends with the stage** in which its token gets done, or at the
position that follows. -/
theorem traces_of_done {more : Nat} {call : Call β} (hcall : call ∈ r.callsHere c steps)
    (done : (call.left c).signals.Done c.token reason) (lt : steps < more) :
    ∃ states result, Traces c more r states result ∧ states.length ≤ 2 ∧
      (states.flatMap (callsHere c more)).getLast? = some call ∧
      (states.filter fun s => (s.entered? c).isSome).map Run.index = [r.index] ∧
      StoppedAfter c call reason r.index result := by
  obtain ⟨stage, pass, passed, enters, last, place_eq, stopped⟩ :=
    exists_enters_of_done hcall done lt
  have there : passed.site.stage? = passed.site.workflow.stages[r.index]? := by
    refine Site.stage?_of_place ?_
    rw [stopped.site_eq, Site.place_applyAll]
    exact place_eq
  have workflow_eq : passed.site.workflow = (call.site.applyAll (call.granted c)).2.workflow := by
    rw [stopped.site_eq]
  have step_eq := enters.step_eq
  cases outcome : passed.outcome with
  | error error =>
    rw [outcome] at step_eq
    refine ⟨[r], _, .last step_eq, by simp, by simpa using last, by simp [enters.entry],
      place_eq, stopped.heap_eq, workflow_eq, fun source fault => ?_, fun ok => ?_⟩
    · rw [← outcome]
      exact stopped.failed source fault
    · obtain ⟨final, here, id_eq, next⟩ := stopped.cancelled ok
      refine ⟨final, there ▸ here, ?_⟩
      rw [outcome, ← id_eq] at next
      split at next
      next => exact next
      next => cases next.1
  | ok =>
    rw [outcome] at step_eq
    have ok : call.result c = .ok () := by
      cases fault : call.result c with
      | ok => rfl
      | error source =>
        have failed := stopped.failed source fault
        rw [outcome] at failed
        cases failed
    obtain ⟨final, here, id_eq, next⟩ := stopped.cancelled ok
    split at next
    next slot found =>
      obtain ⟨checkpoint, cancelled, -⟩ := next.outcome_eq
      rw [outcome] at cancelled
      cases cancelled
    next past =>
      -- the stage is over, and the run goes on to a position with the token done
      obtain ⟨-, signals_eq⟩ := next
      have done' : passed.world.signals.Done c.token reason := by rwa [signals_eq]
      obtain ⟨result, finish, unentered, same, heap, stops⟩ :=
        @step_of_done β c more ⟨passed.site.workflow, passed.world, r.index + 1, r.executed + 1⟩
          reason done'
      refine ⟨_, result, .next step_eq (.last finish), by simp, ?_, ?_, place_eq,
        heap.trans stopped.heap_eq, same.trans workflow_eq, ?_, ?_⟩
      · simpa [callsHere_of_entered?_eq_none unentered] using last
      · simp [enters.entry, unentered]
      · intro source fault
        rw [ok] at fault
        cases fault
      · intro _
        refine ⟨final, same ▸ there ▸ here, ?_⟩
        rw [past]
        exact stops

/-- **How a run goes whose token is done before it begins**: no action is
called, no initial data is merged, and the workflow stays as it is. -/
structure StopsBefore (c : Setting β) (steps : Nat) (workflow : Workflow β) (world : World)
    (reason : CancelReason) (result : Result β) : Prop where
  run_eq : run c steps workflow world = some result
  calls_eq : calls c steps workflow world = []
  entries_eq : entries c steps workflow world = []
  workflow_eq : result.workflow = workflow
  heap_eq : result.world.heap = world.heap
  cancelled : StopsAtStage c reason result 0

/-- **How a run goes whose token is done after a call**: that call is the
last, in the stage that is entered last. -/
structure StopsWith (c : Setting β) (steps : Nat) (workflow : Workflow β) (world : World)
    (reason : CancelReason) (call : Call β) (i : Nat) (result : Result β) : Prop
    extends StoppedAfter c call reason i result where
  run_eq : run c steps workflow world = some result
  last_call : (calls c steps workflow world).getLast? = some call
  last_entry : (entries c steps workflow world).getLast? = some i
  id_eq : result.workflow.id = workflow.id

/-- **A run stops where its token gets done**, whatever its actions do, and
it always ends then: one step more than led to the call is enough. -/
theorem stops_when_done (c : Setting β) (workflow : Workflow β) (world : World)
    (reason : CancelReason) :
    (world.signals.Done c.token reason → ∀ steps, 0 < steps →
      ∃ result, StopsBefore c steps workflow world reason result) ∧
    ∀ steps, ∀ call ∈ calls c steps workflow world,
      (call.left c).signals.Done c.token reason → ∀ more, steps < more →
        ∃ i result, StopsWith c more workflow world reason call i result := by
  constructor
  · intro done steps lt
    have done' : (start c workflow world).world.signals.Done c.token reason := done
    obtain ⟨result, finish, unentered, same, heap, stops⟩ := step_of_done done'
    have whole : Traces c steps (start c workflow world) [start c workflow world] result :=
      .last finish
    obtain ⟨answer, trail_eq⟩ := whole.run_eq lt
    refine ⟨result, answer, ?_, ?_, same, heap, stops⟩
    · rw [calls, trail, trail_eq, List.flatMap_singleton, callsHere_of_entered?_eq_none unentered]
    · rw [entries, trail, trail_eq]
      simp [unentered]
  · intro steps call hcall done more lt
    obtain ⟨r, hr, hcall'⟩ := List.mem_flatMap.mp hcall
    obtain ⟨ending, result, ends, short, last_call, last_entry, stopped⟩ :=
      traces_of_done hcall' done lt
    -- the whole run: what came before the stage of the call, and the ending
    obtain ⟨earlier, before, whole⟩ :=
      Loop.exists_traces_of_mem (fun _ _ => step_mono (Nat.le_of_lt lt)) hr ends
    have enough : (earlier ++ ending).length ≤ more := by
      rw [List.length_append]
      omega
    obtain ⟨answer, trail_eq⟩ := whole.run_eq enough
    refine ⟨r.index, result, stopped, answer, ?_, ?_, Traces.result_id whole⟩
    · rw [calls, trail, trail_eq, List.flatMap_append, List.getLast?_append, last_call]
      rfl
    · rw [entries, trail, trail_eq, List.filter_append, List.map_append, last_entry]
      simp

/-- The token is cancelled before a run, and by an action that adds another
one to its stage. -/
theorem stops_when_done_quit :
    (∃ result, StopsBefore Sample.setting 4 (Sample.workflow .rest)
      { Sample.world with signals := ⟨[true], .standing 0⟩ } .cancelled result) ∧
    ∃ call ∈ calls Sample.setting 4 (Sample.workflow (.grow .quit)) Sample.world,
      ∃ i result, StopsWith Sample.setting 5 (Sample.workflow (.grow .quit)) Sample.world
        .cancelled call i result := by
  obtain ⟨before, -⟩ := stops_when_done Sample.setting (Sample.workflow .rest)
    { Sample.world with signals := ⟨[true], .standing 0⟩ } .cancelled
  obtain ⟨-, after⟩ := stops_when_done Sample.setting (Sample.workflow (.grow .quit))
    Sample.world .cancelled
  refine ⟨before (.cancelled rfl) 4 (by decide), _, List.mem_cons_of_mem _ List.mem_cons_self,
    after 4 _ (List.mem_cons_of_mem _ List.mem_cons_self) (.cancelled rfl) 5 (by decide)⟩

example : (run Sample.setting 5 (Sample.workflow (.grow .quit)) Sample.world).map (·.outcome) =
    some (.error (.cancelled "w" (.action "late" "s") .cancelled)) := rfl

end Run

end StagedWorkflow
