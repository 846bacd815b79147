import StagedWorkflow.Proofs.Course
import StagedWorkflow.Proofs.Ledger
import StagedWorkflow.Proofs.Requests

/-!
# What calls keep

The step of a pass changes the site and the stores only by the call it
makes, and the step of a run besides by the merge with which a stage is
entered. So what every call keeps (`Call.Keeps`) a pass keeps, and what the
merges keep too a run keeps: it holds at every call and in the end
(`Run.Carries.at_call`, `Run.Carries.ends`), and where it begins to hold with
a call it still holds in the end (`Run.Carries.ends_of_call`). What a run
carries along can depend on the states that it has gone through.

Of stores, a call keeps those that its action does not ask to be written
(`Call.leaves_of_spares`), and a stage that it adds has its initial data in a
store that was not there before (`Call.size_le_initial`).
-/

namespace StagedWorkflow

variable {β : Type} {c : Setting β}

namespace Invocation

/-- That there are so many stores, and that the stages in the queue have
none of the first ones for their initial data. -/
structure State.Grown (size : Nat) (s : State β) : Prop where
  size_le : size ≤ s.world.heap.stores.size
  fresh : ∀ stage ∈ s.queue.filterMap Mutation.stage?, size ≤ stage.initial

variable {inv : Invocation β} {s : State β} {size : Nat}

/-- No request removes a store, and a stage that is recorded gets a new
one. -/
theorem State.Grown.answer (h : s.Grown size) {r : Request β} :
    (inv.answer r s).2.Grown size := by
  cases r with
  | heap r => exact ⟨Nat.le_trans h.size_le Heap.size_le_answer, h.fresh⟩
  | record mutation =>
    cases mutation with
    | addStage stage =>
      refine ⟨Nat.le_trans h.size_le (Heap.size_le_answer (r := .clone stage.initial)), ?_⟩
      intro added hadded
      obtain ⟨mutation, hmutation, eq⟩ := List.mem_filterMap.mp hadded
      rcases List.mem_append.mp hmutation with old | new
      · exact h.fresh added (List.mem_filterMap.mpr ⟨mutation, old, eq⟩)
      · obtain rfl := List.mem_singleton.mp new
        obtain rfl := Option.some.inj eq
        exact h.size_le
    | addAction | setActionEnabled | setStageEnabled =>
      refine ⟨h.size_le, fun added hadded => h.fresh added ?_⟩
      simpa [Invocation.answer, take, Mutation.stage?] using hadded
  | here | stage | workflow | check | cancel | log | report | pending => exact ⟨h.size_le, h.fresh⟩

theorem State.Grown.run (h : s.Grown size) {behaviour : Behaviour β} :
    (behaviour.run inv.answer s).2.Grown size := by
  induction behaviour generalizing s with
  | done => exact h
  | ask r next ih => exact ih _ h.answer

/-- That a request does not write a store. -/
def Request.Spares (t : StoreId) : Request β → Prop
  | .heap r => r.target? ≠ some t
  | _ => True

theorem contents_answer {t : StoreId} {r : Request β} (spares : r.Spares t)
    (there : t < s.world.heap.stores.size) :
    (inv.answer r s).2.world.heap.contents t = s.world.heap.contents t := by
  cases r with
  | heap r => exact Heap.contents_answer spares there
  | record mutation =>
    cases mutation with
    | addStage stage => exact Heap.contents_add_of_lt there
    | addAction | setActionEnabled | setStageEnabled => rfl
  | here | stage | workflow | check | cancel | log | report | pending => rfl

/-- **A store that no request writes stays as it is**, if it was there. -/
theorem contents_run {t : StoreId} {behaviour : Behaviour β} {ends : Except Fault Unit → Prop}
    (spares : behaviour.Conforms (Request.Spares t) ends) (grown : s.Grown size) (lt : t < size) :
    (behaviour.run inv.answer s).2.world.heap.contents t = s.world.heap.contents t := by
  induction behaviour generalizing s with
  | done => rfl
  | ask r next ih =>
    have there : t < s.world.heap.stores.size := Nat.lt_of_lt_of_le lt grown.size_le
    exact (ih _ (spares.2 _) grown.answer).trans (contents_answer spares.1 there)

end Invocation

namespace Call

variable {call : Call β}

/-- The site, with what a call was granted. -/
def settled (c : Setting β) (call : Call β) : Site β :=
  (call.site.applyAll (call.granted c)).2

/-- **That a call keeps something** that holds of the site and the stores. -/
def Keeps (c : Setting β) (holds : Site β → Heap → Prop) (call : Call β) : Prop :=
  holds call.site call.world.heap → holds (call.settled c) (call.left c).heap

/-- That a call leaves a store as it finds it. -/
def Leaves (c : Setting β) (call : Call β) (s : StoreId) : Prop :=
  (call.left c).heap.contents s = call.world.heap.contents s

theorem grown_begun :
    (⟨call.world, []⟩ : Invocation.State β).Grown call.world.heap.stores.size :=
  ⟨Nat.le_refl _, fun _ hstage => absurd hstage List.not_mem_nil⟩

theorem grown_ended : (call.ended c).2.Grown call.world.heap.stores.size :=
  grown_begun.run

theorem size_le_left : call.world.heap.stores.size ≤ (call.left c).heap.stores.size :=
  grown_ended.size_le

/-- **A stage that is added has a store of its own** for its initial data. -/
theorem size_le_initial {stage : Stage β} (added : stage ∈ call.stagesAdded c) :
    call.world.heap.stores.size ≤ stage.initial := by
  rw [stagesAdded, granted] at added
  split at added
  · exact grown_ended.fresh stage added
  · cases added

/-- **An action that does not ask for a store to be written leaves it.** -/
theorem leaves_of_spares {s : StoreId} {ends : Except Fault Unit → Prop}
    (spares : (c.behave call.action).Conforms (Invocation.Request.Spares s) ends)
    (there : s < call.world.heap.stores.size) : call.Leaves c s :=
  Invocation.contents_run spares grown_begun there

theorem store_settled : (call.settled c).workflow.store = call.site.workflow.store :=
  Site.store_applyAll

theorem initials_settled : (call.settled c).workflow.initials =
    call.site.workflow.initials ++ (call.stagesAdded c).map Stage.initial :=
  Site.initials_applyAll

end Call

namespace Pass

variable {p : Pass β} {steps : Nat} {states : List (Pass β)} {result : Result β}
  {holds : Site β → Heap → Prop}

/-- That something holds of the site and the stores where a step ends. -/
def Ends (holds : Site β → Heap → Prop) : Step (Pass β) (Result β) → Prop
  | .again p => holds p.site p.world.heap
  | .finish result => holds result.site result.world.heap

/-- A call finds the site and the stores of the pass. -/
theorem eq_of_call? {call : Call β} (called : p.call? c = some call) :
    call.site = p.site ∧ call.world.heap = p.world.heap := by
  obtain ⟨stage, slot, -, -, rfl⟩ := call?_eq_some called
  exact ⟨rfl, rfl⟩

/-- **A step changes the site and the stores only by the call it makes.** -/
theorem ends_step (idle : p.call? c = none → holds p.site p.world.heap)
    (called : ∀ call, p.call? c = some call → holds (call.settled c) (call.left c).heap) :
    Ends holds (p.step c) := by
  cases here : p.site.stage? with
  | none =>
    have none : p.call? c = none := by rw [call?, here]
    rw [step, here]
    exact idle none
  | some stage =>
    have turned := turn (c := c) here
    generalize p.step c = s at turned ⊢
    cases turned with
    | completed past none => exact idle none
    | cancelled found done none => exact idle none
    | skipped found live off none => exact idle none
    | failed found live on call fault =>
      have settled := called _ call
      rw [Call.settled, Call.granted_of_error fault] at settled
      exact settled
    | succeeded found live on call ok =>
      have settled := called _ call
      rw [Call.settled, Call.granted_of_ok ok] at settled
      rw [Ends, World.notifyAll_eq]
      exact settled

/-- A step keeps what its call keeps. -/
theorem ends_step_of_keeps (start : holds p.site p.world.heap)
    (kept : ∀ call, p.call? c = some call → call.Keeps c holds) : Ends holds (p.step c) := by
  refine ends_step (fun _ => start) fun call called => kept call called ?_
  obtain ⟨site, heap⟩ := eq_of_call? called
  rw [site, heap]
  exact start

/-- A call is of an action of the stage that is executed. -/
theorem sees_of_mem_calls {call : Call β} (hcall : call ∈ p.calls c steps) :
    call.site.stage? = some call.stage ∧ call.action ∈ call.stage.actions := by
  obtain ⟨q, -, called⟩ := List.mem_filterMap.mp hcall
  obtain ⟨stage, slot, here, found, rfl⟩ := call?_eq_some called
  exact ⟨here, List.mem_map_of_mem (List.mem_of_getElem? found)⟩

variable (holds) in
/-- **What the calls of a pass keep holds at each of them**, whether the pass
ends or not. -/
theorem forall_mem_calls (start : holds p.site p.world.heap)
    (kept : ∀ call ∈ p.calls c steps, call.Keeps c holds) :
    ∀ call ∈ p.calls c steps, holds call.site call.world.heap := by
  have along : ∀ q ∈ p.trail c steps, holds q.site q.world.heap := by
    refine Loop.forall_mem_trail (fun q hq t before taken => ?_) start
    have after : Ends holds (q.step c) := ends_step_of_keeps before fun call called =>
      kept call (List.mem_filterMap.mpr ⟨q, hq, called⟩)
    rw [Option.some.inj taken] at after
    exact after
  intro call hcall
  obtain ⟨q, hq, called⟩ := List.mem_filterMap.mp hcall
  obtain ⟨site, heap⟩ := eq_of_call? called
  rw [site, heap]
  exact along q hq

namespace Traces

/-- **What the calls of a pass keep holds in its end.** -/
theorem ends (h : Traces c p states result) (start : holds p.site p.world.heap)
    (kept : ∀ call ∈ states.filterMap (·.call? c), call.Keeps c holds) :
    holds result.site result.world.heap := by
  induction h with
  | @last p result taken =>
    have after : Ends holds (p.step c) := ends_step_of_keeps start fun call called =>
      kept call (List.mem_filterMap.mpr ⟨p, List.mem_singleton_self p, called⟩)
    rw [Option.some.inj taken] at after
    exact after
  | @next p t states result taken rest ih =>
    have after : Ends holds (p.step c) := ends_step_of_keeps start fun call called =>
      kept call (List.mem_filterMap.mpr ⟨p, List.mem_cons_self, called⟩)
    rw [Option.some.inj taken] at after
    refine ih after fun call hcall => kept call ?_
    obtain ⟨q, hq, called⟩ := List.mem_filterMap.mp hcall
    exact List.mem_filterMap.mpr ⟨q, List.mem_cons_of_mem _ hq, called⟩

/-- What holds after one of the calls and is kept by them all holds in the
end. -/
theorem ends_of_call (h : Traces c p states result)
    (kept : ∀ call ∈ states.filterMap (·.call? c), call.Keeps c holds) {call : Call β}
    (hcall : call ∈ states.filterMap (·.call? c))
    (after : holds (call.settled c) (call.left c).heap) :
    holds result.site result.world.heap := by
  obtain ⟨q, hq, called⟩ := List.mem_filterMap.mp hcall
  -- where the step that makes the call ends
  have ended : Ends holds (q.step c) := by
    refine ends_step (fun none => ?_) fun other eq => ?_
    · rw [none] at called
      cases called
    · obtain rfl : call = other := Option.some.inj (called.symm.trans eq)
      exact after
  obtain ⟨rest, traces, suffix⟩ := h.exists_suffix hq
  cases traces with
  | last taken =>
    rw [Option.some.inj taken] at ended
    exact ended
  | @next _ t later _ taken traces =>
    rw [Option.some.inj taken] at ended
    refine Traces.ends traces ended fun other hother => kept other ?_
    obtain ⟨q', hq', called'⟩ := List.mem_filterMap.mp hother
    exact List.mem_filterMap.mpr ⟨q', suffix.subset (List.mem_cons_of_mem _ hq'), called'⟩

end Traces

/-- A stage is entered by merging its initial data. -/
theorem heap_enter {site : Site β} {stage : Stage β} {world : World} :
    (enter c site stage world).world.heap =
      (world.heap.merge site.workflow.store stage.initial {}).2 := by
  simp only [enter]
  split <;> rfl

end Pass

namespace Run

variable {r : Run β} {steps : Nat} {states : List (Run β)} {result : Result β}

/-- That something holds of the workflow and the stores where a step ends. -/
def Ends (holds : Workflow β → Heap → Prop) : Step (Run β) (Result β) → Prop
  | .again r => holds r.workflow r.world.heap
  | .finish result => holds result.workflow result.world.heap

/-- The stores, with the initial data of the stage that is entered. -/
def entering (r : Run β) (stage : Stage β) : Heap :=
  (r.world.heap.merge r.workflow.store stage.initial {}).2

/-- Where the pass over a stage begins. -/
theorem begins_of_entered? {pass : Pass β} (entry : r.entered? c = some pass) :
    ∃ stage, r.workflow.stages[r.index]? = some stage ∧ pass.site = r.site ∧
      pass.world.heap = r.entering stage := by
  obtain ⟨stage, found, -, -, begins⟩ := entered?_eq_some entry
  obtain ⟨-, rfl⟩ := Pass.entered?_eq_some_iff.mp begins
  exact ⟨stage, found, rfl, Pass.heap_enter⟩

/-- A call is of an action of the stage at the position. -/
theorem sees_of_mem_callsHere {call : Call β} (hcall : call ∈ r.callsHere c steps) :
    call.site.workflow.stages[r.index]? = some call.stage ∧
      call.action ∈ call.stage.actions := by
  have place := place_of_mem_callsHere hcall
  rw [callsHere] at hcall
  split at hcall
  next => cases hcall
  next pass entry =>
    obtain ⟨here, own⟩ := Pass.sees_of_mem_calls hcall
    rw [Site.stage?_of_place place] at here
    exact ⟨here, own⟩

/-- **That a run carries something along**: from the states gone through, the
workflow and the stores, to those after the next step, whatever its calls
are. -/
structure Carries (c : Setting β) (steps : Nat) (states : List (Run β))
    (holds : List (Run β) → Workflow β → Heap → Prop) : Prop where
  /-- If no stage is entered. -/
  passes : ∀ earlier, ∀ r ∈ states, r.entered? c = none →
    holds earlier r.workflow r.world.heap → holds (earlier ++ [r]) r.workflow r.world.heap
  /-- When a stage is entered. -/
  enters : ∀ earlier, ∀ r ∈ states, ∀ stage, r.workflow.stages[r.index]? = some stage →
    (r.entered? c).isSome → holds earlier r.workflow r.world.heap →
      holds (earlier ++ [r]) r.workflow (r.entering stage)
  calls : ∀ earlier, ∀ call ∈ states.flatMap (callsHere c steps),
    call.Keeps c fun site heap => holds earlier site.workflow heap

namespace Carries

variable {holds : List (Run β) → Workflow β → Heap → Prop} {earlier : List (Run β)}

/-- What is carried into a pass. -/
theorem begins (h : Carries c steps states holds) (hr : r ∈ states) {pass : Pass β}
    (entry : r.entered? c = some pass) (before : holds earlier r.workflow r.world.heap) :
    holds (earlier ++ [r]) pass.site.workflow pass.world.heap := by
  obtain ⟨stage, found, site, heap⟩ := begins_of_entered? entry
  rw [site, heap]
  exact h.enters earlier r hr stage found (by rw [entry]; rfl) before

/-- What the calls of a pass keep. -/
theorem keeps (h : Carries c steps states holds) (earlier : List (Run β)) (hr : r ∈ states)
    {pass : Pass β} (entry : r.entered? c = some pass) :
    ∀ call ∈ pass.calls c steps,
      call.Keeps c fun site heap => holds earlier site.workflow heap := by
  intro call hcall
  refine h.calls earlier call (List.mem_flatMap.mpr ⟨r, hr, ?_⟩)
  rw [callsHere, entry]
  exact hcall

/-- **A step carries it along.** -/
theorem step (h : Carries c steps states holds) (earlier : List (Run β)) (hr : r ∈ states)
    (before : holds earlier r.workflow r.world.heap) {s : Step (Run β) (Result β)}
    (taken : r.step c steps = some s) : Ends (holds (earlier ++ [r])) s := by
  have passed {stage : Stage β} {pass : Pass β} {passed : Pass.Result β}
      (enters : r.Enters c steps stage pass passed) :
      holds (earlier ++ [r]) passed.site.workflow passed.world.heap :=
    Pass.Traces.ends enters.traces (h.begins hr enters.entry before) (h.keeps _ hr enters.entry)
  cases turn taken with
  | completed past none => exact h.passes earlier r hr none before
  | cancelled found done none => exact h.passes earlier r hr none before
  | skipped found live off none => exact h.passes earlier r hr none before
  | refused found live on done none => exact h.passes earlier r hr none before
  | stopped enters fault => exact passed enters
  | passed enters ok => exact passed enters

variable {workflow : Workflow β} {world : World}

/-- It holds when a step is taken, of the states before. -/
theorem at_step (h : Carries c steps (trail c steps workflow world) holds)
    (start : holds [] workflow world.heap) {later : List (Run β)}
    (split : trail c steps workflow world = earlier ++ r :: later) :
    holds earlier r.workflow r.world.heap :=
  Loop.of_trail_eq_append (fun earlier r => holds earlier r.workflow r.world.heap) start
    (fun earlier _ hr _ before taken => h.step earlier hr before taken) split

/-- **It holds at every call**, whether the run ends or not. -/
theorem at_call (h : Carries c steps (trail c steps workflow world) holds)
    (start : holds [] workflow world.heap) {later : List (Run β)}
    (split : trail c steps workflow world = earlier ++ r :: later) {call : Call β}
    (hcall : call ∈ r.callsHere c steps) :
    holds (earlier ++ [r]) call.site.workflow call.world.heap := by
  have hr : r ∈ trail c steps workflow world := by simp [split]
  cases entry : r.entered? c with
  | none => simp [callsHere_of_entered?_eq_none entry] at hcall
  | some pass =>
    rw [callsHere, entry] at hcall
    have begins := h.begins hr entry (h.at_step start split)
    exact Pass.forall_mem_calls _ begins (h.keeps _ hr entry) call hcall

/-- **It holds in the end.** -/
theorem ends (h : Carries c steps (trail c steps workflow world) holds)
    (start : holds [] workflow world.heap)
    (ran : run c steps workflow world = some result) :
    holds (trail c steps workflow world) result.workflow result.world.heap := by
  obtain ⟨earlier, last, split, finish⟩ := (traces_trail ran).exists_eq_append
  have hlast : last ∈ trail c steps workflow world := by simp [split]
  have ended := h.step earlier hlast (h.at_step start split) finish
  rw [split]
  exact ended

end Carries

section

variable {holds : Workflow β → Heap → Prop} {all : List (Run β)}

/-- What a run carries along, whatever the states before, holds in the end. -/
theorem Traces.ends (h : Traces c steps r states result)
    (carries : Carries c steps all fun _ => holds) (inside : states ⊆ all)
    (start : holds r.workflow r.world.heap) : holds result.workflow result.world.heap := by
  induction h with
  | last taken =>
    exact carries.step [] (inside (List.mem_singleton_self _)) start taken
  | next taken rest ih =>
    have after := carries.step [] (inside List.mem_cons_self) start taken
    exact ih (fun _ hs => inside (List.mem_cons_of_mem _ hs)) after

/-- What holds after a call holds where the step ends that makes it. -/
theorem Carries.step_of_call (carries : Carries c steps all fun _ => holds) (hr : r ∈ all)
    {call : Call β} (hcall : call ∈ r.callsHere c steps)
    (after : holds (call.settled c).workflow (call.left c).heap) {s : Step (Run β) (Result β)}
    (taken : r.step c steps = some s) : Ends holds s := by
  have uncalled (none : r.entered? c = none) : Ends holds s := by
    rw [callsHere_of_entered?_eq_none none] at hcall
    cases hcall
  have passed {stage : Stage β} {pass : Pass β} {passed : Pass.Result β}
      (enters : r.Enters c steps stage pass passed) :
      holds passed.site.workflow passed.world.heap := by
    rw [enters.callsHere_eq] at hcall
    exact Pass.Traces.ends_of_call enters.traces
      (carries.keeps [] hr enters.entry) hcall after
  cases turn taken with
  | completed past none => exact uncalled none
  | cancelled found done none => exact uncalled none
  | skipped found live off none => exact uncalled none
  | refused found live on done none => exact uncalled none
  | stopped enters fault => exact passed enters
  | passed enters ok => exact passed enters

/-- What holds from the beginning on holds at every call. -/
theorem Carries.of_mem_calls {workflow : Workflow β} {world : World}
    (carries : Carries c steps (trail c steps workflow world) fun _ => holds)
    (start : holds workflow world.heap) {call : Call β}
    (hcall : call ∈ Run.calls c steps workflow world) :
    holds call.site.workflow call.world.heap := by
  obtain ⟨r, hr, here⟩ := List.mem_flatMap.mp hcall
  obtain ⟨earlier, later, split⟩ := List.append_of_mem hr
  exact carries.at_call start split here

/-- **What holds after a call, and is carried along, holds in the end.** -/
theorem Carries.ends_of_call (carries : Carries c steps states fun _ => holds)
    (h : Traces c steps r states result) {call : Call β}
    (hcall : call ∈ states.flatMap (callsHere c steps))
    (after : holds (call.settled c).workflow (call.left c).heap) :
    holds result.workflow result.world.heap := by
  obtain ⟨s, hs, here⟩ := List.mem_flatMap.mp hcall
  obtain ⟨rest, traces, suffix⟩ := h.exists_suffix hs
  cases traces with
  | last taken => exact carries.step_of_call hs here after taken
  | next taken later =>
    have after' := carries.step_of_call hs here after taken
    exact Traces.ends later carries
      (fun _ hs' => suffix.subset (List.mem_cons_of_mem _ hs')) after'

end

end Run

end StagedWorkflow
