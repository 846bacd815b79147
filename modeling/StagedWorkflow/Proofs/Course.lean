import StagedWorkflow.Proofs.Turn

/-!
# The course of a pass and of a run

A pass keeps its stage under it: the stage it entered stands where it stood
and has the id it had, and the position that is next is never past its end
by more than the end itself (`Pass.Seated`, kept by every step). What the
pass makes of the site is one queue applied to it, the granted mutations of
its calls one after another (`Pass.Traces.site_eq`).

A run does the same at every position of the stage list (`Run.granted`), so
its stage list has a closed form: the stages added by all calls follow the
old ones, and each stage is amended by the calls made at its own position
(`Run.Traces.getElem?_stages`). In particular a stage is settled once the
run has gone past it.
-/

namespace StagedWorkflow

variable {β : Type} {c : Setting β}

namespace Pass

/-- That a pass still has the stage under it that it entered. -/
structure Seated (place : Place) (stageId : String) (p : Pass β) : Prop where
  place_eq : p.site.place = place
  stageId_eq : p.stageId = stageId
  standing : ∃ stage, p.site.stage? = some stage ∧ stage.id = stageId ∧ p.index ≤ stage.size

variable {place : Place} {stageId : String} {p : Pass β} {states : List (Pass β)}
  {result : Result β}

/-- What the step of a pass comes to, with the stage under it. -/
theorem Seated.turn (h : p.Seated place stageId) {s : Step (Pass β) (Result β)}
    (taken : p.step c = s) :
    ∃ stage, p.site.stage? = some stage ∧ stage.id = stageId ∧ p.index ≤ stage.size ∧
      Turn c p stage s := by
  obtain ⟨stage, here, id_eq, le⟩ := h.standing
  exact ⟨stage, here, id_eq, le, taken ▸ Pass.turn here⟩

/-- A pass that begins has its stage under it. -/
theorem seated_enter {site : Site β} {stage : Stage β} {world : World}
    (here : site.stage? = some stage) :
    (enter c site stage world).Seated site.place stage.id :=
  ⟨rfl, rfl, stage, here, rfl, Nat.zero_le _⟩

/-- **Every step keeps the stage under the pass.** -/
theorem Seated.again (h : p.Seated place stageId) {t : Pass β} (taken : p.step c = .again t) :
    t.Seated place stageId := by
  obtain ⟨stage, here, id_eq, -, turn⟩ := h.turn taken
  have lt {slot : Slot β} (found : stage.slots[p.index]? = some slot) : p.index < stage.size :=
    (List.getElem?_eq_some_iff.mp found).1
  cases turn with
  | skipped found => exact ⟨h.place_eq, h.stageId_eq, stage, here, id_eq, lt found⟩
  | succeeded found =>
    refine ⟨?_, h.stageId_eq, _, Site.stage?_applyAll here, ?_, ?_⟩
    · simpa using h.place_eq
    · rw [Stage.id_amendAll, id_eq]
    · exact Nat.le_trans (lt found) Stage.size_le_size_amendAll

/-- A call is made at the position that is next, and sees what is there. -/
theorem call?_eq_some {call : Call β} (h : p.call? c = some call) :
    ∃ stage slot, p.site.stage? = some stage ∧ stage.slots[p.index]? = some slot ∧
      call = p.calling c stage slot.action := by
  rw [call?] at h
  split at h
  next => cases h
  next stage here =>
    split at h
    next => cases h
    next slot found =>
      split at h
      next => cases h
      next =>
        split at h
        · exact ⟨stage, slot, here, found, (Option.some.inj h).symm⟩
        · cases h

/-- **A call decides the step that makes it**: the pass goes on with what the
action has recorded, or ends with its fault. -/
theorem step_of_call? {call : Call β} (called : p.call? c = some call) :
    p.step c =
      match call.result c with
      | .ok () =>
        .again ⟨(p.site.applyAll (call.queue c)).2,
          (call.left c).notifyAll c.logger (p.site.applyAll (call.queue c)).1,
          p.stageId, p.index + 1, p.executed + 1⟩
      | .error source =>
        .finish ⟨p.site,
          (call.left c).notify c.logger
            (.actionFailed p.site.place p.index p.stageId call.action.id source),
          .error (.action p.stageId call.action.id call.action.name source)⟩ := by
  obtain ⟨stage, slot, here, found, rfl⟩ := call?_eq_some called
  have turned := turn (c := c) here
  generalize p.step c = s at turned ⊢
  cases turned with
  | completed past none => rw [none] at called; cases called
  | cancelled found' done none => rw [none] at called; cases called
  | skipped found' live off none => rw [none] at called; cases called
  | failed found' live on own fault =>
    obtain rfl := Option.some.inj (found.symm.trans found')
    rw [fault]
    rfl
  | succeeded found' live on own ok =>
    obtain rfl := Option.some.inj (found.symm.trans found')
    rw [ok]

/-- Every step moves on by one position. -/
theorem Seated.index_again (h : p.Seated place stageId) {t : Pass β}
    (taken : p.step c = .again t) : t.index = p.index + 1 := by
  obtain ⟨stage, -, -, -, turn⟩ := h.turn taken
  cases turn <;> rfl

/-- The calls of a pass are made where its stage stands. -/
theorem Seated.place_of_mem_calls {steps : Nat} (h : p.Seated place stageId) {call : Call β}
    (hcall : call ∈ p.calls c steps) : call.place = place := by
  have along : ∀ q ∈ p.trail c steps, q.Seated place stageId :=
    Loop.forall_mem_trail (fun _ _ _ under taken => under.again (Option.some.inj taken)) h
  obtain ⟨q, hq, called⟩ := List.mem_filterMap.mp hcall
  obtain ⟨_, _, _, _, rfl⟩ := call?_eq_some called
  exact (along q hq).place_eq

namespace Traces

/-- All along its trail a pass has its stage under it. -/
theorem seated (h : Traces c p states result) (start : p.Seated place stageId) :
    ∀ q ∈ states, q.Seated place stageId :=
  h.forall_mem (fun _ _ seated taken => seated.again (Option.some.inj taken)) start

/-- Positions only increase along a pass. -/
theorem pairwise_index (h : Traces c p states result) (start : p.Seated place stageId) :
    states.Pairwise (·.index < ·.index) :=
  h.pairwise_lt fun q hq _ taken => (h.seated start q hq).index_again (Option.some.inj taken)

/-- A pass keeps the id of the workflow. -/
theorem workflow_id (h : Traces c p states result) (start : p.Seated place stageId) :
    ∀ q ∈ states, q.site.workflow.id = p.site.workflow.id := by
  -- the stage is carried along, for the step to be known
  have both : ∀ q ∈ states,
      q.Seated place stageId ∧ q.site.workflow.id = p.site.workflow.id := by
    refine h.forall_mem (fun q t ⟨seated, same⟩ taken => ?_) ⟨start, rfl⟩
    obtain ⟨stage, -, -, -, turn⟩ := seated.turn (Option.some.inj taken)
    refine ⟨seated.again (Option.some.inj taken), ?_⟩
    cases turn with
    | skipped => exact same
    | succeeded => rw [← same, Site.workflow_applyAll]
  exact fun q hq => (both q hq).2

/-- **A pass applies the granted mutations of its calls**, one call after
another, and nothing else. -/
theorem site_eq (h : Traces c p states result) (start : p.Seated place stageId) :
    result.site =
      (p.site.applyAll ((states.filterMap (·.call? c)).flatMap (Call.granted c))).2 := by
  induction h with
  | last taken =>
    obtain ⟨stage, -, -, -, turn⟩ := start.turn (Option.some.inj taken)
    cases turn with
    | completed past call => simp [call]
    | cancelled found done call => simp [call]
    | failed found live on call fault => simp [call, Call.granted_of_error fault]
  | next taken rest ih =>
    have seated := start.again (Option.some.inj taken)
    obtain ⟨stage, -, -, -, turn⟩ := start.turn (Option.some.inj taken)
    rw [ih seated]
    cases turn with
    | skipped found live off call => simp [call]
    | succeeded found live on call ok =>
      simp [call, Call.granted_of_ok ok, Site.applyAll_append]

end Traces

end Pass

namespace Run

/-- That a run from some state on goes through the trail and ends. -/
abbrev Traces (c : Setting β) (steps : Nat) : Run β → List (Run β) → Result β → Prop :=
  Loop.Traces (step c steps)

/-- The workflow with the stage at the next position. -/
def site (r : Run β) : Site β :=
  ⟨r.workflow, .member r.index⟩

/-- The mutations that take effect at the next position. -/
def granted (c : Setting β) (steps : Nat) (r : Run β) : List (Mutation β) :=
  (r.callsHere c steps).flatMap (Call.granted c)

variable {steps : Nat} {r : Run β} {states : List (Run β)} {result : Result β}

/-- **A run that ends has traced its trail.** -/
theorem traces_trail {workflow : Workflow β} {world : World}
    (h : run c steps workflow world = some result) :
    Traces c steps (start c workflow world) (trail c steps workflow world) result :=
  Loop.traces_trail h

theorem callsHere_of_entered?_eq_none (h : r.entered? c = none) : r.callsHere c steps = [] := by
  rw [callsHere, h]

theorem granted_of_entered?_eq_none (h : r.entered? c = none) : r.granted c steps = [] := by
  rw [granted, callsHere_of_entered?_eq_none h]
  rfl

/-- A call stands at the position of the stage list where it was made. -/
theorem place_of_mem_callsHere {call : Call β} (hcall : call ∈ r.callsHere c steps) :
    call.place = .member r.index := by
  rw [callsHere] at hcall
  split at hcall
  next => cases hcall
  next pass entry =>
    obtain ⟨stage, found, -, -, begins⟩ := entered?_eq_some entry
    obtain ⟨-, rfl⟩ := Pass.entered?_eq_some_iff.mp begins
    have here : r.site.stage? = some stage := found
    exact (Pass.seated_enter here).place_of_mem_calls hcall

namespace Enters

variable {stage : Stage β} {pass : Pass β} {passed : Pass.Result β}

theorem callsHere_eq (h : r.Enters c steps stage pass passed) :
    r.callsHere c steps = pass.calls c steps := by
  rw [callsHere, h.entry]

theorem lt (h : r.Enters c steps stage pass passed) : r.index < r.workflow.size :=
  (List.getElem?_eq_some_iff.mp h.found).1

theorem seated (h : r.Enters c steps stage pass passed) :
    pass.Seated (.member r.index) stage.id := by
  have here : r.site.stage? = some stage := h.found
  rw [h.pass_eq]
  exact Pass.seated_enter here

/-- What a whole pass makes of the site. -/
theorem site_eq (h : r.Enters c steps stage pass passed) :
    passed.site = (r.site.applyAll (r.granted c steps)).2 := by
  rw [h.traces.site_eq h.seated, h.pass_eq, granted, h.callsHere_eq, h.pass_eq]
  rfl

end Enters

/-- **A step that goes on** leaves a position of the list behind, and the
workflow with what was granted there. -/
theorem again {t : Run β} (taken : r.step c steps = some (.again t)) :
    r.index < r.workflow.size ∧ t.index = r.index + 1 ∧
      t.workflow = (r.site.applyAll (r.granted c steps)).2.workflow := by
  cases turn taken with
  | skipped found live off entry =>
    refine ⟨(List.getElem?_eq_some_iff.mp found).1, rfl, ?_⟩
    rw [granted_of_entered?_eq_none entry]
    rfl
  | passed enters ok => exact ⟨enters.lt, rfl, by rw [enters.site_eq]⟩

/-- A step that goes on does not go past the end of the list. -/
theorem index_le_of_again {t : Run β} (taken : r.step c steps = some (.again t)) :
    t.index ≤ t.workflow.size := by
  obtain ⟨lt, index, workflow⟩ := again taken
  rw [index, workflow, Workflow.size, Site.length_stages_applyAll, List.length_append]
  exact Nat.le_add_right_of_le lt

/-- A step that goes on leaves a stage behind, and the added ones follow. -/
theorem drop_stages_again {t : Run β} (taken : r.step c steps = some (.again t)) :
    t.workflow.stages.drop t.index =
      r.workflow.stages.drop (r.index + 1) ++ (r.granted c steps).filterMap Mutation.stage? := by
  obtain ⟨lt, index, workflow⟩ := again taken
  have inside : r.index + 1 ≤ r.workflow.stages.length := lt
  rw [index, ← List.drop_append_of_le_length inside]
  refine List.ext_getElem? fun k => ?_
  have inside' : r.granted c steps = [] ∨ r.index < r.workflow.size := .inr lt
  have stages := Site.getElem?_stages_member inside' (r.index + 1 + k)
  have not_here : ¬ r.index + 1 + k = r.index := by omega
  rw [List.getElem?_drop, List.getElem?_drop, workflow, site, stages]
  simp [not_here]

/-- **A step that ends the run** leaves the workflow with what was granted
at its position, if there was one. -/
theorem finish_eq (taken : r.step c steps = some (.finish result)) :
    (r.granted c steps = [] ∨ r.index < r.workflow.size) ∧
      result.workflow = (r.site.applyAll (r.granted c steps)).2.workflow := by
  have unentered (entry : r.entered? c = none) :
      (r.granted c steps = [] ∨ r.index < r.workflow.size) ∧
        r.workflow = (r.site.applyAll (r.granted c steps)).2.workflow := by
    rw [granted_of_entered?_eq_none entry]
    exact ⟨.inl rfl, rfl⟩
  cases turn taken with
  | completed past entry => exact unentered entry
  | cancelled found done entry => exact unentered entry
  | refused found live on done entry => exact unentered entry
  | stopped enters fault => exact ⟨.inr enters.lt, by rw [enters.site_eq]⟩

/-- The stage list after a step that goes on, with others to follow. -/
theorem getElem?_stages_append {t : Run β} (taken : r.step c steps = some (.again t))
    {later : List (Stage β)} {k : Nat} :
    (t.workflow.stages ++ later)[k]? =
      (r.workflow.stages ++ ((r.granted c steps).filterMap Mutation.stage? ++ later))[k]?.map
        fun stage => if k = r.index then stage.amendAll (r.granted c steps) else stage := by
  obtain ⟨lt, -, eq⟩ := again taken
  have stages : t.workflow.stages[k]? =
      (r.workflow.stages ++ (r.granted c steps).filterMap Mutation.stage?)[k]?.map fun stage =>
        if k = r.index then stage.amendAll (r.granted c steps) else stage := by
    rw [eq]
    exact Site.getElem?_stages_member (.inr lt) k
  have length : t.workflow.stages.length =
      (r.workflow.stages ++ (r.granted c steps).filterMap Mutation.stage?).length := by
    rw [eq, Site.length_stages_applyAll]
    rfl
  rw [← List.append_assoc, List.getElem?_append, length, stages]
  split
  next old => rw [List.getElem?_append_left old]
  next past =>
    -- what follows is past the position of the step
    have past_old : r.workflow.stages.length ≤ k := by
      rw [List.length_append] at past
      omega
    have lt' : r.index < r.workflow.stages.length := lt
    have not_here : k ≠ r.index := by omega
    rw [List.getElem?_append_right (Nat.not_lt.mp past)]
    simp [not_here]

namespace Traces

/-- Positions only increase along a run. -/
theorem pairwise_index (h : Traces c steps r states result) :
    states.Pairwise (·.index < ·.index) :=
  h.pairwise_lt fun _ _ _ taken => (again taken).2.1

/-- A run keeps the id of the workflow. -/
theorem workflow_id (h : Traces c steps r states result) :
    ∀ s ∈ states, s.workflow.id = r.workflow.id :=
  h.forall_mem (fun s t same taken => by
    rw [(again taken).2.2, Site.workflow_applyAll]
    exact same) rfl

theorem result_id (h : Traces c steps r states result) :
    result.workflow.id = r.workflow.id := by
  obtain ⟨last, hlast, finish⟩ := h.exists_last
  rw [(finish_eq finish).2, Site.workflow_applyAll]
  exact h.workflow_id last hlast

/-- The position that is next is never past the end of the stage list by
more than the end itself. -/
theorem index_le (h : Traces c steps r states result) (start : r.index ≤ r.workflow.size) :
    ∀ s ∈ states, s.index ≤ s.workflow.size :=
  h.forall_mem (fun _ _ _ taken => index_le_of_again taken) start

/-- What comes later has a later position. -/
theorem lt_index {t : Run β} (rest : Traces c steps t states result)
    (taken : r.step c steps = some (.again t)) : ∀ s ∈ states, r.index < s.index := by
  have whole : Traces c steps r (r :: states) result := .next taken rest
  exact (List.pairwise_cons.mp whole.pairwise_index).1

/-- A run does not come back to the positions before it. -/
theorem filter_index_of_lt (h : Traces c steps r states result) {k : Nat} (lt : k < r.index) :
    states.filter (·.index = k) = [] := by
  rw [List.filter_eq_nil_iff]
  intro s hs
  have ahead : r.index ≤ s.index := by
    cases h with
    | last =>
      obtain rfl := List.mem_singleton.mp hs
      omega
    | next taken rest =>
      rcases List.mem_cons.mp hs with rfl | later
      · omega
      · have := lt_index rest taken s later
        omega
  have ne : s.index ≠ k := by omega
  simpa using ne

/-- A run is at each position once. -/
theorem filter_index (h : Traces c steps r states result) {s : Run β} (hs : s ∈ states) :
    states.filter (·.index = s.index) = [s] := by
  induction h with
  | last =>
    obtain rfl := List.mem_singleton.mp hs
    simp
  | next taken rest ih =>
    have moved := (again taken).2.1
    rcases List.mem_cons.mp hs with rfl | later
    · rw [List.filter_cons_of_pos (by simp), filter_index_of_lt rest (by omega)]
    · have ahead := lt_index rest taken s later
      have ne : ¬ _ = s.index := Nat.ne_of_lt ahead
      rw [List.filter_cons_of_neg (by simpa using ne), ih later]

/-- **The stage list at the end of a run.** Stages added by all calls follow
the old ones, and each is amended by what was granted at its position. -/
theorem getElem?_stages (h : Traces c steps r states result) (k : Nat) :
    result.workflow.stages[k]? =
      (r.workflow.stages ++ (states.flatMap (granted c steps)).filterMap Mutation.stage?)[k]?.map
        (·.amendAll ((states.filter (·.index = k)).flatMap (granted c steps))) := by
  induction h with
  | @last r result taken =>
    obtain ⟨inside, eq⟩ := finish_eq taken
    rw [eq, site, Site.getElem?_stages_member inside]
    by_cases at_k : r.index = k
    · simp [at_k]
    · simp [at_k, Ne.symm at_k]
  | @next r t states result taken rest ih =>
    rw [ih, getElem?_stages_append taken, List.flatMap_cons, List.filterMap_append,
      Option.map_map]
    congr 1
    funext stage
    by_cases at_k : k = r.index
    · subst at_k
      have moved := (again taken).2.1
      have none_later : states.filter (·.index = r.index) = [] :=
        filter_index_of_lt rest (by omega)
      simp [none_later]
    · have not_here : ¬ r.index = k := fun h => at_k h.symm
      simp [at_k, not_here]

/-- **A stage is as it was put into the list until the run comes to it.** -/
theorem getElem?_stages_of_mem (h : Traces c steps r states result) {s : Run β} (hs : s ∈ states)
    {k : Nat} (ahead : s.index ≤ k) (inside : k < s.workflow.size) :
    s.workflow.stages[k]? =
      (r.workflow.stages ++
        (states.flatMap (granted c steps)).filterMap Mutation.stage?)[k]? := by
  have inside' : k < s.workflow.stages.length := inside
  induction h with
  | last =>
    obtain rfl := List.mem_singleton.mp hs
    rw [List.getElem?_append_left inside']
  | next taken rest ih =>
    rcases List.mem_cons.mp hs with rfl | hs
    · rw [List.getElem?_append_left inside']
    · have passed := lt_index rest taken s hs
      have not_here : k ≠ _ := Nat.ne_of_gt (Nat.lt_of_lt_of_le passed ahead)
      rw [ih hs, getElem?_stages_append taken, List.flatMap_cons, List.filterMap_append]
      simp [not_here]

/-- **A stage is settled once the run has gone past it.** -/
theorem getElem?_stages_of_lt (h : Traces c steps r states result) {k : Nat} (lt : k < r.index)
    (inside : k < r.workflow.size) :
    result.workflow.stages[k]? = r.workflow.stages[k]? := by
  have inside' : k < r.workflow.stages.length := inside
  rw [h.getElem?_stages, h.filter_index_of_lt lt, List.getElem?_append_left inside']
  simp

/-- What a stage of the trail comes to that is entered: its pass succeeds
and the run goes on, or the run ends with the pass. -/
theorem enters (h : Traces c steps r states result) {s : Run β} (hs : s ∈ states)
    {pass : Pass β} (entry : s.entered? c = some pass) :
    ∃ stage passed, s.Enters c steps stage pass passed ∧
      ((passed.outcome = .ok () ∧ ∃ t ∈ states, s.step c steps = some (.again t) ∧
          t.workflow = passed.site.workflow) ∨
        (states.getLast? = some s ∧ passed.outcome = result.outcome ∧ result.outcome ≠ .ok () ∧
          result.workflow = passed.site.workflow ∧ result.world = passed.world)) := by
  have same {stage : Stage β} {other : Pass β} {passed : Pass.Result β}
      (enters : s.Enters c steps stage other passed) : other = pass :=
    Option.some.inj (enters.entry.symm.trans entry)
  rcases h.mem_cases hs with ⟨t, ht, taken⟩ | ⟨last, taken⟩
  · cases turn taken with
    | skipped found live off none => rw [none] at entry; cases entry
    | @passed stage other passed enters ok =>
      obtain rfl := same enters
      exact ⟨stage, passed, enters, .inl ⟨ok, _, ht, taken, rfl⟩⟩
  · cases turn taken with
    | completed past none => rw [none] at entry; cases entry
    | cancelled found done none => rw [none] at entry; cases entry
    | refused found live on done none => rw [none] at entry; cases entry
    | @stopped stage other passed error enters fault =>
      obtain rfl := same enters
      exact ⟨stage, passed, enters, .inr ⟨last, fault, by simp, rfl, rfl⟩⟩

end Traces

end Run

/-- A pass that is run has traced its trail, if it has begun. -/
theorem Pass.traces_of_run {steps : Nat} {site : Site β} {stage : Stage β} {world : World}
    {result : Pass.Result β} (h : Pass.run c steps site stage world = some result) :
    (∃ pass, Pass.entered? c site stage world = some pass ∧
        Pass.Traces c pass (pass.trail c steps) result) ∨
      ∃ reason, result.outcome = .error (.cancelled site.workflow.id (.stage stage.id) reason) := by
  rcases check : world.check c.token with ⟨status, after⟩
  cases status with
  | error reason =>
    simp only [run, start, check, Option.some.injEq] at h
    exact .inr ⟨reason, by rw [← h]⟩
  | ok =>
    simp only [run, start, check] at h
    exact .inl ⟨enter c site stage after, by simp [entered?, start, check], Loop.traces_trail h⟩

end StagedWorkflow
