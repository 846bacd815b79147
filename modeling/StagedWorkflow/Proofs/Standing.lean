import StagedWorkflow.Proofs.Course
import StagedWorkflow.Proofs.Requests
import StagedWorkflow.Proofs.Simulation

/-!
# A stage in the list and a stage on its own

A stage can be executed as a member of the workflow's list or on its own
against the workflow. An action that does not look at the workflow around
its stage cannot tell the two apart (`Invocation.run_alike`), and then they
come to the same, step by step (`Pass.Alike.step`): the same calls, the same
outcome, stores and signals, and the same stage in the end. Where they
differ is where the stage stands in the list. `detached_agrees_member` says
so, and that whether the stage's id is enabled makes no difference to
either.
-/

namespace StagedWorkflow

variable {β : Type} {c : Setting β}

/-- That two worlds differ at most in their journals. -/
structure World.Alike (w v : World) : Prop where
  heap : w.heap = v.heap
  signals : w.signals = v.signals

namespace World.Alike

variable {w v : World}

theorem notify (h : w.Alike v) {logger : Logger} {first second : Notice} :
    (w.notify logger first).Alike (v.notify logger second) :=
  ⟨h.heap, h.signals⟩

theorem notifyAll (h : w.Alike v) {logger : Logger} {first second : List Notice} :
    (w.notifyAll logger first).Alike (v.notifyAll logger second) := by
  rw [World.notifyAll_eq, World.notifyAll_eq]
  exact ⟨h.heap, h.signals⟩

theorem check (h : w.Alike v) (token : Token) :
    (w.check token).1 = (v.check token).1 ∧ (w.check token).2.Alike (v.check token).2 := by
  simp only [World.check, h.signals]
  exact ⟨trivial, h.heap, rfl⟩

theorem ask (h : w.Alike v) (r : Heap.Request) :
    (w.ask r).1 = (v.ask r).1 ∧ (w.ask r).2.Alike (v.ask r).2 := by
  simp only [World.ask, h.heap]
  exact ⟨trivial, rfl, h.signals⟩

end World.Alike

/-- That an action does not look at the workflow around its stage. It sees
the stage, the ids and the shared store. -/
def Behaviour.KeepsToStage (behaviour : Behaviour β) : Prop :=
  Program.Conforms (S := Invocation.signature β) (fun r : Invocation.Request β => r ≠ .workflow)
    (fun _ => True) behaviour

namespace Invocation

/-- That two invocations see the same, but for the workflow around the
stage. -/
structure Alike (inv other : Invocation β) : Prop where
  token : inv.token = other.token
  stage : inv.stage = other.stage
  id : inv.workflow.id = other.workflow.id
  store : inv.workflow.store = other.workflow.store

/-- That two states of an invocation have the same queue, in worlds that are
alike. -/
structure State.Alike (s t : State β) : Prop where
  world : s.world.Alike t.world
  queue : s.queue = t.queue

variable {inv other : Invocation β} {s t : State β}

/-- Every request but that for the workflow is answered alike. -/
theorem Alike.answer (h : inv.Alike other) (same : s.Alike t) {r : Request β}
    (keeps : r ≠ .workflow) :
    (inv.answer r s).1 = (other.answer r t).1 ∧ (inv.answer r s).2.Alike (other.answer r t).2 := by
  cases r with
  | heap r =>
    obtain ⟨answers, worlds⟩ := same.world.ask r
    exact ⟨answers, worlds, same.queue⟩
  | here => exact ⟨by simp [Invocation.answer, h.id, h.stage, h.store], same⟩
  | stage => exact ⟨h.stage, same⟩
  | workflow => exact absurd rfl keeps
  | check =>
    obtain ⟨answers, worlds⟩ := same.world.check inv.token
    simp only [Invocation.answer, ← h.token]
    exact ⟨answers, worlds, same.queue⟩
  | cancel =>
    have signals : s.world.signals.cancel inv.token = t.world.signals.cancel other.token := by
      rw [same.world.signals, h.token]
    exact ⟨rfl, ⟨same.world.heap, signals⟩, same.queue⟩
  | log level text => exact ⟨rfl, ⟨same.world.heap, same.world.signals⟩, same.queue⟩
  | report who answer => exact ⟨rfl, ⟨same.world.heap, same.world.signals⟩, same.queue⟩
  | record mutation =>
    have taken : (take mutation s.world).1 = (take mutation t.world).1 ∧
        (take mutation s.world).2.Alike (take mutation t.world).2 := by
      cases mutation with
      | addStage stage =>
        obtain ⟨answers, worlds⟩ := same.world.ask (.clone stage.initial)
        exact ⟨by simp only [take, answers], worlds⟩
      | addAction | setActionEnabled | setStageEnabled => exact ⟨rfl, same.world⟩
    refine ⟨taken.1, taken.2, ?_⟩
    simp only [Invocation.answer, same.queue, taken.1]
  | pending => exact ⟨congrArg List.length same.queue, same⟩

/-- **An action that keeps to its stage does the same in both.** -/
theorem Alike.run (h : inv.Alike other) {behaviour : Behaviour β}
    (keeps : behaviour.KeepsToStage) (same : s.Alike t) :
    (behaviour.run inv.answer s).1 = (behaviour.run other.answer t).1 ∧
      (behaviour.run inv.answer s).2.Alike (behaviour.run other.answer t).2 := by
  induction behaviour generalizing s t with
  | done => exact ⟨rfl, same⟩
  | ask r next ih =>
    obtain ⟨answers, states⟩ := h.answer same keeps.1
    simp only [Program.run, answers]
    exact ih _ (keeps.2 _) states

end Invocation

/-- That two sites execute the same stage against workflows of the same id
and store. -/
structure Site.Alike (s t : Site β) : Prop where
  stage : s.stage? = t.stage?
  id : s.workflow.id = t.workflow.id
  store : s.workflow.store = t.workflow.store

/-- A queue is applied alike. -/
theorem Site.Alike.applyAll {s t : Site β} (h : s.Alike t) {stage : Stage β}
    (here : s.stage? = some stage) (queue : List (Mutation β)) :
    (s.applyAll queue).2.Alike (t.applyAll queue).2 where
  stage := by rw [stage?_applyAll here, stage?_applyAll (h.stage ▸ here)]
  id := by rw [id_applyAll, id_applyAll, h.id]
  store := by rw [store_applyAll, store_applyAll, h.store]

/-- What is done in a call, wherever its stage stands. -/
structure Deed (β : Type) where
  index : Nat
  stage : Stage β
  action : Action β
  result : Except Fault Unit
  queue : List (Mutation β)

/-- What is done in a call. -/
def Call.deed (c : Setting β) (call : Call β) : Deed β :=
  ⟨call.index, call.stage, call.action, call.result c, call.queue c⟩

/-- The mutations of a deed that take effect. -/
def Deed.granted (deed : Deed β) : List (Mutation β) :=
  match deed.result with
  | .ok () => deed.queue
  | .error _ => []

namespace Pass

/-- That two passes are at the same point of the same stage. -/
structure Alike (p q : Pass β) : Prop where
  standing : ∃ stage, p.site.stage? = some stage
  site : p.site.Alike q.site
  world : p.world.Alike q.world
  stageId : p.stageId = q.stageId
  index : p.index = q.index
  executed : p.executed = q.executed

/-- That two passes have ended alike. -/
structure Result.Alike (r s : Result β) : Prop where
  site : r.site.Alike s.site
  world : r.world.Alike s.world
  outcome : r.outcome = s.outcome

namespace Alike

variable {p q : Pass β}

/-- An action that keeps to its stage is called alike. -/
theorem calling (h : p.Alike q) (stage : Stage β) {action : Action β}
    (keeps : (c.behave action).KeepsToStage) :
    (p.calling c stage action).deed c = (q.calling c stage action).deed c ∧
      ((p.calling c stage action).left c).Alike ((q.calling c stage action).left c) := by
  have invocations : (⟨c.token, c.logger, p.site.workflow, stage⟩ : Invocation β).Alike
      ⟨c.token, c.logger, q.site.workflow, stage⟩ := ⟨rfl, rfl, h.site.id, h.site.store⟩
  have begins : (p.calling c stage action).world.Alike (q.calling c stage action).world :=
    (h.world.check c.token).2.notify
  have start : (⟨(p.calling c stage action).world, []⟩ : Invocation.State β).Alike
      ⟨(q.calling c stage action).world, []⟩ := ⟨begins, rfl⟩
  obtain ⟨results, states⟩ := invocations.run keeps start
  have result_eq : (p.calling c stage action).result c = (q.calling c stage action).result c :=
    results
  have queue_eq : (p.calling c stage action).queue c = (q.calling c stage action).queue c :=
    states.queue
  refine ⟨?_, states.world⟩
  rw [Call.deed, Call.deed, result_eq, queue_eq]
  simp only [Pass.calling, h.index]

/-- **Passes that are at the same point take the same step.** -/
theorem step (h : p.Alike q)
    (keeps : ∀ call, p.call? c = some call → (c.behave call.action).KeepsToStage) :
    Step.Rel Alike Result.Alike (p.step c) (q.step c) := by
  obtain ⟨stage, here⟩ := h.standing
  have there : q.site.stage? = some stage := h.site.stage ▸ here
  obtain ⟨checks, worlds⟩ := h.world.check c.token
  rw [step_eq here, step_eq there, ← h.index, ← checks, ← h.stageId, ← h.site.id]
  cases found : stage.slots[p.index]? with
  | none => exact .finish ⟨h.site, h.world.notify, rfl⟩
  | some slot =>
    cases live : (p.world.check c.token).1 with
    | error reason =>
      dsimp only
      exact .finish ⟨h.site, worlds.notify, rfl⟩
    | ok =>
      cases on : slot.enabled with
      | false =>
        simp only [on, Bool.false_eq_true, if_false]
        exact .again ⟨⟨stage, here⟩, h.site, worlds.notify, rfl, rfl, h.executed⟩
      | true =>
        have called : p.call? c = some (p.calling c stage slot.action) := by
          simp [call?, here, found, live, on]
        obtain ⟨deeds, left⟩ := h.calling stage (keeps _ called)
        have result_eq : (p.calling c stage slot.action).result c =
            (q.calling c stage slot.action).result c := congrArg Deed.result deeds
        have queue_eq : (p.calling c stage slot.action).queue c =
            (q.calling c stage slot.action).queue c := congrArg Deed.queue deeds
        simp only [on, if_true, ← result_eq, ← queue_eq]
        cases (p.calling c stage slot.action).result c with
        | error source => exact .finish ⟨h.site, left.notify, rfl⟩
        | ok =>
          have sites := h.site.applyAll here ((p.calling c stage slot.action).queue c)
          exact .again ⟨⟨_, Site.stage?_applyAll here⟩, sites, left.notifyAll, rfl, rfl,
            congrArg (· + 1) h.executed⟩

/-- At the same point the same is done. -/
theorem deed_eq (h : p.Alike q)
    (keeps : ∀ call, p.call? c = some call → (c.behave call.action).KeepsToStage) :
    (p.call? c).map (Call.deed c) = (q.call? c).map (Call.deed c) := by
  obtain ⟨stage, here⟩ := h.standing
  have there : q.site.stage? = some stage := h.site.stage ▸ here
  obtain ⟨checks, -⟩ := h.world.check c.token
  cases found : stage.slots[p.index]? with
  | none =>
    have found' : stage.slots[q.index]? = none := h.index ▸ found
    simp [call?, here, there, found, found']
  | some slot =>
    have found' : stage.slots[q.index]? = some slot := h.index ▸ found
    cases live : (p.world.check c.token).1 with
    | error reason =>
      rw [live] at checks
      simp [call?, here, there, found, found', live, ← checks]
    | ok =>
      rw [live] at checks
      cases on : slot.enabled with
      | false => simp [call?, here, there, found, found', live, ← checks, on]
      | true =>
        have called : p.call? c = some (p.calling c stage slot.action) := by
          simp [call?, here, found, live, on]
        have called' : q.call? c = some (q.calling c stage slot.action) := by
          simp [call?, there, found', ← checks, on]
        rw [called, called', Option.map_some, Option.map_some]
        exact congrArg some (h.calling stage (keeps _ called)).1

end Alike

/-- A stage is entered alike. -/
theorem alike_enter {s t : Site β} {stage : Stage β} {w v : World} (h : s.Alike t)
    (here : s.stage? = some stage) (worlds : w.Alike v) :
    (enter c s stage w).Alike (enter c t stage v) := by
  have notified : (w.notify c.logger (.stageStarting s.place stage.id stage.size)).Alike
      (v.notify c.logger (.stageStarting t.place stage.id stage.size)) := worlds.notify
  have entered : (enter c s stage w).world.Alike (enter c t stage v).world := by
    have store := h.store
    simp only [enter]
    generalize s.workflow.store = x at store ⊢
    generalize t.workflow.store = y at store ⊢
    subst store
    obtain ⟨merged, after⟩ := notified.ask (.merge x stage.initial {})
    rw [← merged]
    split
    · exact after.notify
    · exact after
  exact ⟨⟨stage, here⟩, h, entered, rfl, rfl, rfl⟩

/-- The actions that are called when a stage is executed at a site, in
order. -/
def callsAt (c : Setting β) (steps : Nat) (site : Site β) (stage : Stage β) (world : World) :
    List (Call β) :=
  match entered? c site stage world with
  | none => []
  | some pass => pass.calls c steps

/-- **A stage is executed alike at two sites** that look the same to its
actions: the same is done, in the same order, and it comes to the same end,
if to any. -/
theorem run_alike {s t : Site β} {stage : Stage β} {w v : World} {steps : Nat} (h : s.Alike t)
    (here : s.stage? = some stage) (worlds : w.Alike v)
    (keeps : ∀ call ∈ callsAt c steps s stage w, (c.behave call.action).KeepsToStage) :
    (callsAt c steps s stage w).map (Call.deed c) = (callsAt c steps t stage v).map (Call.deed c) ∧
      Option.Rel Result.Alike (run c steps s stage w) (run c steps t stage v) := by
  obtain ⟨checks, after⟩ := worlds.check c.token
  rcases check : w.check c.token with ⟨status, w'⟩
  rcases check' : v.check c.token with ⟨status', v'⟩
  rw [check, check'] at checks after
  dsimp only at checks after
  subst checks
  cases status with
  | error reason =>
    simp only [callsAt, run, entered?, start, check, check', List.map_nil, true_and]
    exact .some ⟨h, after.notify, by rw [h.id]⟩
  | ok =>
    have begins : (enter c s stage w').Alike (enter c t stage v') := alike_enter h here after
    simp only [callsAt, run, entered?, start, check, check'] at keeps ⊢
    have kept : ∀ p ∈ (enter c s stage w').trail c steps, ∀ call, p.call? c = some call →
        (c.behave call.action).KeepsToStage :=
      fun p hp call called => keeps call (List.mem_filterMap.mpr ⟨p, hp, called⟩)
    obtain ⟨trails, results⟩ := Loop.simulates (n := steps)
      (fun p hp q (alike : p.Alike q) => .some (alike.step (kept p hp))) begins
    refine ⟨?_, results⟩
    rw [calls, calls, List.map_filterMap, List.map_filterMap]
    exact Loop.filterMap_eq_of_forall₂ trails fun p hp q alike => alike.deed_eq (kept p hp)

/-- What is made of the site is what the calls are granted. -/
theorem site_eq_of_run {site : Site β} {stage : Stage β} {world : World} {steps : Nat}
    {result : Result β} (here : site.stage? = some stage)
    (h : run c steps site stage world = some result) :
    result.site =
      (site.applyAll ((callsAt c steps site stage world).flatMap (Call.granted c))).2 := by
  rcases check : world.check c.token with ⟨status, after⟩
  cases status with
  | error reason =>
    simp only [run, start, check, Option.some.injEq] at h
    simp [callsAt, entered?, start, check, ← h]
  | ok =>
    simp only [run, start, check] at h
    have traces : Traces c (enter c site stage after) _ result := Loop.traces_trail h
    have seated : (enter c site stage after).Seated site.place stage.id := seated_enter here
    simp only [callsAt, entered?, start, check]
    exact traces.site_eq seated

/-- Every call is made where the stage stands. -/
theorem place_of_mem_callsAt {site : Site β} {stage : Stage β} {world : World} {steps : Nat}
    (here : site.stage? = some stage) {call : Call β}
    (hcall : call ∈ callsAt c steps site stage world) : call.place = site.place := by
  rw [callsAt] at hcall
  split at hcall
  next => cases hcall
  next pass entry =>
    obtain ⟨-, rfl⟩ := entered?_eq_some_iff.mp entry
    exact (seated_enter here).place_of_mem_calls hcall

end Pass

/-! ## As a member and on its own -/

/-- **That a stage executed on its own and as the last member has come to
the same.** -/
structure SameEnd (workflow : Workflow β) (stage : Stage β) (added : List (Stage β))
    (alone member : Pass.Result β) : Prop where
  outcome : alone.outcome = member.outcome
  /-- All stores are the same, the shared one and the initial data included. -/
  heap : alone.world.heap = member.world.heap
  signals : alone.world.signals = member.world.signals
  /-- The stage is the same. The stages that the workflow had are as they
  were, and the added ones follow them, after the stage where it is a member. -/
  stages : ∃ final, alone.site.stage? = some final ∧ member.site.stage? = some final ∧
    alone.site.workflow.stages = workflow.stages ++ added ∧
    member.site.workflow.stages = workflow.stages ++ final :: added
  enabled : ∀ id, id ≠ stage.id →
    alone.site.workflow.enabled.get? id = member.site.workflow.enabled.get? id

/-- What takes effect is read off what is done. -/
theorem Call.flatMap_granted {calls : List (Call β)} :
    calls.flatMap (granted c) = (calls.map (deed c)).flatMap Deed.granted := by
  rw [List.flatMap_map]
  rfl

section

variable {steps : Nat} {stage : Stage β} {workflow : Workflow β} {world : World}

/-- A stage beside the workflow and one at the end of its list look the same
to the actions, whatever is enabled. -/
theorem Site.alike_last {records : Table Bool} :
    (⟨workflow, .detached stage⟩ : Site β).Alike
      ⟨{ workflow.addStage stage with enabled := records }, .member workflow.size⟩ where
  stage := by simp [stage?, Workflow.addStage, Workflow.size]
  id := rfl
  store := rfl

/-- What is the same in the end of two sites that looked the same, one of
them at the end of the list. -/
theorem sameEnd_of_alike {alone member : Pass.Result β} (alike : alone.Alike member)
    (ranAlone : Runner.executeStage c steps stage workflow world = some alone)
    (ranMember : Pass.run c steps ⟨workflow.addStage stage, .member workflow.size⟩ stage world =
      some member)
    (deeds : (Runner.stageCalls c steps stage workflow world).map (Call.deed c) =
      (Pass.callsAt c steps ⟨workflow.addStage stage, .member workflow.size⟩ stage world).map
        (Call.deed c)) :
    SameEnd workflow stage
      ((Runner.stageCalls c steps stage workflow world).flatMap (Call.stagesAdded c))
      alone member := by
  have last : (⟨workflow.addStage stage, .member workflow.size⟩ : Site β).stage? = some stage := by
    simp [Site.stage?, Workflow.size]
  -- both have applied one and the same queue
  generalize queue_eq : (Runner.stageCalls c steps stage workflow world).flatMap
    (Call.granted c) = queue
  have added_eq : (Runner.stageCalls c steps stage workflow world).flatMap (Call.stagesAdded c) =
      queue.filterMap Mutation.stage? := by
    rw [← queue_eq, List.filterMap_flatMap]
    rfl
  have alone_eq : alone.site = ((⟨workflow, .detached stage⟩ : Site β).applyAll queue).2 := by
    rw [← queue_eq]
    exact Pass.site_eq_of_run rfl ranAlone
  have member_eq : member.site =
      ((⟨workflow.addStage stage, .member workflow.size⟩ : Site β).applyAll queue).2 := by
    rw [Pass.site_eq_of_run last ranMember, Call.flatMap_granted, ← deeds,
      ← Call.flatMap_granted, queue_eq]
  rw [added_eq]
  refine ⟨alike.outcome, alike.world.heap, alike.world.signals,
    ⟨stage.amendAll queue, ?_, ?_, ?_, ?_⟩, fun id other => ?_⟩
  · rw [alone_eq]
    exact Site.stage?_applyAll rfl
  · rw [member_eq]
    exact Site.stage?_applyAll last
  · rw [alone_eq, Site.stages_detached]
  · rw [member_eq, Site.stages_last]
  · rw [alone_eq, member_eq, Site.get?_enabled_applyAll, Site.get?_enabled_applyAll,
      Workflow.get?_enabled_addStage, if_neg other]

end

/-- **A stage is executed on its own as it is as the last member** of the
workflow, by actions that keep to their stage. The same is done, each time
where the stage stands, and comes to the same; and whether the stage's id is
enabled makes no difference to either. -/
theorem detached_agrees_member (c : Setting β) (steps : Nat) (stage : Stage β)
    (workflow : Workflow β) (world : World)
    (keeps : ∀ call ∈ Runner.stageCalls c steps stage workflow world,
      (c.behave call.action).KeepsToStage) :
    Option.Rel
        (SameEnd workflow stage
          ((Runner.stageCalls c steps stage workflow world).flatMap (Call.stagesAdded c)))
        (Runner.executeStage c steps stage workflow world)
        (Pass.run c steps ⟨workflow.addStage stage, .member workflow.size⟩ stage world) ∧
      (Runner.stageCalls c steps stage workflow world).map (Call.deed c) =
        (Pass.callsAt c steps ⟨workflow.addStage stage, .member workflow.size⟩ stage world).map
          (Call.deed c) ∧
      (∀ call ∈ Runner.stageCalls c steps stage workflow world, call.place = .detached) ∧
      (∀ call ∈ Pass.callsAt c steps ⟨workflow.addStage stage, .member workflow.size⟩ stage world,
        call.place = .member workflow.size) ∧
      ∀ records : Table Bool,
        ((Runner.stageCalls c steps stage workflow world).map (Call.deed c) =
            (Runner.stageCalls c steps stage { workflow with enabled := records } world).map
              (Call.deed c) ∧
          Option.Rel Pass.Result.Alike (Runner.executeStage c steps stage workflow world)
            (Runner.executeStage c steps stage { workflow with enabled := records } world)) ∧
        ((Runner.stageCalls c steps stage workflow world).map (Call.deed c) =
            (Pass.callsAt c steps
              ⟨{ workflow.addStage stage with enabled := records }, .member workflow.size⟩ stage
              world).map (Call.deed c) ∧
          Option.Rel Pass.Result.Alike (Runner.executeStage c steps stage workflow world)
            (Pass.run c steps
              ⟨{ workflow.addStage stage with enabled := records }, .member workflow.size⟩ stage
              world)) := by
  have alone : (⟨workflow, .detached stage⟩ : Site β).stage? = some stage := rfl
  have last : (⟨workflow.addStage stage, .member workflow.size⟩ : Site β).stage? = some stage := by
    simp [Site.stage?, Workflow.size]
  have agree {other : Site β} (looks : (⟨workflow, .detached stage⟩ : Site β).Alike other) :=
    Pass.run_alike looks alone (⟨rfl, rfl⟩ : World.Alike world world) keeps
  have beside (records : Table Bool) : (⟨workflow, .detached stage⟩ : Site β).Alike
      ⟨{ workflow with enabled := records }, .detached stage⟩ := ⟨rfl, rfl, rfl⟩
  obtain ⟨deeds, results⟩ := agree Site.alike_last
  refine ⟨rel_of_rel results fun _ _ ranAlone ranMember alike =>
      sameEnd_of_alike alike ranAlone ranMember deeds, deeds,
    fun call => Pass.place_of_mem_callsAt alone, fun call => Pass.place_of_mem_callsAt last,
    fun records => ⟨agree (beside records), agree Site.alike_last⟩⟩

/-- No action of the sample looks at the workflow. -/
theorem Sample.keepsToStage (action : Action Code) : (behave action).KeepsToStage := by
  rw [behave]
  cases action.code with
  | rest => trivial
  | grow next => exact ⟨nofun, fun _ => ⟨nofun, fun _ => trivial⟩⟩
  | quit => exact ⟨nofun, fun _ => ⟨nofun, fun _ => trivial⟩⟩
  | fail => exact ⟨nofun, fun _ => ⟨nofun, fun _ => trivial⟩⟩

/-- A stage whose actions add more, against a workflow that has a stage of
the same id. -/
theorem detached_agrees_member_grow : ∃ alone member,
    Runner.executeStage Sample.setting 4 (Sample.stage (.grow .fail)) (Sample.workflow .rest)
      Sample.world = some alone ∧
    Pass.run Sample.setting 4
      ⟨(Sample.workflow .rest).addStage (Sample.stage (.grow .fail)), .member 1⟩
      (Sample.stage (.grow .fail)) Sample.world = some member ∧
    alone.outcome = member.outcome ∧ alone.world.heap = member.world.heap := by
  have agree := (detached_agrees_member Sample.setting 4 (Sample.stage (.grow .fail))
    (Sample.workflow .rest) Sample.world fun call _ => Sample.keepsToStage call.action).1
  refine ⟨_, _, rfl, rfl, ?_⟩
  cases agree with
  | some same => exact ⟨same.outcome, same.heap⟩

end StagedWorkflow
