import StagedWorkflow.Proofs.Descent
import StagedWorkflow.Proofs.Scenes

/-!
# What is disabled behaves as if it were absent

A run of a workflow and one of the workflow without its disabled stages and
actions come to the same, if the actions are blind to the structure and the
token stays live (`Run.disabled_as_absent`). The two runs go through lists of
different lengths, and what is added to them is added at different positions;
what stays in common is what lies ahead and which ids are disabled
(`Run.Thinned`). A step keeps that, or one run passes over a stage while the
other stands still (`Run.Thinned.steps`). A token that is not due stays live,
since blind actions do not cancel (`Run.staysLive_of_unset`).
-/

namespace StagedWorkflow

variable {β : Type} {c : Setting β}

namespace Run

/-- **That the token stays live** along a run: it passes the checks for every
stage and for every action that is reached. -/
structure StaysLive (c : Setting β) (workflow : Workflow β) (world : World) : Prop where
  stages : ∀ steps, ∀ r ∈ trail c steps workflow world, ∀ stage,
    r.workflow.stages[r.index]? = some stage → r.Cleared c stage
  actions : ∀ steps, ∀ r ∈ trail c steps workflow world, ∀ pass, r.entered? c = some pass →
    ∀ p ∈ pass.trail c steps, ∀ slot, p.site.slot? p.index = some slot →
      (p.world.check c.token).1 = .ok ()

/-- That the token is live at the next position, and that the pass that is
made there is steady. -/
structure Calm (c : Setting β) (r : Run β) : Prop where
  live : ∀ stage, r.workflow.stages[r.index]? = some stage → r.Cleared c stage
  pass : ∀ pass, r.entered? c = some pass → pass.Steady c

/-- That this is so all along the run. -/
def Steady (c : Setting β) (r : Run β) : Prop :=
  ∀ steps, ∀ s ∈ Loop.trail (step c steps) steps r, s.Calm c

/-- **That one run is another with what is disabled left out ahead.** The ids
given are disabled. -/
structure Thinned (c : Setting β) (off : String → Prop) (r q : Run β) : Prop where
  id : r.workflow.id = q.workflow.id
  store : r.workflow.store = q.workflow.store
  enabled : ∀ id, r.workflow.enabled.get? id = q.workflow.enabled.get? id
  disabled : ∀ id, off id → r.workflow.enabled.get? id = some false
  stages : Thins (fun stage => off stage.id) Stage.Thinned (r.workflow.stages.drop r.index)
    (q.workflow.stages.drop q.index)
  world : r.world.Drifted q.world
  steady : r.Steady c

/-- That two runs have ended the same, in worlds that have drifted apart. -/
structure Result.Drifted (x y : Result β) : Prop where
  outcome : x.outcome = y.outcome
  world : x.world.Drifted y.world
  store : x.workflow.store = y.workflow.store

/-- How many stages are ahead. -/
def remaining (r : Run β) : Nat :=
  (r.workflow.stages.drop r.index).length

variable {off : String → Prop} {r q t u : Run β} {x y : Step (Run β) (Result β)}
  {shown : List (Scene β)} {workflow : Workflow β} {world : World}

theorem Steady.calm (h : r.Steady c) : r.Calm c :=
  h 1 r List.mem_cons_self

theorem Steady.again {n : Nat} (h : r.Steady c) (taken : r.step c n = some (.again t)) :
    t.Steady c := by
  intro steps s mem
  -- as many steps as both need, and the one before
  refine h (max n steps + 1) s ?_
  rw [Loop.trail, step_mono (by omega) taken]
  refine List.mem_cons_of_mem _ (Loop.trail_subset ?_ (Nat.le_max_right n steps) mem)
  exact fun _ _ => step_mono (by omega)

/-- A run is steady whose token stays live and whose actions are blind. -/
theorem steady_start (live : StaysLive c workflow world)
    (blind : ∀ steps, ∀ call ∈ calls c steps workflow world, (c.behave call.action).Blind) :
    (start c workflow world).Steady c := by
  intro steps r hr
  refine ⟨live.stages steps r hr, fun pass entry n p hp => ?_⟩
  -- where both the run and the pass come by
  have mem : r ∈ trail c (max steps n) workflow world :=
    Loop.trail_subset (fun _ _ => step_mono (Nat.le_max_left steps n)) (Nat.le_max_left steps n) hr
  have mem' : p ∈ pass.trail c (max steps n) :=
    Loop.trail_subset (fun _ _ => id) (Nat.le_max_right steps n) hp
  refine ⟨live.actions _ r mem pass entry p mem', fun call called => ?_⟩
  refine blind _ call (List.mem_flatMap.mpr ⟨r, mem, ?_⟩)
  rw [callsHere, entry]
  exact List.mem_filterMap.mpr ⟨p, mem', called⟩

/-- What is granted in a step of a steady run only adds. -/
theorem Steady.adds {steps : Nat} (h : r.Steady c) :
    ∀ mutation ∈ r.granted c steps, mutation.Adds := by
  intro mutation granted
  obtain ⟨call, hcall, granted⟩ := List.mem_flatMap.mp granted
  rw [callsHere] at hcall
  split at hcall
  next => cases hcall
  next pass entry =>
    obtain ⟨p, hp, called⟩ := List.mem_filterMap.mp hcall
    have blind := (h.calm.pass pass entry steps p hp).blind call called
    exact Call.adds_of_blind blind mutation granted

/-- Runs that enter nothing now, and whose steps come to the same, go
abreast. -/
theorem abreast_of_step (entry : r.entered? c = none) (known : ∀ steps, r.step c steps = some x)
    (entry' : q.entered? c = none) (known' : ∀ steps, q.step c steps = some y)
    (related : Step.Rel (Thinned c off) Result.Drifted x y) :
    Loop.Abreast (takes c) (takes c) (Thinned c off) Result.Drifted r q where
  follow _ _ taken := by
    obtain ⟨rfl, rfl⟩ := (takes_of_step entry known).mp taken
    exact ⟨_, (takes_of_step entry' known').mpr ⟨rfl, rfl⟩, related⟩
  lead _ _ taken := by
    obtain ⟨rfl, rfl⟩ := (takes_of_step entry' known').mp taken
    exact ⟨_, (takes_of_step entry known).mpr ⟨rfl, rfl⟩, related⟩

namespace Thinned

/-- **Steps that look the same leave the same ahead.** -/
theorem again {m n : Nat} (h : r.Thinned c off q) (taken : r.step c m = some (.again t))
    (taken' : q.step c n = some (.again u)) (same : r.scene c m = q.scene c n)
    (rest : Thins (fun stage => off stage.id) Stage.Thinned
      (r.workflow.stages.drop (r.index + 1)) (q.workflow.stages.drop (q.index + 1)))
    (worlds : t.world.Drifted u.world) : t.Thinned c off u := by
  obtain ⟨-, -, workflow⟩ := Run.again taken
  obtain ⟨-, -, workflow'⟩ := Run.again taken'
  have granted : q.granted c n = r.granted c m := by rw [granted_eq, granted_eq, same]
  rw [granted] at workflow'
  refine ⟨?_, ?_, fun id => ?_, fun id gone => ?_, ?_, worlds, h.steady.again taken⟩
  · rw [workflow, workflow', Site.id_applyAll, Site.id_applyAll]
    exact h.id
  · rw [workflow, workflow', Site.store_applyAll, Site.store_applyAll]
    exact h.store
  · have before : r.site.workflow.enabled.get? id = q.site.workflow.enabled.get? id := h.enabled id
    rw [workflow, workflow', Site.get?_enabled_applyAll, Site.get?_enabled_applyAll, before]
  · have before : r.site.workflow.enabled.get? id = some false := h.disabled id gone
    rw [workflow, Site.get?_enabled_applyAll, before]
    exact Mutation.foldl_switch_of_adds h.steady.adds
  · rw [drop_stages_again taken, drop_stages_again taken', granted]
    exact rest.append (.refl Stage.thinned_refl _)

/-- Where both have a stage ahead that is disabled, both pass over it. -/
theorem skip (h : r.Thinned c off q) {s s' : Stage β}
    (found : r.workflow.stages[r.index]? = some s) (found' : q.workflow.stages[q.index]? = some s')
    (off_r : r.workflow.isStageEnabled s.id = false)
    (off_q : q.workflow.isStageEnabled s'.id = false)
    (rest : Thins (fun stage => off stage.id) Stage.Thinned
      (r.workflow.stages.drop (r.index + 1)) (q.workflow.stages.drop (q.index + 1))) :
    Loop.Abreast (takes c) (takes c) (Thinned c off) Result.Drifted r q := by
  obtain ⟨live', worlds⟩ := h.world.check (h.steady.calm.live s found).1
  obtain ⟨entry, known⟩ := step_of_off found (h.steady.calm.live s found).1 off_r
  obtain ⟨entry', known'⟩ := step_of_off found' live' off_q
  have same : r.scene c 0 = q.scene c 0 := by
    rw [scene_of_entered?_eq_none entry, scene_of_entered?_eq_none entry']
  have related := h.again (known 0) (known' 0) same rest worlds.notify
  exact abreast_of_step entry known entry' known' (.again related)

/-- Steps that enter a stage come to the same, if their passes do. -/
theorem afterPass (h : r.Thinned c off q)
    (rest : Thins (fun stage => off stage.id) Stage.Thinned
      (r.workflow.stages.drop (r.index + 1)) (q.workflow.stages.drop (q.index + 1)))
    {result result' : Pass.Result β} (taken : takes c r (r.afterPass result) shown)
    (taken' : takes c q (q.afterPass result') shown) (results : result.Drifted result') :
    Step.Rel (Thinned c off) Result.Drifted (r.afterPass result) (q.afterPass result') := by
  obtain ⟨m, taken, shows⟩ := taken
  obtain ⟨n, taken', shows'⟩ := taken'
  have same : r.scene c m = q.scene c n := shows.trans shows'.symm
  have outcomes := results.outcome
  rw [afterPass_eq] at taken taken' ⊢
  rw [afterPass_eq]
  rw [← outcomes] at taken' ⊢
  cases outcome : result.outcome with
  | ok =>
    rw [outcome] at taken taken'
    exact .again (h.again taken taken' same rest results.world)
  | error error =>
    rw [outcome] at taken taken'
    obtain ⟨-, workflow⟩ := finish_eq taken
    obtain ⟨-, workflow'⟩ := finish_eq taken'
    refine .finish ⟨rfl, results.world, ?_⟩
    rw [workflow, workflow', Site.store_applyAll, Site.store_applyAll]
    exact h.store

/-- Where both have a stage ahead that is enabled, both enter it. -/
theorem enter (h : r.Thinned c off q) {s s' : Stage β}
    (found : r.workflow.stages[r.index]? = some s) (found' : q.workflow.stages[q.index]? = some s')
    (thinned : s.Thinned s') (on : r.workflow.isStageEnabled s.id = true)
    (on' : q.workflow.isStageEnabled s'.id = true)
    (rest : Thins (fun stage => off stage.id) Stage.Thinned
      (r.workflow.stages.drop (r.index + 1)) (q.workflow.stages.drop (q.index + 1))) :
    Loop.Abreast (takes c) (takes c) (Thinned c off) Result.Drifted r q := by
  have cleared := h.steady.calm.live s found
  obtain ⟨live', worlds⟩ := h.world.check cleared.1
  obtain ⟨still', worlds⟩ := worlds.check (cleared.2 on)
  have entry := entered?_of_cleared found cleared on
  have entry' := entered?_of_cleared found' ⟨live', fun _ => still'⟩ on'
  have here : r.site.stage? = some s := found
  have there : q.site.stage? = some s' := found'
  have passes := Pass.thinned_enter here there thinned h.id h.store worlds
    (h.steady.calm.pass _ entry)
  constructor
  · intro x shown taken
    obtain ⟨result, moves, comes, rfl, rfl⟩ := (takes_of_entered entry).mp taken
    obtain ⟨result', comes', results⟩ := passes.follow comes
    have taken' := (takes_of_entered entry').mpr ⟨result', moves, comes', rfl, rfl⟩
    rw [← passes.stageId] at taken'
    exact ⟨_, taken', h.afterPass rest taken taken' results⟩
  · intro y shown taken'
    obtain ⟨result', moves, comes', rfl, rfl⟩ := (takes_of_entered entry').mp taken'
    obtain ⟨result, comes, results⟩ := passes.lead comes'
    have taken := (takes_of_entered entry).mpr ⟨result, moves, comes, rfl, rfl⟩
    rw [passes.stageId] at taken
    exact ⟨_, taken, h.afterPass rest taken taken' results⟩

/-- **Either both take the same step, or the first passes over a stage that
is left out.** -/
theorem steps (h : r.Thinned c off q) :
    Loop.Lags (takes c) (Thinned c off) remaining r q ∨
      Loop.Abreast (takes c) (takes c) (Thinned c off) Result.Drifted r q := by
  have stages := h.stages
  generalize first : r.workflow.stages.drop r.index = l at stages
  generalize second : q.workflow.stages.drop q.index = m at stages
  cases stages with
  | nil =>
    obtain ⟨entry, known⟩ := step_of_past (c := c)
      (List.getElem?_eq_none_iff.mpr (List.drop_eq_nil_iff.mp first))
    obtain ⟨entry', known'⟩ := step_of_past (c := c)
      (List.getElem?_eq_none_iff.mpr (List.drop_eq_nil_iff.mp second))
    refine .inr (abreast_of_step entry known entry' known' ?_)
    exact .finish ⟨rfl, h.world.notify, h.store⟩
  | @keep s s' l m thinned rest =>
    obtain ⟨found, rfl⟩ := getElem?_of_drop_eq_cons first
    obtain ⟨found', rfl⟩ := getElem?_of_drop_eq_cons second
    have switches : q.workflow.isStageEnabled s'.id = r.workflow.isStageEnabled s.id := by
      rw [Workflow.isStageEnabled, Workflow.isStageEnabled, thinned.id, h.enabled]
    cases on : r.workflow.isStageEnabled s.id with
    | false => exact .inr (h.skip found found' on (switches.trans on) rest)
    | true => exact .inr (h.enter found found' thinned on (switches.trans on) rest)
  | @drop s l _ gone rest =>
    obtain ⟨found, rfl⟩ := getElem?_of_drop_eq_cons first
    have disabled : r.workflow.isStageEnabled s.id = false := by
      rw [Workflow.isStageEnabled, h.disabled s.id gone]
      rfl
    have live := (h.steady.calm.live s found).1
    obtain ⟨entry, known⟩ := step_of_off found live disabled
    refine .inl ⟨⟨r.workflow,
        (r.world.check c.token).2.notify c.logger (.stageSkipped r.index s.id),
        r.index + 1, r.executed⟩, ⟨h.id, h.store, h.enabled, h.disabled, second ▸ rest,
      h.world.check_left.notify_left, h.steady.again (known 0)⟩, ?_,
      (takes_of_step entry known).mpr ⟨rfl, rfl⟩, fun x shown => (takes_of_step entry known).mp⟩
    simp only [remaining, first]
    exact Nat.lt_succ_self _

end Thinned

end Run

/-! ## A token that is not due -/

namespace Pass

/-- The world that a step ends in. -/
def after : Step (Pass β) (Result β) → World
  | .again p => p.world
  | .finish result => result.world

/-- A step leaves flags and clock alone, if the token has no deadline and
what is called is blind. -/
theorem signals_after {p : Pass β} (limit : c.token.deadline = none)
    (unset : p.world.signals.isSet c.token = false)
    (blind : ∀ call, p.call? c = some call → (c.behave call.action).Blind) :
    (after (p.step c)).signals = p.world.signals := by
  have live := World.check_of_live limit unset
  cases here : p.site.stage? with
  | none => simp [step, here, finish, after]
  | some stage =>
    have turned := turn (c := c) here
    generalize p.step c = s at turned ⊢
    have left {slot : Slot β} (call : p.call? c = some (p.calling c stage slot.action)) :
        ((p.calling c stage slot.action).left c).signals = p.world.signals := by
      rw [Call.signals_left (blind _ call)]
      simp [calling, live]
    cases turned with
    | completed past call => rfl
    | cancelled found done call => simp [after, live]
    | skipped found _ off call => simp [after, live]
    | failed found _ on call fault => exact left call
    | succeeded found _ on call ok =>
      rw [after, World.notifyAll_eq]
      exact left call

end Pass

namespace Run

variable {r t : Run β} {steps : Nat} {workflow : Workflow β} {world : World}

/-- So does a pass, all along. -/
theorem signals_of_entered? {pass : Pass β} (entry : r.entered? c = some pass)
    (limit : c.token.deadline = none) (unset : r.world.signals.isSet c.token = false)
    (blind : ∀ call ∈ r.callsHere c steps, (c.behave call.action).Blind) :
    ∀ p ∈ pass.trail c steps, p.world.signals = r.world.signals ∧
      (Pass.after (p.step c)).signals = r.world.signals := by
  rw [callsHere, entry] at blind
  have live := World.check_of_live limit unset
  have called {p : Pass β} (hp : p ∈ pass.trail c steps)
      (same : p.world.signals = r.world.signals) :
      (Pass.after (p.step c)).signals = r.world.signals := by
    rw [← same] at unset ⊢
    exact Pass.signals_after limit unset fun call called =>
      blind call (List.mem_filterMap.mpr ⟨p, hp, called⟩)
  have along : ∀ p ∈ pass.trail c steps, p.world.signals = r.world.signals := by
    refine Loop.forall_mem_trail (fun p hp t same taken => ?_) ?_
    · have after := called hp same
      rwa [Option.some.inj taken] at after
    · obtain ⟨stage, -, -, -, begins⟩ := entered?_eq_some entry
      obtain ⟨-, rfl⟩ := Pass.entered?_eq_some_iff.mp begins
      simp only [Pass.enter, live]
      split <;> rfl
  exact fun p hp => ⟨along p hp, called hp (along p hp)⟩

/-- And a run, from one step to the next. -/
theorem signals_again (taken : r.step c steps = some (.again t)) (limit : c.token.deadline = none)
    (unset : r.world.signals.isSet c.token = false)
    (blind : ∀ call ∈ r.callsHere c steps, (c.behave call.action).Blind) :
    t.world.signals = r.world.signals := by
  cases turn taken with
  | skipped => simp [World.check_of_live limit unset]
  | @passed stage pass result enters ok =>
    obtain ⟨last, hlast, finish⟩ := enters.traces.exists_last
    have after := (signals_of_entered? enters.entry limit unset blind last hlast).2
    rwa [Option.some.inj finish] at after

/-- **A token without deadline that is not cancelled stays live**, if what is
called is blind. -/
theorem staysLive_of_unset (limit : c.token.deadline = none)
    (unset : world.signals.isSet c.token = false)
    (blind : ∀ steps, ∀ call ∈ calls c steps workflow world, (c.behave call.action).Blind) :
    StaysLive c workflow world := by
  have here {steps : Nat} {r : Run β} (hr : r ∈ trail c steps workflow world) :
      ∀ call ∈ r.callsHere c steps, (c.behave call.action).Blind :=
    fun call hcall => blind steps call (List.mem_flatMap.mpr ⟨r, hr, hcall⟩)
  have along (steps : Nat) : ∀ r ∈ trail c steps workflow world,
      r.world.signals.isSet c.token = false := by
    refine Loop.forall_mem_trail (fun r hr t still taken => ?_) unset
    rw [signals_again taken limit still (here hr)]
    exact still
  constructor
  · intro steps r hr stage found
    have live := World.check_of_live limit (along steps r hr)
    exact ⟨by rw [live], fun _ => by rw [live, live]⟩
  · intro steps r hr pass entry p hp slot found
    have same := (signals_of_entered? entry limit (along steps r hr) (here hr) p hp).1
    have still := along steps r hr
    rw [← same] at still
    rw [World.check_of_live limit still]

end Run

/-! ## What comes out of it -/

namespace Run

variable {r : Run β} {workflow : Workflow β} {world : World} {shown : List (Scene β)}

/-- A run begins like one with what is disabled left out. -/
theorem thinned_start (steady : (start c workflow world).Steady c) :
    (start c workflow world).Thinned c (fun id => workflow.enabled.get? id = some false)
      (start c workflow.withoutDisabled world) where
  id := rfl
  store := rfl
  enabled _ := rfl
  disabled _ := id
  stages := by
    refine Thins.filter_map (fun stage out => ?_) Stage.thinned_withoutDisabled workflow.stages
    simpa using out
  world := (World.Drifted.refl world).notify
  steady := steady

/-- **What a run comes to is what it answers**, with its scenes. -/
theorem comes_iff {result : Result β} :
    Loop.Comes (takes c) (start c workflow world) shown result ↔
      ∃ steps, run c steps workflow world = some result ∧ scenes c steps workflow world = shown :=
  Loop.comes_iff fun _ _ _ _ => scene_mono

/-- No stage is entered whose id is disabled. -/
theorem ne_of_disabled {id : String} (gone : r.workflow.enabled.get? id = some false)
    {steps : Nat} {visit : Visit} (mem : r.visit? c steps = some visit) : visit.stageId ≠ id := by
  rintro rfl
  obtain ⟨pass, entry, rfl⟩ := Option.map_eq_some_iff.mp mem
  obtain ⟨stage, -, -, on, begins⟩ := entered?_eq_some entry
  obtain ⟨-, rfl⟩ := Pass.entered?_eq_some_iff.mp begins
  have off : r.workflow.isStageEnabled stage.id = false := by
    rw [Workflow.isStageEnabled, show r.workflow.enabled.get? stage.id = some false from gone]
    rfl
  rw [off] at on
  cases on

/-- That two runs, of two workflows, come to the same. -/
structure SameRun (c : Setting β) (world : World) (workflow workflow' : Workflow β)
    (steps steps' : Nat) (result result' : Result β) : Prop where
  outcome : result.outcome = result'.outcome
  /-- They call the same actions of stages of the same ids, in order, and the
  same is recorded there. -/
  calls : (calls c steps workflow world).map (Call.move c) =
    (calls c steps' workflow' world).map (Call.move c)
  /-- They enter stages of the same ids, in order. -/
  entered : (visits c steps workflow world).map Visit.stageId =
    (visits c steps' workflow' world).map Visit.stageId
  heap : result.world.heap = result'.world.heap
  store : result.workflow.store = result'.workflow.store

theorem sameRun_of_scenes {workflow' : Workflow β} {steps steps' : Nat} {result result' : Result β}
    (same : scenes c steps workflow world = scenes c steps' workflow' world)
    (drifted : result.Drifted result') :
    SameRun c world workflow workflow' steps steps' result result' where
  outcome := drifted.outcome
  calls := by rw [map_move_calls, map_move_calls, same]
  entered := by rw [map_stageId_visits, map_stageId_visits, same]
  heap := drifted.world.heap
  store := drifted.store

/-- **What is disabled behaves as if it were absent**, for actions that are
blind to the structure and a token that stays live. If a run ends, so does one
of the workflow without its disabled stages and actions, and the other way
round; both come to the same. Stages whose ids are disabled are not entered in
either, also not those that are added. -/
theorem disabled_as_absent (c : Setting β) (workflow : Workflow β) (world : World)
    (live : StaysLive c workflow world)
    (blind : ∀ steps, ∀ call ∈ calls c steps workflow world, (c.behave call.action).Blind) :
    (∀ steps result, run c steps workflow world = some result →
      ∃ steps' result', run c steps' workflow.withoutDisabled world = some result' ∧
        SameRun c world workflow workflow.withoutDisabled steps steps' result result') ∧
    (∀ steps' result', run c steps' workflow.withoutDisabled world = some result' →
      ∃ steps result, run c steps workflow world = some result ∧
        SameRun c world workflow workflow.withoutDisabled steps steps' result result') ∧
    ∀ id, workflow.enabled.get? id = some false → ∀ steps,
      (∀ visit ∈ visits c steps workflow world, visit.stageId ≠ id) ∧
      ∀ visit ∈ visits c steps workflow.withoutDisabled world, visit.stageId ≠ id := by
  have begins := thinned_start (steady_start live blind)
  refine ⟨fun steps result ends => ?_, fun steps' result' ends => ?_, fun id gone steps => ⟨?_, ?_⟩⟩
  · obtain ⟨result', comes, drifted⟩ :=
      (comes_iff.mpr ⟨steps, ends, rfl⟩).follow (fun _ _ => Thinned.steps) begins
    obtain ⟨steps', ends', same⟩ := comes_iff.mp comes
    exact ⟨steps', result', ends', sameRun_of_scenes same.symm drifted⟩
  · obtain ⟨result, comes, drifted⟩ :=
      (comes_iff.mpr ⟨steps', ends, rfl⟩).lead (fun _ _ => Thinned.steps) begins
    obtain ⟨steps, ends', same⟩ := comes_iff.mp comes
    exact ⟨steps, result, ends', sameRun_of_scenes same drifted⟩
  · intro visit mem
    obtain ⟨r, hr, visited⟩ := List.mem_filterMap.mp mem
    obtain ⟨q, thinned⟩ := Loop.exists_of_mem_trail (fun _ _ => Thinned.steps) begins r hr
    exact ne_of_disabled (thinned.disabled id gone) visited
  · intro visit mem
    obtain ⟨q, hq, visited⟩ := List.mem_filterMap.mp mem
    obtain ⟨r, thinned⟩ := Loop.exists_of_mem_trail' (fun _ _ => Thinned.steps) begins q hq
    exact ne_of_disabled ((thinned.enabled id).symm.trans (thinned.disabled id gone)) visited

end Run

namespace Sample

/-- That code only rests and grows. -/
def Code.Grows : Code → Prop
  | rest => True
  | grow next => next.Grows
  | quit | fail => False

/-- Code that grows is blind to the structure. -/
theorem blind_of_grows {action : Action Code} (grows : action.code.Grows) :
    (behave action).Blind := by
  cases code : action.code with
  | rest =>
    rw [behave, code]
    exact trivial
  | grow next =>
    rw [behave, code]
    exact ⟨.record trivial, fun _ => ⟨.record trivial, fun _ => trivial⟩⟩
  | quit => rw [code] at grows; cases grows
  | fail => rw [code] at grows; cases grows

/-- What it adds grows, too. -/
theorem grows_of_granted {call : Call Code} (grows : call.action.code.Grows) :
    ∀ mutation ∈ call.granted setting, ∀ action ∈ mutation.actions, action.code.Grows := by
  intro mutation granted action added
  rw [Call.granted, Call.queue, Call.result, Call.ended] at granted
  cases code : call.action.code with
  | rest => simp [setting, behave, code, Invocation.perform, Program.run] at granted
  | grow next =>
    rw [code] at grows
    simp only [setting, behave, code, Invocation.perform, Program.run, Invocation.answer,
      Invocation.take, List.nil_append, List.mem_append, List.mem_singleton] at granted
    rcases granted with rfl | rfl
    · obtain rfl := List.mem_singleton.mp added
      exact grows
    · obtain rfl := List.mem_singleton.mp added
      exact grows
  | quit => rw [code] at grows; cases grows
  | fail => rw [code] at grows; cases grows

/-- A workflow with a disabled stage, and with a disabled action in the other
one. -/
def partly : Workflow Code :=
  { workflow .rest with
    stages := [{ stage .rest with id := "off" },
      { stage .rest with
        slots := [⟨⟨.bare "idle", .rest⟩, false⟩, ⟨⟨.bare "a", .grow .rest⟩, true⟩] }],
    enabled := ((∅ : Table Bool).insert "s" true).insert "off" false }

theorem blind_partly (steps : Nat) :
    ∀ call ∈ Run.calls setting steps partly world, (behave call.action).Blind := by
  intro call hcall
  have grows : ∀ call ∈ Run.calls setting steps partly world, call.action.code.Grows := by
    refine Run.forall_calls (fun action : Action Code => action.code.Grows)
      (fun _ _ => grows_of_granted) ?_
    simp [partly, stage, workflow, Stage.actions, Code.Grows]
  exact blind_of_grows (grows call hcall)

end Sample

/-- A run with something disabled, which grows. -/
theorem Run.disabled_as_absent_partly : ∃ result steps' result',
    run Sample.setting 5 Sample.partly Sample.world = some result ∧
      run Sample.setting steps' Sample.partly.withoutDisabled Sample.world = some result' ∧
      SameRun Sample.setting Sample.world Sample.partly Sample.partly.withoutDisabled 5 steps'
        result result' := by
  have live : StaysLive Sample.setting Sample.partly Sample.world :=
    staysLive_of_unset rfl rfl Sample.blind_partly
  obtain ⟨follow, -⟩ := disabled_as_absent Sample.setting Sample.partly Sample.world live
    Sample.blind_partly
  obtain ⟨steps', result', ends', same⟩ := follow 5 _ rfl
  exact ⟨_, steps', result', rfl, ends', same⟩

-- the added action stands third in its stage, and second if the disabled one is left out
example : Run.positions Sample.setting 5 Sample.partly Sample.world = [(1, 1), (1, 2), (2, 0)] ∧
    Run.positions Sample.setting 5 Sample.partly.withoutDisabled Sample.world =
      [(0, 0), (0, 1), (1, 0)] := by decide

end StagedWorkflow
