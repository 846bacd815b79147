import Mathlib.Data.Multiset.DershowitzManna
import Mathlib.Tactic.Convert
import StagedWorkflow.Proofs.Frame

/-!
# Runs whose actions descend

A run walks lists that its actions append to, so no distance to the end of a
list falls from step to step. What falls is the multiset of the ranks that
are still ahead, if actions are ranked and each call appends only actions
below its own (`Call.Descends`): a position that is left behind gives way to
finitely many lower ones. A pass takes away the rank of one action at every
step (`Pass.exists_run`). A run takes away a whole stage, and what the pass
over it has appended is below an action the stage had when it was entered
(`Run.exists_run`).
-/

namespace StagedWorkflow

variable {β σ ρ : Type}

namespace Loop

/-- **A loop ends whose steps descend.** The step is given as many steps of
its own as the loop is, and more of them never change what it comes to. -/
theorem exists_run (step : Nat → σ → Option (Step σ ρ)) (holds : σ → Prop)
    {below : σ → σ → Prop} (wellFounded : WellFounded below)
    (mono : ∀ m n s r, m ≤ n → step m s = some r → step n s = some r)
    (goes : ∀ s, holds s →
      ∃ n r, step n s = some r ∧ ∀ t, r = .again t → holds t ∧ below t s)
    {state : σ} (start : holds state) : ∃ n result, run (step n) n state = some result := by
  induction state using wellFounded.induction with
  | _ state ih =>
    obtain ⟨n, r, taken, descends⟩ := goes state start
    cases r with
    | finish result =>
      have taken' : step (n + 1) state = some (.finish result) :=
        mono n (n + 1) state _ (Nat.le_succ n) taken
      exact ⟨n + 1, result, by rw [run, taken']⟩
    | again next =>
      obtain ⟨kept, lower⟩ := descends next rfl
      obtain ⟨m, result, ends⟩ := ih next lower kept
      -- as many steps as both the first one and the others need
      refine ⟨max n m + 1, result, ?_⟩
      have taken' : step (max n m + 1) state = some (.again next) :=
        mono n _ state _ (by omega) taken
      rw [run, taken']
      exact run_mono (fun s r => mono m _ s r (by omega)) (Nat.le_max_right n m) ends

end Loop

/-- The actions that a mutation appends, by itself or with a stage. -/
def Mutation.actions : Mutation β → List (Action β)
  | addAction action => [action]
  | addStage stage => stage.actions
  | setActionEnabled _ _ | setStageEnabled _ _ => []

/-- **That a call appends only actions of a lower rank** than that of the
action that is called. -/
def Call.Descends (c : Setting β) (rank : Action β → Nat) (call : Call β) : Prop :=
  ∀ mutation ∈ call.granted c, ∀ action ∈ mutation.actions, rank action < rank call.action

variable {c : Setting β} {rank : Action β → Nat}

namespace Mutation

variable {queue : List (Mutation β)}

theorem exists_of_mem_actions {action : Action β} (added : action ∈ queue.filterMap action?) :
    ∃ mutation ∈ queue, action ∈ mutation.actions := by
  obtain ⟨mutation, hmutation, eq⟩ := List.mem_filterMap.mp added
  refine ⟨mutation, hmutation, ?_⟩
  cases mutation with
  | addAction own =>
    obtain rfl : own = action := Option.some.inj eq
    exact List.mem_singleton_self own
  | addStage | setActionEnabled | setStageEnabled => cases eq

theorem exists_of_mem_stages {stage : Stage β} (added : stage ∈ queue.filterMap stage?) :
    ∃ mutation ∈ queue, mutation.actions = stage.actions := by
  obtain ⟨mutation, hmutation, eq⟩ := List.mem_filterMap.mp added
  refine ⟨mutation, hmutation, ?_⟩
  cases mutation with
  | addStage own =>
    obtain rfl : own = stage := Option.some.inj eq
    rfl
  | addAction | setActionEnabled | setStageEnabled => cases eq

end Mutation

/-- A queue that is applied brings no actions into the workflow but its own. -/
theorem Site.forall_actions_applyAll {workflow : Workflow β} {index : Nat}
    {queue : List (Mutation β)} {holds : Action β → Prop}
    (inside : queue = [] ∨ index < workflow.size)
    (old : ∀ stage ∈ workflow.stages, ∀ action ∈ stage.actions, holds action)
    (new : ∀ mutation ∈ queue, ∀ action ∈ mutation.actions, holds action) :
    ∀ stage ∈ ((⟨workflow, .member index⟩ : Site β).applyAll queue).2.workflow.stages,
      ∀ action ∈ stage.actions, holds action := by
  intro stage hstage
  obtain ⟨k, at_k⟩ := List.mem_iff_getElem?.mp hstage
  rw [getElem?_stages_member inside] at at_k
  obtain ⟨put, found, rfl⟩ := Option.map_eq_some_iff.mp at_k
  -- the stage as it was put into the list
  have sort : ∀ action ∈ put.actions, holds action := by
    rcases List.mem_append.mp (List.mem_of_getElem? found) with member | added
    · exact old put member
    · obtain ⟨mutation, hmutation, actions_eq⟩ := Mutation.exists_of_mem_stages added
      exact actions_eq ▸ new mutation hmutation
  intro action haction
  split at haction
  · rw [Stage.actions_amendAll] at haction
    rcases List.mem_append.mp haction with first | added
    · exact sort action first
    · obtain ⟨mutation, hmutation, mem⟩ := Mutation.exists_of_mem_actions added
      exact new mutation hmutation action mem
  · exact sort action haction

namespace Pass

variable {place : Place} {stageId : String} {p : Pass β} {steps : Nat}

/-- The calls of a pass go on after its first step. -/
theorem calls_succ {t : Pass β} (taken : p.step c = .again t) :
    p.calls c (steps + 1) = (p.call? c).toList ++ t.calls c steps := by
  rw [calls, calls, trail, trail, Loop.trail, taken]
  cases called : p.call? c <;> simp [called]

/-- **What is appended is of the same sort as what is called**, if that is so
of each call: then every action that is called is of the sort of those the
stage had. -/
theorem forall_calls (holds : Action β → Prop)
    (closed : ∀ call ∈ p.calls c steps, holds call.action →
      ∀ mutation ∈ call.granted c, ∀ action ∈ mutation.actions, holds action)
    (start : ∀ stage, p.site.stage? = some stage → ∀ action ∈ stage.actions, holds action) :
    ∀ call ∈ p.calls c steps, holds call.action := by
  -- at every call, the stage has only actions of the sort
  have sorted : ∀ call ∈ p.calls c steps, ∀ stage, call.site.stage? = some stage →
      ∀ action ∈ stage.actions, holds action := by
    refine forall_mem_calls (fun site _ => ∀ stage, site.stage? = some stage →
      ∀ action ∈ stage.actions, holds action) start fun call hcall sort stage there => ?_
    obtain ⟨here, own⟩ := sees_of_mem_calls hcall
    obtain rfl := Option.some.inj ((Site.stage?_applyAll here).symm.trans there)
    intro action haction
    rw [Stage.actions_amendAll] at haction
    rcases List.mem_append.mp haction with old | new
    · exact sort call.stage here action old
    · obtain ⟨mutation, hmutation, mem⟩ := Mutation.exists_of_mem_actions new
      exact closed call hcall (sort call.stage here call.action own) mutation hmutation action mem
  intro call hcall
  obtain ⟨here, own⟩ := sees_of_mem_calls hcall
  exact sorted call hcall call.stage here call.action own

/-- The ranks of the actions that are still ahead in the stage. -/
def ahead (rank : Action β → Nat) (p : Pass β) : Multiset Nat :=
  match p.site.stage? with
  | none => 0
  | some stage => ((stage.actions.drop p.index).map rank : List Nat)

theorem ahead_of_stage? {stage : Stage β} (here : p.site.stage? = some stage) :
    p.ahead rank = ((stage.actions.drop p.index).map rank : List Nat) := by
  rw [ahead, here]

/-- **Every step of a pass trades the rank of an action for lower ones.** -/
theorem ahead_lt {stage : Stage β} (here : p.site.stage? = some stage) {t : Pass β}
    (taken : p.step c = .again t)
    (descends : ∀ call, p.call? c = some call → call.Descends c rank) :
    (t.ahead rank).IsDershowitzMannaLT (p.ahead rank) := by
  have turn : Turn c p stage (.again t) := taken ▸ Pass.turn here
  have drop_eq {slot : Slot β} (found : stage.slots[p.index]? = some slot) :
      stage.actions.drop p.index = slot.action :: stage.actions.drop (p.index + 1) := by
    have at_index : stage.actions[p.index]? = some slot.action := by
      simp [Stage.actions, found]
    obtain ⟨lt, eq⟩ := List.getElem?_eq_some_iff.mp at_index
    rw [List.drop_eq_getElem_cons lt, eq]
  cases turn with
  | @skipped slot found live off call =>
    refine ⟨((stage.actions.drop (p.index + 1)).map rank : List Nat), 0, {rank slot.action},
      Multiset.singleton_ne_zero _, ?_, ?_, by simp⟩
    · rw [add_zero]
      exact ahead_of_stage? here
    · rw [ahead_of_stage? here, drop_eq found, List.map_cons, ← Multiset.cons_coe,
        ← Multiset.singleton_add, add_comm]
  | @succeeded slot found live on call ok =>
    have there : (p.site.applyAll ((p.calling c stage slot.action).queue c)).2.stage? =
        some (stage.amendAll ((p.calling c stage slot.action).queue c)) :=
      Site.stage?_applyAll here
    -- the actions appended here, which are those the call adds
    generalize added_eq : ((p.calling c stage slot.action).queue c).filterMap Mutation.action? =
      added
    have lower : ∀ action ∈ added, rank action < rank slot.action := by
      intro action haction
      have own : action ∈ (p.calling c stage slot.action).actionsAdded c := by
        rw [Call.actionsAdded, Call.granted_of_ok ok, added_eq]
        exact haction
      obtain ⟨mutation, hmutation, mem⟩ := Mutation.exists_of_mem_actions own
      exact descends _ call mutation hmutation action mem
    have inside : p.index + 1 ≤ stage.actions.length := by
      rw [Stage.length_actions]
      exact (List.getElem?_eq_some_iff.mp found).1
    refine ⟨((stage.actions.drop (p.index + 1)).map rank : List Nat),
      (added.map rank : List Nat), {rank slot.action}, Multiset.singleton_ne_zero _, ?_, ?_, ?_⟩
    · rw [ahead_of_stage? there, Stage.actions_amendAll, added_eq,
        List.drop_append_of_le_length inside, List.map_append, Multiset.coe_add]
    · rw [ahead_of_stage? here, drop_eq found, List.map_cons, ← Multiset.cons_coe,
        ← Multiset.singleton_add, add_comm]
    · intro y hy
      obtain ⟨action, haction, rfl⟩ := List.mem_map.mp (Multiset.mem_coe.mp hy)
      exact ⟨rank slot.action, Multiset.mem_singleton_self _, lower action haction⟩

/-- **A pass ends whose calls descend.** -/
theorem exists_run_of_descends (seated : p.Seated place stageId)
    (descends : ∀ steps, ∀ call ∈ p.calls c steps, call.Descends c rank) :
    ∃ steps result, Loop.run (fun p => some (p.step c)) steps p = some result := by
  have wellFounded : WellFounded fun t s : Pass β =>
      (t.ahead rank).IsDershowitzMannaLT (s.ahead rank) :=
    InvImage.wf _ Multiset.wellFounded_isDershowitzMannaLT
  refine Loop.exists_run (fun _ p => some (p.step c))
    (fun q => q.Seated place stageId ∧ ∀ steps, ∀ call ∈ q.calls c steps, call.Descends c rank)
    wellFounded (fun _ _ _ _ _ => id) (fun q ⟨under, lower⟩ => ?_) ⟨seated, descends⟩
  refine ⟨0, q.step c, rfl, fun t taken => ⟨⟨under.again taken, fun steps call hcall => ?_⟩, ?_⟩⟩
  · refine lower (steps + 1) call ?_
    rw [calls_succ taken]
    exact List.mem_append_right _ hcall
  · obtain ⟨stage, here, -, -⟩ := under.standing
    refine ahead_lt here taken fun call called => lower 1 call ?_
    rw [calls_succ taken, called]
    exact List.mem_cons_self

variable (rank) in
/-- A stage is executed to an end, if the calls descend. -/
theorem exists_run {site : Site β} {stage : Stage β} {world : World}
    (here : site.stage? = some stage)
    (descends : ∀ pass, entered? c site stage world = some pass →
      ∀ steps, ∀ call ∈ pass.calls c steps, call.Descends c rank) :
    ∃ steps result, run c steps site stage world = some result := by
  rcases begins : start c site stage world with pass | result
  · have entry : entered? c site stage world = some pass := by rw [entered?, begins]
    obtain ⟨-, pass_eq⟩ := entered?_eq_some_iff.mp entry
    have seated : pass.Seated site.place stage.id := pass_eq ▸ seated_enter here
    obtain ⟨steps, result, ends⟩ := exists_run_of_descends seated (descends pass entry)
    exact ⟨steps, result, by rw [run, begins]; exact ends⟩
  · exact ⟨0, result, by rw [run, begins]⟩

end Pass

namespace Run

variable {r : Run β} {steps : Nat}

/-- The actions that are called from some state of a run on. -/
def callsFrom (c : Setting β) (steps : Nat) (r : Run β) : List (Call β) :=
  (Loop.trail (step c steps) steps r).flatMap (callsHere c steps)

theorem callsHere_subset {more : Nat} (le : steps ≤ more) :
    r.callsHere c steps ⊆ r.callsHere c more := by
  rw [callsHere, callsHere]
  cases r.entered? c with
  | none => exact List.nil_subset _
  | some pass => exact List.filterMap_subset _ (Loop.trail_subset (fun _ _ => id) le)

/-- The calls of a run go on after its first step. -/
theorem callsFrom_subset_of_again {n : Nat} {t : Run β} (taken : r.step c n = some (.again t)) :
    t.callsFrom c steps ⊆ r.callsFrom c (max n steps + 1) := by
  intro call hcall
  obtain ⟨s, hs, hcall⟩ := List.mem_flatMap.mp hcall
  refine List.mem_flatMap.mpr ⟨s, ?_, callsHere_subset (by omega) hcall⟩
  rw [Loop.trail, step_mono (by omega) taken]
  refine List.mem_cons_of_mem _ (Loop.trail_subset ?_ (Nat.le_max_right n steps) hs)
  exact fun _ _ => step_mono (by omega)

theorem callsHere_subset_callsFrom :
    r.callsHere c steps ⊆ r.callsFrom c (steps + 1) := by
  intro call hcall
  refine List.mem_flatMap.mpr ⟨r, List.mem_cons_self, ?_⟩
  exact callsHere_subset (Nat.le_succ steps) hcall

/-- What a stage weighs: its own end, and the ranks of its actions. -/
def weight (rank : Action β → Nat) (stage : Stage β) : List Nat :=
  -- the end is below every action, so that an empty stage counts as well
  0 :: stage.actions.map fun action => rank action + 1

/-- What is still ahead in the stage list. -/
def ahead (rank : Action β → Nat) (r : Run β) : Multiset Nat :=
  ((r.workflow.stages.drop r.index).flatMap (weight rank) : List Nat)

/-- Every action that is called in a stage is no higher than one that the
stage had. -/
theorem exists_le_of_mem_callsHere {stage : Stage β}
    (found : r.workflow.stages[r.index]? = some stage)
    (descends : ∀ call ∈ r.callsHere c steps, call.Descends c rank) :
    ∀ call ∈ r.callsHere c steps, ∃ own ∈ stage.actions, rank call.action ≤ rank own := by
  cases entry : r.entered? c with
  | none => simp [callsHere_of_entered?_eq_none entry]
  | some pass =>
    have calls_eq : r.callsHere c steps = pass.calls c steps := by rw [callsHere, entry]
    rw [calls_eq] at descends ⊢
    obtain ⟨stage', found', -, -, begins⟩ := entered?_eq_some entry
    obtain rfl : stage = stage' := Option.some.inj (found.symm.trans found')
    obtain ⟨-, pass_eq⟩ := Pass.entered?_eq_some_iff.mp begins
    have here : pass.site.stage? = some stage := by
      rw [pass_eq]
      exact found
    refine Pass.forall_calls (fun action => ∃ own ∈ stage.actions, rank action ≤ rank own)
      (fun call hcall bounded mutation hmutation action mem => ?_)
      (fun stage' here' action haction => ?_)
    · obtain ⟨own, hown, le⟩ := bounded
      have lower := descends call hcall mutation hmutation action mem
      exact ⟨own, hown, by omega⟩
    · obtain rfl := Option.some.inj (here.symm.trans here')
      exact ⟨action, haction, Nat.le_refl _⟩

/-- **Every step of a run trades a stage for lower ones.** -/
theorem ahead_lt {t : Run β} (taken : r.step c steps = some (.again t))
    (descends : ∀ call ∈ r.callsHere c steps, call.Descends c rank) :
    (t.ahead rank).IsDershowitzMannaLT (r.ahead rank) := by
  obtain ⟨lt, -, -⟩ := again taken
  obtain ⟨stage, found⟩ : ∃ stage, r.workflow.stages[r.index]? = some stage :=
    ⟨_, List.getElem?_eq_getElem lt⟩
  have drop_eq : r.workflow.stages.drop r.index =
      stage :: r.workflow.stages.drop (r.index + 1) := by
    obtain ⟨lt', eq⟩ := List.getElem?_eq_some_iff.mp found
    rw [List.drop_eq_getElem_cons lt', eq]
  refine ⟨((r.workflow.stages.drop (r.index + 1)).flatMap (weight rank) : List Nat),
    (((r.granted c steps).filterMap Mutation.stage?).flatMap (weight rank) : List Nat),
    (weight rank stage : List Nat), by simp [weight], ?_, ?_, ?_⟩
  · rw [ahead, drop_stages_again taken, List.flatMap_append, Multiset.coe_add]
  · rw [ahead, drop_eq, List.flatMap_cons, ← Multiset.coe_add, add_comm]
  · intro y hy
    obtain ⟨added, hadded, hy⟩ := List.mem_flatMap.mp (Multiset.mem_coe.mp hy)
    rw [granted, List.filterMap_flatMap] at hadded
    obtain ⟨call, hcall, hadded⟩ := List.mem_flatMap.mp hadded
    obtain ⟨mutation, hmutation, actions_eq⟩ := Mutation.exists_of_mem_stages hadded
    obtain ⟨own, hown, le⟩ := exists_le_of_mem_callsHere found descends call hcall
    refine ⟨rank own + 1, List.mem_cons_of_mem _ (List.mem_map_of_mem hown), ?_⟩
    rcases List.mem_cons.mp hy with rfl | hy
    · exact Nat.succ_pos _
    · obtain ⟨action, haction, rfl⟩ := List.mem_map.mp hy
      have lower := descends call hcall mutation hmutation action (actions_eq ▸ haction)
      omega

/-- **Every action that a run calls is of the sort of those the workflow
had**, if each call appends only actions of its own sort. -/
theorem forall_calls {workflow : Workflow β} {world : World} (holds : Action β → Prop)
    (closed : ∀ call ∈ calls c steps workflow world, holds call.action →
      ∀ mutation ∈ call.granted c, ∀ action ∈ mutation.actions, holds action)
    (start : ∀ stage ∈ workflow.stages, ∀ action ∈ stage.actions, holds action) :
    ∀ call ∈ calls c steps workflow world, holds call.action := by
  have own : ∀ call ∈ calls c steps workflow world,
      (∀ stage ∈ call.site.workflow.stages, ∀ action ∈ stage.actions, holds action) →
      holds call.action := by
    intro call hcall sort
    obtain ⟨r, -, here⟩ := List.mem_flatMap.mp hcall
    obtain ⟨found, mem⟩ := sees_of_mem_callsHere here
    exact sort call.stage (List.mem_of_getElem? found) call.action mem
  -- at every call, the workflow has only actions of the sort
  have carries : Carries c steps (trail c steps workflow world) fun _ workflow _ =>
      ∀ stage ∈ workflow.stages, ∀ action ∈ stage.actions, holds action := by
    refine ⟨fun _ _ _ _ => id, fun _ _ _ _ _ _ => id, fun _ call hcall sort => ?_⟩
    obtain ⟨r, -, here⟩ := List.mem_flatMap.mp hcall
    have inside : r.index < call.site.workflow.size :=
      (List.getElem?_eq_some_iff.mp (sees_of_mem_callsHere here).1).1
    show ∀ stage ∈ (call.site.applyAll (call.granted c)).2.workflow.stages, _
    rw [Site.eq_of_place (place_of_mem_callsHere here)]
    exact Site.forall_actions_applyAll (.inr inside) sort (closed call hcall (own call hcall sort))
  exact fun call hcall => own call hcall (carries.of_mem_calls start hcall)

/-- A run takes the next position in as many steps as it needs, if its
calls descend. -/
theorem exists_step (descends : ∀ steps, ∀ call ∈ r.callsHere c steps, call.Descends c rank) :
    ∃ steps s, r.step c steps = some s := by
  cases found : r.workflow.stages[r.index]? with
  | none => exact ⟨0, _, by rw [step, found]⟩
  | some stage =>
    rcases check : r.world.check c.token with ⟨status, world⟩
    cases status with
    | error reason => exact ⟨0, _, by simp [step, found, check]; rfl⟩
    | ok =>
      cases on : r.workflow.isStageEnabled stage.id with
      | false => exact ⟨0, _, by simp [step, found, check, on]; rfl⟩
      | true =>
        have here : (⟨r.workflow, .member r.index⟩ : Site β).stage? = some stage := found
        have passes : ∃ steps result,
            Pass.run c steps ⟨r.workflow, .member r.index⟩ stage world = some result := by
          refine Pass.exists_run rank here fun pass entry steps call hcall => descends steps call ?_
          have entry' : r.entered? c = some pass := by
            simpa [entered?, found, check, on] using entry
          rw [callsHere, entry']
          exact hcall
        obtain ⟨steps, result, ends⟩ := passes
        exact ⟨steps, _, by simp [step, found, check, on, ends]; rfl⟩

/-- **A run ends whose calls descend.** -/
theorem exists_run {workflow : Workflow β} {world : World}
    (descends : ∀ steps, ∀ call ∈ calls c steps workflow world, call.Descends c rank) :
    ∃ steps result, run c steps workflow world = some result := by
  have wellFounded : WellFounded fun t s : Run β =>
      (t.ahead rank).IsDershowitzMannaLT (s.ahead rank) :=
    InvImage.wf _ Multiset.wellFounded_isDershowitzMannaLT
  refine Loop.exists_run (step c)
    (fun r => ∀ steps, ∀ call ∈ r.callsFrom c steps, call.Descends c rank)
    wellFounded (fun m n r s => step_mono) (fun r lower => ?_) descends
  have here (steps : Nat) : ∀ call ∈ r.callsHere c steps, call.Descends c rank :=
    fun call hcall => lower (steps + 1) call (callsHere_subset_callsFrom hcall)
  obtain ⟨n, s, taken⟩ := exists_step here
  refine ⟨n, s, taken, ?_⟩
  rintro t rfl
  refine ⟨fun steps call hcall => ?_, ahead_lt taken (here n)⟩
  exact lower (max n steps + 1) call (callsFrom_subset_of_again taken hcall)

end Run

end StagedWorkflow
