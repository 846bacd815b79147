import Mathlib.Data.List.Basic
import StagedWorkflow.Site

/-!
# What a queue of mutations changes

A mutation changes the stage that is executed, or it changes the workflow
around it, and this file says what each half comes to. To the stage it does
`Stage.amend`, wherever the stage stands (`Site.stage?_applyAll`): the
stage keeps all but its slots (`Stage.amendAll_eq`), and its actions are
those it had with the added ones after them (`Stage.actions_amendAll`). Of
the other stages of the workflow none is touched, and the added ones follow
them (`Site.getElem?_stages_applyAll`), with the initial data they bring
(`Site.initials_applyAll`). Whether an id is enabled is settled by the
mutations that name it (`Site.get?_enabled_applyAll`).
-/

namespace StagedWorkflow

variable {β : Type}

namespace Mutation

/-- The action that a mutation appends to the stage that is executed. -/
def action? : Mutation β → Option (Action β)
  | addAction action => some action
  | addStage _ | setActionEnabled _ _ | setStageEnabled _ _ => none

/-- The stage that a mutation appends to the workflow. -/
def stage? : Mutation β → Option (Stage β)
  | addStage stage => some stage
  | addAction _ | setActionEnabled _ _ | setStageEnabled _ _ => none

theorem filterMap_stage?_cons {mutation : Mutation β} {rest : List (Mutation β)} :
    (mutation :: rest).filterMap stage? = mutation.stage?.toList ++ rest.filterMap stage? := by
  cases h : mutation.stage? <;> simp [h]

/-- What a mutation makes of the record of an id. A stage that is added
starts enabled, unless its id has a record. -/
def switch (id : String) (on : Option Bool) : Mutation β → Option Bool
  | addStage stage => if id = stage.id then some (on.getD true) else on
  | setStageEnabled own enabled => if id = own then some enabled else on
  | addAction _ | setActionEnabled _ _ => on

end Mutation

namespace Stage

/-- What a mutation does to the stage that is executed. -/
def amend (s : Stage β) : Mutation β → Stage β
  | .addAction action => s.addAction action
  | .setActionEnabled id enabled => (s.setActionEnabled id enabled).2
  | .addStage _ | .setStageEnabled _ _ => s

/-- What a queue of mutations does to the stage that is executed. -/
def amendAll (s : Stage β) (queue : List (Mutation β)) : Stage β :=
  queue.foldl amend s

variable {s : Stage β} {queue : List (Mutation β)}

@[simp] theorem amendAll_nil : s.amendAll [] = s := rfl

/-- **A stage keeps all but its slots.** -/
theorem amendAll_eq : s.amendAll queue = { s with slots := (s.amendAll queue).slots } := by
  unfold amendAll
  induction queue generalizing s with
  | nil => rfl
  | cons mutation rest ih =>
    rw [List.foldl_cons, ih]
    cases mutation <;> rfl

theorem id_amendAll : (s.amendAll queue).id = s.id := by
  rw [amendAll_eq]

theorem actions_amend {mutation : Mutation β} :
    (s.amend mutation).actions = s.actions ++ mutation.action?.toList := by
  cases mutation with
  | addAction action => simp [amend, Mutation.action?, actions]
  | setActionEnabled id enabled => simp [amend, Mutation.action?]
  | addStage stage => simp [amend, Mutation.action?]
  | setStageEnabled id enabled => simp [amend, Mutation.action?]

/-- **Actions are appended in the order of the queue**, and none is lost. -/
theorem actions_amendAll :
    (s.amendAll queue).actions = s.actions ++ queue.filterMap Mutation.action? := by
  unfold amendAll
  induction queue generalizing s with
  | nil => simp
  | cons mutation rest ih =>
    rw [List.foldl_cons, ih, actions_amend, List.append_assoc]
    cases h : mutation.action? <;> simp [h]

theorem length_actions : s.actions.length = s.size := by
  simp [actions, size]

/-- A stage never shrinks. -/
theorem size_le_size_amendAll : s.size ≤ (s.amendAll queue).size := by
  rw [← length_actions, ← length_actions, actions_amendAll, List.length_append]
  omega

end Stage

/-- The stores of the initial data of a workflow's stages. -/
def Workflow.initials (w : Workflow β) : List StoreId :=
  w.stages.map Stage.initial

namespace Site

variable {s : Site β} {mutation : Mutation β} {queue : List (Mutation β)}

@[simp] theorem applyAll_cons :
    (s.applyAll (mutation :: queue)).2 = ((s.apply mutation).applyAll queue).2 := rfl

@[simp] theorem place_applyAll : (s.applyAll queue).2.place = s.place := by
  induction queue generalizing s with
  | nil => rfl
  | cons mutation rest ih => rw [applyAll_cons, ih, place_apply]

/-- The stage that is executed stays where it stands. A stage appended to
the workflow comes after it. -/
theorem stage?_apply {stage : Stage β} (here : s.stage? = some stage) :
    (s.apply mutation).stage? = some (stage.amend mutation) := by
  obtain ⟨workflow, seat⟩ := s
  cases mutation with
  | addAction action => simp [apply, here, Stage.amend]
  | setActionEnabled id enabled => simp [apply, here, Stage.amend]
  | setStageEnabled id enabled => cases seat <;> exact here
  | addStage added =>
    cases seat with
    | detached own => exact here
    | member index =>
      have lt : index < workflow.stages.length := (List.getElem?_eq_some_iff.mp here).1
      simpa [apply, modifyWorkflow, stage?, Stage.amend, List.getElem?_append_left lt] using here

theorem stage?_applyAll {stage : Stage β} (here : s.stage? = some stage) :
    (s.applyAll queue).2.stage? = some (stage.amendAll queue) := by
  induction queue generalizing s stage with
  | nil => simpa using here
  | cons mutation rest ih => exact ih (stage?_apply here)

theorem getElem?_stages_apply {k : Nat} (other : s.place ≠ .member k) :
    (s.apply mutation).workflow.stages[k]? = (s.workflow.stages ++ mutation.stage?.toList)[k]? := by
  obtain ⟨workflow, seat⟩ := s
  -- a change of the stage that is executed is a change of one position
  have modify (f : Stage β → Stage β) :
      ((⟨workflow, seat⟩ : Site β).modifyStage f).workflow.stages[k]? = workflow.stages[k]? := by
    cases seat with
    | detached own => rfl
    | member index =>
      have ne : index ≠ k := fun h => other (by rw [h]; rfl)
      simp [modifyStage, Workflow.modifyStageAt, ne]
  cases mutation with
  | addAction action => simpa [apply, Mutation.stage?] using modify _
  | setActionEnabled id enabled => simpa [apply, Mutation.stage?] using modify _
  | setStageEnabled id enabled =>
    simp [apply, modifyWorkflow, Workflow.setStageEnabled, Mutation.stage?]
  | addStage added => simp [apply, modifyWorkflow, Mutation.stage?]

theorem length_stages_apply :
    (s.apply mutation).workflow.stages.length =
      s.workflow.stages.length + mutation.stage?.toList.length := by
  obtain ⟨workflow, seat⟩ := s
  cases mutation <;> cases seat <;>
    simp [apply, modifyStage, modifyWorkflow, Workflow.modifyStageAt, Workflow.setStageEnabled,
      Mutation.stage?]

theorem length_stages_applyAll :
    (s.applyAll queue).2.workflow.stages.length =
      (s.workflow.stages ++ queue.filterMap Mutation.stage?).length := by
  induction queue generalizing s with
  | nil => simp
  | cons mutation rest ih =>
    rw [applyAll_cons, ih, List.length_append, length_stages_apply, List.length_append]
    cases h : mutation.stage? <;> simp [h]
    omega

/-- **Every stage but the one that is executed stays as it is**, and the
added ones follow in the order of the queue, each as it was recorded. -/
theorem getElem?_stages_applyAll {k : Nat} (other : s.place ≠ .member k) :
    (s.applyAll queue).2.workflow.stages[k]? =
      (s.workflow.stages ++ queue.filterMap Mutation.stage?)[k]? := by
  induction queue generalizing s with
  | nil => simp
  | cons mutation rest ih =>
    rw [applyAll_cons, ih (by rwa [place_apply])]
    rw [Mutation.filterMap_stage?_cons, ← List.append_assoc]
    -- the two lists agree on the old part at `k`, and have equally many stages before the new one
    have same : (s.apply mutation).workflow.stages.length =
        (s.workflow.stages ++ mutation.stage?.toList).length := by
      rw [length_stages_apply, List.length_append]
    rw [List.getElem?_append, List.getElem?_append, same, getElem?_stages_apply other]

theorem seat_of_place {index : Nat} (h : s.place = .member index) : s.seat = .member index := by
  obtain ⟨workflow, seat⟩ := s
  cases seat with
  | member own => rw [Place.member.inj h]
  | detached own => cases h

/-- A site at a position is the workflow with that position. -/
theorem eq_of_place {index : Nat} (h : s.place = .member index) :
    s = ⟨s.workflow, .member index⟩ := by
  rw [← seat_of_place h]

/-- A site that stands at a position executes the stage of that position. -/
theorem stage?_of_place {index : Nat} (h : s.place = .member index) :
    s.stage? = s.workflow.stages[index]? := by
  rw [eq_of_place h]
  rfl

/-- **What a queue makes of the stage list**: the added stages follow the
old ones, and only the one at the position that is executed is amended. -/
theorem getElem?_stages_member {workflow : Workflow β} {index : Nat}
    (inside : queue = [] ∨ index < workflow.size) (k : Nat) :
    ((⟨workflow, .member index⟩ : Site β).applyAll queue).2.workflow.stages[k]? =
      (workflow.stages ++ queue.filterMap Mutation.stage?)[k]?.map fun stage =>
        if k = index then stage.amendAll queue else stage := by
  rcases inside with rfl | lt
  · simp
  · by_cases eq : k = index
    · subst eq
      obtain ⟨stage, found⟩ : ∃ stage, workflow.stages[k]? = some stage :=
        ⟨_, List.getElem?_eq_getElem lt⟩
      have here : (⟨workflow, .member k⟩ : Site β).stage? = some stage := found
      have there : ((⟨workflow, .member k⟩ : Site β).applyAll queue).2.stage? =
          some (stage.amendAll queue) := stage?_applyAll here
      rw [stage?_of_place (place_applyAll.trans rfl)] at there
      rw [there, List.getElem?_append_left lt, found]
      simp
    · have other : (⟨workflow, .member index⟩ : Site β).place ≠ .member k :=
        fun h => eq (Place.member.inj h).symm
      rw [getElem?_stages_applyAll other]
      simp [eq]

/-- A stage that stands outside leaves the stages of the workflow alone. -/
theorem stages_detached {workflow : Workflow β} {stage : Stage β} :
    ((⟨workflow, .detached stage⟩ : Site β).applyAll queue).2.workflow.stages =
      workflow.stages ++ queue.filterMap Mutation.stage? :=
  List.ext_getElem? fun _ => getElem?_stages_applyAll nofun

/-- A stage that was last in the list is followed by the added ones. -/
theorem stages_last {workflow : Workflow β} {stage : Stage β} :
    ((⟨workflow.addStage stage, .member workflow.size⟩ : Site β).applyAll queue).2.workflow.stages =
      workflow.stages ++ stage.amendAll queue :: queue.filterMap Mutation.stage? := by
  have inside : workflow.size < (workflow.addStage stage).size := by simp [Workflow.size]
  refine List.ext_getElem? fun k => ?_
  rw [getElem?_stages_member (.inr inside), Workflow.stages_addStage, List.append_assoc,
    List.singleton_append]
  have size_eq : workflow.size = workflow.stages.length := rfl
  by_cases old : k < workflow.stages.length
  · have ne : k ≠ workflow.size := by omega
    rw [List.getElem?_append_left old, List.getElem?_append_left old]
    simp [ne]
  · have le : workflow.stages.length ≤ k := Nat.not_lt.mp old
    rw [List.getElem?_append_right le, List.getElem?_append_right le]
    -- what is past the old ones starts with the stage itself
    cases gap : k - workflow.stages.length with
    | zero =>
      have eq : k = workflow.size := by omega
      simp [eq]
    | succ n =>
      have ne : k ≠ workflow.size := by omega
      simp [ne]

/-- Nothing of a workflow but its stages and their switches is changed. -/
theorem workflow_applyAll :
    (s.applyAll queue).2.workflow =
      { s.workflow with
        stages := (s.applyAll queue).2.workflow.stages,
        enabled := (s.applyAll queue).2.workflow.enabled } := by
  induction queue generalizing s with
  | nil => rfl
  | cons mutation rest ih =>
    rw [applyAll_cons, ih]
    obtain ⟨workflow, seat⟩ := s
    cases mutation <;> cases seat <;> rfl

theorem id_applyAll : (s.applyAll queue).2.workflow.id = s.workflow.id := by
  rw [workflow_applyAll]

theorem store_applyAll : (s.applyAll queue).2.workflow.store = s.workflow.store := by
  rw [workflow_applyAll]

/-- **Whether an id is enabled** is settled by the mutations that name it,
one after another. -/
theorem get?_enabled_applyAll {id : String} :
    (s.applyAll queue).2.workflow.enabled.get? id =
      queue.foldl (Mutation.switch id) (s.workflow.enabled.get? id) := by
  induction queue generalizing s with
  | nil => rfl
  | cons mutation rest ih =>
    rw [applyAll_cons, ih, List.foldl_cons]
    congr 1
    obtain ⟨workflow, seat⟩ := s
    cases mutation with
    | addAction action => cases seat <;> rfl
    | setActionEnabled own enabled => cases seat <;> rfl
    | addStage stage => exact Workflow.get?_enabled_addStage
    | setStageEnabled own enabled => exact Table.get?_insert

/-- **What a mutation makes of the stage list**, for what is seen of a stage
through something that does not look at its slots. -/
theorem map_stages_apply {γ : Type} {f : Stage β → γ}
    (blind : ∀ stage slots, f { stage with slots } = f stage) :
    (s.apply mutation).workflow.stages.map f =
      (s.workflow.stages ++ mutation.stage?.toList).map f := by
  obtain ⟨workflow, seat⟩ := s
  -- a change of slots is not seen, whichever stage it is in
  have modify (change : Stage β → Stage β) (same : ∀ stage, f (change stage) = f stage) :
      ((⟨workflow, seat⟩ : Site β).modifyStage change).workflow.stages.map f =
        workflow.stages.map f := by
    cases seat with
    | detached own => rfl
    | member index =>
      refine List.ext_getElem? fun k => ?_
      simp only [modifyStage, Workflow.modifyStageAt, List.getElem?_map, List.getElem?_modify]
      cases workflow.stages[k]? with
      | none => rfl
      | some stage =>
        simp only [Option.map_eq_map, Option.map_some]
        split
        · rw [same]
        · rfl
  cases mutation with
  | addAction action =>
    have kept := modify (·.addAction action) fun _ => blind _ _
    simpa [apply, Mutation.stage?] using kept
  | setActionEnabled id enabled =>
    have kept := modify (fun stage => (stage.setActionEnabled id enabled).2) fun _ => blind _ _
    simpa [apply, Mutation.stage?] using kept
  | addStage stage => simp [apply, modifyWorkflow, Mutation.stage?]
  | setStageEnabled id enabled =>
    simp [apply, modifyWorkflow, Workflow.setStageEnabled, Mutation.stage?]

/-- **The added stages follow the old ones**, and all stay as they are but
for their slots. -/
theorem map_stages_applyAll {γ : Type} {f : Stage β → γ}
    (blind : ∀ stage slots, f { stage with slots } = f stage) :
    (s.applyAll queue).2.workflow.stages.map f =
      (s.workflow.stages ++ queue.filterMap Mutation.stage?).map f := by
  induction queue generalizing s with
  | nil => simp
  | cons mutation rest ih =>
    rw [applyAll_cons, ih, List.map_append, map_stages_apply blind, Mutation.filterMap_stage?_cons,
      ← List.map_append, List.append_assoc]

/-- **Stages keep their stores of initial data**, and the added ones bring
theirs. -/
theorem initials_applyAll :
    (s.applyAll queue).2.workflow.initials =
      s.workflow.initials ++ (queue.filterMap Mutation.stage?).map Stage.initial := by
  rw [Workflow.initials, map_stages_applyAll fun _ _ => rfl, List.map_append, Workflow.initials]

end Site

end StagedWorkflow
