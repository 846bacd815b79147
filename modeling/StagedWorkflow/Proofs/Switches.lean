import Mathlib.Data.List.Induction
import Mathlib.Data.List.Infix
import StagedWorkflow.Proofs.Delivery

/-!
# Where switches stand after a queue

Of the mutations that name an id the last one counts. For an action, only
those do that come when its slot is there: the slots of a stage after a
queue are the old ones, each as the whole queue leaves it, and then the
added ones, each as the rest of the queue leaves it (`Stage.slots_amendAll`).
For the stages of an id all of them do, and adding a stage says nothing
against them (`Mutation.foldl_switch`). A mutation that names an id which
nothing has by then is warned of (`Site.warnings_applyAll`).

`Site.settles_queue` puts this together with what a queue makes of the lists.
-/

namespace StagedWorkflow

variable {β : Type}

/-- What the members of a list give, each seen with those before it. -/
def inTurn {γ δ : Type} (f : List γ → γ → Option δ) (l : List γ) : List δ :=
  l.zipIdx.filterMap fun (a, k) => f (l.take k) a

@[simp] theorem inTurn_nil {γ δ : Type} {f : List γ → γ → Option δ} : inTurn f [] = [] := rfl

/-- One more member gives what it does after all others. -/
theorem inTurn_concat {γ δ : Type} {f : List γ → γ → Option δ} {l : List γ} {a : γ} :
    inTurn f (l ++ [a]) = inTurn f l ++ (f l a).toList := by
  have before : l.zipIdx.filterMap (fun (b, k) => f ((l ++ [a]).take k) b) = inTurn f l := by
    refine List.filterMap_congr fun (b, k) mem => ?_
    obtain ⟨-, lt, -⟩ := List.mem_zipIdx mem
    dsimp only
    rw [List.take_append_of_le_length (by omega)]
  rw [inTurn, List.zipIdx_append, List.filterMap_append, before]
  cases given : f l a <;> simp [given]

namespace Mutation

/-- The flag that a mutation gives the actions of an id. -/
def actionSwitch? (id : String) : Mutation β → Option Bool
  | setActionEnabled own enabled => if own = id then some enabled else none
  | addAction _ | addStage _ | setStageEnabled _ _ => none

/-- The flag that a mutation gives the stages of an id. -/
def stageSwitch? (id : String) : Mutation β → Option Bool
  | setStageEnabled own enabled => if own = id then some enabled else none
  | addAction _ | addStage _ | setActionEnabled _ _ => none

end Mutation

/-- A slot as a queue leaves it that comes when it is there: the last
mutation counts that names its action. -/
def Slot.settle (queue : List (Mutation β)) (slot : Slot β) : Slot β :=
  { slot with
    enabled :=
      (queue.reverse.findSome? (Mutation.actionSwitch? slot.action.id)).getD slot.enabled }

/-- The slot that the first mutation of a queue appends, as the rest of the
queue leaves it. -/
def Slot.first? : List (Mutation β) → Option (Slot β)
  | .addAction action :: later => some (settle later ⟨action, true⟩)
  | _ => none

/-- A stage as a queue leaves it that is applied to it. -/
def Stage.settle (queue : List (Mutation β)) (s : Stage β) : Stage β :=
  { s with slots := s.slots.map (Slot.settle queue) ++ queue.tails.filterMap Slot.first? }

/-- The record of an id as a queue leaves it: the last mutation counts that
switches it. Else a record stays, and a stage that is added makes one. -/
def Mutation.settle (queue : List (Mutation β)) (id : String) (on : Option Bool) : Option Bool :=
  (queue.reverse.findSome? (stageSwitch? id)).or
    (on.or (if id ∈ (queue.filterMap stage?).map Stage.id then some true else none))

/-- The warning that a mutation gives rise to that comes after others of its
queue: it is about an id that neither was there nor has been added. -/
def Mutation.warning? (stage : Stage β) (stages : List (Stage β))
    (earlier : List (Mutation β)) : Mutation β → Option Notice
  | setActionEnabled id enabled =>
    if id ∈ (stage.actions ++ earlier.filterMap action?).map Action.id then none
    else some (.actionUnknown enabled id stage.id)
  | setStageEnabled id enabled =>
    if id ∈ (stages ++ earlier.filterMap stage?).map Stage.id then none
    else some (.stageUnknown enabled id)
  | addAction _ | addStage _ => none

section

variable {queue : List (Mutation β)} {mutation : Mutation β}

/-! ## The slots of the stage -/

/-- The first mutation of a queue comes before all that count more. -/
theorem Slot.settle_cons {slot : Slot β} :
    settle (mutation :: queue) slot =
      settle queue
        { slot with enabled := (mutation.actionSwitch? slot.action.id).getD slot.enabled } := by
  simp only [settle, List.reverse_cons, List.findSome?_append, List.findSome?_singleton]
  cases queue.reverse.findSome? (Mutation.actionSwitch? slot.action.id) <;> simp

/-- A mutation that switches no action leaves slots to those after it. -/
theorem Slot.settle_cons_of_none (silent : ∀ id, mutation.actionSwitch? id = none) :
    settle (mutation :: queue) = settle queue := by
  funext slot
  simp [settle_cons, silent]

/-- **The slots of a stage after a queue**: each is switched by what comes
when it is there. -/
theorem Stage.slots_amendAll {s : Stage β} :
    (s.amendAll queue).slots =
      s.slots.map (Slot.settle queue) ++ queue.tails.filterMap Slot.first? := by
  unfold amendAll
  induction queue generalizing s with
  | nil =>
    have same : Slot.settle ([] : List (Mutation β)) = fun slot => slot := rfl
    simp [same, List.tails, Slot.first?]
  | cons mutation rest ih =>
    rw [List.foldl_cons, ih, List.tails_cons, List.filterMap_cons]
    cases mutation with
    | addAction action =>
      have silent id : (.addAction action : Mutation β).actionSwitch? id = none := rfl
      rw [Slot.settle_cons_of_none silent]
      simp [amend, Slot.first?]
    | addStage stage =>
      have silent id : (.addStage stage : Mutation β).actionSwitch? id = none := rfl
      rw [Slot.settle_cons_of_none silent]
      rfl
    | setStageEnabled id enabled =>
      have silent own : (.setStageEnabled id enabled : Mutation β).actionSwitch? own = none := rfl
      rw [Slot.settle_cons_of_none silent]
      rfl
    | setActionEnabled id enabled =>
      simp only [amend, setActionEnabled, Slot.first?, List.map_map]
      congr 1
      refine List.map_congr_left fun slot _ => ?_
      rw [Slot.settle_cons, Function.comp_apply, Mutation.actionSwitch?]
      by_cases own : slot.action.id = id
      · simp [own]
      · simp [own, Ne.symm own]

theorem Stage.amendAll_eq_settle {s : Stage β} : s.amendAll queue = s.settle queue := by
  rw [amendAll_eq, slots_amendAll]
  rfl

/-! ## The records of ids -/

/-- **The record of an id after a queue**: wherever a stage of the id is
added, what switches the id counts. -/
theorem Mutation.foldl_switch {id : String} {on : Option Bool} :
    queue.foldl (switch id) on = settle queue id on := by
  unfold settle
  induction queue generalizing on with
  | nil => simp
  | cons mutation rest ih =>
    rw [List.foldl_cons, ih, List.reverse_cons, List.findSome?_append, List.findSome?_singleton,
      filterMap_stage?_cons]
    cases mutation with
    | addAction action =>
      simp only [stageSwitch?, Option.or_none]
      rfl
    | setActionEnabled own enabled =>
      simp only [stageSwitch?, Option.or_none]
      rfl
    | setStageEnabled own enabled =>
      by_cases same : id = own
      · simp [switch, stageSwitch?, same]
      · simp only [switch, stageSwitch?, same, Ne.symm same, if_false, Option.or_none]
        rfl
    | addStage stage =>
      by_cases same : id = stage.id
      · subst same
        cases on <;> simp [switch, stageSwitch?, stage?]
      · by_cases later : id ∈ (rest.filterMap stage?).map Stage.id <;>
          simp [switch, stageSwitch?, stage?, same, later]

/-! ## The warnings -/

variable {s : Site β} {stage : Stage β}

theorem Workflow.isSome_stage?_iff {w : Workflow β} {id : String} :
    (w.stage? id).isSome ↔ id ∈ w.stages.map Stage.id := by
  simp [Workflow.stage?]

/-- A mutation is warned of as what comes when all others of the queue are
applied. -/
theorem Site.warnings_notices (here : s.stage? = some stage) :
    ((s.applyAll queue).2.notices mutation).filter (·.level = .warn) =
      (mutation.warning? stage s.workflow.stages queue).toList := by
  have there : (s.applyAll queue).2.stage? = some (stage.amendAll queue) := stage?_applyAll here
  cases mutation with
  | addAction action => simp [notices, there, Notice.level, Mutation.warning?]
  | addStage added => simp [notices, Notice.level, Mutation.warning?]
  | setActionEnabled id enabled =>
    have known : ((stage.amendAll queue).setActionEnabled id enabled).1 ↔
        id ∈ (stage.actions ++ queue.filterMap Mutation.action?).map Action.id := by
      rw [← Stage.actions_amendAll]
      simp [Stage.setActionEnabled, Stage.actions]
    simp only [notices, there, known, Mutation.warning?, Stage.id_amendAll]
    split <;> simp [Notice.level]
  | setStageEnabled id enabled =>
    have known : ((s.applyAll queue).2.workflow.stage? id).isSome ↔
        id ∈ (s.workflow.stages ++ queue.filterMap Mutation.stage?).map Stage.id := by
      rw [Workflow.isSome_stage?_iff, map_stages_applyAll fun _ _ => rfl]
    simp only [notices, known, Mutation.warning?]
    split <;> simp [Notice.level]

/-- **What is warned of**: each mutation that names an id which nothing has
when it comes, and nothing else. -/
theorem Site.warnings_applyAll (here : s.stage? = some stage) :
    (s.applyAll queue).1.filter (·.level = .warn) =
      inTurn (Mutation.warning? stage s.workflow.stages) queue := by
  induction queue using List.reverseRecOn with
  | nil => rfl
  | append_singleton queue mutation ih =>
    rw [applyAll_append, List.filter_append, ih, inTurn_concat, ← warnings_notices here]
    simp [applyAll]

end

/-! ## The law -/

/-- **What a queue makes of a site.** -/
structure Site.Settles (s : Site β) (stage : Stage β) (queue : List (Mutation β)) : Prop where
  place : (s.applyAll queue).2.place = s.place
  /-- Each slot of the stage that is executed is switched by what comes when
  it is there. -/
  executed : (s.applyAll queue).2.stage? = some (stage.settle queue)
  /-- Its actions are the old ones and then the added ones. -/
  actions : (stage.settle queue).actions = stage.actions ++ queue.filterMap Mutation.action?
  /-- The stage list is the old one and then the added ones, and but for the
  stage that is executed each is the same, with its slots. -/
  stages : ∀ k, (s.applyAll queue).2.workflow.stages[k]? =
    if s.place = .member k then some (stage.settle queue)
    else (s.workflow.stages ++ queue.filterMap Mutation.stage?)[k]?
  enabled : ∀ id, (s.applyAll queue).2.workflow.enabled.get? id =
    Mutation.settle queue id (s.workflow.enabled.get? id)
  /-- The rest of the workflow is the same. -/
  rest : (s.applyAll queue).2.workflow =
    { s.workflow with
      stages := (s.applyAll queue).2.workflow.stages,
      enabled := (s.applyAll queue).2.workflow.enabled }
  warnings : (s.applyAll queue).1.filter (·.level = .warn) =
    inTurn (Mutation.warning? stage s.workflow.stages) queue

/-- **A queue in closed form**: what it makes of the stage that is executed,
of the workflow around it and of the records, and what it warns of. -/
theorem Site.settles_queue {s : Site β} {stage : Stage β} (here : s.stage? = some stage)
    (queue : List (Mutation β)) : s.Settles stage queue where
  place := place_applyAll
  executed := by rw [stage?_applyAll here, Stage.amendAll_eq_settle]
  actions := by rw [← Stage.amendAll_eq_settle, Stage.actions_amendAll]
  stages k := by
    split
    · next at_k =>
      have there : (s.applyAll queue).2.stage? = some (stage.amendAll queue) :=
        stage?_applyAll here
      rwa [stage?_of_place (place_applyAll.trans at_k), Stage.amendAll_eq_settle] at there
    · next other => exact getElem?_stages_applyAll other
  enabled id := by rw [get?_enabled_applyAll, Mutation.foldl_switch]
  rest := workflow_applyAll
  warnings := warnings_applyAll here

/-- Mutations that name an action and a stage before they are added, and
after, and a stage that never is. -/
def Sample.mixed : List (Mutation Sample.Code) :=
  [.setActionEnabled "late" false, .setStageEnabled "t" false,
    .addAction ⟨.bare "late", .rest⟩, .addStage { Sample.stage .rest with id := "t" },
    .setActionEnabled "a" false, .addAction ⟨.bare "a", .rest⟩, .setActionEnabled "late" true,
    .addStage (Sample.stage .fail), .setStageEnabled "s" false, .setStageEnabled "u" true]

/-- For actions a switch that comes too early is lost, and for stages it
stands. -/
theorem Site.settles_queue_mixed :
    let site : Site Sample.Code := ⟨Sample.workflow .rest, .member 0⟩
    let stage := Sample.stage .rest
    site.stage? = some stage ∧ site.Settles stage Sample.mixed ∧
      (stage.settle Sample.mixed).slots.map (fun slot => (slot.action.id, slot.enabled)) =
        [("a", false), ("late", true), ("a", true)] ∧
      Mutation.settle Sample.mixed "t" none = some false ∧
      inTurn (Mutation.warning? stage [stage]) Sample.mixed =
        [.actionUnknown false "late" "s", .stageUnknown false "t", .stageUnknown true "u"] :=
  ⟨rfl, settles_queue rfl Sample.mixed, by decide, by decide, rfl⟩

end StagedWorkflow
