import StagedWorkflow.Layer
import StagedWorkflow.Proofs.Deferral
import StagedWorkflow.Proofs.Delivery
import StagedWorkflow.Proofs.Standing

/-!
# Histories of a workflow

What becomes of a workflow that its owner changes and runs, as a list of
changes: stages that are added, ids that are switched, and ids that are all
enabled. A run brings the changes that its actions have recorded, those of
an action that fails left out (`Run.changes`). `Workflow.Evolves` is the
relation between a workflow, the changes and what it has become.

Every stage keeps its place in the list, and the record of an id is settled
by the changes one after another (`Workflow.Evolves.becomes`). That enabling
all ids is such a change too is because every stage has a record
(`Workflow.Recorded`). Runs through layers are histories as well, if what
the layers do themselves is (`Runner.evolves_executeWith`).
-/

namespace StagedWorkflow

variable {β : Type}

/-- A change of a workflow. -/
inductive Change (β : Type) where
  | added (stage : Stage β)
  | switched (id : String) (enabled : Bool)
  | allEnabled

namespace Change

/-- The stage that a change adds. -/
def stage? : Change β → Option (Stage β)
  | added stage => some stage
  | switched _ _ | allEnabled => none

/-- The id that a change names. -/
def id? : Change β → Option String
  | added stage => some stage.id
  | switched id _ => some id
  | allEnabled => none

/-- What a change makes of the record of an id. -/
def record (id : String) (on : Option Bool) : Change β → Option Bool
  | added stage => if id = stage.id then some (on.getD true) else on
  | switched own enabled => if id = own then some enabled else on
  | allEnabled => on.map fun _ => true

variable {id : String} {on : Option Bool} {change : Change β} {changes : List (Change β)}

/-- A change that names an id makes a record of it, and none takes one away. -/
theorem isSome_record : (record id on change).isSome ↔ on.isSome ∨ change.id? = some id := by
  cases change with
  | added stage =>
    by_cases same : id = stage.id
    · simp [record, id?, same]
    · simp [record, id?, same, Ne.symm same]
  | switched own enabled =>
    by_cases same : id = own
    · simp [record, id?, same]
    · simp [record, id?, same, Ne.symm same]
  | allEnabled => simp [record, id?]

/-- **An id has a record if it had one or has been named.** -/
theorem isSome_foldl_record :
    (changes.foldl (record id) on).isSome ↔ on.isSome ∨ some id ∈ changes.map id? := by
  induction changes generalizing on with
  | nil => simp
  | cons change rest ih =>
    rw [List.foldl_cons, ih, isSome_record, List.map_cons, List.mem_cons, or_assoc,
      @eq_comm _ (some id)]

end Change

/-- The change of the workflow that a mutation makes. -/
def Mutation.change? : Mutation β → Option (Change β)
  | addStage stage => some (.added stage)
  | setStageEnabled id enabled => some (.switched id enabled)
  | addAction _ | setActionEnabled _ _ => none

namespace Mutation

variable {queue : List (Mutation β)}

theorem filterMap_change?_stage? :
    (queue.filterMap change?).filterMap Change.stage? = queue.filterMap stage? := by
  rw [List.filterMap_filterMap]
  refine List.filterMap_congr fun mutation _ => ?_
  cases mutation <;> rfl

/-- A queue makes of the record of an id what its changes make of it. -/
theorem foldl_switch_eq {id : String} {on : Option Bool} :
    queue.foldl (switch id) on = (queue.filterMap change?).foldl (Change.record id) on := by
  induction queue generalizing on with
  | nil => rfl
  | cons mutation rest ih =>
    rw [List.foldl_cons, ih]
    cases mutation <;> rfl

end Mutation

/-- The changes that take effect of those that an action records. -/
def Call.changes (c : Setting β) (call : Call β) : List (Change β) :=
  (call.granted c).filterMap Mutation.change?

/-- The changes that a run makes, in the order of its calls. -/
def Run.changes (c : Setting β) (steps : Nat) (workflow : Workflow β) (world : World) :
    List (Change β) :=
  (calls c steps workflow world).flatMap (Call.changes c)

/-- The changes that the execution of one stage makes, in the order of its
calls. -/
def Runner.stageChanges (c : Setting β) (steps : Nat) (stage : Stage β) (workflow : Workflow β)
    (world : World) : List (Change β) :=
  (stageCalls c steps stage workflow world).flatMap (Call.changes c)

namespace Workflow

/-- **What a workflow becomes** by a list of changes, where runs can come
between. -/
inductive Evolves (w : Workflow β) : List (Change β) → Workflow β → Prop
  /-- Nothing has happened. -/
  | rest : Evolves w [] w
  /-- A stage is added. -/
  | addStage {changes : List (Change β)} {v : Workflow β} (stage : Stage β) :
      Evolves w changes v → Evolves w (changes ++ [.added stage]) (v.addStage stage)
  /-- The stages of an id are enabled or disabled. -/
  | setStageEnabled {changes : List (Change β)} {v : Workflow β} (id : String) (enabled : Bool) :
      Evolves w changes v →
      Evolves w (changes ++ [.switched id enabled]) (v.setStageEnabled id enabled)
  /-- All stages are enabled. -/
  | enableAllStages {changes : List (Change β)} {v : Workflow β} :
      Evolves w changes v → Evolves w (changes ++ [.allEnabled]) v.enableAllStages
  /-- The workflow is run, and the run ends somehow. -/
  | run {changes : List (Change β)} {v : Workflow β} {c : Setting β} {steps : Nat} {world : World}
      {result : Run.Result β} :
      Evolves w changes v → Run.run c steps v world = some result →
      Evolves w (changes ++ Run.changes c steps v world) result.workflow
  /-- A stage is executed that need not be a member. -/
  | executeStage {changes : List (Change β)} {v : Workflow β} {c : Setting β} {steps : Nat}
      {stage : Stage β} {world : World} {result : Pass.Result β} :
      Evolves w changes v → Runner.executeStage c steps stage v world = some result →
      Evolves w (changes ++ Runner.stageChanges c steps stage v world) result.site.workflow

/-- **What changes make of the list and of the records.** -/
structure Becomes (w : Workflow β) (changes : List (Change β)) (v : Workflow β) : Prop where
  /-- The stages are the old ones and then the added ones, each the same but
  for its slots. -/
  stages : v.stages.map Stage.withoutSlots =
    (w.stages ++ changes.filterMap Change.stage?).map Stage.withoutSlots
  enabled : ∀ id, v.enabled.get? id = changes.foldl (Change.record id) (w.enabled.get? id)

/-- That the id of each stage has a record. -/
def Recorded (w : Workflow β) : Prop :=
  ∀ stage ∈ w.stages, w.enabled.contains stage.id

variable {u v w : Workflow β} {changes more : List (Change β)}

/-- What is added later comes after what was added before. -/
theorem map_stages_trans
    (first : v.stages.map Stage.withoutSlots =
      (u.stages ++ changes.filterMap Change.stage?).map Stage.withoutSlots)
    (second : w.stages.map Stage.withoutSlots =
      (v.stages ++ more.filterMap Change.stage?).map Stage.withoutSlots) :
    w.stages.map Stage.withoutSlots =
      (u.stages ++ (changes ++ more).filterMap Change.stage?).map Stage.withoutSlots := by
  rw [second, List.map_append, first, ← List.map_append, List.filterMap_append, List.append_assoc]

namespace Becomes

theorem refl : w.Becomes [] w :=
  ⟨by simp, fun _ => rfl⟩

theorem trans (first : u.Becomes changes v) (second : v.Becomes more w) :
    u.Becomes (changes ++ more) w where
  stages := map_stages_trans first.stages second.stages
  enabled id := by rw [second.enabled, first.enabled, List.foldl_append]

/-- The ids of the list are those it had and those that were added. -/
theorem ids (h : w.Becomes changes v) :
    v.stages.map Stage.id = (w.stages ++ changes.filterMap Change.stage?).map Stage.id := by
  have id_eq : Stage.id ∘ Stage.withoutSlots = (Stage.id : Stage β → String) := rfl
  rw [← id_eq, ← List.map_map, ← List.map_map, h.stages]

theorem contains_iff (h : w.Becomes changes v) {id : String} :
    v.enabled.contains id ↔ w.enabled.contains id ∨ some id ∈ changes.map Change.id? := by
  rw [Table.contains, h.enabled, Change.isSome_foldl_record]
  rfl

/-- **Every stage keeps its record, and the added ones get one.** -/
theorem recorded (h : w.Becomes changes v) (before : w.Recorded) : v.Recorded := by
  intro stage mem
  have named : stage.id ∈ (w.stages ++ changes.filterMap Change.stage?).map Stage.id :=
    h.ids ▸ List.mem_map_of_mem mem
  rw [h.contains_iff]
  obtain ⟨put, put_mem, id_eq⟩ := List.mem_map.mp named
  rw [← id_eq]
  rcases List.mem_append.mp put_mem with old | added
  · exact .inl (before put old)
  · obtain ⟨change, mem, adds⟩ := List.mem_filterMap.mp added
    refine .inr (List.mem_map.mpr ⟨change, mem, ?_⟩)
    cases change with
    | added stage => rw [Option.some.inj adds, Change.id?]
    | switched id enabled => cases adds
    | allEnabled => cases adds

end Becomes

/-! ## What each operation makes of a workflow -/

theorem becomes_addStage {stage : Stage β} : v.Becomes [.added stage] (v.addStage stage) :=
  ⟨rfl, fun _ => get?_enabled_addStage⟩

theorem becomes_setStageEnabled {id : String} {enabled : Bool} :
    v.Becomes [.switched id enabled] (v.setStageEnabled id enabled) :=
  ⟨by simp [setStageEnabled, Change.stage?], fun _ => Table.get?_insert⟩

theorem map_stages_enableAllStages :
    v.enableAllStages.stages.map Stage.withoutSlots =
      (v.stages ++ [Change.allEnabled].filterMap Change.stage?).map Stage.withoutSlots := by
  simp [enableAllStages, Change.stage?]

/-- Every record is set, and one is made for each stage that has none. -/
theorem get?_enabled_enableAllStages {id : String} :
    v.enableAllStages.enabled.get? id =
      if id ∈ v.stages.map Stage.id then some true else (v.enabled.get? id).map fun _ => true := by
  have inserted (stages : List (Stage β)) (records : Table Bool) :
      (stages.foldl (fun e stage => e.insert stage.id true) records).get? id =
        if id ∈ stages.map Stage.id then some true else records.get? id := by
    induction stages generalizing records with
    | nil => simp
    | cons stage rest ih =>
      rw [List.foldl_cons, ih, Table.get?_insert]
      by_cases later : id ∈ rest.map Stage.id <;> by_cases same : id = stage.id <;>
        simp [later, same]
  rw [enableAllStages, inserted, Table.get?_map]

/-- **No record is made by enabling all** where every stage has one. -/
theorem becomes_enableAllStages (recorded : v.Recorded) :
    v.Becomes [.allEnabled] v.enableAllStages := by
  refine ⟨map_stages_enableAllStages, fun id => ?_⟩
  rw [get?_enabled_enableAllStages, List.foldl_cons, List.foldl_nil, Change.record]
  split
  · next known =>
    obtain ⟨stage, mem, rfl⟩ := List.mem_map.mp known
    obtain ⟨on, found⟩ := Option.isSome_iff_exists.mp (recorded stage mem)
    rw [found]
    rfl
  · rfl

end Workflow

/-- A queue makes of the workflow what its changes make of it. -/
theorem Site.becomes_applyAll {s : Site β} {queue : List (Mutation β)} :
    s.workflow.Becomes (queue.filterMap Mutation.change?) (s.applyAll queue).2.workflow where
  stages := by rw [map_stages_applyAll fun _ _ => rfl, Mutation.filterMap_change?_stage?]
  enabled id := by rw [get?_enabled_applyAll, Mutation.foldl_switch_eq]

/-- Calls make of the workflow what their changes make of it. -/
theorem Call.becomes_foldl_settle {c : Setting β} {workflow : Workflow β}
    {calls : List (Call β)} :
    workflow.Becomes (calls.flatMap (changes c)) (calls.foldl (settle c) workflow) := by
  induction calls generalizing workflow with
  | nil => exact .refl
  | cons call rest ih =>
    have first : workflow.Becomes (call.changes c) (call.settle c workflow) :=
      Site.becomes_applyAll (s := ⟨workflow, call.site.seat⟩)
    rw [List.flatMap_cons, List.foldl_cons]
    exact first.trans ih

/-- **A run makes of a workflow what its changes make of it.** -/
theorem Run.becomes_of_run {c : Setting β} {steps : Nat} {workflow : Workflow β} {world : World}
    {result : Result β} (h : run c steps workflow world = some result) :
    workflow.Becomes (changes c steps workflow world) result.workflow := by
  rw [(traces_trail h).workflow_eq]
  exact Call.becomes_foldl_settle

/-- The execution of a stage makes of the workflow what its changes make of
it, wherever the stage is from. -/
theorem Runner.becomes_of_executeStage {c : Setting β} {steps : Nat} {stage : Stage β}
    {workflow : Workflow β} {world : World} {result : Pass.Result β}
    (h : executeStage c steps stage workflow world = some result) :
    workflow.Becomes (stageChanges c steps stage workflow world) result.site.workflow := by
  have granted : stageChanges c steps stage workflow world =
      ((stageCalls c steps stage workflow world).flatMap (Call.granted c)).filterMap
        Mutation.change? := List.filterMap_flatMap.symm
  rw [granted, Pass.site_eq_of_run rfl h]
  exact Site.becomes_applyAll (s := ⟨workflow, .detached stage⟩)

/-! ## What a history makes of a workflow -/

namespace Workflow.Evolves

variable {w v u : Workflow β} {changes more : List (Change β)}

/-- **A history makes of a workflow what its changes make of it**, if every
stage had a record. -/
theorem becomes (h : w.Evolves changes v) (recorded : w.Recorded) : w.Becomes changes v := by
  induction h with
  | rest => exact .refl
  | addStage stage _ ih => exact ih.trans becomes_addStage
  | setStageEnabled id enabled _ ih => exact ih.trans becomes_setStageEnabled
  | enableAllStages _ ih => exact ih.trans (becomes_enableAllStages (ih.recorded recorded))
  | run _ ran ih => exact ih.trans (Run.becomes_of_run ran)
  | executeStage _ ran ih => exact ih.trans (Runner.becomes_of_executeStage ran)

/-- **A history keeps the stages in their places**, and those that are added
follow them, whatever has a record. -/
theorem map_stages (h : w.Evolves changes v) :
    v.stages.map Stage.withoutSlots =
      (w.stages ++ changes.filterMap Change.stage?).map Stage.withoutSlots := by
  induction h with
  | rest => simp
  | addStage stage _ ih => exact map_stages_trans ih becomes_addStage.stages
  | setStageEnabled id enabled _ ih => exact map_stages_trans ih becomes_setStageEnabled.stages
  | enableAllStages _ ih => exact map_stages_trans ih map_stages_enableAllStages
  | run _ ran ih => exact map_stages_trans ih (Run.becomes_of_run ran).stages
  | executeStage _ ran ih => exact map_stages_trans ih (Runner.becomes_of_executeStage ran).stages

/-- Histories follow one another. -/
theorem trans (first : w.Evolves changes v) (second : v.Evolves more u) :
    w.Evolves (changes ++ more) u := by
  induction second with
  | rest => rwa [List.append_nil]
  | addStage stage _ ih =>
    rw [← List.append_assoc]
    exact ih.addStage stage
  | setStageEnabled id enabled _ ih =>
    rw [← List.append_assoc]
    exact ih.setStageEnabled id enabled
  | enableAllStages _ ih =>
    rw [← List.append_assoc]
    exact ih.enableAllStages
  | run _ ran ih =>
    rw [← List.append_assoc]
    exact ih.run ran
  | executeStage _ ran ih =>
    rw [← List.append_assoc]
    exact ih.executeStage ran

end Workflow.Evolves

/-! ## Runs through layers -/

/-- That whatever an executor makes of a workflow is by some history. -/
def Executor.Evolving (exec : Executor β) : Prop :=
  ∀ token logger workflow world result, exec token logger workflow world = some result →
    ∃ changes, workflow.Evolves changes result.workflow

/-- That a layer keeps to histories if what is inside it does. -/
def Middleware.Evolving (layer : Middleware β) : Prop :=
  ∀ next : Executor β, next.Evolving → (layer next).Evolving

theorem Executor.evolving_stages {behave : Action β → Behaviour β} {steps : Nat} :
    (stages behave steps).Evolving :=
  fun _ _ _ _ _ ran => ⟨_, .run .rest ran⟩

namespace Middleware

theorem evolving_timing : Evolving (timing (β := β)) := by
  intro next inside token logger workflow world result ran
  obtain ⟨inner, ran_inner, rfl⟩ := Option.map_eq_some_iff.mp ran
  exact inside token logger workflow world inner ran_inner

theorem evolving_compose {base : Executor β} (inside : base.Evolving)
    {layers : List (Middleware β)} (all : ∀ layer ∈ layers, layer.Evolving) :
    (compose base layers).Evolving := by
  induction layers with
  | nil => exact inside
  | cons layer rest ih =>
    exact all layer List.mem_cons_self _
      (ih fun other mem => all other (List.mem_cons_of_mem _ mem))

end Middleware

namespace Layer

variable {l : Layer β} {next : Executor β}

/-- Calls one after another are one history, however many there are. -/
theorem evolves_callTimes (inside : next.Evolving) {token : Token} {logger : Logger} {calls : Nat}
    {last result : Run.Result β}
    (ran : l.callTimes next token logger calls last = some result) :
    ∃ changes, last.workflow.Evolves changes result.workflow := by
  induction calls generalizing last with
  | zero =>
    obtain rfl := Option.some.inj ran
    exact ⟨[], .rest⟩
  | succ calls ih =>
    rw [callTimes] at ran
    split at ran
    · cases ran
    · next called call =>
      obtain ⟨inner, ran_inner, rfl⟩ := Option.map_eq_some_iff.mp call
      obtain ⟨changes, first⟩ := inside _ _ _ _ _ ran_inner
      split at ran
      · obtain ⟨more, others⟩ := ih ran
        exact ⟨changes ++ more, first.trans others⟩
      · obtain rfl := Option.some.inj ran
        exact ⟨changes, first⟩

/-- **A layer keeps to histories** if what it does before and after does. -/
theorem evolving_middleware
    (before : ∀ (w : Workflow β) world, ∃ changes, w.Evolves changes (l.before w world).1)
    (after : ∀ (w : Workflow β) world, ∃ changes, w.Evolves changes (l.after w world).1) :
    l.middleware.Evolving := by
  intro next inside token logger workflow world result ran
  obtain ⟨last, ran_calls, rfl⟩ := Option.map_eq_some_iff.mp ran
  obtain ⟨opening, begun⟩ :=
    before workflow (l.cancelAt .before token (world.write (.entered l.name)))
  obtain ⟨middle, called⟩ := evolves_callTimes inside ran_calls
  obtain ⟨closing, ended⟩ := after last.workflow (l.cancelAt .after token last.world)
  exact ⟨opening ++ middle ++ closing, (begun.trans called).trans ended⟩

end Layer

/-- **What is executed with options is a history too**, if the layers keep
to one. -/
theorem Runner.evolves_executeWith {r : Runner β} (all : ∀ layer ∈ r.layers, layer.Evolving)
    {behave : Action β → Behaviour β} {steps : Nat} {options : RunOptions} {workflow : Workflow β}
    {world : World} {summary : RunSummary} {result : Run.Result β}
    (ran : r.executeWith (.stages behave steps) options workflow world = some (summary, result)) :
    ∃ changes, workflow.Evolves changes result.workflow := by
  obtain ⟨inner, ran_inner, eq⟩ := Option.map_eq_some_iff.mp ran
  obtain rfl : inner = result := (Prod.mk.inj eq).2
  exact Middleware.evolving_compose Executor.evolving_stages all _ _ _ _ _ ran_inner

end StagedWorkflow
