import StagedWorkflow.Proofs.Bookkeeping
import StagedWorkflow.Proofs.Scenes

/-!
# Addressing what an id has created

Stages and actions are created with a trimmed id, while look-ups, switches
and mutations take an id as it is given. So what was created with a text is
addressed by the text without the blanks at its ends, and by the text itself
only if it has none (`Text.trim_eq_self_iff`). By that id a stage is found
and switched ever after: a run passes it over or enters it as the last switch
says that was made before it got there, by the owner of the workflow or by an
action (`Workflow.addressesStage`). An action is found and switched in its
stage, also by the actions called there (`Stage.addressesAction`).

`addressed_by_trimmed` puts the two together; `not_addressed_by_given` is about
an id that was given with blanks.
-/

namespace StagedWorkflow

variable {β : Type}

/-! ## Stages -/

/-- **What a run does at the position of a stage that is switched on or off.** -/
structure Run.Obeys (c : Setting β) (steps : Nat) (r : Run β) (stage : Stage β)
    (enabled : Bool) : Prop where
  found : r.workflow.stages[r.index]? = some stage
  record : r.workflow.isStageEnabled stage.id = enabled
  /-- Off: no action is called there, and unless the token is done the run
  says so and goes on. -/
  skipped : enabled = false → r.entered? c = none ∧ r.callsHere c steps = [] ∧
    ((r.world.check c.token).1 = .ok () →
      r.step c steps = some (.again ⟨r.workflow,
        (r.world.check c.token).2.notify c.logger (.stageSkipped r.index stage.id),
        r.index + 1, r.executed⟩))
  /-- On: unless the token is done the stage is entered. -/
  entered : enabled = true → r.Cleared c stage →
    r.entered? c = some (Pass.enter c r.site stage ((r.world.check c.token).2.check c.token).2)

/-- The changes that a run has made when it has gone through some of its
states. -/
def Run.changesIn (c : Setting β) (steps : Nat) (states : List (Run β)) : List (Change β) :=
  (states.flatMap (callsHere c steps)).flatMap (Call.changes c)

namespace Run

variable {c : Setting β} {steps : Nat} {r : Run β} {stage : Stage β} {enabled : Bool}

/-- **The record decides** what becomes of the stage. -/
theorem obeys (found : r.workflow.stages[r.index]? = some stage)
    (record : r.workflow.isStageEnabled stage.id = enabled) : r.Obeys c steps stage enabled where
  found := found
  record := record
  skipped off := by
    have entry : r.entered? c = none := by
      refine Option.eq_none_iff_forall_ne_some.mpr fun pass entry => ?_
      obtain ⟨other, found', -, on, -⟩ := entered?_eq_some entry
      obtain rfl : other = stage := Option.some.inj (found'.symm.trans found)
      rw [record, off] at on
      cases on
    exact ⟨entry, callsHere_of_entered?_eq_none entry,
      fun live => (step_of_off found live (record.trans off)).2 steps⟩
  entered on cleared := entered?_of_cleared found cleared (record.trans on)

/-- What the calls of a run so far make of the workflow. -/
theorem becomes_of_trail {v : Workflow β} {world : World} {earlier later : List (Run β)}
    (split : trail c steps v world = earlier ++ r :: later) :
    v.Becomes (changesIn c steps earlier) r.workflow := by
  rw [(workflow_of_trail split).2]
  exact Call.becomes_foldl_settle

end Run

namespace Change

/-- What a change switches an id to that has a record. -/
def switch? (id : String) : Change β → Option Bool
  | switched own enabled => if own = id then some enabled else none
  | allEnabled => some true
  | added _ => none

/-- **The last switch counts** for an id that has a record. -/
theorem foldl_record_of_isSome {id : String} {on : Option Bool} {changes : List (Change β)}
    (there : on.isSome) :
    changes.foldl (record id) on = (changes.reverse.findSome? (switch? id)).or on := by
  induction changes using List.reverseRecOn with
  | nil => rfl
  | append_singleton earlier change ih =>
    have known : (earlier.foldl (record id) on).isSome := isSome_foldl_record.mpr (.inl there)
    rw [List.foldl_append, List.foldl_cons, List.foldl_nil, List.reverse_concat,
      List.findSome?_cons]
    obtain ⟨flag, before⟩ := Option.isSome_iff_exists.mp known
    rw [before] at ih ⊢
    cases change with
    | added stage => simp [record, switch?, ← ih]
    | switched own enabled =>
      by_cases same : own = id
      · simp [record, switch?, same]
      · simp [record, switch?, same, Ne.symm same, ← ih]
    | allEnabled => rfl

end Change

namespace Workflow

/-- **That a stage added to a workflow is addressed by an id**, whatever else
becomes of the workflow. -/
structure AddressesStage (w : Workflow β) (stage : Stage β) (id : String) : Prop where
  /-- A stage is found. -/
  found : ∀ changes v, (w.addStage stage).Evolves changes v →
    ∃ other, v.stage? id = some other ∧ other.id = id
  /-- A run obeys the last switch of the id by the time it gets to the stage,
  whether the owner has made it or an action has recorded it. -/
  obeyed : ∀ changes v, (w.addStage stage).Evolves changes v →
    ∀ (c : Setting β) steps world earlier r later,
      Run.trail c steps v world = earlier ++ r :: later → r.index = w.size →
        ∀ enabled, (changes ++ Run.changesIn c steps earlier).reverse.findSome?
            (Change.switch? id) = some enabled →
          ∃ now, now.withoutSlots = stage.withoutSlots ∧ r.Obeys c steps now enabled

variable {w v : Workflow β} {stage : Stage β} {changes : List (Change β)}

/-- **A stage that is added is at its place ever after**, but for its slots. -/
theorem Evolves.exists_added (h : (w.addStage stage).Evolves changes v) :
    ∃ now, v.stages[w.size]? = some now ∧ now.withoutSlots = stage.withoutSlots := by
  have added : (w.addStage stage).stages[w.size]? = some stage := by simp [size]
  exact getElem?_of_map_stages h.map_stages added

/-- **What becomes of a record that is there**, whether or not every stage
has one. -/
theorem Evolves.get?_enabled (h : w.Evolves changes v) {id : String}
    (there : (w.enabled.get? id).isSome) :
    v.enabled.get? id = changes.foldl (Change.record id) (w.enabled.get? id) := by
  induction h with
  | rest => rfl
  | addStage stage _ ih => rw [List.foldl_append, ← ih, becomes_addStage.enabled]
  | setStageEnabled own enabled _ ih =>
    rw [List.foldl_append, ← ih, becomes_setStageEnabled.enabled]
  | run _ ran ih => rw [List.foldl_append, ← ih, (Run.becomes_of_run ran).enabled]
  | executeStage _ ran ih =>
    rw [List.foldl_append, ← ih, (Runner.becomes_of_executeStage ran).enabled]
  | enableAllStages _ ih =>
    obtain ⟨flag, record⟩ :=
      Option.isSome_iff_exists.mp (Change.isSome_foldl_record.mpr (.inl there))
    rw [List.foldl_append, ← ih, get?_enabled_enableAllStages, ih, record]
    simp [Change.record]

/-- **A stage is addressed by its own id.** -/
theorem addressesStage : w.AddressesStage stage stage.id := by
  refine ⟨fun changes v h => ?_, fun changes v h c steps world earlier r later split here enabled
    last => ?_⟩
  · obtain ⟨now, at_v, same⟩ := h.exists_added
    have same_id := congrArg Stage.id same
    have id_eq : now.id = stage.id := same_id
    have known : (v.stage? stage.id).isSome :=
      isSome_stage?_iff.mpr (id_eq ▸ List.mem_map_of_mem (List.mem_of_getElem? at_v))
    obtain ⟨other, first⟩ := Option.isSome_iff_exists.mp known
    exact ⟨other, first, by simpa using List.find?_some first⟩
  · obtain ⟨put, at_v, same⟩ := h.exists_added
    have becomes := Run.becomes_of_trail split
    obtain ⟨now, at_r, same'⟩ := getElem?_of_map_stages becomes.stages at_v
    have same_id := congrArg Stage.id (same'.trans same)
    have id_eq : now.id = stage.id := same_id
    refine ⟨now, same'.trans same, Run.obeys (by rw [here]; exact at_r) ?_⟩
    -- the stage got a record with its place, so the last switch is the record
    have there : ((w.addStage stage).enabled.get? stage.id).isSome := by
      simp [get?_enabled_addStage]
    have record : r.workflow.enabled.get? stage.id = some enabled := by
      rw [becomes.enabled, h.get?_enabled there, ← List.foldl_append,
        Change.foldl_record_of_isSome there, last, Option.some_or]
    rw [id_eq, isStageEnabled, record]
    rfl

end Workflow

/-! ## Actions -/

namespace Stage

/-- **That an action added to a stage is addressed by an id**, whatever else
is added and switched there. -/
structure AddressesAction (s : Stage β) (action : Action β) (id : String) : Prop where
  /-- A switch finds it, and sets its flag. -/
  switched : ∀ more enabled,
    (((s.addAction action).amendAll more).setActionEnabled id enabled).1 = true ∧
      (((s.addAction action).amendAll more).setActionEnabled id enabled).2.slots[s.size]? =
        some ⟨action, enabled⟩
  /-- So does the last switch that an action of the stage records in a call
  that succeeds, and no switch of the id is reported as unknown. -/
  recorded : ∀ (c : Setting β) (p : Pass β) more,
    p.site.stage? = some ((s.addAction action).amendAll more) →
      ∀ call, p.call? c = some call → call.result c = .ok () →
        ∃ next, p.step c = .again next ∧
          (∃ told, next.world.notices = (call.left c).notices ++ told ∧
            ∀ enabled stageId, .actionUnknown enabled id stageId ∉ told) ∧
          ∀ enabled, (call.queue c).reverse.findSome? (Mutation.actionSwitch? id) = some enabled →
            ∃ now, next.site.stage? = some now ∧ now.slots[s.size]? = some ⟨action, enabled⟩

variable {s : Stage β} {action : Action β} {queue : List (Mutation β)}

/-- The slot of an action that is added, as a queue leaves it. -/
theorem getElem?_slots_amendAll {k : Nat} {slot : Slot β} (found : s.slots[k]? = some slot) :
    (s.amendAll queue).slots[k]? = some (slot.settle queue) := by
  have lt : k < (s.slots.map (Slot.settle queue)).length := by
    rw [List.length_map]
    exact (List.getElem?_eq_some_iff.mp found).1
  rw [slots_amendAll, List.getElem?_append_left lt, List.getElem?_map, found]
  rfl

end Stage

/-- A mutation about an action that the stage has is not warned of. -/
theorem Site.actionUnknown_not_mem_applyAll {s : Site β} {stage : Stage β} {id : String}
    (here : s.stage? = some stage) (known : id ∈ stage.actions.map Action.id)
    {queue : List (Mutation β)} {enabled : Bool} {stageId : String} :
    .actionUnknown enabled id stageId ∉ (s.applyAll queue).1 := by
  intro mem
  have warned : .actionUnknown enabled id stageId ∈
      inTurn (Mutation.warning? stage s.workflow.stages) queue := by
    rw [← warnings_applyAll here]
    exact List.mem_filter.mpr ⟨mem, by simp [Notice.level]⟩
  obtain ⟨⟨mutation, k⟩, -, warning⟩ := List.mem_filterMap.mp warned
  cases mutation with
  | setActionEnabled own on =>
    simp only [Mutation.warning?] at warning
    split at warning
    · cases warning
    · next unknown =>
      obtain ⟨rfl, rfl, rfl⟩ := Notice.actionUnknown.inj (Option.some.inj warning)
      exact unknown (by rw [List.map_append]; exact List.mem_append_left _ known)
  | setStageEnabled own on =>
    simp only [Mutation.warning?] at warning
    split at warning
    · cases warning
    · cases Option.some.inj warning
  | addAction added => cases warning
  | addStage added => cases warning

namespace Stage

variable {s : Stage β} {action : Action β}

/-- **An action is addressed by its own id.** -/
theorem addressesAction : s.AddressesAction action action.id := by
  -- the slot of the action is there from when it is added
  have added : (s.addAction action).slots[s.size]? = some ⟨action, true⟩ := by simp [size]
  refine ⟨fun more enabled => ?_, fun c p more here call called ok => ?_⟩
  · have there : ((s.addAction action).amendAll more).slots[s.size]? =
        some (Slot.settle more ⟨action, true⟩) := getElem?_slots_amendAll added
    refine ⟨?_, ?_⟩
    · exact List.any_eq_true.mpr ⟨_, List.mem_of_getElem? there, by simp [Slot.settle]⟩
    · simp [setActionEnabled, there, Slot.settle]
  · have known : action.id ∈ ((s.addAction action).amendAll more).actions.map Action.id := by
      rw [actions_amendAll]
      simp [actions]
    have goes := Pass.step_of_call? called
    simp only [ok] at goes
    refine ⟨_, goes, ⟨_, World.notices_notifyAll, fun enabled stageId =>
      Site.actionUnknown_not_mem_applyAll here known⟩, fun enabled last => ?_⟩
    refine ⟨_, Site.stage?_applyAll here, ?_⟩
    rw [getElem?_slots_amendAll (getElem?_slots_amendAll added)]
    simp [Slot.settle, last]

end Stage

/-! ## What is created with a text -/

/-- **That an id addresses what has been created with a text.** -/
structure Addresses (raw id : String) : Prop where
  /-- Any stage, in any workflow. -/
  stages : ∀ {β : Type} (w : Workflow β) name description tags initial slots,
    w.AddressesStage { (Stage.titled raw name description tags initial : Stage β) with slots } id
  /-- Any action, in any stage. -/
  actions : ∀ {β : Type} (s : Stage β) name description tags code,
    s.AddressesAction ⟨.titled raw name description tags, code⟩ id

/-- **What is created with a text is addressed by the trimmed text**, which
is the text itself exactly if it has no blanks at its ends. -/
theorem addressed_by_trimmed (raw : String) :
    Addresses raw (Text.trim raw) ∧ (Text.trim raw = raw ↔ Text.isTight raw) :=
  ⟨⟨fun _ _ _ _ _ _ => Workflow.addressesStage, fun _ _ _ _ _ => Stage.addressesAction⟩,
    Text.trim_eq_self_iff⟩

namespace Sample

/-- A stage and an action that were given ids with blanks. -/
def loose : Stage Code :=
  (Stage.titled " s " "s" "" ∅ 1).addAction ⟨.titled " a " "a", .rest⟩

/-- The workflow with the stage. -/
def looseWorkflow : Workflow Code :=
  (Workflow.titled "w" "w" "" ∅ 0).addStage loose

end Sample

/-- The stage is passed over that the trimmed text has switched off, and the
action is switched off by it. -/
theorem addressed_by_trimmed_blanks :
    let v := Sample.looseWorkflow.setStageEnabled (Text.trim " s ") false
    (Run.start Sample.setting v Sample.world).callsHere Sample.setting 4 = [] ∧
      (Sample.loose.setActionEnabled (Text.trim " a ") false).1 = true ∧
      (Sample.loose.setActionEnabled (Text.trim " a ") false).2.slots[0]? =
        some ⟨⟨.titled " a " "a", .rest⟩, false⟩ := by
  intro v
  obtain ⟨now, -, obeys⟩ := ((addressed_by_trimmed " s ").1.stages
    (Workflow.titled "w" "w" "" ∅ 0) "s" "" ∅ 1 Sample.loose.slots).obeyed
      [.switched (Text.trim " s ") false] v (.setStageEnabled _ _ .rest) Sample.setting 4
      Sample.world [] (.start Sample.setting v Sample.world) _ rfl rfl false
      (by simp [Run.changesIn, Change.switch?])
  obtain ⟨known, slot⟩ := ((addressed_by_trimmed " a ").1.actions
    (Stage.titled " s " "s" "" ∅ 1) "a" "" ∅ Sample.Code.rest).switched [] false
  exact ⟨(obeys.skipped rfl).2.1, known, slot⟩

/-- **A text with blanks at its ends does not address what was created with
it**: no stage is found, one that is switched off is entered all the same,
and no action is switched. -/
theorem not_addressed_by_given :
    Sample.looseWorkflow.stage? " s " = none ∧
      (Run.calls Sample.setting 4 (Sample.looseWorkflow.setStageEnabled " s " false)
        Sample.world).length = 1 ∧
      (Sample.loose.setActionEnabled " a " false).1 = false ∧
      ¬ ∀ raw, Addresses raw raw := by
  refine ⟨by decide, by decide, by decide, fun claim => ?_⟩
  obtain ⟨other, found, -⟩ := ((claim " s ").stages (Workflow.titled "w" "w" "" ∅ 0) "s" "" ∅ 1
    Sample.loose.slots).found [] Sample.looseWorkflow .rest
  have missing : Sample.looseWorkflow.stage? " s " = none := by decide
  cases found.symm.trans missing

end StagedWorkflow
