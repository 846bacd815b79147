import Mathlib.Data.List.Sort
import StagedWorkflow.Script.Act
import StagedWorkflow.Proofs.Delivery

/-!
# Queries by tags

A query by tags takes items out of a list and keeps their order, so what it
answers is settled by the positions that it takes (`PicksAt.unique`): items
that are equal but stand at different positions are told apart. One tag takes
the positions that carry it, all of several tags the positions that carry
each, and any of several tags the positions that carry one or more
(`Tagged.picksAt_withTag`, `picksAt_withAllTags`, `picksAt_withAnyTag`). What
holds between queries is then what holds between conditions on positions
(`Tagged.laws`).

A query is put to the stages of a workflow, to the actions of a stage, and by
an action to the stage that it runs in. All of these are the query over the
list (`TagQuery.stages_eq`, `TagQuery.actions_eq`,
`TagQuery.run_instruction`), and so are blind to switches and see what was
appended.
-/

namespace StagedWorkflow

variable {α β : Type}

/-- **That a result consists of the items at certain positions** of a list,
each taken once, in the order of the list. -/
def PicksAt (items : List α) (wanted : Nat → Prop) (result : List α) : Prop :=
  ∃ positions : List Nat, positions.Pairwise (· < ·) ∧
    (∀ i, i ∈ positions ↔ i < items.length ∧ wanted i) ∧
    result = positions.filterMap (items[·]?)

namespace PicksAt

variable {items : List α} {wanted wanted' : Nat → Prop} {result result' : List α}

/-- **The positions settle the result.** -/
theorem unique (h : PicksAt items wanted result) (h' : PicksAt items wanted' result')
    (same : ∀ i, i < items.length → (wanted i ↔ wanted' i)) : result = result' := by
  obtain ⟨positions, ascending, mem, rfl⟩ := h
  obtain ⟨positions', ascending', mem', rfl⟩ := h'
  have eq : positions = positions' := ascending.eq_of_mem_iff ascending' fun i => by
    rw [mem, mem']
    exact and_congr_right (same i)
  rw [eq]

theorem congr (h : PicksAt items wanted result)
    (same : ∀ i, i < items.length → (wanted i ↔ wanted' i)) : PicksAt items wanted' result := by
  obtain ⟨positions, ascending, mem, eq⟩ := h
  refine ⟨positions, ascending, fun i => ?_, eq⟩
  rw [mem]
  exact and_congr_right (same i)

end PicksAt

theorem filterMap_range_getElem? {items : List α} :
    (List.range items.length).filterMap (items[·]?) = items := by
  induction items with
  | nil => rfl
  | cons item rest ih => simp [List.range_succ_eq_map, List.filterMap_map, ih]

/-- **A filter picks the positions that pass its test.** -/
theorem picksAt_filter {items : List α} {test : α → Bool} {wanted : Nat → Prop}
    (passes : ∀ i item, items[i]? = some item → (wanted i ↔ test item = true)) :
    PicksAt items wanted (items.filter test) := by
  refine ⟨(List.range items.length).filter fun i => (items[i]?).any test,
    List.pairwise_lt_range.filter _, fun i => ?_, ?_⟩
  · rw [List.mem_filter, List.mem_range]
    refine and_congr_right fun lt => ?_
    have found : items[i]? = some items[i] := List.getElem?_eq_getElem lt
    rw [passes i _ found, found, Option.any_some]
  · -- both are what is left of the list, taken as the items at all its positions
    have whole : (List.range items.length).filterMap (items[·]?) = items :=
      filterMap_range_getElem?
    conv_lhs => rw [← whole]
    rw [List.filter_filterMap, List.filterMap_filter]
    refine List.filterMap_congr fun i _ => ?_
    cases items[i]? with
    | none => simp
    | some item => simp [Option.filter]

namespace Tagged

variable [Tagged α]

/-- That the item at a position carries a tag. -/
def CarriesAt (items : List α) (tag : String) (i : Nat) : Prop :=
  ∃ item, items[i]? = some item ∧ hasTag item tag = true

variable {items : List α} {wanted more : List String}

theorem carriesAt_iff {tag : String} {i : Nat} {item : α} (found : items[i]? = some item) :
    CarriesAt items tag i ↔ hasTag item tag = true := by
  simp [CarriesAt, found]

theorem picksAt_withTag {tag : String} :
    PicksAt items (CarriesAt items tag) (withTag items tag) :=
  picksAt_filter fun _ _ found => carriesAt_iff found

theorem picksAt_withAllTags :
    PicksAt items (fun i => ∀ tag ∈ wanted, CarriesAt items tag i) (withAllTags items wanted) := by
  refine picksAt_filter fun i item found => ?_
  rw [TagSet.containsAll, List.all_eq_true]
  exact forall₂_congr fun tag _ => carriesAt_iff found

theorem picksAt_withAnyTag :
    PicksAt items (fun i => ∃ tag ∈ wanted, CarriesAt items tag i) (withAnyTag items wanted) := by
  refine picksAt_filter fun i item found => ?_
  rw [TagSet.containsAny, List.any_eq_true]
  exact exists_congr fun tag => and_congr_right fun _ => carriesAt_iff found

/-- Asking for one tag more is asking for it among the others. -/
theorem withAllTags_cons {tag : String} :
    withAllTags items (tag :: wanted) = withAllTags (withTag items tag) wanted := by
  rw [withAllTags, withAllTags, withTag, List.filter_filter]
  refine List.filter_congr fun item _ => ?_
  rw [TagSet.containsAll, List.all_cons, Bool.and_comm]
  rfl

/-- **All of several tags are asked for one after another.** -/
theorem withAllTags_eq_foldl : withAllTags items wanted = wanted.foldl withTag items := by
  induction wanted generalizing items with
  | nil => simp [withAllTags, TagSet.containsAll]
  | cons tag rest ih => rw [withAllTags_cons, ih, List.foldl_cons]

/-- **The laws of the queries** over one list, for two lists of tags. -/
structure Laws (items : List α) (wanted more : List String) : Prop where
  /-- One tag picks the positions that carry it. -/
  one : ∀ tag, PicksAt items (CarriesAt items tag) (withTag items tag)
  /-- All tags are one tag after another. -/
  all : withAllTags items wanted = wanted.foldl withTag items
  /-- Any tag picks the positions that some one tag picks, each once. -/
  any : PicksAt items (fun i => ∃ tag ∈ wanted, CarriesAt items tag i) (withAnyTag items wanted)
  /-- No tags are carried by all, and of no tags none is carried. -/
  nil : withAllTags items [] = items ∧ withAnyTag items [] = []
  /-- Nothing is put in another order, and nothing is added. -/
  sublist : (withAllTags items wanted).Sublist items ∧ (withAnyTag items wanted).Sublist items
  /-- Order and repetition of the tags do not matter. -/
  set : ∀ wanted', (∀ tag, tag ∈ wanted' ↔ tag ∈ wanted) →
    withAllTags items wanted' = withAllTags items wanted ∧
      withAnyTag items wanted' = withAnyTag items wanted
  /-- All of more tags are all of the others among what all of the ones give. -/
  all_append : withAllTags items (wanted ++ more) = withAllTags (withAllTags items wanted) more
  /-- Any of more tags picks what any of the ones and any of the others pick. -/
  any_append : PicksAt items
    (fun i => (∃ tag ∈ wanted, CarriesAt items tag i) ∨ ∃ tag ∈ more, CarriesAt items tag i)
    (withAnyTag items (wanted ++ more))

/-- **Queries obey the laws**, over every list. -/
theorem laws (items : List α) (wanted more : List String) : Laws items wanted more where
  one _ := picksAt_withTag
  all := withAllTags_eq_foldl
  any := picksAt_withAnyTag
  nil := by simp [withAllTags, withAnyTag, TagSet.containsAll, TagSet.containsAny]
  sublist := ⟨List.filter_sublist, List.filter_sublist⟩
  set wanted' same := by
    constructor
    · refine picksAt_withAllTags.unique picksAt_withAllTags fun i _ => ?_
      exact forall_congr' fun tag => imp_congr_left (same tag)
    · refine picksAt_withAnyTag.unique picksAt_withAnyTag fun i _ => ?_
      exact exists_congr fun tag => and_congr_left' (same tag)
  all_append := by rw [withAllTags_eq_foldl, withAllTags_eq_foldl, withAllTags_eq_foldl,
    List.foldl_append]
  any_append := by
    refine picksAt_withAnyTag.congr fun i _ => ?_
    simp only [List.mem_append, or_and_right, exists_or]

end Tagged

/-- A query by tags. -/
inductive TagQuery where
  | one (tag : String)
  | all (tags : List String)
  | any (tags : List String)

namespace Sample

/-- A stage of the sample with tags. -/
def tagged (tags : List String) : Stage Code :=
  { stage .rest with tags := .ofList tags }

/-- Three stages, the first and the last of them equal. -/
def twins : Workflow Code :=
  { workflow .rest with stages := [tagged ["a", "b"], tagged ["c"], tagged ["b", "a"]] }

/-- An action with a tag. -/
def marked : Action Code :=
  ⟨.bare "late" (.ofList ["x"]), .rest⟩

end Sample

namespace TagQuery

/-- The query over a list. -/
def among [Tagged α] (items : List α) : TagQuery → List α
  | one tag => Tagged.withTag items tag
  | all tags => Tagged.withAllTags items tags
  | any tags => Tagged.withAnyTag items tags

/-- The query put to the stages of a workflow. -/
def stages (w : Workflow β) : TagQuery → List (Stage β)
  | one tag => w.stagesWithTag tag
  | all tags => w.stagesWithAllTags tags
  | any tags => w.stagesWithAnyTag tags

/-- The query put to the actions of a stage. -/
def actions (s : Stage β) : TagQuery → List (Action β)
  | one tag => s.actionsWithTag tag
  | all tags => s.actionsWithAllTags tags
  | any tags => s.actionsWithAnyTag tags

/-- The query, put by an action to the stage that it runs in. -/
def ofOwnStage : TagQuery → Script.Instruction
  | one tag => .stage none (.withTag tag)
  | all tags => .stage none (.withAllTags tags)
  | any tags => .stage none (.withAnyTag tags)

/-- The query, put by an action to the workflow that it runs in. -/
def ofWorkflow : TagQuery → Script.Instruction
  | one tag => .workflow (.withTag tag)
  | all tags => .workflow (.withAllTags tags)
  | any tags => .workflow (.withAnyTag tags)

/-- Whether tags answer the query. -/
def accepts (tags : TagSet) : TagQuery → Bool
  | one tag => tags.contains tag
  | all wanted => tags.containsAll wanted
  | any wanted => tags.containsAny wanted

variable {query : TagQuery}

theorem among_eq_filter [Tagged α] {items : List α} :
    query.among items = items.filter fun item => query.accepts (Tagged.tags item) := by
  cases query <;> rfl

theorem among_append [Tagged α] {items more : List α} :
    query.among (items ++ more) = query.among items ++ query.among more := by
  simp only [among_eq_filter, List.filter_append]

/-- **A workflow is asked about its list of stages.** -/
theorem stages_eq {w : Workflow β} : query.stages w = query.among w.stages := by
  cases query <;> rfl

theorem actions_eq_actionsWhere {s : Stage β} :
    query.actions s = s.actionsWhere fun tags => query.accepts tags := by
  cases query <;> rfl

/-- **A stage is asked about its list of actions.** The flags that stand
beside the actions are not looked at. -/
theorem actions_eq {s : Stage β} : query.actions s = query.among s.actions := by
  rw [actions_eq_actionsWhere, among_eq_filter, Stage.actionsWhere, Stage.actions, List.filter_map]
  rfl

/-- Tags are not among the slots: a query can be put before the slots are
left out or after. -/
theorem map_withoutSlots_among {stages : List (Stage β)} :
    (query.among stages).map Stage.withoutSlots = query.among (stages.map Stage.withoutSlots) := by
  rw [among_eq_filter, among_eq_filter, List.filter_map]
  rfl

/-- **After a queue of mutations, the stage that is executed answers with the
appended actions too**, whichever were switched off. -/
theorem actions_applyAll {site : Site β} {stage : Stage β} (here : site.stage? = some stage)
    (queue : List (Mutation β)) :
    ∃ after, (site.applyAll queue).2.stage? = some after ∧
      query.actions after = query.actions stage ++ query.among (queue.filterMap Mutation.action?) := by
  refine ⟨_, Site.stage?_applyAll here, ?_⟩
  rw [actions_eq, actions_eq, Stage.actions_amendAll, among_append]

/-- **And the workflow answers with the appended stages too.** The slots are
left out, for those of the stage that is executed change. -/
theorem stages_applyAll {site : Site β} {queue : List (Mutation β)} :
    (query.stages (site.applyAll queue).2.workflow).map Stage.withoutSlots =
      (query.stages site.workflow ++ query.among (queue.filterMap Mutation.stage?)).map
        Stage.withoutSlots := by
  rw [stages_eq, stages_eq, ← among_append, map_withoutSlots_among, map_withoutSlots_among,
    Site.map_stages_applyAll fun _ _ => rfl]

/-- An action is answered from the stage as it sees it, and changes nothing
by asking. -/
theorem run_ofOwnStage {defs : Script.Definitions} {who : String} {inv : Invocation Script}
    {state : Invocation.State Script} :
    (query.ofOwnStage.run defs who).run.run inv.answer state =
      (.ok (Script.actionIds (query.among inv.stage.actions)), state) := by
  rw [← actions_eq]
  cases query <;> rfl

theorem run_ofWorkflow {defs : Script.Definitions} {who : String} {inv : Invocation Script}
    {state : Invocation.State Script} :
    (query.ofWorkflow.run defs who).run.run inv.answer state =
      (.ok (Script.stageIds (query.among inv.workflow.stages)), state) := by
  rw [← stages_eq]
  cases query <;> rfl

/-- **Queries form one algebra over both levels.** Over every list they obey
the laws. Put to a workflow or to a stage, directly or by an action, they
are the queries over the list of its stages or actions; they do not see what
is switched off, and they see what is appended. -/
theorem obeys_laws [Tagged α] :
    (∀ (items : List α) (wanted more : List String), Tagged.Laws items wanted more) ∧
    (∀ (query : TagQuery) (w : Workflow β), query.stages w = query.among w.stages ∧
      (∀ id on, query.stages (w.setStageEnabled id on) = query.stages w) ∧
      ∀ stage, query.stages (w.addStage stage) = query.stages w ++ query.among [stage]) ∧
    (∀ (query : TagQuery) (s : Stage β), query.actions s = query.among s.actions ∧
      (∀ id on, query.actions (s.setActionEnabled id on).2 = query.actions s) ∧
      ∀ action, query.actions (s.addAction action) = query.actions s ++ query.among [action]) ∧
    (∀ (query : TagQuery) (site : Site β) (queue : List (Mutation β)),
      (∀ stage, site.stage? = some stage → ∃ after, (site.applyAll queue).2.stage? = some after ∧
        query.actions after =
          query.actions stage ++ query.among (queue.filterMap Mutation.action?)) ∧
      (query.stages (site.applyAll queue).2.workflow).map Stage.withoutSlots =
        (query.stages site.workflow ++ query.among (queue.filterMap Mutation.stage?)).map
          Stage.withoutSlots) ∧
    ∀ (query : TagQuery) defs who (inv : Invocation Script) state,
      (query.ofOwnStage.run defs who).run.run inv.answer state =
        (.ok (Script.actionIds (query.among inv.stage.actions)), state) ∧
      (query.ofWorkflow.run defs who).run.run inv.answer state =
        (.ok (Script.stageIds (query.among inv.workflow.stages)), state) := by
  refine ⟨Tagged.laws, fun query w => ⟨stages_eq, fun id on => ?_, fun stage => ?_⟩,
    fun query s => ⟨actions_eq, fun id on => ?_, fun action => ?_⟩,
    fun query site queue => ⟨fun stage here => actions_applyAll here queue, stages_applyAll⟩,
    fun query defs who inv state => ⟨run_ofOwnStage, run_ofWorkflow⟩⟩
  · rw [stages_eq, stages_eq, Workflow.setStageEnabled]
  · rw [stages_eq, stages_eq, Workflow.stages_addStage, among_append]
  · rw [actions_eq, actions_eq, Stage.actions_setActionEnabled]
  · rw [actions_eq, actions_eq, ← among_append]
    simp [Stage.actions]

/-- Two equal stages at different positions, and an action that is appended
to the first while another of it is switched off. -/
theorem obeys_laws_twins :
    (Tagged.withAnyTag Sample.twins.stages ["a", "b"]).length = 2 ∧
    Tagged.withAnyTag Sample.twins.stages ["b", "a", "b"] =
      Tagged.withAnyTag Sample.twins.stages ["a", "b"] ∧
    ∃ after, ((⟨Sample.twins, .member 0⟩ : Site Sample.Code).applyAll
        [.setActionEnabled "a" false, .addAction Sample.marked]).2.stage? = some after ∧
      (TagQuery.one "x").actions after = [Sample.marked] := by
  obtain ⟨laws, -, -, sites, -⟩ := obeys_laws (α := Stage Sample.Code) (β := Sample.Code)
  refine ⟨by decide, ((laws Sample.twins.stages ["a", "b"] []).set ["b", "a", "b"] ?_).2, ?_⟩
  · intro tag
    simp only [List.mem_cons, List.not_mem_nil, or_false]
    tauto
  · exact (sites (.one "x") ⟨Sample.twins, .member 0⟩ _).1 (Sample.tagged ["a", "b"]) rfl

-- any of several tags takes an item once, and leaves the stage that is switched off in
example : ((Sample.twins.setStageEnabled "s" false).stagesWithAnyTag ["b", "c", "a"]).length = 3 := by
  decide

end TagQuery

end StagedWorkflow
