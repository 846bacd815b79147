import StagedWorkflow.Proofs.Histories
import StagedWorkflow.Proofs.Switches

/-!
# Which ids are enabled after a history

The last verdict on an id counts. A verdict is what a change says of an id:
a switch sets it, enabling all ids enables it if it has a record by then,
and a stage that is added enables it if it has none (`Change.verdict?`). An
id has a record from when it is first named, so whether it has one can be
told from the changes before (`Change.foldl_record_eq`).

`Workflow.follows_history` says so of every workflow that began without
stages, and what further changes leave as it is; in the course of a run it
decides which stages are entered (`Workflow.verdict_of_entered`). A record
can be there without a stage: see `Workflow.unclaimed_of_history` for the ids
that no stage carries.
-/

namespace StagedWorkflow

variable {β : Type}

namespace Change

/-- What a change says of an id, seen with those before it. -/
def verdict? (id : String) (earlier : List (Change β)) : Change β → Option Bool
  | switched own enabled => if own = id then some enabled else none
  | allEnabled => if some id ∈ earlier.map id? then some true else none
  | added stage => if stage.id = id ∧ some id ∉ earlier.map id? then some true else none

variable {id : String} {on : Option Bool} {change : Change β} {earlier changes : List (Change β)}

/-- A change sets a record to what it says of the id, if it says something. -/
theorem record_eq (known : on.isSome ↔ some id ∈ earlier.map id?) :
    record id on change = (change.verdict? id earlier).or on := by
  cases change with
  | switched own enabled =>
    by_cases same : own = id
    · simp [record, verdict?, same]
    · simp [record, verdict?, same, Ne.symm same]
  | allEnabled => cases on <;> simp [record, verdict?, ← known]
  | added stage =>
    by_cases same : stage.id = id
    · cases on <;> simp [record, verdict?, same, ← known]
    · simp [record, verdict?, same, Ne.symm same]

/-- **The last verdict counts.** -/
theorem foldl_record_eq :
    changes.foldl (record id) none = (inTurn (verdict? id) changes).getLast? := by
  induction changes using List.reverseRecOn with
  | nil => rfl
  | append_singleton earlier change ih =>
    have known : (earlier.foldl (record id) none).isSome ↔ some id ∈ earlier.map id? := by
      simp [isSome_foldl_record]
    rw [List.foldl_append, List.foldl_cons, List.foldl_nil, record_eq known, ih, inTurn_concat,
      List.getLast?_append]
    cases change.verdict? id earlier <;> rfl

theorem foldl_record_of_same (same : ∀ change ∈ changes, record id on change = on) :
    changes.foldl (record id) on = on := by
  induction changes with
  | nil => rfl
  | cons change rest ih =>
    obtain ⟨head, later⟩ := List.forall_mem_cons.mp same
    rw [List.foldl_cons, head, ih later]

/-- A record that is there is changed by switches only, and by enabling all. -/
theorem record_of_isSome (there : on.isSome) (silent : ∀ enabled, change ≠ .switched id enabled)
    (single : change ≠ .allEnabled) : record id on change = on := by
  obtain ⟨flag, rfl⟩ := Option.isSome_iff_exists.mp there
  cases change with
  | added stage => simp [record]
  | switched own enabled =>
    have ne : id ≠ own := fun eq => silent enabled (by rw [eq])
    simp [record, ne]
  | allEnabled => exact absurd rfl single

/-- What names another id does not change a record. -/
theorem record_of_ne (other : change.id? ≠ some id) (single : change ≠ .allEnabled) :
    record id on change = on := by
  cases change with
  | added stage =>
    have ne : id ≠ stage.id := fun eq => other (by rw [eq, id?])
    simp [record, ne]
  | switched own enabled =>
    have ne : id ≠ own := fun eq => other (by rw [eq, id?])
    simp [record, ne]
  | allEnabled => exact absurd rfl single

end Change

namespace Workflow

variable {w v : Workflow β} {changes more : List (Change β)}

/-- What the records of a workflow say after a history. -/
structure Follows (changes : List (Change β)) (w : Workflow β) : Prop where
  /-- Every stage has a record. -/
  recorded : w.Recorded
  /-- An id has a record if it has been named. -/
  named : ∀ id, w.enabled.contains id ↔ some id ∈ changes.map Change.id?
  /-- The last verdict on an id counts. -/
  enabled : ∀ id, w.isStageEnabled id = (inTurn (Change.verdict? id) changes).getLast?.getD false
  /-- The stages are those that were added, in order, but for their slots. -/
  stages : w.stages.map Stage.withoutSlots =
    (changes.filterMap Change.stage?).map Stage.withoutSlots

/-- What further changes leave as it is. -/
structure Keeps (w : Workflow β) (more : List (Change β)) (v : Workflow β) : Prop where
  /-- No stage is removed, and none changes its place. -/
  stages : w.stages.map Stage.withoutSlots <+: v.stages.map Stage.withoutSlots
  /-- Stages that share an id are enabled and disabled together. -/
  together : ∀ (i j : Nat) (a b : Stage β), w.stages[i]? = some a → w.stages[j]? = some b →
    a.id = b.id → ∃ a' b', v.stages[i]? = some a' ∧ v.stages[j]? = some b' ∧
      v.isStageEnabled a'.id = v.isStageEnabled b'.id
  /-- What names other ids does not matter to an id. -/
  unnamed : ∀ id, (∀ change ∈ more, change.id? ≠ some id ∧ change ≠ .allEnabled) →
    v.isStageEnabled id = w.isStageEnabled id
  /-- Nor does adding a stage of an id that has a record. -/
  readded : ∀ id, w.enabled.contains id →
    (∀ change ∈ more, (∀ enabled, change ≠ .switched id enabled) ∧ change ≠ .allEnabled) →
    v.isStageEnabled id = w.isStageEnabled id

theorem recorded_titled {id name description : String} {tags : TagSet} {store : StoreId} :
    (titled id name description tags store : Workflow β).Recorded :=
  fun _ mem => absurd mem List.not_mem_nil

section

variable {id name description : String} {tags : TagSet} {store : StoreId}

/-- The records of a workflow that began without stages are last verdicts. -/
theorem Becomes.get?_enabled (h : (titled id name description tags store).Becomes changes w)
    {own : String} : w.enabled.get? own = (inTurn (Change.verdict? own) changes).getLast? := by
  have none : (titled id name description tags store : Workflow β).enabled.get? own = none := rfl
  rw [h.enabled, none, Change.foldl_record_eq]

theorem Becomes.follows (h : (titled id name description tags store).Becomes changes w) :
    w.Follows changes where
  recorded := h.recorded recorded_titled
  named own := by
    rw [h.contains_iff]
    simp [titled, Table.contains]
  enabled own := by rw [isStageEnabled, h.get?_enabled]
  stages := h.stages

end

/-- A stage keeps its position, and all but its slots. -/
theorem getElem?_of_map_stages {added : List (Stage β)} {k : Nat} {stage : Stage β}
    (same : v.stages.map Stage.withoutSlots = (w.stages ++ added).map Stage.withoutSlots)
    (at_k : w.stages[k]? = some stage) :
    ∃ later, v.stages[k]? = some later ∧ later.withoutSlots = stage.withoutSlots := by
  have lt : k < w.stages.length := (List.getElem?_eq_some_iff.mp at_k).1
  have there := congrArg (·[k]?) same
  simp only [List.getElem?_map, List.getElem?_append_left lt, at_k, Option.map_some] at there
  exact Option.map_eq_some_iff.mp there

theorem Becomes.keeps (h : w.Becomes more v) : w.Keeps more v where
  stages := by
    rw [h.stages, List.map_append]
    exact List.prefix_append ..
  together i j a b at_i at_j same := by
    obtain ⟨a', at_i', a_eq⟩ := getElem?_of_map_stages h.stages at_i
    obtain ⟨b', at_j', b_eq⟩ := getElem?_of_map_stages h.stages at_j
    have id_a := congrArg Stage.id a_eq
    have id_b := congrArg Stage.id b_eq
    have id_eq : a'.id = b'.id :=
      calc a'.id
        _ = a.id := id_a
        _ = b.id := same
        _ = b'.id := id_b.symm
    exact ⟨a', b', at_i', at_j', by rw [id_eq]⟩
  unnamed id other := by
    have same : more.foldl (Change.record id) (w.enabled.get? id) = w.enabled.get? id :=
      Change.foldl_record_of_same fun change mem =>
        Change.record_of_ne (other change mem).1 (other change mem).2
    rw [isStageEnabled, h.enabled, same]
    rfl
  readded id there silent := by
    have same : more.foldl (Change.record id) (w.enabled.get? id) = w.enabled.get? id :=
      Change.foldl_record_of_same fun change mem =>
        Change.record_of_isSome there (silent change mem).1 (silent change mem).2
    rw [isStageEnabled, h.enabled, same]
    rfl

/-- **The records of a workflow follow its history.** -/
theorem follows_history {id name description : String} {tags : TagSet} {store : StoreId}
    (h : (titled id name description tags store).Evolves changes w) :
    w.Follows changes ∧ ∀ more v, w.Evolves more v → w.Keeps more v :=
  have follows := (h.becomes recorded_titled).follows
  ⟨follows, fun _ _ later => (later.becomes follows.recorded).keeps⟩

/-- A stage is run that adds another of its id, the id is switched off, and a
stage of it is added once more. -/
theorem follows_history_grow :
    let empty : Workflow Sample.Code := titled "w" "w" "" ∅ 0
    let one := empty.addStage (Sample.stage (.grow .rest))
    ∃ result, Run.run Sample.setting 4 one Sample.world = some result ∧
      let w := (result.workflow.setStageEnabled "s" false).addStage (Sample.stage .rest)
      Follows ([.added (Sample.stage (.grow .rest))] ++
          Run.changes Sample.setting 4 one Sample.world ++
          [.switched "s" false] ++ [.added (Sample.stage .rest)]) w ∧
        w.size = 3 ∧ w.isStageEnabled "s" = false ∧ w.enableAllStages.isStageEnabled "s" = true :=
  ⟨_, rfl, (follows_history (.addStage _ (.setStageEnabled _ _ (.run (.addStage _ .rest) rfl)))).1,
    by decide, by decide, by decide⟩

/-! ## In the course of a run -/

section

variable {id name description : String} {tags : TagSet} {store : StoreId} {c : Setting β}
  {steps : Nat} {world : World} {earlier later : List (Run β)} {r : Run β}

/-- **Along a run the records follow the history so far**, with the changes
of the calls that the run has made by then. -/
theorem follows_of_trail (h : (titled id name description tags store).Evolves changes w)
    (split : Run.trail c steps w world = earlier ++ r :: later) :
    r.workflow.Follows
      (changes ++ (earlier.flatMap (Run.callsHere c steps)).flatMap (Call.changes c)) := by
  refine ((h.becomes recorded_titled).trans ?_).follows
  rw [(Run.workflow_of_trail split).2]
  exact Call.becomes_foldl_settle

/-- **A stage is entered only if the last verdict on its id enables it.** -/
theorem verdict_of_entered (h : (titled id name description tags store).Evolves changes w)
    (split : Run.trail c steps w world = earlier ++ r :: later) {pass : Pass β}
    (entry : r.entered? c = some pass) :
    ∃ stage, r.workflow.stages[r.index]? = some stage ∧
      (inTurn (Change.verdict? stage.id)
        (changes ++ (earlier.flatMap (Run.callsHere c steps)).flatMap (Call.changes c))).getLast? =
          some true := by
  obtain ⟨stage, found, -, on, -⟩ := Run.entered?_eq_some entry
  refine ⟨stage, found, ?_⟩
  rw [(follows_of_trail h split).enabled] at on
  cases last : (inTurn (Change.verdict? stage.id) _).getLast? with
  | none => simp [last] at on
  | some enabled => simpa [last] using on

end

/-! ## Ids that no stage carries

An id can be switched before a stage of it is there, by a call as by a
mutation that is applied. The record stays, and the stage finds it. -/

/-- No stage of an id has been added if the list has none. -/
theorem Follows.added_not_mem (h : w.Follows changes) {id : String}
    (unclaimed : ∀ stage ∈ w.stages, stage.id ≠ id) {stage : Stage β} (own : stage.id = id) :
    .added stage ∉ changes := by
  intro added
  have mem : stage.withoutSlots ∈ w.stages.map Stage.withoutSlots := by
    rw [h.stages]
    exact List.mem_map_of_mem (List.mem_filterMap.mpr ⟨.added stage, added, rfl⟩)
  obtain ⟨other, other_mem, eq⟩ := List.mem_map.mp mem
  have id_eq := congrArg Stage.id eq
  exact unclaimed other other_mem (id_eq.trans own)

/-- **An id without a stage has a record if it has been switched.** -/
theorem Follows.contains_iff_switched (h : w.Follows changes) {id : String}
    (unclaimed : ∀ stage ∈ w.stages, stage.id ≠ id) :
    w.enabled.contains id ↔ ∃ enabled, .switched id enabled ∈ changes := by
  rw [h.named, List.mem_map]
  constructor
  · rintro ⟨change, mem, names⟩
    cases change with
    | added stage => exact absurd mem (h.added_not_mem unclaimed (Option.some.inj names))
    | switched own enabled =>
      obtain rfl := Option.some.inj names
      exact ⟨enabled, mem⟩
    | allEnabled => cases names
  · rintro ⟨enabled, mem⟩
    exact ⟨_, mem, rfl⟩

theorem isStageEnabled_addStage_of_not_contains {stage : Stage β}
    (fresh : ¬ w.enabled.contains stage.id) :
    (w.addStage stage).isStageEnabled stage.id = true := by
  have none : w.enabled.get? stage.id = none := Option.not_isSome_iff_eq_none.mp fresh
  simp [isStageEnabled, get?_enabled_addStage, none]

theorem isStageEnabled_addStage_of_contains {stage : Stage β}
    (there : w.enabled.contains stage.id) :
    (w.addStage stage).isStageEnabled stage.id = w.isStageEnabled stage.id := by
  obtain ⟨on, found⟩ := Option.isSome_iff_exists.mp there
  simp [isStageEnabled, get?_enabled_addStage, found]

/-- **What is recorded of an id that no stage carries.** One that has never
been switched is not enabled, and its first stage starts enabled. Any other
stands as its last verdict says, and stays so when its first stage is
added. -/
theorem unclaimed_of_history {own name description : String} {tags : TagSet} {store : StoreId}
    (h : (titled own name description tags store).Evolves changes w) (id : String)
    (unclaimed : ∀ stage ∈ w.stages, stage.id ≠ id) :
    ((∀ enabled, .switched id enabled ∉ changes) →
      w.isStageEnabled id = false ∧
        ∀ stage, stage.id = id → (w.addStage stage).isStageEnabled id = true) ∧
    ((∃ enabled, .switched id enabled ∈ changes) →
      (∃ enabled, (inTurn (Change.verdict? id) changes).getLast? = some enabled ∧
        w.isStageEnabled id = enabled) ∧
        ∀ stage, stage.id = id →
          (w.addStage stage).isStageEnabled id = w.isStageEnabled id) := by
  have becomes := h.becomes recorded_titled
  have switched_iff := becomes.follows.contains_iff_switched unclaimed
  constructor
  · intro unswitched
    have fresh : ¬ w.enabled.contains id := fun there =>
      (switched_iff.mp there).elim unswitched
    refine ⟨?_, fun stage eq => ?_⟩
    · rw [isStageEnabled, Option.not_isSome_iff_eq_none.mp fresh]
      rfl
    · subst eq
      exact isStageEnabled_addStage_of_not_contains fresh
  · intro switched
    have there := switched_iff.mpr switched
    refine ⟨?_, fun stage eq => ?_⟩
    · obtain ⟨enabled, found⟩ := Option.isSome_iff_exists.mp there
      rw [becomes.get?_enabled] at found
      exact ⟨enabled, found, by rw [isStageEnabled, becomes.get?_enabled, found]; rfl⟩
    · subst eq
      exact isStageEnabled_addStage_of_contains there

/-- Of two ids without a stage one has been switched off and then enabled with
all others. -/
theorem unclaimed_of_history_ghost :
    let w : Workflow Sample.Code :=
      ((titled "w" "w" "" ∅ 0).setStageEnabled "ghost" false).enableAllStages
    (∀ stage ∈ w.stages, stage.id ≠ "ghost") ∧
      w.isStageEnabled "other" = false ∧ w.isStageEnabled "ghost" = true ∧
      ∀ stage, stage.id = "ghost" → (w.addStage stage).isStageEnabled "ghost" = true := by
  have history : (titled "w" "w" "" ∅ 0 : Workflow Sample.Code).Evolves
      [.switched "ghost" false, .allEnabled] _ := .enableAllStages (.setStageEnabled _ _ .rest)
  have other := (unclaimed_of_history history "other" (by decide)).1 (by simp)
  have ghost := (unclaimed_of_history history "ghost" (by decide)).2 ⟨false, by simp⟩
  exact ⟨by decide, other.1, by decide, fun stage own => (ghost.2 stage own).trans (by decide)⟩

/-- **An id that no stage carries can be enabled, and its first stage can
start disabled.** -/
theorem switched_unclaimed :
    (¬ ∀ (changes : List (Change Sample.Code)) (w : Workflow Sample.Code) (id : String),
      (titled "w" "w" "" ∅ 0).Evolves changes w → (∀ stage ∈ w.stages, stage.id ≠ id) →
        w.isStageEnabled id = false) ∧
    ¬ ∀ (changes : List (Change Sample.Code)) (w : Workflow Sample.Code) (id : String),
      (titled "w" "w" "" ∅ 0).Evolves changes w → (∀ stage ∈ w.stages, stage.id ≠ id) →
        ∀ stage, stage.id = id → (w.addStage stage).isStageEnabled id = true := by
  have switch (enabled : Bool) : (titled "w" "w" "" ∅ 0 : Workflow Sample.Code).Evolves
      [.switched "s" enabled] _ := .setStageEnabled "s" enabled .rest
  constructor
  · intro claim
    exact absurd (claim _ _ "s" (switch true) (by decide)) (by decide)
  · intro claim
    exact absurd (claim _ _ "s" (switch false) (by decide) (Sample.stage .rest) rfl) (by decide)

end Workflow

end StagedWorkflow
