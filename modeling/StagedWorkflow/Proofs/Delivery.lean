import StagedWorkflow.Proofs.Course

/-!
# Delivery of additions

Whatever actions add is delivered, and in the order recorded. The stages
that calls add follow those the workflow had, and the actions that the calls
of a pass add follow those of the stage that it entered, whichever other
stages share its id; and no other stage gets any. The outcome of the run
does not matter (`Run.delivers_of_run`).
-/

namespace StagedWorkflow

variable {β : Type} {c : Setting β}

/-- A stage but for its slots, which are all that a run changes of it. -/
def Stage.withoutSlots (s : Stage β) : Stage β :=
  { s with slots := [] }

theorem Stage.withoutSlots_amendAll {s : Stage β} {queue : List (Mutation β)} :
    (s.amendAll queue).withoutSlots = s.withoutSlots := by
  rw [amendAll_eq]
  rfl

namespace Run

variable {steps : Nat} {workflow : Workflow β} {world : World} {r : Run β}
  {states : List (Run β)} {result : Result β}

/-- The stages that a run adds, in the order of its calls, and for each call
in the order recorded. -/
def stagesAdded (c : Setting β) (steps : Nat) (workflow : Workflow β) (world : World) :
    List (Stage β) :=
  (calls c steps workflow world).flatMap (Call.stagesAdded c)

theorem filterMap_granted :
    (states.flatMap (granted c steps)).filterMap Mutation.stage? =
      (states.flatMap (callsHere c steps)).flatMap (Call.stagesAdded c) := by
  simp only [List.filterMap_flatMap, List.flatMap_assoc, granted]
  rfl

/-- **What a run makes of the stage list.** -/
structure Delivers (c : Setting β) (steps : Nat) (workflow : Workflow β) (world : World)
    (result : Result β) : Prop where
  /-- The stages at the end are the old ones and then the added ones, each
  the same but for its slots. -/
  stages : result.workflow.stages.map Stage.withoutSlots =
    (workflow.stages ++ stagesAdded c steps workflow world).map Stage.withoutSlots
  /-- A stage that is entered is as it was put into the list, and at the end
  its actions are those it had and then the ones added by the calls of the
  pass over it. -/
  entered : ∀ r ∈ trail c steps workflow world, ∀ pass, r.entered? c = some pass →
    ∃ stage final, r.workflow.stages[r.index]? = some stage ∧
      (workflow.stages ++ stagesAdded c steps workflow world)[r.index]? = some stage ∧
      result.workflow.stages[r.index]? = some final ∧
      final.actions = stage.actions ++ (pass.calls c steps).flatMap (Call.actionsAdded c)
  /-- A stage that is not entered is as it was put into the list. -/
  untouched : ∀ k, k ∉ entries c steps workflow world →
    result.workflow.stages[k]? =
      (workflow.stages ++ stagesAdded c steps workflow world)[k]?

/-- **A run delivers what its actions add**, to where they add it, and in
the order in which they do. -/
theorem delivers_of_run (h : run c steps workflow world = some result) :
    Delivers c steps workflow world result := by
  have traces := traces_trail h
  have added : ((trail c steps workflow world).flatMap (granted c steps)).filterMap
      Mutation.stage? = stagesAdded c steps workflow world := filterMap_granted
  have at_end := traces.getElem?_stages
  rw [added] at at_end
  refine ⟨?_, fun r hr pass entry => ?_, fun k unentered => ?_⟩
  · refine List.ext_getElem? fun k => ?_
    rw [List.getElem?_map, List.getElem?_map, at_end, Option.map_map]
    congr 1
    funext stage
    exact Stage.withoutSlots_amendAll
  · obtain ⟨stage, passed, enters, -⟩ := traces.enters hr entry
    have put := traces.getElem?_stages_of_mem hr (Nat.le_refl _) enters.lt
    rw [added, enters.found] at put
    refine ⟨stage, stage.amendAll (r.granted c steps), enters.found, put.symm, ?_, ?_⟩
    · have final := at_end r.index
      rw [traces.filter_index hr] at final
      rw [final]
      have put' : (workflow.stages ++ stagesAdded c steps workflow world)[r.index]? = some stage :=
        put.symm
      simp [start, put']
    · rw [Stage.actions_amendAll, granted, enters.callsHere_eq, List.filterMap_flatMap]
      rfl
  · have nothing : ((trail c steps workflow world).filter (·.index = k)).flatMap
        (granted c steps) = [] := by
      refine List.flatMap_eq_nil_iff.mpr fun r hr => ?_
      obtain ⟨hr, at_k⟩ := List.mem_filter.mp hr
      have not_entered : ¬ (r.entered? c).isSome = true := by
        intro entry
        have index_eq : r.index = k := by simpa using at_k
        exact unentered (List.mem_map.mpr ⟨r, List.mem_filter.mpr ⟨hr, entry⟩, index_eq⟩)
      exact granted_of_entered?_eq_none (Option.not_isSome_iff_eq_none.mp not_entered)
    rw [at_end, nothing]
    simp [start]

/-- A run whose actions add actions and stages that add more, and that stops
midway. -/
theorem delivers_of_run_grow : ∃ result,
    run Sample.setting 4 (Sample.workflow (.grow (.grow .fail))) Sample.world = some result ∧
      Delivers Sample.setting 4 (Sample.workflow (.grow (.grow .fail))) Sample.world result :=
  ⟨_, rfl, delivers_of_run rfl⟩

end Run

end StagedWorkflow
