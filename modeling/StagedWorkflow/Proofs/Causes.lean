import Mathlib.Data.List.Chain
import Mathlib.Data.List.Infix
import StagedWorkflow.Error

/-!
# The causes of an error

Every run error is made by wrapping: a fault without a cause (`Root`) is put
into the failure of an action or of a layer, that again into another, and so
on (`Fault.nested`, `RunError.exists_nested`). This file says what can still
be told of such an error from outside. Its causes are what the wrappings were
put around, one for each, down to the root (`Fault.chain_nested`), the text
of each ends with that of the next, and the outermost wrapping alone decides
whether the error counts as a cancellation and what it is put down to.
`RunError.keeps_causes` puts this together.
-/

namespace StagedWorkflow

/-- What a run error puts around a fault. -/
inductive Wrapping where
  /-- The fault is the failure of an action. -/
  | action (stageId actionId actionName : String)
  /-- The fault is the failure of a layer around a run. -/
  | middleware

/-- What a chain of causes can begin with: a fault that is no wrapping. -/
inductive Root where
  | text (message : String)
  | store (error : StoreError)
  | cancel (reason : CancelReason)
  | cancelled (workflowId : String) (checkpoint : Checkpoint) (reason : CancelReason)

/-- The fault that a root is. -/
def Root.fault : Root → Fault
  | text message => .text message
  | store error => .store error
  | cancel reason => .cancel reason
  | cancelled workflowId checkpoint reason => .run (.cancelled workflowId checkpoint reason)

namespace Wrapping

/-- The error that a fault is wrapped to. -/
def around : Wrapping → Fault → RunError
  | action stageId actionId actionName, source => .action stageId actionId actionName source
  | middleware, source => .middleware source

/-- What a wrapping puts before the text of the fault. -/
def heading : Wrapping → String
  | action stageId actionId actionName =>
    s!"action '{actionId}' ({actionName}) in stage '{stageId}' failed: "
  | middleware => "middleware error: "

end Wrapping

/-- The direct cause of a run error. -/
def RunError.source? : RunError → Option Fault
  | action _ _ _ source | middleware source => some source
  | cancelled _ _ _ => none

namespace Fault

/-- The direct cause of a fault. -/
def source? : Fault → Option Fault
  | run error => error.source?
  | text _ | store _ | cancel _ => none

/-- A fault and its causes, from the outside in. -/
def chain (fault : Fault) : List Fault :=
  fault :: fault.causes

/-- The fault that a root is wrapped to, by the last wrapping first. -/
def nested (wrappings : List Wrapping) (root : Root) : Fault :=
  wrappings.foldr (fun wrapping source => .run (wrapping.around source)) root.fault

/-- That the text of a fault ends with that of another. -/
def EndsWith (outer inner : Fault) : Prop :=
  inner.message.toList <:+ outer.message.toList

instance : Trans EndsWith EndsWith EndsWith :=
  ⟨fun first second => second.trans first⟩

end Fault

namespace Wrapping

variable {wrapping : Wrapping} {source : Fault}

@[simp] theorem source?_around : (wrapping.around source).source? = some source := by
  cases wrapping <;> rfl

@[simp] theorem causes_around : (wrapping.around source).causes = source.chain := by
  cases wrapping <;> simp [around, RunError.causes, Fault.chain]

@[simp] theorem message_around :
    (wrapping.around source).message = wrapping.heading ++ source.message := by
  cases wrapping <;> rfl

end Wrapping

mutual

/-- **Every fault is a root in wrappings.** -/
theorem Fault.exists_nested : ∀ fault : Fault, ∃ wrappings root, fault = .nested wrappings root
  | .text message => ⟨[], .text message, rfl⟩
  | .store error => ⟨[], .store error, rfl⟩
  | .cancel reason => ⟨[], .cancel reason, rfl⟩
  | .run error => error.exists_nested

/-- And so is every run error. -/
theorem RunError.exists_nested :
    ∀ error : RunError, ∃ wrappings root, .run error = Fault.nested wrappings root
  | .action stageId actionId actionName source => by
    obtain ⟨wrappings, root, rfl⟩ := source.exists_nested
    exact ⟨.action stageId actionId actionName :: wrappings, root, rfl⟩
  | .cancelled workflowId checkpoint reason => ⟨[], .cancelled workflowId checkpoint reason, rfl⟩
  | .middleware source => by
    obtain ⟨wrappings, root, rfl⟩ := source.exists_nested
    exact ⟨.middleware :: wrappings, root, rfl⟩

end

theorem Root.source?_fault (root : Root) : root.fault.source? = none := by
  cases root <;> rfl

theorem Root.chain_fault (root : Root) : root.fault.chain = [root.fault] := by
  cases root <;> simp [Root.fault, Fault.chain, Fault.causes, RunError.causes]

/-- What holds between every list and its tail holds along the tails of a
list. -/
theorem isChain_map_tails {γ δ : Type} {R : δ → δ → Prop} {f : List γ → δ}
    (holds : ∀ a l, R (f (a :: l)) (f l)) (l : List γ) : (l.tails.map f).IsChain R := by
  induction l with
  | nil => simp
  | cons a l ih =>
    rw [List.tails_cons, List.map_cons, List.isChain_cons]
    refine ⟨fun next first => ?_, ih⟩
    -- the first of the tails is the list itself
    have next_eq : next = f l := by cases l <;> simpa [eq_comm] using first
    rw [next_eq]
    exact holds a l

namespace Fault

variable {wrappings : List Wrapping} {root : Root}

/-- **The chain of causes is what the wrappings were put around**, one after
another. -/
theorem chain_nested : (nested wrappings root).chain = wrappings.tails.map (nested · root) := by
  induction wrappings with
  | nil => exact root.chain_fault
  | cons wrapping rest ih =>
    have causes : (nested (wrapping :: rest) root).causes = (nested rest root).chain := by
      simp [nested, Fault.causes]
    rw [chain, causes, ih, List.tails_cons, List.map_cons]

/-- Each fault of the chain is the direct cause of the one before. -/
theorem isChain_source? :
    (nested wrappings root).chain.IsChain fun outer inner => outer.source? = some inner := by
  rw [chain_nested]
  refine isChain_map_tails (fun wrapping rest => ?_) wrappings
  exact Wrapping.source?_around

/-- **Each text ends with the text of the cause.** -/
theorem isChain_endsWith : (nested wrappings root).chain.IsChain EndsWith := by
  rw [chain_nested]
  refine isChain_map_tails (fun wrapping rest => ?_) wrappings
  have text : (nested (wrapping :: rest) root).message =
      wrapping.heading ++ (nested rest root).message := by
    simp [nested, Fault.message]
  rw [EndsWith, text, String.toList_append]
  exact List.suffix_append _ _

/-- The chain ends with the root. -/
theorem getLast?_chain : (nested wrappings root).chain.getLast? = some root.fault := by
  rw [chain_nested, List.getLast?_map]
  induction wrappings with
  | nil => rfl
  | cons wrapping rest ih =>
    obtain ⟨last, last_eq, is_root⟩ := Option.map_eq_some_iff.mp ih
    rw [List.tails_cons, List.getLast?_cons, last_eq]
    exact congrArg some is_root

end Fault

namespace RunError

/-- What is said of an error from outside, by its wrappings: only the
outermost counts, and without any the run was cancelled. -/
def ReportsOutermost (error : RunError) : List Wrapping → Prop
  | [] => error.isCancelled = true ∧ error.stageId? = none ∧ error.actionId? = none
  | .action stageId actionId _ :: _ =>
    error.isCancelled = false ∧ error.stageId? = some stageId ∧ error.actionId? = some actionId
  | .middleware :: _ =>
    error.isCancelled = false ∧ error.stageId? = none ∧ error.actionId? = none

/-- **What can be told of an error** that a root was wrapped to. -/
structure KeepsCauses (error : RunError) (wrappings : List Wrapping) (root : Root) : Prop where
  /-- There is a cause for each wrapping: what is inside of it. -/
  causes_eq : error.causes = wrappings.tails.tail.map (Fault.nested · root)
  length_eq : error.causes.length = wrappings.length
  /-- Each is the direct cause of the one before. -/
  sourced : (Fault.run error).chain.IsChain fun outer inner => outer.source? = some inner
  /-- The last is the root, and it has no cause. -/
  last_eq : (Fault.run error).chain.getLast? = some root.fault
  rootless : root.fault.source? = none
  /-- Each text ends with that of the direct cause. -/
  endsWith : (Fault.run error).chain.IsChain Fault.EndsWith
  /-- So the text of the error ends with that of every cause. -/
  covers : ∀ cause ∈ error.causes, cause.message.toList <:+ error.message.toList
  reports : error.ReportsOutermost wrappings

/-- **An error keeps every cause**, however deeply it is nested, and is
reported as what its outermost wrapping makes of it. -/
theorem keeps_causes {wrappings : List Wrapping} {root : Root} {error : RunError}
    (made : Fault.nested wrappings root = .run error) : error.KeepsCauses wrappings root := by
  have chain_eq : (Fault.run error).chain = wrappings.tails.map (Fault.nested · root) :=
    made ▸ Fault.chain_nested
  have causes_eq : error.causes = wrappings.tails.tail.map (Fault.nested · root) := by
    rw [List.map_tail, ← chain_eq]
    simp [Fault.chain, Fault.causes]
  have endsWith : (Fault.run error).chain.IsChain Fault.EndsWith := made ▸ Fault.isChain_endsWith
  refine ⟨causes_eq, ?_, made ▸ Fault.isChain_source?, made ▸ Fault.getLast?_chain,
    root.source?_fault, endsWith, fun cause mem => ?_, ?_⟩
  · rw [causes_eq]
    simp
  · have pairwise := (List.isChain_iff_pairwise.mp endsWith)
    rw [Fault.chain, List.pairwise_cons] at pairwise
    have ends : Fault.EndsWith (.run error) cause :=
      pairwise.1 cause (by simpa [Fault.causes] using mem)
    simpa [Fault.EndsWith, Fault.message] using ends
  · cases wrappings with
    | nil =>
      cases root with
      | cancelled workflowId checkpoint reason =>
        obtain rfl := Fault.run.inj made
        exact ⟨rfl, rfl, rfl⟩
      | text | store | cancel => cases made
    | cons wrapping rest =>
      obtain rfl := Fault.run.inj made
      cases wrapping <;> exact ⟨rfl, rfl, rfl⟩

/-- A run that was cancelled, in the failure of an action, in that of a
layer. -/
theorem keeps_causes_deep :
    let root : Root := .cancelled "w" (.stage "s") .deadlineExceeded
    let wrappings := [Wrapping.middleware, .action "t" "a" "A"]
    let error : RunError := .middleware (.run (.action "t" "a" "A" root.fault))
    Fault.nested wrappings root = .run error ∧ error.KeepsCauses wrappings root ∧
      error.causes = [.run (.action "t" "a" "A" root.fault), root.fault] ∧
      error.isCancelled = false ∧ error.stageId? = none ∧ error.actionId? = none :=
  ⟨rfl, keeps_causes rfl, rfl, rfl, rfl, rfl⟩

end RunError

end StagedWorkflow
