import StagedWorkflow.Proofs.Amendment

/-!
# Lists with disabled items left out

A workflow can be stripped of the stages whose id is disabled and of the
disabled actions of the others (`Workflow.withoutDisabled`). This file relates
what is left to what was there, item by item (`Thins`): every item of the
second list stands for one of the first, in order, and the items of the first
that nothing stands for are disabled. The relation is kept where both lists
are appended to (`Thins.append`), and so is what makes an item disabled, as
long as mutations only add (`Mutation.Adds`).
-/

namespace StagedWorkflow

variable {α γ β : Type}

/-- **That the second list is the first with some items left out**, which
are all of a sort, and that the others correspond. -/
inductive Thins (off : α → Prop) (R : α → γ → Prop) : List α → List γ → Prop where
  | nil : Thins off R [] []
  /-- The first items correspond. -/
  | keep {a : α} {b : γ} {l : List α} {m : List γ} (same : R a b) (rest : Thins off R l m) :
    Thins off R (a :: l) (b :: m)
  /-- The first item is left out. -/
  | drop {a : α} {l : List α} {m : List γ} (gone : off a) (rest : Thins off R l m) :
    Thins off R (a :: l) m

namespace Thins

variable {off : α → Prop} {R : α → γ → Prop} {l l' : List α} {m m' : List γ}

theorem append (h : Thins off R l m) (h' : Thins off R l' m') :
    Thins off R (l ++ l') (m ++ m') := by
  induction h with
  | nil => exact h'
  | keep same _ ih => exact .keep same ih
  | drop gone _ ih => exact .drop gone ih

/-- Nothing need be left out. -/
theorem refl {R : α → α → Prop} (same : ∀ a, R a a) : ∀ l, Thins off R l l
  | [] => .nil
  | a :: l => .keep (same a) (refl same l)

/-- A filter leaves out what it does not let through. -/
theorem filter_map {kept : α → Bool} {f : α → γ} (gone : ∀ a, kept a = false → off a)
    (same : ∀ a, R a (f a)) : ∀ l : List α, Thins off R l ((l.filter kept).map f)
  | [] => .nil
  | a :: l => by
    cases through : kept a with
    | true =>
      rw [List.filter_cons_of_pos through, List.map_cons]
      exact .keep (same a) (filter_map gone same l)
    | false =>
      rw [List.filter_cons_of_neg (by simp [through])]
      exact .drop (gone a through) (filter_map gone same l)

end Thins

/-- What a list begins with from a position on. -/
theorem getElem?_of_drop_eq_cons {l rest : List α} {i : Nat} {a : α}
    (h : l.drop i = a :: rest) : l[i]? = some a ∧ l.drop (i + 1) = rest := by
  constructor
  · rw [← Nat.add_zero i, ← List.getElem?_drop, h]
    rfl
  · rw [← List.tail_drop, h]
    rfl

/-! ## Stages and workflows -/

/-- The stage without its disabled actions. -/
def Stage.withoutDisabled (s : Stage β) : Stage β :=
  { s with slots := s.slots.filter (·.enabled) }

/-- The workflow without its disabled stages, and without the disabled
actions of the others. The records of what is enabled are kept; a stage whose
id has none is kept too. -/
def Workflow.withoutDisabled (w : Workflow β) : Workflow β :=
  { w with
    stages := (w.stages.filter fun stage => w.enabled.get? stage.id != some false).map
      Stage.withoutDisabled }

/-- That the second of two stages is the first with some disabled actions
left out. -/
structure Stage.Thinned (s t : Stage β) : Prop where
  id : s.id = t.id
  initial : s.initial = t.initial
  slots : Thins (fun slot => slot.enabled = false) Eq s.slots t.slots

namespace Stage

theorem thinned_refl (s : Stage β) : s.Thinned s :=
  ⟨rfl, rfl, .refl (fun _ => rfl) s.slots⟩

theorem thinned_withoutDisabled (s : Stage β) : s.Thinned s.withoutDisabled where
  id := rfl
  initial := rfl
  slots := by
    have thins : Thins (fun slot => slot.enabled = false) Eq s.slots
        ((s.slots.filter (·.enabled)).map fun slot => slot) :=
      .filter_map (fun _ off => off) (fun _ => rfl) s.slots
    rwa [List.map_id'] at thins

end Stage

/-! ## Mutations that only add -/

namespace Mutation

/-- That a mutation adds an action or a stage, and switches nothing. -/
def Adds : Mutation β → Prop
  | addAction _ | addStage _ => True
  | setActionEnabled _ _ | setStageEnabled _ _ => False

variable {queue : List (Mutation β)}

/-- **What is disabled stays so** where things are only added. -/
theorem foldl_switch_of_adds {id : String} (adds : ∀ mutation ∈ queue, mutation.Adds) :
    queue.foldl (switch id) (some false) = some false := by
  induction queue with
  | nil => rfl
  | cons mutation rest ih =>
    have kept : switch id (some false) mutation = some false := by
      have own := adds mutation List.mem_cons_self
      cases mutation with
      | addAction => rfl
      | addStage stage => simp [switch]
      | setActionEnabled => cases own
      | setStageEnabled => cases own
    rw [List.foldl_cons, kept]
    exact ih fun other hother => adds other (List.mem_cons_of_mem _ hother)

/-- The actions added follow those of the stage, each enabled. -/
theorem slots_amendAll_of_adds {s : Stage β} (adds : ∀ mutation ∈ queue, mutation.Adds) :
    (s.amendAll queue).slots = s.slots ++ (queue.filterMap action?).map (⟨·, true⟩) := by
  unfold Stage.amendAll
  induction queue generalizing s with
  | nil => simp
  | cons mutation rest ih =>
    have own := adds mutation List.mem_cons_self
    rw [List.foldl_cons, ih fun other hother => adds other (List.mem_cons_of_mem _ hother)]
    cases mutation with
    | addAction action => simp [Stage.amend, action?]
    | addStage stage => simp [Stage.amend, action?, List.filterMap_cons]
    | setActionEnabled => cases own
    | setStageEnabled => cases own

end Mutation

end StagedWorkflow
