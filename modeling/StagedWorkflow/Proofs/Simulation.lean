import Mathlib.Data.List.Forall2
import StagedWorkflow.Proofs.Trail

/-!
# Loops side by side

Two loops whose steps correspond, state for state, go through corresponding
states, as many of them, and end alike, or both run out
(`Loop.simulates`). The steps need to correspond only where the first loop
comes by, so what is known of its own trail can be used to show it. If the
states of one loop are a function of those of the other, so are the results
(`Loop.run_map`), and those it goes through (`Loop.trail_map`).
-/

namespace StagedWorkflow

variable {σ τ ρ ω : Type}

/-- That two steps come to the same: both loops go on, or both are over. -/
inductive Step.Rel (R : σ → τ → Prop) (S : ρ → ω → Prop) : Step σ ρ → Step τ ω → Prop where
  | again {s : σ} {t : τ} (states : R s t) : Rel R S (.again s) (.again t)
  | finish {r : ρ} {w : ω} (results : S r w) : Rel R S (.finish r) (.finish w)

/-- What a step comes to, with the state or the result changed. -/
def Step.map (f : σ → τ) (g : ρ → ω) : Step σ ρ → Step τ ω
  | again state => .again (f state)
  | finish result => .finish (g result)

/-- What is known of the results of both can be used where they correspond. -/
theorem rel_of_rel {S S' : ρ → ω → Prop} {o : Option ρ} {o' : Option ω} (h : Option.Rel S o o')
    (imp : ∀ r w, o = some r → o' = some w → S r w → S' r w) : Option.Rel S' o o' := by
  cases h with
  | some related => exact .some (imp _ _ rfl rfl related)
  | none => exact .none

namespace Loop

variable {step : σ → Option (Step σ ρ)} {step' : τ → Option (Step τ ω)}
  {R : σ → τ → Prop} {S : ρ → ω → Prop} {n : Nat} {s : σ} {t : τ}

/-- **Loops whose steps correspond go the same way.** -/
theorem simulates
    (corresponds : ∀ a ∈ Loop.trail step n s, ∀ b, R a b →
      Option.Rel (Step.Rel R S) (step a) (step' b))
    (start : R s t) :
    List.Forall₂ R (Loop.trail step n s) (Loop.trail step' n t) ∧
      Option.Rel S (run step n s) (run step' n t) := by
  induction n generalizing s t with
  | zero => exact ⟨.nil, .none⟩
  | succ n ih =>
    have first : s ∈ Loop.trail step (n + 1) s := List.mem_cons_self
    have both := corresponds s first t start
    rw [Loop.trail] at corresponds
    rw [Loop.trail, Loop.trail, run, run]
    cases taken : step s with
    | none =>
      rw [taken] at both
      cases taken' : step' t with
      | some r' => rw [taken'] at both; cases both
      | none => exact ⟨.cons start .nil, .none⟩
    | some r =>
      rw [taken] at both corresponds
      cases taken' : step' t with
      | none => rw [taken'] at both; cases both
      | some r' =>
        rw [taken'] at both
        cases both with
        | some same =>
          cases same with
          | finish results => exact ⟨.cons start .nil, .some results⟩
          | again states =>
            obtain ⟨trails, results⟩ :=
              ih (fun a ha => corresponds a (List.mem_cons_of_mem _ ha)) states
            exact ⟨.cons start trails, results⟩

/-- What corresponding states show alike is the same of both trails. -/
theorem filterMap_eq_of_forall₂ {κ : Type} {f : σ → Option κ} {g : τ → Option κ} {l : List σ}
    {m : List τ} (h : List.Forall₂ R l m) (same : ∀ a ∈ l, ∀ b, R a b → f a = g b) :
    l.filterMap f = m.filterMap g := by
  induction h with
  | nil => rfl
  | cons related _ ih =>
    rw [List.filterMap_cons, List.filterMap_cons, same _ List.mem_cons_self _ related,
      ih fun a ha => same a (List.mem_cons_of_mem _ ha)]

/-- **A loop over changed states comes to changed results**, if that is so of
every step. -/
theorem run_map {f : σ → τ} {g : ρ → ω}
    (commutes : ∀ s, step' (f s) = (step s).map (Step.map f g)) :
    run step' n (f s) = (run step n s).map g := by
  induction n generalizing s with
  | zero => rfl
  | succ n ih =>
    rw [run, run, commutes]
    cases step s with
    | none => rfl
    | some r =>
      cases r with
      | finish result => rfl
      | again next => exact ih

/-- It goes through the changed states. -/
theorem trail_map {f : σ → τ} {g : ρ → ω}
    (commutes : ∀ s, step' (f s) = (step s).map (Step.map f g)) :
    Loop.trail step' n (f s) = (Loop.trail step n s).map f := by
  induction n generalizing s with
  | zero => rfl
  | succ n ih =>
    rw [Loop.trail, Loop.trail, commutes, List.map_cons]
    cases step s with
    | none => rfl
    | some r =>
      cases r with
      | finish result => rfl
      | again next => exact congrArg (List.cons (f s)) ih

end Loop

end StagedWorkflow
