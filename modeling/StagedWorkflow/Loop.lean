/-!
# Loops

A loop takes one step after another until a step finishes it. The lists a
run walks grow while it walks them, so nothing bounds the number of steps
in advance: a loop is given a number of steps, and answers `none` where
they do not suffice. More steps never change an answer (`Loop.run_mono`).
-/

namespace StagedWorkflow

/-- What one step of a loop comes to. -/
inductive Step (σ ρ : Type) where
  /-- The loop goes on. -/
  | again (state : σ)
  /-- The loop is over. -/
  | finish (result : ρ)

namespace Loop

variable {σ ρ : Type}

/-- Takes steps until one finishes, at most the number given. A step can
itself run out. -/
def run (step : σ → Option (Step σ ρ)) : Nat → σ → Option ρ
  | 0, _ => none
  | steps + 1, state =>
    match step state with
    | none => none
    | some (.finish result) => some result
    | some (.again next) => run step steps next

/-- **More steps never change an answer**, and neither does a step that
runs out less often. -/
theorem run_mono {step step' : σ → Option (Step σ ρ)} {m n : Nat} {state : σ} {result : ρ}
    (more : ∀ s r, step s = some r → step' s = some r) (le : m ≤ n)
    (h : run step m state = some result) : run step' n state = some result := by
  induction m generalizing n state with
  | zero => simp [run] at h
  | succ m ih =>
    obtain ⟨n, rfl⟩ : ∃ k, n = k + 1 := ⟨n - 1, by omega⟩
    rw [run] at h ⊢
    cases eq : step state with
    | none => simp [eq] at h
    | some r =>
      rw [eq] at h
      rw [more state r eq]
      cases r with
      | finish r => exact h
      | again next => exact ih (by omega) h

end Loop

end StagedWorkflow
