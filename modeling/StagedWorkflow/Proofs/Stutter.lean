import StagedWorkflow.Proofs.Simulation

/-!
# Loops of which one takes more steps

What a loop comes to, given as many steps as it needs, is a relation without
any number of steps in it (`Loop.Comes`, tied to the answers of a loop by
`Loop.comes_iff`), which also keeps what the steps show on the way. Where two
loops are compared this way they need not go step for step: the first may take
steps that show nothing while the other stands still, as long as it does not
do so for ever. Then whatever one comes to, the other comes to as well, and
both show the same (`Loop.Comes.follow`, `Loop.Comes.lead`).
-/

namespace StagedWorkflow

namespace Loop

variable {σ τ ρ ω κ : Type}

/-- That a step is taken, given enough steps of its own, and shows
something. -/
def Takes (step : Nat → σ → Option (Step σ ρ)) (out : Nat → σ → List κ) (s : σ) (x : Step σ ρ)
    (shown : List κ) : Prop :=
  ∃ n, step n s = some x ∧ out n s = shown

/-- **That a loop comes to a result**, and shows something on the way. -/
inductive Comes (takes : σ → Step σ ρ → List κ → Prop) : σ → List κ → ρ → Prop where
  /-- The step finishes the loop. -/
  | last {s : σ} {result : ρ} {shown : List κ} (taken : takes s (.finish result) shown) :
    Comes takes s shown result
  /-- The step goes on, and the others finish. -/
  | next {s t : σ} {result : ρ} {shown later : List κ} (taken : takes s (.again t) shown)
      (rest : Comes takes t later result) : Comes takes s (shown ++ later) result

/-! ## What a loop comes to and what it answers -/

section

variable {step : Nat → σ → Option (Step σ ρ)} {out : Nat → σ → List κ} {s : σ}
  {states : List σ} {result : ρ} {shown : List κ}

theorem Traces.comes {n : Nat} (h : Traces (step n) s states result) :
    Comes (Takes step out) s (states.flatMap (out n)) result := by
  induction h with
  | last taken =>
    rw [List.flatMap_singleton]
    exact .last ⟨n, taken, rfl⟩
  | next taken rest ih =>
    rw [List.flatMap_cons]
    exact .next ⟨n, taken, rfl⟩ ih

variable (mono : ∀ m n s x, m ≤ n → step m s = some x → step n s = some x ∧ out n s = out m s)

include mono

/-- Steps that have more steps of their own go the same way. -/
theorem Traces.lift {m n : Nat} (le : m ≤ n) (h : Traces (step m) s states result) :
    Traces (step n) s states result ∧ states.flatMap (out n) = states.flatMap (out m) := by
  induction h with
  | last taken =>
    obtain ⟨taken', same⟩ := mono m n _ _ le taken
    exact ⟨.last taken', by simp [same]⟩
  | next taken rest ih =>
    obtain ⟨taken', same⟩ := mono m n _ _ le taken
    exact ⟨.next taken' ih.1, by simp [same, ih.2]⟩

theorem Comes.exists_traces (h : Comes (Takes step out) s shown result) :
    ∃ n states, Traces (step n) s states result ∧ states.flatMap (out n) = shown := by
  induction h with
  | @last s result shown taken =>
    obtain ⟨n, taken, rfl⟩ := taken
    exact ⟨n, [s], .last taken, List.flatMap_singleton _ _⟩
  | @next s t result shown later taken rest ih =>
    obtain ⟨m, taken, rfl⟩ := taken
    obtain ⟨n, states, traces, rfl⟩ := ih
    -- as many steps as both need
    obtain ⟨taken', same⟩ := mono m (max m n) _ _ (Nat.le_max_left m n) taken
    obtain ⟨traces', same'⟩ := traces.lift mono (Nat.le_max_right m n)
    exact ⟨max m n, s :: states, .next taken' traces', by rw [List.flatMap_cons, same, same']⟩

/-- **What a loop comes to is what it answers**, given as many steps as it
needs. -/
theorem comes_iff : Comes (Takes step out) s shown result ↔
    ∃ n, run (step n) n s = some result ∧ (Loop.trail (step n) n s).flatMap (out n) = shown := by
  constructor
  · intro h
    obtain ⟨n, states, traces, rfl⟩ := h.exists_traces mono
    obtain ⟨traces', same⟩ := traces.lift mono (Nat.le_max_left n states.length)
    obtain ⟨answer, trail⟩ := traces'.run_eq (Nat.le_max_right n states.length)
    exact ⟨max n states.length, answer, by rw [trail, same]⟩
  · rintro ⟨n, answer, rfl⟩
    exact (traces_trail answer).comes

end

/-! ## Loops side by side -/

section

variable (takes : σ → Step σ ρ → List κ → Prop) (takes' : τ → Step τ ω → List κ → Prop)
  (R : σ → τ → Prop) (S : ρ → ω → Prop)

/-- That two states take the same steps, and show the same. -/
structure Abreast (s : σ) (t : τ) : Prop where
  follow : ∀ x shown, takes s x shown → ∃ y, takes' t y shown ∧ Step.Rel R S x y
  lead : ∀ y shown, takes' t y shown → ∃ x, takes s x shown ∧ Step.Rel R S x y

/-- That the first state is ahead of a step that shows nothing, while the
other state stands still. -/
def Lags (size : σ → Nat) (s : σ) (t : τ) : Prop :=
  ∃ s', R s' t ∧ size s' < size s ∧ takes s (.again s') [] ∧
    ∀ x shown, takes s x shown → x = .again s' ∧ shown = []

variable {takes takes' R S} {size : σ → Nat}
  (steps : ∀ s t, R s t → Lags takes R size s t ∨ Abreast takes takes' R S s t)
  {s : σ} {t : τ} {result : ρ} {result' : ω} {shown : List κ}

include steps

/-- **What the first loop comes to, the other one comes to.** -/
theorem Comes.follow (h : Comes takes s shown result) (start : R s t) :
    ∃ result', Comes takes' t shown result' ∧ S result result' := by
  induction h generalizing t with
  | @last s result shown taken =>
    rcases steps s t start with ⟨s', -, -, -, only⟩ | abreast
    · obtain ⟨other, -⟩ := only _ _ taken
      cases other
    · obtain ⟨y, taken', related⟩ := abreast.follow _ _ taken
      cases related with
      | finish results => exact ⟨_, .last taken', results⟩
  | @next s u result shown later taken rest ih =>
    rcases steps s t start with ⟨s', related, -, -, only⟩ | abreast
    · obtain ⟨same, rfl⟩ := only _ _ taken
      cases same
      exact ih related
    · obtain ⟨y, taken', related⟩ := abreast.follow _ _ taken
      cases related with
      | again states =>
        obtain ⟨result', comes, results⟩ := ih states
        exact ⟨result', .next taken' comes, results⟩

/-- The first loop does not lag for ever. -/
theorem exists_abreast (start : R s t) :
    ∃ s', R s' t ∧ Abreast takes takes' R S s' t ∧
      ∀ result shown, Comes takes s' shown result → Comes takes s shown result := by
  generalize bound : size s = n
  induction n using Nat.strongRecOn generalizing s with
  | ind n ih =>
    subst bound
    rcases steps s t start with ⟨s', related, less, taken, -⟩ | abreast
    · obtain ⟨ahead, related', abreast, leads⟩ := ih (size s') less related rfl
      exact ⟨ahead, related', abreast,
        fun result shown comes => .next taken (leads result shown comes)⟩
    · exact ⟨s, start, abreast, fun _ _ => id⟩

/-- **What the other loop comes to, the first one comes to.** -/
theorem Comes.lead (h : Comes takes' t shown result') (start : R s t) :
    ∃ result, Comes takes s shown result ∧ S result result' := by
  induction h generalizing s with
  | last taken' =>
    obtain ⟨s', -, abreast, leads⟩ := exists_abreast steps start
    obtain ⟨x, taken, related⟩ := abreast.lead _ _ taken'
    cases related with
    | finish results => exact ⟨_, leads _ _ (.last taken), results⟩
  | next taken' rest ih =>
    obtain ⟨s', -, abreast, leads⟩ := exists_abreast steps start
    obtain ⟨x, taken, related⟩ := abreast.lead _ _ taken'
    cases related with
    | again states =>
      obtain ⟨result, comes, results⟩ := ih states
      exact ⟨result, leads _ _ (.next taken comes), results⟩

end

section

variable {step : Nat → σ → Option (Step σ ρ)} {out : Nat → σ → List κ}
  {step' : Nat → τ → Option (Step τ ω)} {out' : Nat → τ → List κ} {R : σ → τ → Prop}
  {S : ρ → ω → Prop} {size : σ → Nat}
  (steps : ∀ s t, R s t → Lags (Takes step out) R size s t ∨
    Abreast (Takes step out) (Takes step' out') R S s t)
  {m n : Nat} {s : σ} {t : τ}

include steps

/-- **All along the first loop** there is a state of the other one that it is
related to, whether they end or not. -/
theorem exists_of_mem_trail (start : R s t) :
    ∀ a ∈ Loop.trail (step n) m s, ∃ b, R a b := by
  induction m generalizing s t with
  | zero => exact fun a mem => absurd mem List.not_mem_nil
  | succ m ih =>
    intro a mem
    rcases List.mem_cons.mp mem with rfl | later
    · exact ⟨t, start⟩
    · split at later
      next u taken =>
        have takes : Takes step out s (.again u) (out n s) := ⟨n, taken, rfl⟩
        rcases steps s t start with ⟨s', related, -, -, only⟩ | abreast
        · obtain ⟨same, -⟩ := only _ _ takes
          cases same
          exact ih related a later
        · obtain ⟨y, -, related⟩ := abreast.follow _ _ takes
          cases related with
          | again states => exact ih states a later
      all_goals cases later

/-- And all along the other one. -/
theorem exists_of_mem_trail' (start : R s t) :
    ∀ b ∈ Loop.trail (step' n) m t, ∃ a, R a b := by
  induction m generalizing s t with
  | zero => exact fun b mem => absurd mem List.not_mem_nil
  | succ m ih =>
    intro b mem
    rcases List.mem_cons.mp mem with rfl | later
    · exact ⟨s, start⟩
    · split at later
      next u taken =>
        obtain ⟨s', -, abreast, -⟩ := exists_abreast steps start
        obtain ⟨x, -, related⟩ := abreast.lead _ _ ⟨n, taken, rfl⟩
        cases related with
        | again states => exact ih states b later
      all_goals cases later

end

end Loop

end StagedWorkflow
