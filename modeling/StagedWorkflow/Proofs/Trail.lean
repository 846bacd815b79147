import Mathlib.Data.List.Basic
import StagedWorkflow.Loop

/-!
# The trail of a loop

A loop that ends has gone through finitely many states. `Loop.trail` lists
the states it takes a step from, and `Loop.Traces` is the same list as a
relation, one constructor for each thing a step can come to, so that a fact
about a whole loop is an induction with two cases (`Loop.traces_trail`).

What comes out: a fact that every step keeps holds along the whole trail
(`forall_mem_trail`, `Traces.forall_mem`), also one about the states gone
through before (`of_trail_eq_append`); every state but the last goes on,
and the last one ends the loop (`Traces.mem_cases`); and a counter that each
step moves by one increases along the trail, and leaves nothing out
(`Traces.pairwise_lt`, `Traces.map_filter_eq_range'`).
-/

namespace StagedWorkflow

namespace Loop

variable {σ ρ : Type}

/-- The states a loop takes a step from, in order. -/
def trail (step : σ → Option (Step σ ρ)) : Nat → σ → List σ
  | 0, _ => []
  | steps + 1, state =>
    state ::
      match step state with
      | some (.again next) => trail step steps next
      | some (.finish _) | none => []

/-- That a loop ends with a result, after the states given. -/
inductive Traces (step : σ → Option (Step σ ρ)) : σ → List σ → ρ → Prop where
  /-- The step finishes the loop. -/
  | last {state : σ} {result : ρ} (taken : step state = some (.finish result)) :
      Traces step state [state] result
  /-- The step goes on, and the others finish. -/
  | next {state after : σ} {states : List σ} {result : ρ}
      (taken : step state = some (.again after)) (rest : Traces step after states result) :
      Traces step state (state :: states) result

variable {step : σ → Option (Step σ ρ)} {state : σ} {states : List σ} {result : ρ}

/-- **A loop that ends has traced its trail.** -/
theorem traces_trail {n : Nat} (h : run step n state = some result) :
    Traces step state (Loop.trail step n state) result := by
  induction n generalizing state with
  | zero => simp [run] at h
  | succ n ih =>
    rw [run] at h
    rw [Loop.trail]
    split at h
    next => cases h
    next r eq =>
      rw [eq, ← Option.some.inj h]
      exact .last eq
    next next eq =>
      rw [eq]
      exact .next eq (ih h)

theorem length_trail_le {n : Nat} : (Loop.trail step n state).length ≤ n := by
  induction n generalizing state with
  | zero => exact Nat.le_refl 0
  | succ n ih =>
    rw [Loop.trail, List.length_cons]
    refine Nat.succ_le_succ ?_
    split
    · exact ih
    all_goals exact Nat.zero_le n

/-- A longer trail, of a step that runs out less often, leaves out no
state. -/
theorem trail_subset {step' : σ → Option (Step σ ρ)} {m n : Nat}
    (more : ∀ s r, step s = some r → step' s = some r) (le : m ≤ n) :
    Loop.trail step m state ⊆ Loop.trail step' n state := by
  induction m generalizing n state with
  | zero => exact List.nil_subset _
  | succ m ih =>
    obtain ⟨n, rfl⟩ : ∃ k, n = k + 1 := ⟨n - 1, by omega⟩
    rw [Loop.trail, Loop.trail]
    refine List.cons_subset_cons _ ?_
    cases taken : step state with
    | none => exact List.nil_subset _
    | some r =>
      rw [more state r taken]
      cases r with
      | finish result => exact List.nil_subset _
      | again next => exact ih (by omega)

/-- What the steps of a trail keep holds of every state of it, whether the
loop ends or not. -/
theorem forall_mem_trail {n : Nat} {holds : σ → Prop}
    (kept : ∀ s ∈ Loop.trail step n state, ∀ t, holds s → step s = some (.again t) → holds t)
    (start : holds state) : ∀ s ∈ Loop.trail step n state, holds s := by
  induction n generalizing state with
  | zero => exact fun s hs => absurd hs List.not_mem_nil
  | succ n ih =>
    rw [Loop.trail] at kept ⊢
    intro s hs
    rcases List.mem_cons.mp hs with rfl | later
    · exact start
    · cases taken : step state with
      | none => simp [taken] at later
      | some r =>
        cases r with
        | finish result => simp [taken] at later
        | again next =>
          rw [taken] at kept later
          have first := kept state List.mem_cons_self next start taken
          exact ih (fun q hq => kept q (List.mem_cons_of_mem _ hq)) first s later

/-- **Along a trail what comes later may depend on what came before**: what
every step hands on, with the state it leaves behind, holds of every state
and those before it. -/
theorem of_trail_eq_append {n : Nat} (holds : List σ → σ → Prop) (start : holds [] state)
    (kept : ∀ earlier, ∀ s ∈ Loop.trail step n state, ∀ t, holds earlier s →
      step s = some (.again t) → holds (earlier ++ [s]) t)
    {earlier later : List σ} {s : σ} (eq : Loop.trail step n state = earlier ++ s :: later) :
    holds earlier s := by
  induction n generalizing state holds earlier with
  | zero => simp [Loop.trail] at eq
  | succ n ih =>
    rw [Loop.trail] at eq kept
    cases earlier with
    | nil =>
      obtain ⟨rfl, -⟩ := List.cons.inj eq
      exact start
    | cons first others =>
      obtain ⟨rfl, rest⟩ := List.cons.inj eq
      cases taken : step state with
      | none => simp [taken] at rest
      | some r =>
        cases r with
        | finish result => simp [taken] at rest
        | again next =>
          rw [taken] at rest kept
          -- what holds further on, holds with the first state put before
          have start' : holds [state] next := kept [] state List.mem_cons_self next start taken
          exact ih (fun others s => holds (state :: others) s) start'
            (fun others s hs => kept (state :: others) s (List.mem_cons_of_mem _ hs)) rest

/-- **A loop answers what it has traced**, given as many steps. -/
theorem Traces.run_eq (h : Traces step state states result) {n : Nat} (le : states.length ≤ n) :
    run step n state = some result ∧ Loop.trail step n state = states := by
  induction h generalizing n with
  | last taken =>
    obtain ⟨k, rfl⟩ : ∃ k, n = k + 1 := Nat.exists_eq_add_of_le' le
    rw [run, Loop.trail, taken]
    exact ⟨rfl, rfl⟩
  | next taken rest ih =>
    rw [List.length_cons] at le
    obtain ⟨k, rfl⟩ : ∃ k, n = k + 1 := ⟨n - 1, by omega⟩
    obtain ⟨answer, trail_eq⟩ := ih (Nat.le_of_succ_le_succ le)
    rw [run, Loop.trail, taken]
    exact ⟨answer, congrArg (List.cons _) trail_eq⟩

/-- What a loop traces from a state of a trail on, it traces from its
beginning, after the states before; also if the step runs out less often
than the one of the trail. -/
theorem exists_traces_of_mem {step' : σ → Option (Step σ ρ)} {n : Nat} {s : σ}
    (more : ∀ s r, step s = some r → step' s = some r) (hs : s ∈ Loop.trail step n state)
    (rest : Traces step' s states result) :
    ∃ earlier, earlier.length < n ∧ Traces step' state (earlier ++ states) result := by
  induction n generalizing state with
  | zero => cases hs
  | succ n ih =>
    rw [Loop.trail] at hs
    rcases List.mem_cons.mp hs with rfl | later
    · exact ⟨[], Nat.succ_pos n, rest⟩
    · split at later
      next after taken =>
        obtain ⟨earlier, lt, traces⟩ := ih later
        exact ⟨state :: earlier, Nat.succ_lt_succ lt, .next (more _ _ taken) traces⟩
      all_goals cases later

namespace Traces

/-- What every step keeps holds all along the trail. -/
theorem forall_mem {holds : σ → Prop} (h : Traces step state states result)
    (kept : ∀ s t, holds s → step s = some (.again t) → holds t) (start : holds state) :
    ∀ s ∈ states, holds s := by
  induction h with
  | last => simpa using start
  | next taken _ ih =>
    intro s hs
    rcases List.mem_cons.mp hs with rfl | hs
    · exact start
    · exact ih (kept _ _ start taken) s hs

/-- **Every state of the trail goes on to another, except the last**, whose
step ends the loop. -/
theorem mem_cases (h : Traces step state states result) {s : σ} (hs : s ∈ states) :
    (∃ t ∈ states, step s = some (.again t)) ∨
      states.getLast? = some s ∧ step s = some (.finish result) := by
  induction h with
  | last taken =>
    obtain rfl : s = _ := by simpa using hs
    exact .inr ⟨rfl, taken⟩
  | next taken rest ih =>
    rcases List.mem_cons.mp hs with rfl | hs
    · refine .inl ⟨_, List.mem_cons_of_mem _ ?_, taken⟩
      cases rest <;> simp
    · rcases ih hs with ⟨t, ht, again⟩ | ⟨last, finish⟩
      · exact .inl ⟨t, List.mem_cons_of_mem _ ht, again⟩
      · exact .inr ⟨by rw [List.getLast?_cons, last]; rfl, finish⟩

/-- A step is taken from the first state. -/
theorem first_mem (h : Traces step state states result) : state ∈ states := by
  cases h <;> exact List.mem_cons_self

/-- Some step of the trail ends the loop. -/
theorem exists_last (h : Traces step state states result) :
    ∃ last ∈ states, step last = some (.finish result) := by
  induction h with
  | last taken => exact ⟨_, List.mem_singleton_self _, taken⟩
  | next _ _ ih =>
    obtain ⟨last, hlast, finish⟩ := ih
    exact ⟨last, List.mem_cons_of_mem _ hlast, finish⟩

/-- The step that ends the loop is the last one taken. -/
theorem exists_eq_append (h : Traces step state states result) :
    ∃ earlier last, states = earlier ++ [last] ∧ step last = some (.finish result) := by
  induction h with
  | last taken => exact ⟨[], _, rfl, taken⟩
  | next _ _ ih =>
    obtain ⟨earlier, last, eq, finish⟩ := ih
    exact ⟨_ :: earlier, last, by rw [eq]; rfl, finish⟩

/-- From every state of the trail on, the loop goes through the rest. -/
theorem exists_suffix (h : Traces step state states result) {s : σ} (hs : s ∈ states) :
    ∃ rest, Traces step s rest result ∧ rest <:+ states := by
  induction h with
  | last taken =>
    obtain rfl : s = _ := by simpa using hs
    exact ⟨_, .last taken, List.suffix_refl _⟩
  | next taken rest ih =>
    rcases List.mem_cons.mp hs with rfl | hs
    · exact ⟨_, .next taken rest, List.suffix_refl _⟩
    · obtain ⟨l, traces, suffix⟩ := ih hs
      exact ⟨l, traces, suffix.trans (List.suffix_cons _ _)⟩

/-- A counter that every step moves by one never comes back to a value. -/
theorem pairwise_lt {count : σ → Nat} (h : Traces step state states result)
    (moves : ∀ s ∈ states, ∀ t, step s = some (.again t) → count t = count s + 1) :
    states.Pairwise (count · < count ·) := by
  -- what comes later has a count at least that of the first state
  have later : states.Pairwise (count · < count ·) ∧ ∀ s ∈ states, count state ≤ count s := by
    induction h with
    | last => simp
    | next taken _ ih =>
      obtain ⟨pairwise, above⟩ := ih fun s hs => moves s (List.mem_cons_of_mem _ hs)
      have moved := moves _ List.mem_cons_self _ taken
      refine ⟨List.pairwise_cons.mpr ⟨fun s hs => ?_, pairwise⟩, fun s hs => ?_⟩
      · have := above s hs
        omega
      · rcases List.mem_cons.mp hs with rfl | hs
        · exact Nat.le_refl _
        · have := above s hs
          omega
  exact later.1

/-- **Nothing is left out**: a counter that every step moves by one, of the
states that are inside, runs through a range, if the loop ends as soon as
it is outside. -/
theorem map_filter_eq_range' {count : σ → Nat} {inside : σ → Bool} {size : Nat}
    (h : Traces step state states result)
    (goes : ∀ s ∈ states, ∀ t, step s = some (.again t) →
      inside s = true ∧ count t = count s + 1)
    (ends : ∀ s ∈ states, step s = some (.finish result) → inside s = false ∧ count s = size) :
    (states.filter inside).map count = List.range' (count state) (size - count state) := by
  have ahead : count state ≤ size ∧
      (states.filter inside).map count = List.range' (count state) (size - count state) := by
    induction h with
    | last taken =>
      obtain ⟨outside, eq⟩ := ends _ (List.mem_singleton_self _) taken
      simp [outside, eq]
    | @next state after states result taken rest ih =>
      obtain ⟨le, eq⟩ := ih
        (fun s hs t => goes s (List.mem_cons_of_mem _ hs) t)
        (fun s hs => ends s (List.mem_cons_of_mem _ hs))
      obtain ⟨within, moved⟩ := goes _ List.mem_cons_self _ taken
      have split : size - count state = (size - count after) + 1 := by omega
      refine ⟨by omega, ?_⟩
      rw [List.filter_cons_of_pos within, List.map_cons, eq, split, List.range'_succ, moved]
  exact ahead.2

end Traces

end Loop

end StagedWorkflow
