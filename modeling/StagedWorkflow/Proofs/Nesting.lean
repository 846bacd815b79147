import Mathlib.Algebra.BigOperators.Group.List.Basic
import Mathlib.Data.List.Forall2
import StagedWorkflow.Runner
import StagedWorkflow.Proofs.Conduct

/-!
# Layers inside one another

When a chain of layers is executed, each layer is entered and left, inside
the one before it, as often as that one calls, and the base is run inside the
last. `Conduct.told` is the chain once more, with a word of all this beside
the result (`Conduct.map_fst_told`). The word is well nested
(`Conduct.nested_told`), and where every call succeeds and each layer calls a
number of times of its own, a layer is invoked as often as the product of
those of the layers around it says (`Conduct.count_told`).
-/

namespace StagedWorkflow

/-! ## Programs with a word beside the result -/

namespace Program

variable {S : Signature} {α ε σ : Type}

/-- Follows a program, with the words of the answers one after another. -/
def tell (answer : (r : S.Request) → Option (S.Answer r × List ε)) :
    Program S α → Option (α × List ε)
  | .done a => some (a, [])
  | .ask r next =>
    (answer r).bind fun (a, first) =>
      ((next a).tell answer).map fun (b, more) => (b, first ++ more)

variable {answer : (r : S.Request) → Option (S.Answer r × List ε)} {p : Program S α}
variable {r : S.Request} {next : S.Answer r → Program S α} {b : α} {word : List ε}

/-- **Telling is following**, but for the word. -/
theorem map_fst_tell :
    (p.tell answer).map Prod.fst = p.follow fun r => (answer r).map Prod.fst := by
  induction p with
  | done => rfl
  | ask r next ih =>
    rw [tell, follow]
    cases answer r with
    | none => rfl
    | some told =>
      simp only [Option.bind_some, Option.map_map, Option.map_some, ← ih]
      rfl

theorem tell_ask_eq_some (h : (Program.ask r next).tell answer = some (b, word)) :
    ∃ a first more, answer r = some (a, first) ∧ (next a).tell answer = some (b, more) ∧
      word = first ++ more := by
  rw [tell] at h
  obtain ⟨⟨a, first⟩, answered, h⟩ := Option.bind_eq_some_iff.mp h
  obtain ⟨⟨b', more⟩, rest, h⟩ := Option.map_eq_some_iff.mp h
  cases h
  exact ⟨a, first, more, answered, rest, rfl⟩

/-- What is told is told by an answer. -/
theorem exists_of_mem_tell {event : ε} (h : p.tell answer = some (b, word))
    (mem : event ∈ word) : ∃ r a first, answer r = some (a, first) ∧ event ∈ first := by
  induction p generalizing word with
  | done a =>
    cases h
    cases mem
  | ask r next ih =>
    obtain ⟨a, first, more, answered, rest, rfl⟩ := tell_ask_eq_some h
    rcases List.mem_append.mp mem with early | late
    · exact ⟨r, a, first, answered, early⟩
    · exact ih a rest late

/-- **What the words of all answers lead back to, their sequence leads back
to.** -/
theorem foldlM_tell {step : σ → ε → Option σ} {s : σ} (h : p.tell answer = some (b, word))
    (each : ∀ r a first, answer r = some (a, first) → first.foldlM step s = some s) :
    word.foldlM step s = some s := by
  induction p generalizing word with
  | done a =>
    cases h
    rfl
  | ask r next ih =>
    obtain ⟨a, first, more, answered, rest, rfl⟩ := tell_ask_eq_some h
    rw [List.foldlM_append, each r a first answered]
    exact ih a rest

end Program

namespace Conduct

/-- What there is to tell of a chain of layers, which are numbered from the
outside. -/
inductive Mark where
  | entered (layer : Nat)
  | left (layer : Nat) (ok : Bool)
  /-- The base has run. -/
  | ran (ok : Bool)
  deriving DecidableEq

namespace Mark

/-- Whether what the mark tells of has come to success, if it has come to
anything. -/
def ok : Mark → Bool
  | entered _ => true
  | left _ ok | ran ok => ok

/-- The layer that is entered or left. -/
def layer? : Mark → Option Nat
  | entered layer | left layer _ => some layer
  | ran _ => none

/-- How many layers are open after a mark, if as many were before it; it is
out of place if there is no answer. The layers that are open are always the
outermost ones, so their number says which they are: a layer is entered where
those before it are open and no others, the base runs where all are, and a
layer is left where it is the innermost that is open. -/
def nest (layers depth : Nat) : Mark → Option Nat
  | entered layer => if layer = depth ∧ layer < layers then some (depth + 1) else none
  | left layer _ => if layer + 1 = depth then some layer else none
  | ran _ => if depth = layers then some depth else none

/-- **That a word is well nested**: no mark is out of place, and in the end
no layer is open. -/
def Nested (layers : Nat) (word : List Mark) : Prop :=
  word.foldlM (nest layers) 0 = some 0

end Mark

variable {β : Type} {base : Executor β} {conduct : Conduct β} {conducts : List (Conduct β)}
variable {i : Nat} {x : Execution β} {result : Run.Result β} {word : List Mark}

/-- Executes the layers of a chain from a number on, and tells of it. -/
def told (base : Executor β) :
    Nat → List (Conduct β) → Execution β → Option (Run.Result β × List Mark)
  | _, [], x => (base.exec x).map fun result => (result, [.ran result.outcome.isOk])
  | i, conduct :: inner, x =>
    ((conduct x).tell (told base (i + 1) inner)).map fun (result, inside) =>
      (result, .entered i :: inside ++ [.left i result.outcome.isOk])

/-- **What is told of is the chain as it is composed.** -/
theorem map_fst_told :
    (told base i conducts x).map Prod.fst =
      (Middleware.compose base (conducts.map middleware)).exec x := by
  induction conducts generalizing i x with
  | nil =>
    rw [told, Option.map_map]
    exact Option.map_id'
  | cons conduct inner ih =>
    have inside : (fun y => (told base (i + 1) inner y).map Prod.fst) =
        (Middleware.compose base (inner.map middleware)).exec := funext fun y => ih
    rw [List.map_cons, Middleware.compose_cons, exec_middleware, ← inside, ← Program.map_fst_tell,
      told, Option.map_map]
    rfl

theorem told_cons_eq_some (h : told base i (conduct :: conducts) x = some (result, word)) :
    ∃ inside, (conduct x).tell (told base (i + 1) conducts) = some (result, inside) ∧
      word = .entered i :: inside ++ [.left i result.outcome.isOk] := by
  obtain ⟨⟨result', inside⟩, tells, eq⟩ := Option.map_eq_some_iff.mp h
  cases eq
  exact ⟨inside, tells, rfl⟩

theorem told_nil_eq_some (h : told base i [] x = some (result, word)) :
    word = [.ran result.outcome.isOk] := by
  obtain ⟨result', -, eq⟩ := Option.map_eq_some_iff.mp h
  cases eq
  rfl

/-! ## The word is well nested -/

/-- The word of a part of a chain is well nested where the layers before the
part are open. -/
theorem foldlM_told {layers : Nat} (h : told base i conducts x = some (result, word))
    (all : i + conducts.length = layers) :
    word.foldlM (Mark.nest layers) i = some i := by
  induction conducts generalizing i x result word with
  | nil =>
    obtain rfl := told_nil_eq_some h
    have here : i = layers := all
    simp [Mark.nest, here]
  | cons conduct inner ih =>
    obtain ⟨inside, tells, rfl⟩ := told_cons_eq_some h
    have rest : i + 1 + inner.length = layers := by
      rw [← all, List.length_cons]
      omega
    have innermost : i < layers := by omega
    have inside_eq : inside.foldlM (Mark.nest layers) (i + 1) = some (i + 1) :=
      Program.foldlM_tell tells fun y answer first told => ih told rest
    have entered : Mark.nest layers i (.entered i) = some (i + 1) := if_pos ⟨rfl, innermost⟩
    have left : Mark.nest layers (i + 1) (.left i result.outcome.isOk) = some i := if_pos rfl
    rw [List.cons_append, List.foldlM_cons, entered]
    show (inside ++ _).foldlM (Mark.nest layers) (i + 1) = some i
    rw [List.foldlM_append, inside_eq]
    show List.foldlM (Mark.nest layers) (i + 1) [_] = some i
    rw [List.foldlM_cons, left]
    rfl

/-- **The word of a chain is well nested.** -/
theorem nested_told (h : told base 0 conducts x = some (result, word)) :
    Mark.Nested conducts.length word :=
  foldlM_told h (Nat.zero_add _)

/-! ## How often each layer is invoked -/

/-- What is told of a layer, and else of the chain inside it. -/
theorem cases_of_mem_told {mark : Mark}
    (h : told base i (conduct :: conducts) x = some (result, word)) (mem : mark ∈ word) :
    mark.layer? = some i ∨
      ∃ y answer first, told base (i + 1) conducts y = some (answer, first) ∧ mark ∈ first := by
  obtain ⟨inside, tells, rfl⟩ := told_cons_eq_some h
  rcases List.mem_append.mp mem with early | last
  · rcases List.mem_cons.mp early with rfl | within
    · exact .inl rfl
    · exact .inr (Program.exists_of_mem_tell tells within)
  · obtain rfl := List.mem_singleton.mp last
    exact .inl rfl

/-- What is entered or left is a layer of the part of the chain. -/
theorem le_of_mem_told {mark : Mark} {j : Nat}
    (h : told base i conducts x = some (result, word)) (mem : mark ∈ word)
    (layer : mark.layer? = some j) : i ≤ j := by
  induction conducts generalizing i x result word with
  | nil =>
    obtain rfl := told_nil_eq_some h
    obtain rfl := List.mem_singleton.mp mem
    cases layer
  | cons conduct inner ih =>
    rcases cases_of_mem_told h mem with own | ⟨y, answer, first, told, there⟩
    · exact Nat.le_of_eq (Option.some.inj (own.symm.trans layer))
    · exact Nat.le_of_succ_le (ih told there)

/-- If all that is told has succeeded, so has the whole. -/
theorem isOk_of_told (h : told base i conducts x = some (result, word))
    (ok : ∀ mark ∈ word, mark.ok = true) : result.outcome.isOk = true := by
  cases conducts with
  | nil =>
    obtain rfl := told_nil_eq_some h
    exact ok _ List.mem_cons_self
  | cons conduct inner =>
    obtain ⟨inside, -, rfl⟩ := told_cons_eq_some h
    exact ok _ (List.mem_append_right _ List.mem_cons_self)

/-- **A program that calls a number of times tells of as many calls.** -/
theorem Calls.count_tell {α : Type} {k c : Nat} {p : Program (Execution.signature β) α} {b : α}
    {mark : Mark} (calls : Calls k p) (h : p.tell (told base i conducts) = some (b, word))
    (ok : ∀ mark ∈ word, mark.ok = true)
    (each : ∀ x result first, told base i conducts x = some (result, first) →
      (∀ mark ∈ first, mark.ok = true) → first.count mark = c) :
    word.count mark = k * c := by
  induction calls generalizing word with
  | done a =>
    cases h
    rw [Nat.zero_mul]
    rfl
  | @ask k x next rest ih =>
    obtain ⟨answer, first, more, answered, tells, rfl⟩ := Program.tell_ask_eq_some h
    obtain ⟨ok_first, ok_more⟩ := List.forall_mem_append.mp ok
    have succeeded : answer.outcome.isOk = true := isOk_of_told answered ok_first
    rw [List.count_append, each x answer first answered ok_first, ih answer succeeded tells ok_more,
      Nat.succ_mul, Nat.add_comm]

/-- **How often the layers are invoked**: each as often as the product of
those around it says, and the base as that of all. -/
theorem count_told {ks : List Nat}
    (calls : List.Forall₂ (fun (conduct : Conduct β) k => ∀ x, Calls k (conduct x)) conducts ks)
    (h : told base i conducts x = some (result, word)) (ok : ∀ mark ∈ word, mark.ok = true) :
    (∀ j < conducts.length, word.count (.entered (i + j)) = (ks.take j).prod ∧
      word.count (.left (i + j) true) = (ks.take j).prod) ∧
    word.count (.ran true) = ks.prod := by
  induction calls generalizing i x result word with
  | nil =>
    obtain rfl := told_nil_eq_some h
    have succeeded : result.outcome.isOk = true := ok _ List.mem_cons_self
    rw [succeeded]
    exact ⟨fun j lt => absurd lt (Nat.not_lt_zero j), rfl⟩
  | @cons conduct k inner ks head _ ih =>
    have succeeded : result.outcome.isOk = true := isOk_of_told h ok
    obtain ⟨inside, tells, rfl⟩ := told_cons_eq_some h
    rw [succeeded] at ok ⊢
    have ok_inside : ∀ mark ∈ inside, mark.ok = true := fun mark mem =>
      ok mark (List.mem_append_left _ (List.mem_cons_of_mem _ mem))
    -- what every call tells of is told of in each of them
    have times {mark : Mark} {c : Nat} (each : ∀ y answer first,
        told base (i + 1) inner y = some (answer, first) → (∀ mark ∈ first, mark.ok = true) →
          first.count mark = c) : inside.count mark = k * c :=
      (head x).count_tell tells ok_inside each
    have outside {mark : Mark} (layer : mark.layer? = some i) : inside.count mark = 0 := by
      refine List.count_eq_zero.mpr fun mem => ?_
      obtain ⟨y, answer, first, told, there⟩ := Program.exists_of_mem_tell tells mem
      exact Nat.not_succ_le_self i (le_of_mem_told told there layer)
    refine ⟨fun j lt => ?_, ?_⟩
    · cases j with
      | zero =>
        have entered : inside.count (.entered i) = 0 := outside rfl
        have left : inside.count (.left i true) = 0 := outside rfl
        simp [List.count_append, entered, left]
      | succ j =>
        have lt : j < inner.length := Nat.lt_of_succ_lt_succ lt
        have shift : i + (j + 1) = i + 1 + j := by omega
        have ne : i ≠ i + 1 + j := by omega
        rw [List.take_succ_cons, List.prod_cons, shift]
        constructor
        · rw [← times fun y answer first told ok => ((ih told ok).1 j lt).1]
          simp [List.count_append, ne]
        · rw [← times fun y answer first told ok => ((ih told ok).1 j lt).2]
          simp [List.count_append, ne]
    · rw [List.prod_cons, ← times fun y answer first told ok => (ih told ok).2]
      simp [List.count_append]

/-! ## A layer that calls nothing -/

variable {outer inner : List (Conduct β)}

/-- What is inside a layer that calls nothing makes no difference. -/
theorem middleware_eq_of_calls_zero (none : ∀ x, Calls 0 (conduct x)) {next next' : Executor β} :
    conduct.middleware next = conduct.middleware next' := by
  funext token logger workflow world
  exact (none ⟨token, logger, workflow, world⟩).follow_eq

/-- **Nothing runs inside a layer that calls nothing.** -/
theorem exists_layer_of_mem_told {mark : Mark} (none : ∀ x, Calls 0 (conduct x))
    (h : told base i (outer ++ conduct :: inner) x = some (result, word)) (mem : mark ∈ word) :
    ∃ j ≤ i + outer.length, mark.layer? = some j := by
  induction outer generalizing i x result word with
  | nil =>
    obtain ⟨inside, tells, rfl⟩ := told_cons_eq_some h
    have empty : inside = [] := by
      cases called : conduct x with
      | done a =>
        rw [called] at tells
        cases tells
        rfl
      | ask y next => cases called ▸ none x
    subst empty
    have own : mark = .entered i ∨ mark = .left i result.outcome.isOk := by simpa using mem
    rcases own with rfl | rfl <;> exact ⟨i, Nat.le_refl _, rfl⟩
  | cons first outer ih =>
    rcases cases_of_mem_told h mem with own | ⟨y, answer, word, told, there⟩
    · exact ⟨i, Nat.le_add_right _ _, own⟩
    · obtain ⟨j, le, layer⟩ := ih told there
      refine ⟨j, ?_, layer⟩
      rw [List.length_cons]
      omega

end Conduct

/-! ## The law -/

namespace Runner

variable {β : Type} {base : Executor β}

/-- Middleware that is added one after another is a chain around the base. -/
theorem execute_foldl_use {r : Runner β} {layers : List (Middleware β)} :
    (layers.foldl use r).execute base = r.execute (Middleware.compose base layers) := by
  induction layers generalizing r with
  | nil => rfl
  | cons layer layers ih => rw [List.foldl_cons, ih, execute_use, Middleware.compose_cons]

end Runner

namespace Middleware

open Conduct (Calls told)

variable {β : Type}

/-- A chain answers if its base does. -/
theorem isSome_compose {base : Executor β} {conducts : List (Conduct β)}
    (answers : ∀ x, (base.exec x).isSome) (x : Execution β) :
    ((compose base (conducts.map Conduct.middleware)).exec x).isSome := by
  induction conducts generalizing x with
  | nil => exact answers x
  | cons conduct inner ih => exact Program.isSome_follow ih (conduct x)

/-- **The law of composition.** A chain of layers around a base is the outer
ones around the inner ones around the base, and without layers it is the
base; so a runner executes through its layers in the order in which they were
added, the first outermost. Let the layers keep to conducts. Then an
execution is told in a word, and the word is well nested: every layer but the
first is invoked inside the one before it, and the base runs inside the last.
If each layer calls a number of times on each invocation, and all that is
told of succeeds, then each is invoked as often as the product of those
before it says, and the base runs as often as the product of all says. Inside
a layer that never calls, nothing is entered and nothing runs, and it makes
no difference to the outcome, the workflow and the world what is there. A
layer given by its parts is one that calls as often as it says, and the one
that reports how long a run took calls once. -/
theorem composition_law (base : Executor β) :
    (∀ outer inner, compose base (outer ++ inner) = compose (compose base inner) outer) ∧
    compose base [] = base ∧
    (∀ logger layers, (layers.foldl Runner.use ⟨logger, []⟩).execute base = compose base layers) ∧
    (∀ logger (conducts : List (Conduct β)) x,
      let execute := ((conducts.map Conduct.middleware).foldl Runner.use ⟨logger, []⟩).execute base
      ((∀ y, (base.exec y).isSome) → (execute.exec x).isSome) ∧
      ∀ result, execute.exec x = some result →
        ∃ word, told base 0 conducts x = some (result, word) ∧
          Conduct.Mark.Nested conducts.length word ∧
          ∀ ks, List.Forall₂ (fun conduct k => ∀ y, Calls k (conduct y)) conducts ks →
            (∀ mark ∈ word, mark.ok = true) →
            (∀ j < conducts.length, word.count (.entered j) = (ks.take j).prod ∧
              word.count (.left j true) = (ks.take j).prod) ∧
            word.count (.ran true) = ks.prod) ∧
    (∀ conduct : Conduct β, (∀ y, Calls 0 (conduct y)) →
      (∀ (base' : Executor β) outer inner inner',
        compose base (outer ++ conduct.middleware :: inner) =
          compose base' (outer ++ conduct.middleware :: inner')) ∧
      ∀ outer inner x result word, told base 0 (outer ++ conduct :: inner) x = some (result, word) →
        ∀ mark ∈ word, ∃ j ≤ outer.length, mark.layer? = some j) ∧
    (∀ l : Layer β, l.conduct.middleware = l.middleware ∧ ∀ y, Calls l.calls (l.conduct y)) ∧
    Conduct.middleware timingConduct = timing (β := β) ∧
      ∀ y : Execution β, Calls 1 (timingConduct y) := by
  have executes (logger : Logger) (layers : List (Middleware β)) :
      (layers.foldl Runner.use ⟨logger, []⟩).execute base = compose base layers :=
    Runner.execute_foldl_use
  refine ⟨fun _ _ => compose_append, rfl, executes, ?_, ?_,
    fun l => ⟨Layer.middleware_conduct, fun _ => Layer.calls_conduct⟩, timing_conduct⟩
  · intro logger conducts x execute
    have chain : execute = compose base (conducts.map Conduct.middleware) := executes logger _
    rw [chain]
    refine ⟨fun answers => isSome_compose answers x, fun result executed => ?_⟩
    rw [← Conduct.map_fst_told (i := 0)] at executed
    obtain ⟨⟨ended, word⟩, tells, eq⟩ := Option.map_eq_some_iff.mp executed
    obtain rfl : ended = result := eq
    refine ⟨word, tells, Conduct.nested_told tells, fun ks calls ok => ?_⟩
    have counts := Conduct.count_told calls tells ok
    simpa only [Nat.zero_add] using counts
  · intro conduct none
    refine ⟨fun base' outer inner inner' => ?_, fun outer inner x result word tells mark mem => ?_⟩
    · rw [compose_append, compose_append, compose_cons, compose_cons]
      exact congrArg (compose · outer) (Conduct.middleware_eq_of_calls_zero none)
    · obtain ⟨j, le, layer⟩ := Conduct.exists_layer_of_mem_told none tells mem
      exact ⟨j, Nat.zero_add outer.length ▸ le, layer⟩

/-- A layer that calls twice around one that calls three times: the inner one
is invoked twice, and the base runs six times. With a layer that calls
nothing in front, it does not matter whether the base would come to an
end. -/
theorem composition_law_twice :
    let layer (name : String) (calls : Nat) : Layer Unit :=
      ⟨name, Prod.mk, Prod.mk, calls, false, none, none, none, .keep⟩
    let chain := [(layer "twice" 2).conduct, (layer "thrice" 3).conduct]
    let x : Execution Unit :=
      ⟨⟨0, none⟩, .discard, ⟨"w", "w", "", ∅, [], 0, ∅⟩, .startingAt 0⟩
    let gate := (layer "gate" 0).conduct.middleware
    (∃ result word, told .idle 0 chain x = some (result, word) ∧
      Conduct.Mark.Nested 2 word ∧ word.count (.entered 1) = 2 ∧ word.count (.ran true) = 6) ∧
    compose .idle [gate] = compose (fun _ _ _ _ => none) [gate] := by
  intro layer chain x gate
  obtain ⟨-, -, -, chains, gates, layers, -⟩ := composition_law (β := Unit) .idle
  refine ⟨?_, (gates _ fun y => (layers (layer "gate" 0)).2 y).1 _ [] [] []⟩
  obtain ⟨answers, tells⟩ := chains .discard chain x
  obtain ⟨result, executed⟩ := Option.isSome_iff_exists.mp (answers fun _ => rfl)
  obtain ⟨word, told_eq, nested, counts⟩ := tells result executed
  have all_ok : (told .idle 0 chain x).all (·.2.all Conduct.Mark.ok) = true := by decide +kernel
  rw [told_eq] at all_ok
  have calls : List.Forall₂ (fun conduct k => ∀ y, Calls k (conduct y)) chain [2, 3] :=
    .cons (layers (layer "twice" 2)).2 (.cons (layers (layer "thrice" 3)).2 .nil)
  obtain ⟨invoked, ran⟩ := counts [2, 3] calls (List.all_eq_true.mp all_ok)
  exact ⟨result, word, told_eq, nested, (invoked 1 (by decide)).1, ran⟩

end Middleware

end StagedWorkflow
