import StagedWorkflow.Layer
import StagedWorkflow.Program

/-!
# How layers conduct themselves

A middleware is any function of the executor inside it. One that does nothing
with that executor but call it, some number of times, and goes on with what
comes back, is a program whose requests are the calls. Such a program is a
`Conduct`, and the middleware it describes follows it with the calls made to
the executor inside (`Conduct.middleware`). Layers given by their parts are of
this sort (`Layer.middleware_conduct`), and how often they call is read off
their programs (`Conduct.Calls`).
-/

namespace StagedWorkflow

namespace Program

variable {S : Signature} {α γ : Type}

/-- Follows a program, as long as its requests are answered. -/
def follow (answer : (r : S.Request) → Option (S.Answer r)) : Program S α → Option α
  | .done a => some a
  | .ask r next => (answer r).bind fun a => (next a).follow answer

theorem follow_bind {answer : (r : S.Request) → Option (S.Answer r)} {p : Program S α}
    {f : α → Program S γ} :
    (p >>= f).follow answer = (p.follow answer).bind fun a => (f a).follow answer := by
  induction p with
  | done => rfl
  | ask r next ih =>
    rw [ask_bind, follow, follow, Option.bind_assoc]
    exact congrArg (Option.bind _) (funext ih)

/-- **A program comes to an end if all it asks is answered.** -/
theorem isSome_follow {answer : (r : S.Request) → Option (S.Answer r)}
    (answered : ∀ r, (answer r).isSome) (p : Program S α) : (p.follow answer).isSome := by
  induction p with
  | done => rfl
  | ask r next ih =>
    obtain ⟨a, eq⟩ := Option.isSome_iff_exists.mp (answered r)
    rw [follow, eq, Option.bind_some]
    exact ih a

end Program

variable {β : Type}

/-- What an executor is given. -/
structure Execution (β : Type) where
  token : Token
  logger : Logger
  workflow : Workflow β
  world : World

/-- Executes what is given. -/
def Executor.exec (e : Executor β) (x : Execution β) : Option (Run.Result β) :=
  e x.token x.logger x.workflow x.world

/-- The calls of an executor, each answered with what it came to. -/
abbrev Execution.signature (β : Type) : Signature :=
  ⟨Execution β, fun _ => Run.Result β⟩

/-- What a layer does when it is executed, as a program of calls of the
executor inside. -/
abbrev Conduct (β : Type) := Execution β → Program (Execution.signature β) (Run.Result β)

namespace Conduct

/-- The middleware that keeps to a conduct. -/
def middleware (conduct : Conduct β) : Middleware β :=
  fun next token logger workflow world =>
    (conduct ⟨token, logger, workflow, world⟩).follow next.exec

theorem exec_middleware {conduct : Conduct β} {next : Executor β} {x : Execution β} :
    (conduct.middleware next).exec x = (conduct x).follow next.exec := rfl

/-- **That a program calls a number of times**, as long as its calls
succeed. -/
inductive Calls {α : Type} : Nat → Program (Execution.signature β) α → Prop where
  | done (a : α) : Calls 0 (.done a)
  | ask {k : Nat} {x : Execution β} {next : Run.Result β → Program (Execution.signature β) α}
      (rest : ∀ result, result.outcome.isOk = true → Calls k (next result)) :
      Calls (k + 1) (.ask x next)

variable {α γ : Type} {k m : Nat} {p : Program (Execution.signature β) α}

theorem Calls.bind {f : α → Program (Execution.signature β) γ} (first : Calls k p)
    (second : ∀ a, Calls m (f a)) : Calls (k + m) (p >>= f) := by
  induction first with
  | done a =>
    rw [Nat.zero_add]
    exact second a
  | @ask k x next rest ih =>
    rw [Nat.add_right_comm]
    exact .ask ih

/-- **Without a call it does not matter what is inside.** -/
theorem Calls.follow_eq {inside inside' : Execution β → Option (Run.Result β)}
    (none : Calls 0 p) : p.follow inside = p.follow inside' := by
  cases none
  rfl

end Conduct

/-! ## Layers given by their parts -/

namespace Layer

open Conduct (Calls)

variable (l : Layer β)

/-- Calls the executor inside once. -/
def callProgram (token : Token) (logger : Logger) (workflow : Workflow β) (world : World) :
    Program (Execution.signature β) (Run.Result β) :=
  let (token, world) :=
    match l.token with
    | none => (token, world)
    | some fresh => fresh world
  .ask ⟨token, l.logger.getD logger, workflow, world⟩ fun result =>
    .done { result with world := result.world.write (.returned l.name result.outcome) }

/-- Calls it up to a number of times. -/
def callsProgram (token : Token) (logger : Logger) :
    Nat → Run.Result β → Program (Execution.signature β) (Run.Result β)
  | 0, last => .done last
  | calls + 1, last => do
    let result ← l.callProgram token logger last.workflow last.world
    if result.outcome.isOk || l.keepGoing then callsProgram token logger calls result
    else pure result

/-- The conduct of a layer. -/
def conduct : Conduct β := fun x => do
  let world := l.cancelAt .before x.token (x.world.write (.entered l.name))
  let (workflow, world) := l.before x.workflow world
  let last ← l.callsProgram x.token x.logger l.calls ⟨workflow, world, .ok ()⟩
  let (workflow, world) := l.after last.workflow (l.cancelAt .after x.token last.world)
  pure ⟨workflow, world.write (.left l.name), l.verdict.apply last.outcome⟩

variable {l} {next : Executor β} {token : Token} {logger : Logger} {calls : Nat}

theorem follow_callProgram {workflow : Workflow β} {world : World} :
    (l.callProgram token logger workflow world).follow next.exec =
      l.callOnce next token logger workflow world := by
  rw [callProgram, callOnce]
  exact Option.map_eq_bind.symm

theorem follow_callsProgram {last : Run.Result β} :
    (l.callsProgram token logger calls last).follow next.exec =
      l.callTimes next token logger calls last := by
  induction calls generalizing last with
  | zero => rfl
  | succ calls ih =>
    rw [callsProgram, Program.follow_bind, follow_callProgram, callTimes]
    cases l.callOnce next token logger last.workflow last.world with
    | none => rfl
    | some result =>
      show (ite _ _ (pure result) : Program (Execution.signature β) _).follow next.exec = ite _ _ _
      by_cases going : (result.outcome.isOk || l.keepGoing) = true
      · rw [if_pos going, if_pos going]
        exact ih
      · rw [if_neg going, if_neg going]
        rfl

/-- **A layer keeps to its conduct.** -/
theorem middleware_conduct : l.conduct.middleware = l.middleware := by
  funext next token logger workflow world
  show (l.conduct ⟨token, logger, workflow, world⟩).follow next.exec = _
  rw [conduct, Program.follow_bind, follow_callsProgram, middleware]
  exact Option.map_eq_bind.symm

theorem calls_callsProgram {last : Run.Result β} :
    Calls calls (l.callsProgram token logger calls last) := by
  induction calls generalizing last with
  | zero => exact .done _
  | succ calls ih =>
    refine .ask fun result ok => ?_
    have going : (result.outcome.isOk || l.keepGoing) = true := by rw [ok, Bool.true_or]
    show Calls calls (if (result.outcome.isOk || l.keepGoing) = true then _ else _)
    rw [if_pos going]
    exact ih

/-- **A layer calls as often as it says.** -/
theorem calls_conduct {x : Execution β} : Calls l.calls (l.conduct x) :=
  calls_callsProgram.bind fun _ => .done _

end Layer

namespace Middleware

/-- The conduct of the layer that reports how long a run took. -/
def timingConduct : Conduct β := fun x =>
  .ask x fun result =>
    .done { result with world := result.world.notify x.logger (timingNotice result) }

/-- It calls once. -/
theorem timing_conduct : timingConduct.middleware = timing (β := β) ∧
    ∀ x : Execution β, Conduct.Calls 1 (timingConduct x) := by
  refine ⟨?_, fun x => .ask fun result _ => .done _⟩
  funext next token logger workflow world
  exact Option.map_eq_bind.symm

end Middleware

end StagedWorkflow
