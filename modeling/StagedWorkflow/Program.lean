/-!
# Programs of requests

A program asks its surroundings for one thing after another and goes on
with the answers. What can be asked, and what kind of answer comes back, is
its signature; what the answers are is left to whoever runs it. A program
over one signature also runs over any other that embeds it.
-/

namespace StagedWorkflow

/-- The requests a program can make, each with its kind of answer. -/
structure Signature where
  Request : Type
  Answer : Request → Type

/-- A program over a signature. -/
inductive Program (S : Signature) (α : Type) where
  | done (result : α)
  | ask (request : S.Request) (next : S.Answer request → Program S α)

namespace Program

variable {S T : Signature} {α β γ σ : Type}

/-- The program that makes one request. -/
def request (r : S.Request) : Program S (S.Answer r) :=
  .ask r .done

/-- One program after another. -/
def andThen : Program S α → (α → Program S β) → Program S β
  | .done a, f => f a
  | .ask r next, f => .ask r fun answer => (next answer).andThen f

instance : Monad (Program S) where
  pure := .done
  bind := .andThen

/-- Runs a program against a state that answers its requests. -/
def run (answer : (r : S.Request) → σ → S.Answer r × σ) : Program S α → σ → α × σ
  | .done a, s => (a, s)
  | .ask r next, s => let (a, s') := answer r s; (next a).run answer s'

@[simp] theorem done_bind {a : α} {f : α → Program S β} :
    (Program.done a >>= f) = f a := rfl

@[simp] theorem ask_bind {r : S.Request} {next : S.Answer r → Program S α}
    {f : α → Program S β} : (Program.ask r next >>= f) = .ask r fun answer => next answer >>= f :=
  rfl

instance : LawfulMonad (Program S) := LawfulMonad.mk' (Program S)
  (fun p => by
    induction p with
    | done => rfl
    | ask r next ih => exact congrArg (Program.ask r) (funext ih))
  (fun _ _ => rfl)
  (fun p f g => by
    induction p with
    | done => rfl
    | ask r next ih => exact congrArg (Program.ask r) (funext ih))

/-- **A run of two programs is one run after the other.** -/
theorem run_bind {answer : (r : S.Request) → σ → S.Answer r × σ} {p : Program S α}
    {f : α → Program S β} {s : σ} :
    (p >>= f).run answer s = (f (p.run answer s).1).run answer (p.run answer s).2 := by
  induction p generalizing s with
  | done => rfl
  | ask r next ih => exact ih _

/-- The program over a signature that embeds its own. -/
def embed (request : S.Request → T.Request)
    (answer : (r : S.Request) → T.Answer (request r) → S.Answer r) : Program S α → Program T α
  | .done a => .done a
  | .ask r next => .ask (request r) fun a => (next (answer r a)).embed request answer

end Program

end StagedWorkflow
