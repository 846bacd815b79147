import StagedWorkflow.World
/-!
# Tokens by description

The kinds of tokens a session makes: live or cancelled, without a deadline
or with one that has passed, passes now, or is a day ahead.
-/

namespace StagedWorkflow

namespace Session

/-- A kind of token. -/
inductive TokenKind where
  | live
  | cancelled
  /-- The deadline was a millisecond ago. -/
  | past
  /-- The deadline is now. -/
  | dueNow
  /-- The deadline is in a day. -/
  | future
  /-- The deadline was a millisecond ago, and the token is cancelled too. -/
  | pastCancelled
  deriving DecidableEq

/-- Makes a token with a deadline that is counted from now. -/
def timed (s : Signals) (deadline : Nat → Nat) : Token × Signals :=
  let (now, clock) := s.clock.read
  { s with clock }.create (some (deadline now))

/-- Makes a token and cancels it. -/
def cancelledAtOnce (made : Token × Signals) : Token × Signals :=
  (made.1, made.2.cancel made.1)

/-- Makes a token of a kind. -/
def TokenKind.make : TokenKind → Signals → Token × Signals
  | live, s => s.create
  | cancelled, s => cancelledAtOnce s.create
  | past, s => timed s (· - 1)
  | dueNow, s => timed s id
  | future, s => timed s (· + 24 * 60 * 60 * 1000)
  | pastCancelled, s => cancelledAtOnce (timed s (· - 1))

/-- Makes a token of a kind in a world. -/
def TokenKind.makeIn (kind : TokenKind) (world : World) : Token × World :=
  let (token, signals) := kind.make world.signals
  (token, { world with signals })

/-- A token by kind, or one that the steps of a session share by name. -/
inductive TokenSpec where
  | fresh (kind : TokenKind)
  | shared (name : String)

end Session

end StagedWorkflow
