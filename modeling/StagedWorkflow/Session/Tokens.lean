import StagedWorkflow.Session.TokenSpec
import StagedWorkflow.Report
/-!
# Sessions with tokens

A session that makes, clones, cancels and checks tokens, by number.
-/

namespace StagedWorkflow

namespace Session

/-- The tokens of a session, and their signals. -/
structure TokenState where
  signals : Signals
  tokens : List Token

/-- An operation on the token of a number. -/
inductive TokenOp where
  /-- Makes a new token; the number does not matter. -/
  | make (kind : TokenKind)
  | clone
  | cancel
  | check
  | isCancelled
  | hasDeadline
  | outline (pretty : Bool)

namespace TokenState

/-- Takes up a token under the next number. -/
def number (s : TokenState) (made : Token × Signals) : Datum × TokenState :=
  (.count s.tokens.length, ⟨made.2, s.tokens ++ [made.1]⟩)

/-- Checks a token. -/
def check (s : TokenState) (token : Token) : Except CancelReason Unit × TokenState :=
  let (status, signals) := s.signals.check token
  (status, { s with signals })

/-- Does something with the token of a number. -/
def withToken (s : TokenState) (index : Nat) (f : Token → Datum × TokenState) :
    Datum × TokenState :=
  (s.tokens[index]?).elim (.text "no token", s) f

end TokenState

/-- Carries out an operation. -/
def TokenOp.run (s : TokenState) (index : Nat) : TokenOp → Datum × TokenState
  | make kind => s.number (kind.make s.signals)
  | clone => s.withToken index fun token => s.number (token, s.signals)
  | cancel => s.withToken index fun token =>
    (.null, { s with signals := s.signals.cancel token })
  | check => s.withToken index fun token => (s.check token).map CancelReason.statusDatum id
  | isCancelled => s.withToken index fun token =>
    (s.check token).map (fun status => .truth !status.isOk) id
  | hasDeadline => s.withToken index fun token => (.truth token.deadline.isSome, s)
  | outline pretty => s.withToken index fun token =>
    ((s.signals.outline token).datum pretty, s)

/-- The answers to operations in order. -/
def runTokens (time : Nat) (ops : List (Nat × TokenOp)) : Datum :=
  let (answers, _) := ops.foldl (fun (answers, s) (index, op) =>
    let (answer, s) := op.run s index
    (answers ++ [answer], s)) ([], (⟨.startingAt time, []⟩ : TokenState))
  .record [("steps", .list answers)]

end Session

end StagedWorkflow
