import StagedWorkflow.Middleware
/-!
# Layers

A layer is a middleware given by its parts: what it does before and after,
how often it calls the executor inside and with which token and logger,
when it cancels, and what it makes of the outcome. The journal shows when a
layer is entered and left, and what each of its calls came to.
-/

namespace StagedWorkflow

/-- When a layer cancels the token it was given. -/
inductive Layer.Moment where
  | before | after
  deriving DecidableEq

/-- What a layer makes of the outcome of its last call. -/
inductive Layer.Verdict where
  /-- It is passed on. -/
  | keep
  /-- The layer succeeds. -/
  | succeed
  /-- An error is wrapped as a failure of the layer. -/
  | wrap
  /-- The layer fails on its own account. -/
  | fail (source : Fault)
  /-- The layer ends with an error of its choice. -/
  | replace (error : RunError)

/-- The outcome of a layer. -/
def Layer.Verdict.apply : Layer.Verdict → Outcome → Outcome
  | keep, outcome => outcome
  | succeed, _ => .ok ()
  | wrap, .ok () => .ok ()
  | wrap, .error error => .error (.middleware (.run error))
  | fail source, _ => .error (.middleware source)
  | replace error, _ => .error error

/-- A middleware by its parts. -/
structure Layer (β : Type) where
  name : String
  /-- What is done before the calls. -/
  before : Workflow β → World → Workflow β × World
  /-- What is done after them. -/
  after : Workflow β → World → Workflow β × World
  /-- How often the executor inside is called, at most. -/
  calls : Nat := 1
  /-- Go on calling after an error. -/
  keepGoing : Bool := false
  /-- The token of a call, made anew for each; the given one if there is none. -/
  token : Option (World → Token × World) := none
  /-- The logger of the calls; the given one if there is none. -/
  logger : Option Logger := none
  cancel : Option Layer.Moment := none
  verdict : Layer.Verdict := .keep

namespace Layer

variable {β : Type}

/-- Calls the executor inside once. -/
def callOnce (l : Layer β) (next : Executor β) (token : Token) (logger : Logger)
    (workflow : Workflow β) (world : World) : Option (Run.Result β) :=
  -- each call has a token of its own, if the layer makes them
  let (token, world) :=
    match l.token with
    | none => (token, world)
    | some fresh => fresh world
  (next token (l.logger.getD logger) workflow world).map fun result =>
    { result with world := result.world.write (.returned l.name result.outcome) }

/-- Calls the executor inside up to a number of times, going on from the
outcome of the call before. -/
def callTimes (l : Layer β) (next : Executor β) (token : Token) (logger : Logger) :
    Nat → Run.Result β → Option (Run.Result β)
  | 0, last => some last
  | calls + 1, last =>
    match l.callOnce next token logger last.workflow last.world with
    | none => none
    | some result =>
      -- an error ends the calls unless the layer goes on
      if result.outcome.isOk || l.keepGoing then callTimes l next token logger calls result
      else some result

/-- Cancels the token given, if this is the moment for it. -/
def cancelAt (l : Layer β) (moment : Moment) (token : Token) (world : World) : World :=
  if l.cancel = some moment then world.cancel token else world

/-- The middleware that a layer describes. -/
def middleware (l : Layer β) : Middleware β :=
  fun next token logger workflow world =>
    let world := l.cancelAt .before token (world.write (.entered l.name))
    let (workflow, world) := l.before workflow world
    (l.callTimes next token logger l.calls ⟨workflow, world, .ok ()⟩).map fun last =>
      let (workflow, world) := l.after last.workflow (l.cancelAt .after token last.world)
      ⟨workflow, world.write (.left l.name), l.verdict.apply last.outcome⟩

/-- The executor of a layer that has nothing inside it, and so calls
nothing. -/
def executor (l : Layer β) : Executor β :=
  { l with calls := 0 }.middleware .idle

end Layer

end StagedWorkflow
