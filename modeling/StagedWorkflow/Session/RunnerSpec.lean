import StagedWorkflow.Session.WorkflowOp
import StagedWorkflow.Session.TokenSpec
import StagedWorkflow.Layer
import StagedWorkflow.Runner
/-!
# Runners by description

A runner is described by its logger and its middleware, and a middleware by
the parts of its layer. A description is spelled out, or it is the name of
a definition; where nothing is defined under a name, the plain description
is meant, which asks for nothing.
-/

namespace StagedWorkflow

namespace Session

open Script

/-- A description, spelled out or by name. -/
inductive Ref (α : Type) where
  | named (name : String)
  | literal (spec : α)

/-- The description that is meant, with the plain one for names that are not
defined. -/
def Ref.resolve {α : Type} (defs : List (String × α)) (plain : α) : Ref α → α
  | .named name => (defs.lookup name).getD plain
  | .literal spec => spec

/-- A layer given by its parts, with scripted operations. -/
structure LayerSpec where
  name : String := ""
  before : List WorkflowOp := []
  after : List WorkflowOp := []
  calls : Nat := 1
  keepGoing : Bool := false
  token : Option TokenKind := none
  logger : Option Logger := none
  cancel : Option Layer.Moment := none
  verdict : Layer.Verdict := .keep

/-- The layer that is described. -/
def LayerSpec.build (defs : Definitions) (l : LayerSpec) : Layer Script where
  name := l.name
  before := runLayerOps defs l.name l.before
  after := runLayerOps defs l.name l.after
  calls := l.calls
  keepGoing := l.keepGoing
  token := l.token.map TokenKind.makeIn
  logger := l.logger
  cancel := l.cancel
  verdict := l.verdict

/-- A middleware by description. -/
inductive MiddlewareSpec where
  | timing
  | layer (spec : LayerSpec)

/-- The middleware that is described. -/
def MiddlewareSpec.build (defs : Definitions) : MiddlewareSpec → Middleware Script
  | timing => .timing
  | layer spec => (spec.build defs).middleware

/-- A runner by description. -/
structure RunnerSpec where
  /-- The logger; the standard one if there is none. -/
  logger : Option Logger := none
  layers : List (Ref MiddlewareSpec) := []

/-- What a session can name: actions and stages, and what runners are made
of. -/
structure Vocabulary where
  scripts : Definitions
  layerSpecs : List (String × LayerSpec)
  middlewareSpecs : List (String × MiddlewareSpec)
  runnerSpecs : List (String × RunnerSpec)

namespace Vocabulary

/-- The layer that is meant. -/
def layer (v : Vocabulary) (ref : Ref LayerSpec) : Layer Script :=
  (ref.resolve v.layerSpecs {}).build v.scripts

/-- The middleware that is meant. -/
def middleware (v : Vocabulary) (ref : Ref MiddlewareSpec) : Middleware Script :=
  (ref.resolve v.middlewareSpecs (.layer {})).build v.scripts

/-- The runner that is meant. -/
def runner (v : Vocabulary) (ref : Ref RunnerSpec) : Runner Script :=
  let spec := ref.resolve v.runnerSpecs {}
  ⟨spec.logger.getD .standard, spec.layers.map v.middleware⟩

end Vocabulary

end Session

end StagedWorkflow
