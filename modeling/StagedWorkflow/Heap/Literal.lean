import StagedWorkflow.Kind
/-!
# Literals

A literal is a value spelled out in full: an explicit nil, a scalar, or a
store as the list of what its keys hold. It mentions no store number and no
cell, so it means the same in every heap.
-/

namespace StagedWorkflow

/-- A value spelled out. -/
inductive Literal where
  | nil
  | scalar (s : Scalar) (data : s.Carrier)
  | store (entries : List (String × Literal))

namespace Literal

/-- The kind of a literal; the explicit nil has none. -/
def kind? : Literal → Option Kind
  | nil => none
  | scalar s _ => some (.scalar s)
  | store _ => some .store

/-- The name of the kind of a literal. -/
def kindName (literal : Literal) : String :=
  (literal.kind?.map Kind.name).getD Kind.nilName

mutual

/-- A literal in plain form. -/
def datum : Literal → Datum
  | nil => .null
  | scalar s data => s.datum data
  | store entries => .list (entriesDatum entries)

/-- What the keys of a store hold, in plain form: each key with the name of
the kind and the value. -/
def entriesDatum : List (String × Literal) → List Datum
  | [] => []
  | (key, literal) :: rest =>
    .list [.text key, .text literal.kindName, literal.datum] :: entriesDatum rest

end

end Literal

end StagedWorkflow
