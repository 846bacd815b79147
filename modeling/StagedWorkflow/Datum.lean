/-!
# Plain answers

A datum is an answer in plain form: nothing, a truth value, a number, a
text, a list, or a record of named answers. Records are compared without
regard to the order of their fields (`Datum.same`).
-/

namespace StagedWorkflow

/-- An answer in plain form. -/
inductive Datum where
  | null
  | truth (b : Bool)
  | number (n : Int)
  /-- The number `mantissa / 10 ^ places`, written with a point. -/
  | decimal (mantissa : Int) (places : Nat)
  | text (s : String)
  | list (items : List Datum)
  | record (fields : List (String × Datum))

namespace Datum

instance : Inhabited Datum := ⟨null⟩

/-- A list of texts. -/
def texts (items : List String) : Datum :=
  .list (items.map .text)

/-- A count. -/
def count (n : Nat) : Datum :=
  .number n

/-- A text, if there is one. -/
def textOrNull : Option String → Datum
  | some s => .text s
  | none => .null

/-- Whether there is no answer. -/
def isNull : Datum → Bool
  | .null => true
  | _ => false

mutual

/-- Whether two answers are the same, in whatever order records list their
fields. -/
def same : Datum → Datum → Bool
  | .null, .null => true
  | .truth a, .truth b => a == b
  | .number m, .number n => m == n
  | .decimal m p, .decimal n q => m * 10 ^ q == n * 10 ^ p
  | .text s, .text t => s == t
  | .list xs, .list ys => sameItems xs ys
  | .record fs, .record gs => fs.length == gs.length && sameFields fs gs
  | _, _ => false

/-- Whether two lists hold the same answers in the same order. -/
def sameItems : List Datum → List Datum → Bool
  | [], [] => true
  | x :: xs, y :: ys => same x y && sameItems xs ys
  | _, _ => false

/-- Whether each field is found, with the same answer, among others. -/
def sameFields : List (String × Datum) → List (String × Datum) → Bool
  | [], _ => true
  | (name, x) :: rest, gs =>
    (match gs.lookup name with
      | some y => same x y
      | none => false) && sameFields rest gs

end

/-- Whether the answer is a whole number below a bound. -/
def isBelow (bound : Int) : Datum → Bool
  | .number n => n < bound
  | _ => false

end Datum

end StagedWorkflow
