import StagedWorkflow.Table
import StagedWorkflow.Kind
import StagedWorkflow.Error
/-!
# Stores

A store maps keys to values of any kind. A value is asked for with the kind
it is expected to have; `read` and `share` refuse alike, and only differ in
whether the cell that holds the value is answered too. Each put makes a
cell of its own, and copies of an entry share it. A key can also hold an
explicit nil, which is of no kind. `Store.share_eq_ok_iff` and
`Store.read_eq_ok_iff` say when a value is found.
-/

namespace StagedWorkflow

open Text (Outline)

/-- The number of a cell: one for each value that was put. -/
abbrev CellId := Nat

/-- What a key holds. -/
inductive Entry where
  | nil
  | held (cell : CellId) (value : Value)

namespace Entry

/-- Whether the entry is the explicit nil. -/
def isNil : Entry → Bool
  | nil => true
  | held _ _ => false

/-- The name of the kind of what is held. -/
def kindName : Entry → String
  | nil => Kind.nilName
  | held _ value => value.kind.name

end Entry

/-- A value together with the cell that holds it. -/
structure Handle where
  cell : CellId
  value : Value

/-- The contents of a store. -/
abbrev Store := Table Entry

/-- What a merge does with the entries it finds. -/
structure MergeOptions where
  /-- Write keys that the target has already. -/
  overwrite : Bool := true
  /-- Leave explicit nils out. -/
  skipNil : Bool := false
  deriving DecidableEq

/-- How merge options are shown. -/
def MergeOptions.outline (options : MergeOptions) : Outline :=
  .fields "MergeOptions"
    [("overwrite", .truth options.overwrite), ("skip_nil", .truth options.skipNil)]

namespace Store

/-- The value at a key with its cell, if it is of the kind expected. -/
def share (s : Store) (key : String) (kind : Kind) :
    Except StoreError (CellId × kind.Carrier) :=
  match s.get? key with
  | none => .error (.keyNotFound key)
  | some .nil => .error (.typeMismatch key kind.name Kind.nilName)
  | some (.held cell value) =>
    match value.as? kind with
    | some data => .ok (cell, data)
    | none => .error (.typeMismatch key kind.name value.kind.name)

/-- The value at a key, if it is of the kind expected. -/
def read (s : Store) (key : String) (kind : Kind) : Except StoreError kind.Carrier :=
  (·.2) <$> s.share key kind

/-- Whether a key holds the explicit nil. -/
def isNil (s : Store) (key : String) : Bool :=
  (s.get? key).any Entry.isNil

/-- The name of the kind of what a key holds. -/
def kindName? (s : Store) (key : String) : Option String :=
  (s.get? key).map Entry.kindName

/-- Whether a merge into the store writes an entry. -/
def admits (s : Store) (options : MergeOptions) (key : String) (entry : Entry) : Bool :=
  !(options.skipNil && entry.isNil) && (options.overwrite || !s.contains key)

/-- Writes the entries that are admitted, in turn, and counts them. -/
def mergeEntries (s : Store) (entries : List (String × Entry)) (options : MergeOptions) :
    Nat × Store :=
  entries.foldl (fun (written, s) (key, entry) =>
    if s.admits options key entry then (written + 1, s.insert key entry) else (written, s))
    (0, s)

/-- Copies the entries of a source into the store; the number written comes
with the result. -/
def merge (s source : Store) (options : MergeOptions) : Nat × Store :=
  s.mergeEntries source.toList options

/-- How a store is shown: its keys with the kinds of what they hold. -/
def outline (s : Store) : Outline :=
  .map (s.toList.map fun (key, entry) => (key, .text entry.kindName))

/-- A kind is found exactly where a value of it was put. -/
theorem share_eq_ok_iff {s : Store} {key : String} {kind : Kind} {cell : CellId}
    {data : kind.Carrier} :
    s.share key kind = .ok (cell, data) ↔ s.get? key = some (.held cell ⟨kind, data⟩) := by
  unfold share
  split
  · simp [*]
  · simp [*]
  · next own value eq =>
    rw [eq]
    split
    · next found as =>
      rw [Value.as?_eq_some_iff] at as
      subst as
      simp
    · next as =>
      rw [Value.as?_eq_none_iff] at as
      simp only [reduceCtorEq, Option.some.injEq, Entry.held.injEq, false_iff, not_and]
      rintro - rfl
      exact as rfl

/-- A value is read exactly where some cell holds it. -/
theorem read_eq_ok_iff {s : Store} {key : String} {kind : Kind} {data : kind.Carrier} :
    s.read key kind = .ok data ↔ ∃ cell, s.get? key = some (.held cell ⟨kind, data⟩) := by
  simp only [← share_eq_ok_iff, read]
  cases s.share key kind with
  | error e => simp [Functor.map, Except.map]
  | ok found => obtain ⟨cell, x⟩ := found; simp [Functor.map, Except.map]

end Store

end StagedWorkflow
