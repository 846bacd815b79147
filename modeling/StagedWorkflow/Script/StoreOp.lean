import StagedWorkflow.Report
/-!
# Scripted store operations

A scripted operation works on one store, the target. Some name a second
store; a selector says which, and what a selector stands for is up to where
the script runs. Every operation comes down to a history of requests to the
heap and an answer in plain form, or to a store error.
-/

namespace StagedWorkflow

namespace Script

/-- How a script names a store. -/
inductive Selector where
  /-- By number. -/
  | number (n : Nat)
  /-- The initial data of the current stage. -/
  | current
  /-- The store of the workflow. -/
  | workflow
  /-- The initial data of a stage of the workflow. -/
  | stage (id : String)
  /-- The initial data of a stage outside the workflow. -/
  | detached (name : String)
  /-- No store, wherever the script runs. -/
  | nowhere

/-- Where a merge takes its entries from. -/
inductive Source where
  /-- The target itself. -/
  | target
  /-- A new store with some entries. -/
  | entries (entries : List (String × Literal))
  /-- Another store. -/
  | store (selector : Selector)

/-- An operation on a store. -/
inductive StoreOp where
  | put (key : String) (value : Literal)
  | get (key : String) (kind : Kind)
  | share (key : String) (kind : Kind)
  | getOr (key : String) (default : Literal)
  | has (key : String)
  | isNil (key : String)
  | kindName (key : String)
  | remove (key : String)
  | isEmpty
  | keys
  | size
  | clear
  | dump
  | outline (pretty : Bool)
  | merge (source : Source) (options : MergeOptions)
  /-- Reads a value by copy, and puts it at another key. -/
  | copy (key target : String) (kind : Kind)
  /-- Adds to a 32-bit number, wrapping. -/
  | increment (key : String) (amount : Int32)
  /-- Keeps the handle of a value. -/
  | hold (key : String) (kind : Kind)
  /-- The value of a handle that was kept. -/
  | held (index : Nat)
  /-- Whether two keys share a cell. -/
  | same (key : String) (kind : Kind) (other : Selector) (otherKey : String)
  /-- An operation on the store that a key holds. -/
  | nested (key : String) (op : StoreOp)

namespace StoreOp

/-- The other store that an operation names. -/
def selector? : StoreOp → Option Selector
  | merge (.store selector) _ => some selector
  | same _ _ selector _ => some selector
  | nested _ op => op.selector?
  | _ => none

/-- Histories that can end in a store error. -/
abbrev Work := ExceptT StoreError Heap.History

/-- Makes a request that always succeeds. -/
def ask (r : Heap.Request) : Work (Heap.Answer r) :=
  ExceptT.lift (Heap.History.ask r)

/-- Reads a value by copy. -/
def readCopy (s : StoreId) (key : String) (kind : Kind) : Work kind.Carrier :=
  ExceptT.mk (Heap.History.ask (.get s key kind))

/-- Reads a value with its cell. -/
def readShared (s : StoreId) (key : String) (kind : Kind) : Work (CellId × kind.Carrier) :=
  ExceptT.mk (Heap.History.ask (.share s key kind))

/-- A value in plain form. -/
def present (kind : Kind) (data : kind.Carrier) : Work Datum :=
  ExceptT.lift (Heap.History.valueDatum kind data)

/-- The value at a key in plain form, or a default if it cannot be read. The
default is made whether it is needed or not. -/
def readOr (s : StoreId) (key : String) (default : Literal) : Work Datum := do
  match ← ExceptT.lift (Heap.History.build default) with
  | none => pure .null
  | some value =>
    match ← ask (.get s key value.kind) with
    | .ok data => present value.kind data
    | .error _ => present value.kind value.data

/-- The store a merge takes its entries from. -/
def sourceStore (target : StoreId) (other : Option StoreId) : Source → Work (Option StoreId)
  | .target => pure (some target)
  | .entries entries => some <$> ExceptT.lift (Heap.History.createFrom entries)
  | .store _ => pure other

/-- Carries out an operation on a store. The store that its selector stands
for is given, if there is one. -/
def run (target : StoreId) (other : Option StoreId) : StoreOp → Work Datum
  | put key value => do
    ExceptT.lift (Heap.History.putLiteral target key value)
    pure .null
  | get key kind => do present kind (← readCopy target key kind)
  | share key kind => do present kind (← readShared target key kind).2
  | getOr key default => readOr target key default
  | has key => return .truth ((← ask (.contents target)).contains key)
  | isNil key => return .truth (Store.isNil (← ask (.contents target)) key)
  | kindName key => return .textOrNull (Store.kindName? (← ask (.contents target)) key)
  | remove key => return .truth (← ask (.remove target key))
  | isEmpty => return .truth (← ask (.contents target)).isEmpty
  | keys => return .texts (← ask (.contents target)).keys
  | size => return .count (← ask (.contents target)).size
  | clear => do
    ask (.clear target)
    pure .null
  | dump => ExceptT.lift (Heap.History.dumpDatum target)
  | outline pretty => return (Store.outline (← ask (.contents target))).datum pretty
  | merge source options => do
    match ← sourceStore target other source with
    | none => pure (.text "no source")
    | some source => return .count (← ask (.merge target source options))
  | copy key targetKey kind => do
    let data ← readCopy target key kind
    ask (.put target targetKey ⟨kind, data⟩)
    pure .null
  | increment key amount => do
    let n ← readCopy target key (.scalar .int32)
    ask (.put target key ⟨.scalar .int32, n + amount⟩)
    return .number (n + amount).toInt
  | hold key kind => do
    let (cell, data) ← readShared target key kind
    return .count (← ask (.keep ⟨cell, ⟨kind, data⟩⟩))
  | held index => do
    match ← ask (.kept index) with
    | none => pure (.text "no handle")
    | some handle => present handle.value.kind handle.value.data
  -- the target is read first, and an error of it comes before a missing store
  | same key kind _ otherKey => do
    let (cell, _) ← readShared target key kind
    match other with
    | none => pure (.text "no source")
    | some other => return .truth (cell == (← readShared other otherKey kind).1)
  -- the store is worked on in its place, and everyone who shares it sees it
  | nested key op => do
    let (_, inner) ← readShared target key .store
    op.run inner other

end StoreOp

end Script

end StagedWorkflow
