import StagedWorkflow.Script.StoreOp
/-!
# Sessions with stores

A session that works on stores alone, without a workflow. Stores are named
by number, in the order they were made; the first is there from the start.
-/

namespace StagedWorkflow

namespace Session

open Script

/-- A command of a session with stores. -/
inductive StoreCommand where
  /-- A new store. -/
  | create
  /-- A new store with the entries of another. -/
  | clone (number : Nat)
  | op (number : Nat) (op : StoreOp)

/-- The stores of a session, and the heap they live in. -/
structure StoreState where
  heap : Heap
  stores : List StoreId

namespace StoreState

/-- One empty store. -/
def initial : StoreState :=
  let (s, heap) := Heap.empty.create
  ⟨heap, [s]⟩

/-- The store that a selector stands for. -/
def select (s : StoreState) : Selector → Option StoreId
  | .number n => s.stores[n]?
  | .current | .workflow | .stage _ | .detached _ | .nowhere => none

/-- Takes up a new store under the next number. -/
def number (s : StoreState) (made : StoreId × Heap) : Datum × StoreState :=
  (.count s.stores.length, ⟨made.2, s.stores ++ [made.1]⟩)

/-- Carries out an operation on a store. -/
def runOp (s : StoreState) (target : StoreId) (op : StoreOp) : Datum × StoreState :=
  let (result, heap) := (op.run target (op.selector?.bind s.select)).run.play s.heap
  (match result with
    | .ok answer => answer
    | .error error => error.datum, { s with heap })

end StoreState

/-- Carries out a command. -/
def StoreCommand.run (s : StoreState) : StoreCommand → Datum × StoreState
  | create => s.number s.heap.create
  | clone n =>
    match s.stores[n]? with
    | none => (.text "no store", s)
    | some source => s.number (s.heap.clone source)
  | op n work =>
    match s.stores[n]? with
    | none => (.text "no store", s)
    | some target => s.runOp target work

/-- The answers to commands in order, and what all stores hold at the end. -/
def runStores (commands : List StoreCommand) : Datum :=
  let (answers, last) := commands.foldl (fun (answers, s) command =>
    let (answer, s) := command.run s
    (answers ++ [answer], s)) ([], StoreState.initial)
  .record [("steps", .list answers),
    ("stores", .list (last.stores.map fun s => .list (Literal.entriesDatum (last.heap.dump s))))]

end Session

end StagedWorkflow
