import StagedWorkflow.Store
import StagedWorkflow.Heap.Literal
/-!
# Heaps of stores

A heap holds the contents of every store by number. Values of kind `store`
refer to stores of the heap, so a store behind such a value can change while
the value stays where it is, and everyone who shares the cell sees the
change. Each put takes a fresh cell; a store that is put, or read out by
value, is copied to a fresh number first, so no two cells come to hold the
same store.
-/

namespace StagedWorkflow

/-- The stores of a run, and the handles that callers keep. -/
structure Heap where
  /-- The contents of the stores, by number. -/
  stores : Array Store
  /-- The number of cells made so far. -/
  cells : Nat
  /-- The handles kept so far, in order. -/
  kept : List Handle

namespace Heap

/-- The heap without stores. -/
def empty : Heap := ⟨#[], 0, []⟩

instance : Inhabited Heap := ⟨empty⟩

/-- The contents of a store. -/
def contents (h : Heap) (s : StoreId) : Store :=
  h.stores[s]?.getD ∅

/-- A new store with the contents given. -/
def add (h : Heap) (store : Store) : StoreId × Heap :=
  (h.stores.size, { h with stores := h.stores.push store })

/-- A new store without entries. -/
def create (h : Heap) : StoreId × Heap :=
  h.add ∅

/-- A new store with the same entries as another. -/
def clone (h : Heap) (s : StoreId) : StoreId × Heap :=
  h.add (h.contents s)

/-- Changes the contents of one store. -/
def modify (h : Heap) (s : StoreId) (f : Store → Store) : Heap :=
  { h with stores := h.stores.modify s f }

/-- The value as one that no other cell holds: a store is copied, and any
other value is itself. -/
def own (h : Heap) (kind : Kind) (data : kind.Carrier) : kind.Carrier × Heap :=
  match kind, data with
  | .scalar _, data => (data, h)
  | .store, s => h.clone s

/-- Puts a value at a key, in a fresh cell. -/
def put (h : Heap) (s : StoreId) (key : String) (value : Value) : Heap :=
  -- the copy comes first, so what the cell holds is held by no other
  let (data, h) := h.own value.kind value.data
  { h.modify s (·.insert key (.held h.cells ⟨value.kind, data⟩)) with cells := h.cells + 1 }

/-- Puts the explicit nil at a key. -/
def putNil (h : Heap) (s : StoreId) (key : String) : Heap :=
  h.modify s (·.insert key .nil)

/-- Removes a key, and answers whether it was there. -/
def remove (h : Heap) (s : StoreId) (key : String) : Bool × Heap :=
  ((h.contents s).contains key, h.modify s (·.erase key))

/-- Removes every key. -/
def clear (h : Heap) (s : StoreId) : Heap :=
  h.modify s fun _ => ∅

/-- Copies entries from one store into another, and answers how many were
written. The source is read as it was before. -/
def merge (h : Heap) (target source : StoreId) (options : MergeOptions := {}) : Nat × Heap :=
  -- entries go over with their cells, so both stores share them
  let (written, merged) := (h.contents target).merge (h.contents source) options
  (written, h.modify target fun _ => merged)

/-- The value at a key, owned by the reader. -/
def get (h : Heap) (s : StoreId) (key : String) (kind : Kind) :
    Except StoreError kind.Carrier × Heap :=
  match (h.contents s).read key kind with
  | .ok data => let (data, h) := h.own kind data; (.ok data, h)
  | .error error => (.error error, h)

/-- The value at a key with its cell, shared with the store. -/
def share (h : Heap) (s : StoreId) (key : String) (kind : Kind) :
    Except StoreError (CellId × kind.Carrier) :=
  (h.contents s).share key kind

/-- Keeps a handle, and answers its place among those kept. -/
def keep (h : Heap) (handle : Handle) : Nat × Heap :=
  (h.kept.length, { h with kept := h.kept ++ [handle] })

/-- What a store holds, spelled out down to a number of stores inside one
another. -/
def spellOut (h : Heap) : Nat → StoreId → List (String × Literal)
  -- only a store that is inside itself goes this deep
  | 0, _ => []
  | depth + 1, s =>
    (h.contents s).toList.map fun (key, entry) =>
      (key, match entry with
        | .nil => .nil
        | .held _ ⟨.scalar kind, data⟩ => .scalar kind data
        | .held _ ⟨.store, inner⟩ => .store (spellOut h depth inner))

/-- What a store holds, spelled out. Stores inside one another without a
cycle are never more than there are stores. -/
def dump (h : Heap) (s : StoreId) : List (String × Literal) :=
  h.spellOut h.stores.size s

/-! ## What an operation does to the contents of the stores -/

/-- A new store has the contents it was given. -/
@[simp] theorem contents_add_self {h : Heap} {store : Store} :
    (h.add store).2.contents (h.add store).1 = store := by
  simp [add, contents]

/-- A new store leaves the contents of the others alone. -/
theorem contents_add_of_lt {h : Heap} {store : Store} {s : StoreId} (lt : s < h.stores.size) :
    (h.add store).2.contents s = h.contents s := by
  simp [add, contents, Array.getElem?_push, Nat.ne_of_lt lt]

/-- A store that exists is changed. -/
theorem contents_modify_self {h : Heap} {s : StoreId} {f : Store → Store}
    (lt : s < h.stores.size) : (h.modify s f).contents s = f (h.contents s) := by
  simp [modify, contents, lt, Array.getElem_modify_self]

/-- **A change of one store is no change of another.** -/
theorem contents_modify_of_ne {h : Heap} {s t : StoreId} {f : Store → Store} (ne : s ≠ t) :
    (h.modify s f).contents t = h.contents t := by
  simp [modify, contents, Array.getElem?_modify, ne]

end Heap

end StagedWorkflow
