import StagedWorkflow.Heap.Basic
import StagedWorkflow.Program
/-!
# Requests to a heap

Everything that can be asked of a heap, one request each. A program of
these requests is a history of reads and writes over any number of stores.
-/

namespace StagedWorkflow

namespace Heap

/-- What can be asked of a heap. -/
inductive Request where
  /-- A new store. -/
  | create
  /-- A new store with the entries of another. -/
  | clone (s : StoreId)
  | put (s : StoreId) (key : String) (value : Value)
  | putNil (s : StoreId) (key : String)
  | remove (s : StoreId) (key : String)
  | clear (s : StoreId)
  | merge (target source : StoreId) (options : MergeOptions)
  /-- A value by copy. -/
  | get (s : StoreId) (key : String) (kind : Kind)
  /-- A value by its cell. -/
  | share (s : StoreId) (key : String) (kind : Kind)
  /-- The entries of a store. -/
  | contents (s : StoreId)
  /-- The entries of a store, spelled out. -/
  | dump (s : StoreId)
  /-- A handle to be kept. -/
  | keep (handle : Handle)
  /-- A handle kept before. -/
  | kept (index : Nat)

/-- What a request is answered with. -/
abbrev Answer : Request → Type
  | .create | .clone _ => StoreId
  | .put _ _ _ | .putNil _ _ | .clear _ => Unit
  | .remove _ _ => Bool
  | .merge _ _ _ => Nat
  | .get _ _ kind => Except StoreError kind.Carrier
  | .share _ _ kind => Except StoreError (CellId × kind.Carrier)
  | .contents _ => Store
  | .dump _ => List (String × Literal)
  | .keep _ => Nat
  | .kept _ => Option Handle

/-- The requests to a heap with their answers. -/
abbrev signature : Signature := ⟨Request, Answer⟩

/-- A history of requests to a heap. -/
abbrev History := Program signature

/-- Answers a request. -/
def answer (r : Request) (h : Heap) : Answer r × Heap :=
  match r with
  | .create => h.create
  | .clone s => h.clone s
  | .put s key value => ((), h.put s key value)
  | .putNil s key => ((), h.putNil s key)
  | .remove s key => h.remove s key
  | .clear s => ((), h.clear s)
  | .merge target source options => h.merge target source options
  | .get s key kind => h.get s key kind
  | .share s key kind => (h.share s key kind, h)
  | .contents s => (h.contents s, h)
  | .dump s => (h.dump s, h)
  | .keep handle => h.keep handle
  | .kept index => (h.kept[index]?, h)

namespace History

variable {α : Type}

/-- Makes one request. -/
def ask (r : Request) : History (Answer r) :=
  Program.request (S := signature) r

/-- Plays a history on a heap. -/
def play (history : History α) (h : Heap) : α × Heap :=
  Program.run answer history h

/-- A history goes on from where the one before it has left the heap. -/
theorem play_bind {β : Type} {first : History α} {second : α → History β} {h : Heap} :
    play (first >>= second) h = play (second (play first h).1) (play first h).2 :=
  Program.run_bind

mutual

/-- The value that a literal spells out; the explicit nil is none. A store
is new, and filled. -/
def build : Literal → History (Option Value)
  | .nil => pure none
  | .scalar kind data => pure (some ⟨.scalar kind, data⟩)
  | .store entries => do
    let s ← ask .create
    fill s entries
    pure (some ⟨.store, s⟩)

/-- Puts what each of some keys is to hold, in order. -/
def fill (s : StoreId) : List (String × Literal) → History Unit
  | [] => pure ()
  | (key, literal) :: rest => do
    match ← build literal with
    | none => ask (.putNil s key)
    | some value => ask (.put s key value)
    fill s rest

end

/-- Puts what a literal spells out at a key. -/
def putLiteral (s : StoreId) (key : String) (literal : Literal) : History Unit :=
  fill s [(key, literal)]

/-- A new store with the entries given. -/
def createFrom (entries : List (String × Literal)) : History StoreId := do
  let s ← ask .create
  fill s entries
  pure s

/-- A value, in plain form. -/
def valueDatum : (kind : Kind) → kind.Carrier → History Datum
  | .scalar s, data => pure (s.datum data)
  | .store, s => return .list (Literal.entriesDatum (← ask (.dump s)))

/-- What a store holds, in plain form. -/
def dumpDatum (s : StoreId) : History Datum :=
  return .list (Literal.entriesDatum (← ask (.dump s)))

end History

end Heap

end StagedWorkflow
