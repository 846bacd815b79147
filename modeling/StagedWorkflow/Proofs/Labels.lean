import StagedWorkflow.Heap.Request
import StagedWorkflow.Proofs.Ledger

/-!
# Entries with labels

A store can be kept with a label beside each value: the name of the kind,
written down when the value is put, and copied with the entry from then on.
Readers look at the value or at the label, and none of them holds one
against the other. `Labelled` is such an entry, and `LabelledHeap` answers
requests with them.

A label never goes stale (`LabelledHeap.right_play`): after any history it is
the name of the kind of the value beside it, or the name of the explicit nil
where there is none. So the labels can be left out: a history comes to the
same over entries without labels, whose readers take the name from the value
(`LabelledHeap.play_bare`).
-/

namespace StagedWorkflow

/-- An entry as it is written down: a value in its cell, or none for the
explicit nil, and beside it the name of a kind. -/
structure Labelled where
  held : Option Handle
  label : String

namespace Labelled

/-- The explicit nil. -/
def nil : Labelled :=
  ⟨none, Kind.nilName⟩

/-- A value that is put into a cell. -/
def ofValue (cell : CellId) (value : Value) : Labelled :=
  ⟨some ⟨cell, value⟩, value.kind.name⟩

/-- Whether there is no value. -/
def isNil (e : Labelled) : Bool :=
  e.held.isNone

/-- The entry without its label. -/
def entry (e : Labelled) : Entry :=
  match e.held with
  | none => .nil
  | some handle => .held handle.cell handle.value

/-- That the label names the kind of the value, or the explicit nil where
there is no value. -/
def Right (e : Labelled) : Prop :=
  match e.held with
  | none => e.label = Kind.nilName
  | some handle => e.label = handle.value.kind.name

variable {e : Labelled}

theorem right_nil : nil.Right := rfl

theorem right_ofValue {cell : CellId} {value : Value} : (ofValue cell value).Right := rfl

@[simp] theorem isNil_entry : e.entry.isNil = e.isNil := by
  rcases e with ⟨_ | handle, label⟩ <;> rfl

/-- A label that is right is the name that the entry has anyway. -/
theorem Right.kindName_entry (right : e.Right) : e.entry.kindName = e.label := by
  rcases e with ⟨_ | handle, label⟩ <;> exact Eq.symm right

end Labelled

/-- The contents of a store, with labels. -/
abbrev LabelledStore := Table Labelled

namespace LabelledStore

/-- Why a value of a kind is not found in an entry. -/
def mismatch (key : String) (kind : Kind) (e : Labelled) : StoreError :=
  .typeMismatch key kind.name e.label

/-- The value at a key, if it is of the kind expected. -/
def read (s : LabelledStore) (key : String) (kind : Kind) : Except StoreError kind.Carrier :=
  match s.get? key with
  | none => .error (.keyNotFound key)
  | some e =>
    match e.held.bind fun handle => handle.value.as? kind with
    | some data => .ok data
    | none => .error (mismatch key kind e)

/-- The value at a key with its cell, if it is of the kind expected. -/
def share (s : LabelledStore) (key : String) (kind : Kind) :
    Except StoreError (CellId × kind.Carrier) :=
  match s.get? key with
  | none => .error (.keyNotFound key)
  | some e =>
    match e.held with
    | none => .error (mismatch key kind e)
    | some handle =>
      match handle.value.as? kind with
      | some data => .ok (handle.cell, data)
      | none => .error (mismatch key kind e)

/-- Whether a key holds the explicit nil. -/
def isNil (s : LabelledStore) (key : String) : Bool :=
  (s.get? key).any Labelled.isNil

/-- The label at a key. -/
def label? (s : LabelledStore) (key : String) : Option String :=
  (s.get? key).map Labelled.label

/-- Whether a merge into the store writes an entry. -/
def admits (s : LabelledStore) (options : MergeOptions) (key : String) (e : Labelled) : Bool :=
  !(options.skipNil && e.isNil) && (options.overwrite || !s.contains key)

/-- Writes an entry if it is admitted, and counts it. Its label is copied as
it stands. -/
def mergeEntry (options : MergeOptions) (merged : Nat × LabelledStore)
    (entry : String × Labelled) : Nat × LabelledStore :=
  if merged.2.admits options entry.1 entry.2 then
    (merged.1 + 1, merged.2.insert entry.1 entry.2)
  else merged

/-- Copies the entries of a source into the store; the number written comes
with the result. -/
def merge (s source : LabelledStore) (options : MergeOptions) : Nat × LabelledStore :=
  source.toList.foldl (mergeEntry options) (0, s)

/-- The store without its labels. -/
def bare (s : LabelledStore) : Store :=
  s.map Labelled.entry

/-- That every label is right. -/
def Right (s : LabelledStore) : Prop :=
  ∀ key e, s.get? key = some e → e.Right

variable {s source : LabelledStore} {key k : String} {kind : Kind} {e : Labelled}

/-! ## Without labels -/

theorem get?_bare : s.bare.get? k = (s.get? k).map Labelled.entry :=
  Table.get?_map

theorem contains_bare : s.bare.contains k = s.contains k := by
  rw [Table.contains, get?_bare, Option.isSome_map, Table.contains]

theorem bare_insert : bare (s.insert key e) = s.bare.insert key e.entry := by
  refine Table.ext_get? fun k => ?_
  rw [get?_bare, Table.get?_insert, Table.get?_insert, get?_bare]
  split <;> rfl

theorem bare_erase : bare (s.erase key) = s.bare.erase key := by
  refine Table.ext_get? fun k => ?_
  rw [get?_bare, Table.get?_erase, Table.get?_erase, get?_bare]
  split <;> rfl

theorem admits_bare {options : MergeOptions} :
    Store.admits s.bare options key e.entry = s.admits options key e := by
  rw [Store.admits, Labelled.isNil_entry, contains_bare, admits]

/-- **A merge does the same without labels.** -/
theorem bare_merge {options : MergeOptions} :
    Store.merge s.bare source.bare options =
      ((s.merge source options).1, (s.merge source options).2.bare) := by
  have entries : source.bare.toList = source.toList.map fun e => (e.1, e.2.entry) := rfl
  rw [Store.merge, merge, Store.mergeEntries, entries]
  generalize source.toList = entries
  -- the counts are the same all the way, so the fold is taken from any count
  generalize 0 = written
  induction entries generalizing s written with
  | nil => rfl
  | cons head rest ih =>
    simp only [List.map_cons, List.foldl_cons]
    rw [admits_bare, mergeEntry]
    split
    · rw [← bare_insert]
      exact ih _
    · exact ih _

/-! ## Right labels -/

theorem right_empty : Right ∅ := fun _ _ found => nomatch found

theorem Right.insert (right : s.Right) (new : e.Right) : Right (s.insert key e) := by
  intro k other found
  rw [Table.get?_insert] at found
  split at found
  · exact Option.some.inj found ▸ new
  · exact right k other found

theorem Right.erase (right : s.Right) : Right (s.erase key) := by
  intro k other found
  rw [Table.get?_erase] at found
  split at found
  · cases found
  · exact right k other found

/-- A merge copies labels with the values they stand beside. -/
theorem Right.merge (right : s.Right) (source_right : source.Right) {options : MergeOptions} :
    Right (s.merge source options).2 := by
  rw [LabelledStore.merge]
  have all : ∀ entry ∈ source.toList, entry.2.Right := fun entry mem =>
    source_right entry.1 entry.2 (Table.get?_eq_some_iff.mpr mem)
  generalize source.toList = entries at all
  generalize 0 = written
  induction entries generalizing s written with
  | nil => exact right
  | cons head rest ih =>
    have rest_right : ∀ entry ∈ rest, entry.2.Right := fun entry mem =>
      all entry (List.mem_cons_of_mem _ mem)
    rw [List.foldl_cons, mergeEntry]
    split
    · exact ih (right.insert (all head List.mem_cons_self)) rest_right _
    · exact ih right rest_right _

/-! ## Readers -/

/-- A value is read alike with its cell and without. -/
theorem read_eq_share : s.read key kind = (·.2) <$> s.share key kind := by
  rw [read, share]
  cases s.get? key with
  | none => rfl
  | some e =>
    rcases e with ⟨_ | handle, label⟩
    · rfl
    · simp only [Option.bind_some]
      cases handle.value.as? kind <;> rfl

/-- **Where labels are right, values are found and refused as without
them.** -/
theorem share_bare (right : s.Right) : Store.share s.bare key kind = s.share key kind := by
  rw [Store.share, share, get?_bare]
  cases found : s.get? key with
  | none => rfl
  | some e =>
    have named : e.Right := right key e found
    rcases e with ⟨_ | handle, label⟩
    · obtain rfl : label = Kind.nilName := named
      rfl
    · obtain rfl : label = handle.value.kind.name := named
      rfl

theorem read_bare (right : s.Right) : Store.read s.bare key kind = s.read key kind := by
  rw [Store.read, share_bare right, read_eq_share]

theorem isNil_bare : Store.isNil s.bare key = s.isNil key := by
  rw [Store.isNil, get?_bare, isNil]
  cases s.get? key with
  | none => rfl
  | some e => exact Labelled.isNil_entry

theorem label?_bare (right : s.Right) : Store.kindName? s.bare key = s.label? key := by
  rw [Store.kindName?, get?_bare, label?]
  cases found : s.get? key with
  | none => rfl
  | some e => exact congrArg some (right key e found).kindName_entry

end LabelledStore

/-! ## Heaps -/

/-- The stores of a run with labels, and the handles that callers keep. -/
structure LabelledHeap where
  stores : Array LabelledStore
  cells : Nat
  kept : List Handle

namespace LabelledHeap

/-- The heap without stores. -/
def empty : LabelledHeap := ⟨#[], 0, []⟩

/-- The contents of a store. -/
def contents (h : LabelledHeap) (s : StoreId) : LabelledStore :=
  h.stores[s]?.getD ∅

/-- A new store with the contents given. -/
def add (h : LabelledHeap) (store : LabelledStore) : StoreId × LabelledHeap :=
  (h.stores.size, { h with stores := h.stores.push store })

/-- Changes the contents of one store. -/
def modify (h : LabelledHeap) (s : StoreId) (f : LabelledStore → LabelledStore) : LabelledHeap :=
  { h with stores := h.stores.modify s f }

/-- The value as one that no other cell holds. -/
def own (h : LabelledHeap) (kind : Kind) (data : kind.Carrier) : kind.Carrier × LabelledHeap :=
  match kind, data with
  | .scalar _, data => (data, h)
  | .store, s => h.add (h.contents s)

/-- Puts a value at a key, in a fresh cell, and labels it with its kind. -/
def put (h : LabelledHeap) (s : StoreId) (key : String) (value : Value) : LabelledHeap :=
  let (data, h) := h.own value.kind value.data
  { h.modify s (·.insert key (.ofValue h.cells ⟨value.kind, data⟩)) with cells := h.cells + 1 }

/-- Copies entries from one store into another, and answers how many were
written. -/
def merge (h : LabelledHeap) (target source : StoreId) (options : MergeOptions := {}) :
    Nat × LabelledHeap :=
  let (written, merged) := (h.contents target).merge (h.contents source) options
  (written, h.modify target fun _ => merged)

/-- The value at a key, owned by the reader. -/
def get (h : LabelledHeap) (s : StoreId) (key : String) (kind : Kind) :
    Except StoreError kind.Carrier × LabelledHeap :=
  match (h.contents s).read key kind with
  | .ok data => let (data, h) := h.own kind data; (.ok data, h)
  | .error error => (.error error, h)

/-- The value at a key, owned by the reader, or a default where it cannot be
read. -/
def getOr (h : LabelledHeap) (s : StoreId) (key : String) (kind : Kind)
    (default : kind.Carrier) : kind.Carrier × LabelledHeap :=
  match h.get s key kind with
  | (.ok data, h) => (data, h)
  | (.error _, h) => (default, h)

/-- The heap without its labels. -/
def bare (h : LabelledHeap) : Heap :=
  ⟨h.stores.map LabelledStore.bare, h.cells, h.kept⟩

/-- Answers a request. -/
def answer (r : Heap.Request) (h : LabelledHeap) : Heap.Answer r × LabelledHeap :=
  match r with
  | .create => h.add ∅
  | .clone s => h.add (h.contents s)
  | .put s key value => ((), h.put s key value)
  | .putNil s key => ((), h.modify s (·.insert key .nil))
  | .remove s key => ((h.contents s).contains key, h.modify s (·.erase key))
  | .clear s => ((), h.modify s fun _ => ∅)
  | .merge target source options => h.merge target source options
  | .get s key kind => h.get s key kind
  | .share s key kind => ((h.contents s).share key kind, h)
  | .contents s => ((h.contents s).bare, h)
  | .dump s => (h.bare.dump s, h)
  | .keep handle => (h.kept.length, { h with kept := h.kept ++ [handle] })
  | .kept index => (h.kept[index]?, h)

/-- Plays a history on a heap with labels. -/
def play {α : Type} (history : Heap.History α) (h : LabelledHeap) : α × LabelledHeap :=
  Program.run answer history h

variable {h : LabelledHeap} {s t : StoreId} {key : String} {kind : Kind}

/-! ## Without labels -/

theorem bare_empty : empty.bare = Heap.empty := by
  simp [bare, empty, Heap.empty]

theorem contents_bare : h.bare.contents s = (h.contents s).bare := by
  rw [Heap.contents, bare, Array.getElem?_map, contents]
  cases h.stores[s]? <;> rfl

theorem bare_add {store : LabelledStore} :
    h.bare.add store.bare = ((h.add store).1, (h.add store).2.bare) := by
  simp [Heap.add, add, bare]

theorem bare_modify {f : LabelledStore → LabelledStore} {g : Store → Store}
    (same : ∀ store : LabelledStore, g store.bare = (f store).bare) :
    h.bare.modify s g = (h.modify s f).bare := by
  have stores : (h.stores.map LabelledStore.bare).modify s g =
      (h.stores.modify s f).map LabelledStore.bare := by
    refine Array.ext_getElem? fun i => ?_
    simp only [Array.getElem?_modify, Array.getElem?_map]
    split
    · simp [Option.map_map, Function.comp_def, same]
    · rfl
  simp [Heap.modify, modify, bare, stores]

theorem bare_own {data : kind.Carrier} :
    h.bare.own kind data = ((h.own kind data).1, (h.own kind data).2.bare) := by
  cases kind with
  | scalar => rfl
  | store =>
    show h.bare.add (h.bare.contents data) = _
    rw [contents_bare]
    exact bare_add

theorem bare_put {value : Value} : h.bare.put s key value = (h.put s key value).bare := by
  rw [Heap.put, bare_own, put]
  rcases h.own value.kind value.data with ⟨data, later⟩
  have written : later.bare.modify s (·.insert key (.held later.cells ⟨value.kind, data⟩)) =
      (later.modify s (·.insert key (.ofValue later.cells ⟨value.kind, data⟩))).bare :=
    bare_modify fun store => (LabelledStore.bare_insert (e := .ofValue _ _)).symm
  exact congrArg (fun h : Heap => { h with cells := later.cells + 1 }) written

theorem bare_merge {options : MergeOptions} :
    h.bare.merge s t options = ((h.merge s t options).1, (h.merge s t options).2.bare) := by
  rw [Heap.merge, contents_bare, contents_bare, LabelledStore.bare_merge, merge]
  exact Prod.ext rfl (bare_modify fun _ => rfl)

/-- That every label of every store is right. -/
def Right (h : LabelledHeap) : Prop :=
  ∀ s, (h.contents s).Right

theorem bare_get (right : h.Right) :
    h.bare.get s key kind = ((h.get s key kind).1, (h.get s key kind).2.bare) := by
  rw [Heap.get, contents_bare, LabelledStore.read_bare (right s), get]
  cases (h.contents s).read key kind with
  | error => rfl
  | ok data => simp only [bare_own]

/-- **A request is answered alike without labels**, where the labels are
right. -/
theorem bare_answer (right : h.Right) {r : Heap.Request} :
    Heap.answer r h.bare = ((answer r h).1, (answer r h).2.bare) := by
  cases r with
  | create =>
    show h.bare.add (LabelledStore.bare ∅) = _
    exact bare_add
  | clone s =>
    show h.bare.add (h.bare.contents s) = _
    rw [contents_bare]
    exact bare_add
  | put s key value => exact Prod.ext rfl bare_put
  | putNil s key =>
    exact Prod.ext rfl (bare_modify fun _ => (LabelledStore.bare_insert (e := .nil)).symm)
  | remove s key =>
    refine Prod.ext ?_ (bare_modify fun _ => LabelledStore.bare_erase.symm)
    show (h.bare.contents s).contains key = (h.contents s).contains key
    rw [contents_bare, LabelledStore.contains_bare]
  | clear s => exact Prod.ext rfl (bare_modify fun _ => rfl)
  | merge target source options => exact bare_merge
  | get s key kind => exact bare_get right
  | share s key kind =>
    refine Prod.ext ?_ rfl
    show (h.bare.contents s).share key kind = (h.contents s).share key kind
    rw [contents_bare, LabelledStore.share_bare (right s)]
  | contents s => exact Prod.ext contents_bare rfl
  | dump | keep | kept => rfl

/-! ## Right labels -/

theorem right_empty : empty.Right := fun _ => LabelledStore.right_empty

theorem Right.add (right : h.Right) {store : LabelledStore} (new : store.Right) :
    (h.add store).2.Right := by
  intro t
  rw [contents, LabelledHeap.add, Array.getElem?_push]
  split
  · exact new
  · exact right t

theorem Right.modify (right : h.Right) {f : LabelledStore → LabelledStore}
    (changed : (f (h.contents s)).Right) : (h.modify s f).Right := by
  intro t
  rw [contents, LabelledHeap.modify, Array.getElem?_modify]
  split
  next here =>
    subst here
    rw [contents] at changed
    cases there : h.stores[s]? with
    | none => exact LabelledStore.right_empty
    | some store =>
      rw [there] at changed
      exact changed
  next => exact right t

theorem Right.own (right : h.Right) {data : kind.Carrier} : (h.own kind data).2.Right := by
  cases kind with
  | scalar => exact right
  | store => exact right.add (right data)

theorem Right.put (right : h.Right) {value : Value} : (h.put s key value).Right := by
  have owned : (h.own value.kind value.data).2.Right := right.own
  have written : ((h.own value.kind value.data).2.modify s
      (·.insert key (.ofValue (h.own value.kind value.data).2.cells
        ⟨value.kind, (h.own value.kind value.data).1⟩))).Right :=
    owned.modify ((owned s).insert Labelled.right_ofValue)
  exact written

/-- **What a request leaves has its labels right.** -/
theorem Right.answer (right : h.Right) (r : Heap.Request) : (answer r h).2.Right := by
  cases r with
  | create => exact right.add LabelledStore.right_empty
  | clone s => exact right.add (right s)
  | put s key value => exact right.put
  | putNil s key => exact right.modify ((right s).insert Labelled.right_nil)
  | remove s key => exact right.modify (right s).erase
  | clear s => exact right.modify LabelledStore.right_empty
  | merge target source options => exact right.modify ((right target).merge (right source))
  | get s key kind =>
    rw [LabelledHeap.answer, get]
    split
    · exact right.own
    · exact right
  | share | contents | dump | keep | kept => exact right

/-- **No history leaves a stale label.** -/
theorem right_play {α : Type} (history : Heap.History α) (right : h.Right) :
    (play history h).2.Right := by
  induction history generalizing h with
  | done => exact right
  | ask r next ih => exact ih _ (right.answer r)

/-- **A history comes to the same without labels.** -/
theorem play_bare {α : Type} (history : Heap.History α) (right : h.Right) :
    history.play h.bare = ((play history h).1, (play history h).2.bare) := by
  induction history generalizing h with
  | done => rfl
  | ask r next ih =>
    show (next (Heap.answer r h.bare).1).run Heap.answer (Heap.answer r h.bare).2 = _
    rw [bare_answer right]
    exact ih _ (right.answer r)

end LabelledHeap

end StagedWorkflow
