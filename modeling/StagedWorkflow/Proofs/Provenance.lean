import StagedWorkflow.Proofs.Ledger

/-!
# Where values come from

Each put gives a value a cell of its own, and from then on the value is left
where it is, copied together with its store, or brought along by a merge.
`Ledger.Descends` tells this from a history alone, over the plain maps of the
ledger and without a word about cells: that a key of a store has what the put
at a place of the history has put.

A heap keeps a handle at each key that has a value. What a request does to it
is one equation (`Heap.handle?_answer`), with one case for each step of the
way a value takes.
-/

namespace StagedWorkflow

/-! ## The way a value takes -/

namespace Ledger

/-- The store that a request copies whole. -/
def copied? (l : Ledger) : Heap.Request → Option StoreId
  | .clone s => some s
  -- a store is moved into its cell, and its entries go with it
  | .put _ _ ⟨.store, s⟩ => some s
  | .get s key .store => (l.read s key .store).toOption
  | _ => none

/-- Whether a merge brings the entry of a key. -/
def admits (l : Ledger) (options : MergeOptions) (target source : StoreId) (key : String) :
    Bool :=
  match l.holding? source key with
  | none => false
  | some held =>
    !(options.skipNil && held.isNil) && (options.overwrite || (l.holding? target key).isNone)

/-- Whether a request writes or removes what a key of a store has. -/
def touches (l : Ledger) (s : StoreId) (key : String) : Heap.Request → Bool
  | .put t k _ | .putNil t k | .remove t k => t == s && k == key
  | .clear t => t == s
  | .merge target source options => target == s && l.admits options target source key
  | .create | .clone _ | .get _ _ _ | .share _ _ _ | .contents _ | .dump _ | .keep _ | .kept _ =>
    false

/-- **That a key of a store has what a put has put**, after some requests.
The put is given by its place among them. -/
inductive Descends : List Heap.Request → Nat → StoreId → String → Prop where
  /-- With a put it begins. -/
  | put {past : List Heap.Request} {s : StoreId} {key : String} {value : Value}
      (there : s < (after (past ++ [.put s key value])).size) :
      Descends (past ++ [.put s key value]) past.length s key
  /-- A key keeps what it has while it is not touched. -/
  | left {past : List Heap.Request} {r : Heap.Request} {n : Nat} {s : StoreId} {key : String}
      (before : Descends past n s key) (untouched : (after past).touches s key r = false) :
      Descends (past ++ [r]) n s key
  /-- The copy of a store has what the store has. -/
  | cloned {past : List Heap.Request} {r : Heap.Request} {n : Nat} {s : StoreId} {key : String}
      (before : Descends past n s key) (copied : (after past).copied? r = some s)
      (untouched : (after past).touches (after past).size key r = false) :
      Descends (past ++ [r]) n (after past).size key
  /-- A merge brings what the source has. -/
  | merged {past : List Heap.Request} {n : Nat} {source target : StoreId}
      {options : MergeOptions} {key : String} (before : Descends past n source key)
      (there : target < (after past).size)
      (admitted : (after past).admits options target source key = true) :
      Descends (past ++ [.merge target source options]) n target key

theorem Descends.lt_length {requests : List Heap.Request} {n : Nat} {s : StoreId} {key : String}
    (h : Descends requests n s key) : n < requests.length := by
  induction h with
  | put => simp
  | left _ _ ih => simp; omega
  | cloned _ _ _ ih => simp; omega
  | merged _ _ _ ih => simp; omega

end Ledger

/-! ## Handles of a store -/

/-- The handle of what an entry holds, if it holds a value. -/
def Entry.handle? : Entry → Option Handle
  | nil => none
  | held cell value => some ⟨cell, value⟩

namespace Store

/-- The handle of the value at a key, if there is a value. -/
def handle? (s : Store) (key : String) : Option Handle :=
  (s.get? key).bind Entry.handle?

variable {s source : Store} {key k : String}

/-- A value is shared exactly by the handle that is there. -/
theorem share_eq_ok_iff_handle? {kind : Kind} {cell : CellId} {data : kind.Carrier} :
    s.share key kind = .ok (cell, data) ↔ s.handle? key = some ⟨cell, kind, data⟩ := by
  rw [share_eq_ok_iff, handle?]
  cases s.get? key with
  | none => simp
  | some entry =>
    cases entry with
    | nil => simp [Entry.handle?]
    | held own value => simp [Entry.handle?]

theorem handle?_empty : handle? ∅ k = none := rfl

theorem handle?_insert {entry : Entry} :
    handle? (s.insert key entry) k = if k = key then entry.handle? else s.handle? k := by
  rw [handle?, Table.get?_insert]
  split <;> rfl

theorem handle?_erase : handle? (s.erase key) k = if k = key then none else s.handle? k := by
  rw [handle?, Table.get?_erase]
  split <;> rfl

/-- A merge brings the handles of the entries it admits. -/
theorem handle?_merge {options : MergeOptions} :
    (s.merge source options).2.handle? k =
      if (source.get? k).any (s.admits options k) then source.handle? k else s.handle? k := by
  rw [handle?, get?_merge]
  cases found : source.get? k with
  | none => simp [handle?]
  | some entry =>
    simp only [Option.any_some, handle?, found]
    split <;> rfl

end Store

namespace Heap

variable {h : Heap} {r : Request} {s t : StoreId} {key : String}

theorem contents_add {store : Store} :
    (h.add store).2.contents s = if s = h.stores.size then store else h.contents s := by
  split
  next new => exact new ▸ contents_add_self
  next old => exact contents_add_of_ne old

theorem contents_of_size_le (le : h.stores.size ≤ s) : h.contents s = ∅ := by
  simp [contents, le]

theorem contents_modify {f : Store → Store} :
    (h.modify t f).contents s =
      if t = s ∧ s < h.stores.size then f (h.contents s) else h.contents s := by
  by_cases here : t = s
  · subst here
    by_cases there : t < h.stores.size
    · simp [there, contents_modify_self there]
    · have le : h.stores.size ≤ t := Nat.not_lt.mp there
      have le' : (h.modify t f).stores.size ≤ t := by rw [size_modify]; exact le
      simp [there, contents_of_size_le le, contents_of_size_le le']
  · simp [here, contents_modify_of_ne here]

/-- The handle of the value at a key of a store. -/
def handle? (h : Heap) (s : StoreId) (key : String) : Option Handle :=
  (h.contents s).handle? key

theorem handle?_of_size_le (le : h.stores.size ≤ s) : h.handle? s key = none := by
  rw [handle?, contents_of_size_le le]
  rfl

theorem lt_size_of_handle? {handle : Handle} (there : h.handle? s key = some handle) :
    s < h.stores.size := by
  by_contra missing
  rw [handle?_of_size_le (Nat.not_lt.mp missing)] at there
  cases there

/-- The handle that a request writes to a key it touches. -/
def written? (h : Heap) (s : StoreId) (key : String) : Request → Option Handle
  | .put _ _ value =>
    if s < (h.own value.kind value.data).2.stores.size then
      some ⟨h.cells, value.kind, (h.own value.kind value.data).1⟩
    else none
  | .merge _ source _ => if s < h.stores.size then h.handle? source key else none
  | _ => none

/-- A merge decides by what the keys hold. -/
theorem ledger_admits {options : MergeOptions} {source : StoreId} :
    h.ledger.admits options t source key =
      ((h.contents source).get? key).any ((h.contents t).admits options key) := by
  have target : h.ledger.holding? t key = ((h.contents t).get? key).map Entry.holding := rfl
  have there : h.ledger.holding? source key =
      ((h.contents source).get? key).map Entry.holding := rfl
  rw [Ledger.admits, there, target]
  cases (h.contents source).get? key with
  | none => rfl
  | some entry =>
    have nil : entry.holding.isNil = entry.isNil := by cases entry <;> rfl
    simp [Store.admits, Table.contains, nil]

theorem handle?_add {store : Store} :
    (h.add store).2.handle? s key =
      if s = h.stores.size then store.handle? key else h.handle? s key := by
  rw [handle?, contents_add]
  split <;> rfl

theorem handle?_modify {f : Store → Store} :
    (h.modify t f).handle? s key =
      if t = s ∧ s < h.stores.size then (f (h.contents s)).handle? key else h.handle? s key := by
  rw [handle?, contents_modify]
  split <;> rfl

/-- A write to one key of a store, by what the store has at it afterwards. -/
theorem handle?_modify_key {f : Store → Store} {k : String} {new : Option Handle}
    (writes : ∀ store : Store,
      (f store).handle? key = if key = k then new else store.handle? key) :
    (h.modify t f).handle? s key =
      if (t == s && k == key) = true then if s < h.stores.size then new else none
      else h.handle? s key := by
  rw [handle?_modify, writes]
  by_cases store : t = s
  · by_cases same : key = k
    · by_cases there : s < h.stores.size
      · simp [store, same, there]
      · simp [store, same, there, handle?_of_size_le (Nat.not_lt.mp there)]
    · have other : ¬ k = key := Ne.symm same
      simp only [same, other, if_false, beq_iff_eq, Bool.and_eq_true, and_false]
      split <;> rfl
  · simp [store]

/-- A copy made for the reader of a value takes no cell. -/
theorem cells_own {kind : Kind} {data : kind.Carrier} : (h.own kind data).2.cells = h.cells := by
  cases kind <;> rfl

theorem handle?_put {k : String} {value : Value} :
    (h.put t k value).handle? s key =
      if (t == s && k == key) = true then h.written? s key (.put t k value)
      else (h.own value.kind value.data).2.handle? s key := by
  have cells : (h.own value.kind value.data).2.cells = h.cells := cells_own
  have written : (h.put t k value).handle? s key =
      ((h.own value.kind value.data).2.modify t (·.insert k
        (.held h.cells ⟨value.kind, (h.own value.kind value.data).1⟩))).handle? s key := by
    rw [← cells]
    rfl
  rw [written]
  exact handle?_modify_key fun store => Store.handle?_insert

/-- **What a key has after a request**: what was written, if it was touched;
what the copied store has, in a new store; and else what it had. -/
theorem handle?_answer :
    (answer r h).2.handle? s key =
      if h.ledger.touches s key r then h.written? s key r
      else if s = h.stores.size then (h.ledger.copied? r).bind (h.handle? · key)
      else h.handle? s key := by
  -- in a new store there is nothing yet
  have unmade : s = h.stores.size → h.handle? s key = none := fun new =>
    handle?_of_size_le (Nat.le_of_eq new.symm)
  have uncopied : (if s = h.stores.size then none else h.handle? s key) = h.handle? s key := by
    split
    next new => exact (unmade new).symm
    next => rfl
  cases r with
  | create =>
    show (h.add ∅).2.handle? s key = _
    rw [handle?_add]
    rfl
  | clone t =>
    show (h.add (h.contents t)).2.handle? s key = _
    rw [handle?_add]
    rfl
  | put t k value =>
    show (h.put t k value).handle? s key = _
    rw [handle?_put, Ledger.touches]
    split
    · rfl
    · rcases value with ⟨scalar | _, data⟩
      · exact uncopied.symm
      · show (h.add (h.contents data)).2.handle? s key = _
        rw [handle?_add]
        rfl
  | putNil t k =>
    show (h.modify t (·.insert k .nil)).handle? s key = _
    rw [handle?_modify_key fun store => Store.handle?_insert, Ledger.touches]
    simp [written?, Entry.handle?, Ledger.copied?, uncopied]
  | remove t k =>
    show (h.modify t (·.erase k)).handle? s key = _
    rw [handle?_modify_key fun store => Store.handle?_erase, Ledger.touches]
    simp [written?, Ledger.copied?, uncopied]
  | clear t =>
    show (h.modify t fun _ => ∅).handle? s key = _
    rw [handle?_modify, Store.handle?_empty, Ledger.touches]
    by_cases here : t = s
    · by_cases there : s < h.stores.size
      · simp [here, there, written?]
      · simp [here, there, written?, handle?_of_size_le (Nat.not_lt.mp there)]
    · simp [here, Ledger.copied?, uncopied]
  | merge target source options =>
    let merged : Store := ((h.contents target).merge (h.contents source) options).2
    show (h.modify target fun _ => merged).handle? s key = _
    rw [handle?_modify, Store.handle?_merge, Ledger.touches, ledger_admits]
    by_cases here : target = s
    · subst here
      by_cases there : target < h.stores.size
      · simp only [there, and_self, if_true, beq_self_eq_true, Bool.true_and, written?]
        split
        · rfl
        · exact uncopied.symm
      · have none_there : h.handle? target key = none := handle?_of_size_le (Nat.not_lt.mp there)
        simp [there, none_there, written?, Ledger.copied?]
    · simp [here, Ledger.copied?, uncopied]
  | get t k kind =>
    show (h.get t k kind).2.handle? s key = _
    rw [Heap.get]
    cases kind with
    | scalar scalar =>
      cases (h.contents t).read k (.scalar scalar) <;> exact uncopied.symm
    | store =>
      have copied : h.ledger.copied? (.get t k .store) =
          ((h.contents t).read k .store).toOption := congrArg Except.toOption ledger_read
      rw [copied, Ledger.touches]
      cases (h.contents t).read k .store with
      | error => exact uncopied.symm
      | ok inner =>
        show (h.add (h.contents inner)).2.handle? s key = _
        rw [handle?_add]
        rfl
  | share | contents | dump | keep | kept => exact uncopied.symm

end Heap

end StagedWorkflow
