import Mathlib.Logic.Function.Basic
import StagedWorkflow.Heap.Request
import StagedWorkflow.Proofs.Union

/-!
# Stores as finite maps

A store is meant to be a finite map. `Ledger` is the plain account of a
family of such maps: what each has at each key is a function, a write
replaces one value of it, and nothing is shared, sorted or counted.
`Ledger.replay` says what a request does to the maps.

Whatever a history of requests has made of a heap, the stores are the maps
that the ledger has after the same history (`Heap.ledger_after`), and answer
as they do (`Heap.Reads`). A request changes the keys of at most one store
that there was (`Heap.contents_answer`). How a store is listed depends only
on what its keys hold (`Store.listing_eq`).
-/

namespace StagedWorkflow

/-- What a key holds, in whichever cell. -/
inductive Holding where
  | nil
  | value (value : Value)

namespace Holding

/-- Whether it is the explicit nil. -/
def isNil : Holding → Bool
  | nil => true
  | value _ => false

/-- The name of the kind of what is held. -/
def kindName : Holding → String
  | nil => Kind.nilName
  | value held => held.kind.name

end Holding

/-- What an entry holds. -/
def Entry.holding : Entry → Holding
  | nil => .nil
  | held _ value => .value value

/-- Finite maps by number. -/
structure Ledger where
  /-- The number of maps. -/
  size : Nat
  /-- What each has at each key. -/
  holding? : StoreId → String → Option Holding

namespace Ledger

/-- No maps. -/
def empty : Ledger :=
  ⟨0, fun _ _ => none⟩

/-- One more map. -/
def add (l : Ledger) (map : String → Option Holding) : StoreId × Ledger :=
  (l.size, ⟨l.size + 1, Function.update l.holding? l.size map⟩)

/-- Changes one map, if there is one of the number. -/
def change (l : Ledger) (s : StoreId)
    (f : (String → Option Holding) → String → Option Holding) : Ledger :=
  if s < l.size then { l with holding? := Function.update l.holding? s (f (l.holding? s)) } else l

/-- Writes one key of one map: with something, or with nothing. -/
def write (l : Ledger) (s : StoreId) (key : String) (held : Option Holding) : Ledger :=
  l.change s fun map => Function.update map key held

/-- The value as one of the reader's own: a map is copied. -/
def own (l : Ledger) (kind : Kind) (data : kind.Carrier) : kind.Carrier × Ledger :=
  match kind, data with
  | .scalar _, data => (data, l)
  | .store, s => l.add (l.holding? s)

/-- The value at a key, if it is of the kind expected. -/
def read (l : Ledger) (s : StoreId) (key : String) (kind : Kind) :
    Except StoreError kind.Carrier :=
  match l.holding? s key with
  | none => .error (.keyNotFound key)
  | some .nil => .error (.typeMismatch key kind.name Kind.nilName)
  | some (.value held) =>
    match held.as? kind with
    | some data => .ok data
    | none => .error (.typeMismatch key kind.name held.kind.name)

/-- The value at a key, owned by the reader. -/
def get (l : Ledger) (s : StoreId) (key : String) (kind : Kind) :
    Except StoreError kind.Carrier × Ledger :=
  match l.read s key kind with
  | .ok data => let (data, l) := l.own kind data; (.ok data, l)
  | .error error => (.error error, l)

/-- One map laid over another: where it has something, that is what counts,
unless the options say otherwise. -/
def overlay (options : MergeOptions) (source target : String → Option Holding) :
    String → Option Holding :=
  fun key =>
    match source key with
    | none => target key
    | some held =>
      if (options.skipNil && held.isNil) || (!options.overwrite && (target key).isSome) then
        target key
      else some held

/-- **What a request does to the maps.** -/
def replay (l : Ledger) : Heap.Request → Ledger
  | .create => (l.add fun _ => none).2
  | .clone s => (l.add (l.holding? s)).2
  | .put s key value =>
    let (data, l) := l.own value.kind value.data
    l.write s key (some (.value ⟨value.kind, data⟩))
  | .putNil s key => l.write s key (some .nil)
  | .remove s key => l.write s key none
  | .clear s => l.change s fun _ _ => none
  | .merge target source options => l.change target (overlay options (l.holding? source))
  -- a store that is read by value is copied
  | .get s key kind => (l.get s key kind).2
  | .share _ _ _ | .contents _ | .dump _ | .keep _ | .kept _ => l

/-- The maps after some requests. -/
def after (requests : List Heap.Request) : Ledger :=
  requests.foldl replay empty

end Ledger

/-! ## The maps of a heap -/

namespace Store

/-- A store as a map. -/
def holdings (s : Store) : String → Option Holding :=
  fun key => (s.get? key).map Entry.holding

variable {s source : Store} {key : String}

theorem holdings_insert {entry : Entry} :
    holdings (s.insert key entry) = Function.update s.holdings key (some entry.holding) := by
  funext k
  by_cases same : k = key <;> simp [holdings, Table.get?_insert, same]

theorem holdings_erase : holdings (s.erase key) = Function.update s.holdings key none := by
  funext k
  by_cases same : k = key <;> simp [holdings, Table.get?_erase, same]

/-- **A merge lays the source over the target.** -/
theorem holdings_merge {options : MergeOptions} :
    (s.merge source options).2.holdings = Ledger.overlay options source.holdings s.holdings := by
  funext k
  rw [holdings, get?_merge, Ledger.overlay, holdings, holdings]
  cases found : source.get? k with
  | none => rfl
  | some entry =>
    have nil : entry.holding.isNil = entry.isNil := by cases entry <;> rfl
    have there : ((s.get? k).map Entry.holding).isSome = s.contains k := by
      simp [Table.contains]
    have admits_eq : s.admits options k entry =
        !(options.skipNil && entry.isNil || !options.overwrite && s.contains k) := by
      rw [admits]
      cases options.skipNil <;> cases options.overwrite <;> simp
    simp only [Option.map_some, nil, there, admits_eq, Bool.not_eq_true']
    cases options.skipNil && entry.isNil || !options.overwrite && s.contains k <;> simp

end Store

namespace Heap

/-- The maps that the stores of a heap are. -/
def ledger (h : Heap) : Ledger :=
  ⟨h.stores.size, fun s => (h.contents s).holdings⟩

variable {h : Heap} {s : StoreId} {key : String}

theorem contents_add_of_ne {store : Store} (ne : s ≠ h.stores.size) :
    (h.add store).2.contents s = h.contents s := by
  simp [add, contents, Array.getElem?_push, ne]

theorem ledger_add {store : Store} : (h.add store).2.ledger = (h.ledger.add store.holdings).2 := by
  have size : (h.add store).2.stores.size = h.stores.size + 1 := Array.size_push store
  have maps : (fun s => ((h.add store).2.contents s).holdings) =
      Function.update (fun s => (h.contents s).holdings) h.stores.size store.holdings := by
    funext s
    by_cases new : s = h.stores.size
    · subst new
      have there : (h.add store).2.contents h.stores.size = store := contents_add_self
      rw [Function.update_self, there]
    · rw [Function.update_of_ne new, contents_add_of_ne new]
  rw [ledger, size, maps]
  rfl

theorem size_modify {f : Store → Store} : (h.modify s f).stores.size = h.stores.size :=
  Array.size_modify

/-- **A change of a store is a change of its map.** -/
theorem ledger_modify {f : Store → Store} {g : (String → Option Holding) → String → Option Holding}
    (same : (f (h.contents s)).holdings = g (h.contents s).holdings) :
    (h.modify s f).ledger = h.ledger.change s g := by
  have size : (h.modify s f).stores.size = h.stores.size := size_modify
  rw [Ledger.change]
  split
  next there =>
    have maps : (fun t => ((h.modify s f).contents t).holdings) =
        Function.update (fun t => (h.contents t).holdings) s (g (h.contents s).holdings) := by
      funext t
      by_cases here : t = s
      · subst here
        rw [Function.update_self, contents_modify_self there, same]
      · rw [Function.update_of_ne here, contents_modify_of_ne (Ne.symm here)]
    rw [ledger, size, maps]
    rfl
  next missing =>
    have le : h.stores.size ≤ s := Nat.not_lt.mp missing
    have maps : (fun t => ((h.modify s f).contents t).holdings) =
        fun t => (h.contents t).holdings := by
      funext t
      by_cases here : t = s
      · subst here
        have le' : (h.modify t f).stores.size ≤ t := by omega
        simp [contents, le, le']
      · rw [contents_modify_of_ne (Ne.symm here)]
    rw [ledger, size, maps]
    rfl

/-- A value that is copied for its reader is copied in the maps. -/
theorem ledger_own {kind : Kind} {data : kind.Carrier} :
    h.ledger.own kind data = ((h.own kind data).1, (h.own kind data).2.ledger) := by
  cases kind with
  | scalar => rfl
  | store => exact Prod.ext rfl ledger_add.symm

/-- A store is read as its map is. -/
theorem ledger_read {kind : Kind} :
    h.ledger.read s key kind = (h.contents s).read key kind := by
  rw [Ledger.read, Store.read, Store.share]
  have there : h.ledger.holding? s key = ((h.contents s).get? key).map Entry.holding := rfl
  rw [there]
  cases (h.contents s).get? key with
  | none => rfl
  | some entry =>
    cases entry with
    | nil => rfl
    | held cell value =>
      simp only [Option.map_some, Entry.holding]
      cases value.as? kind <;> rfl

theorem ledger_get {kind : Kind} :
    h.ledger.get s key kind = ((h.get s key kind).1, (h.get s key kind).2.ledger) := by
  rw [Ledger.get, Heap.get, ledger_read]
  cases (h.contents s).read key kind with
  | error error => rfl
  | ok data => simp only [ledger_own]

theorem ledger_put {value : Value} :
    (h.put s key value).ledger = h.ledger.replay (.put s key value) := by
  rw [Ledger.replay, ledger_own]
  rcases own : h.own value.kind value.data with ⟨data, h'⟩
  have written : (h.put s key value).ledger =
      (h'.modify s (·.insert key (.held h'.cells ⟨value.kind, data⟩))).ledger := by
    rw [put, own]
    rfl
  rw [written]
  exact ledger_modify Store.holdings_insert

/-- **What a request does to a heap it does to its maps.** -/
theorem ledger_answer {r : Request} : (answer r h).2.ledger = h.ledger.replay r := by
  cases r with
  | create => exact ledger_add
  | clone s => exact ledger_add
  | put s key value => exact ledger_put
  | putNil s key =>
    show (h.modify s (·.insert key .nil)).ledger = h.ledger.write s key (some .nil)
    exact ledger_modify Store.holdings_insert
  | remove s key =>
    show (h.modify s (·.erase key)).ledger = h.ledger.write s key none
    exact ledger_modify Store.holdings_erase
  | clear s =>
    show (h.modify s fun _ => ∅).ledger = h.ledger.change s fun _ _ => none
    exact ledger_modify rfl
  | merge target source options =>
    show (h.modify target fun _ => ((h.contents target).merge (h.contents source) options).2).ledger
      = h.ledger.change target (Ledger.overlay options (h.ledger.holding? source))
    exact ledger_modify Store.holdings_merge
  | get s key kind => rw [Ledger.replay, ledger_get]; rfl
  | share | contents | dump | keep | kept => rfl

/-- A heap after some requests. -/
def after (requests : List Request) : Heap :=
  requests.foldl (fun h r => (answer r h).2) empty

/-- **After any history, the stores of a heap are the maps of the ledger.** -/
theorem ledger_after (requests : List Request) :
    (after requests).ledger = Ledger.after requests := by
  have from_any (h : Heap) (requests : List Request) :
      (requests.foldl (fun h r => (answer r h).2) h).ledger =
        requests.foldl Ledger.replay h.ledger := by
    induction requests generalizing h with
    | nil => rfl
    | cons r rest ih => rw [List.foldl_cons, List.foldl_cons, ih, ledger_answer]
  exact from_any empty requests

/-- The heap that a history leaves is one after some requests, whatever the
history makes of the answers. -/
theorem exists_after {α : Type} (history : History α) :
    ∃ requests, (history.play empty).2 = after requests := by
  have from_any (h : Heap) (history : History α) :
      ∃ requests : List Request,
        (history.play h).2 = requests.foldl (fun h r => (answer r h).2) h := by
    induction history generalizing h with
    | done a => exact ⟨[], rfl⟩
    | ask r next ih =>
      obtain ⟨requests, eq⟩ := ih (answer r h).1 (answer r h).2
      exact ⟨r :: requests, eq⟩
  exact from_any empty history

/-! ## What the maps say of a store -/

/-- **That a store reads as a map does.** -/
structure Reads (h : Heap) (l : Ledger) (s : StoreId) : Prop where
  contains : ∀ key, (h.contents s).contains key = (l.holding? s key).isSome
  isNil : ∀ key, (h.contents s).isNil key = (l.holding? s key).any Holding.isNil
  kindName : ∀ key, (h.contents s).kindName? key = (l.holding? s key).map Holding.kindName
  /-- A value comes out at its kind, and a store as a copy of the map. -/
  get : ∀ key kind, (answer (.get s key kind) h).1 = (l.get s key kind).1 ∧
    (answer (.get s key kind) h).2.ledger = (l.get s key kind).2
  remove : ∀ key, (answer (.remove s key) h).1 = (l.holding? s key).isSome
  /-- The keys are those at which the map has something, each once. -/
  ascending : (h.contents s).keys.Pairwise (· < ·)
  nodup : (h.contents s).keys.Nodup
  mem_keys : ∀ key, key ∈ (h.contents s).keys ↔ (l.holding? s key).isSome
  size : (h.contents s).size = (h.contents s).keys.length
  isEmpty : (h.contents s).isEmpty = true ↔ (h.contents s).size = 0

end Heap

namespace Table

variable {α β : Type} {t : Table α}

theorem pairwise_keys : t.keys.Pairwise (· < ·) := by
  rw [keys, List.pairwise_map]
  exact t.ascending

theorem nodup_keys : t.keys.Nodup :=
  pairwise_keys.imp fun lt eq => absurd (eq ▸ lt) (String.lt_irrefl _)

theorem mem_keys {key : String} : key ∈ t.keys ↔ t.contains key = true := by
  rw [contains, Option.isSome_iff_exists, keys, List.mem_map]
  constructor
  · rintro ⟨⟨_, value⟩, mem, rfl⟩
    exact ⟨value, get?_eq_some_iff.mpr mem⟩
  · rintro ⟨value, found⟩
    exact ⟨(key, value), get?_eq_some_iff.mp found, rfl⟩

theorem toList_map {f : α → β} : (t.map f).toList = t.toList.map fun e => (e.1, f e.2) := rfl

end Table

/-- **How a store is listed depends only on what its keys hold**, and of
that on the kinds. -/
theorem Store.listing_eq {s t : Store} (same : ∀ key, s.kindName? key = t.kindName? key) :
    s.keys = t.keys ∧ s.size = t.size ∧ s.outline = t.outline := by
  -- the table of the kinds is all that is read
  have kinds : s.map Entry.kindName = t.map Entry.kindName := by
    refine Table.ext_get? fun key => ?_
    rw [Table.get?_map, Table.get?_map]
    exact same key
  have listed : (s.map Entry.kindName).toList = (t.map Entry.kindName).toList := by rw [kinds]
  rw [Table.toList_map, Table.toList_map] at listed
  have keys : s.keys = t.keys := by
    simpa [Table.keys, Function.comp_def] using congrArg (List.map (·.1)) listed
  refine ⟨keys, ?_, ?_⟩
  · simpa [Table.keys, Table.size] using congrArg List.length keys
  · rw [outline, outline]
    simpa [Function.comp_def] using
      congrArg (fun entries => Text.Outline.map (entries.map fun e => (e.1, .text e.2))) listed

namespace Heap

/-- **A store reads as its map does.** -/
theorem reads_ledger {h : Heap} {s : StoreId} : h.Reads h.ledger s where
  contains key := by simp [Table.contains, ledger, Store.holdings]
  isNil key := by
    show ((h.contents s).get? key).any Entry.isNil =
      (((h.contents s).get? key).map Entry.holding).any Holding.isNil
    cases (h.contents s).get? key with
    | none => rfl
    | some entry => cases entry <;> rfl
  kindName key := by
    show ((h.contents s).get? key).map Entry.kindName =
      (((h.contents s).get? key).map Entry.holding).map Holding.kindName
    cases (h.contents s).get? key with
    | none => rfl
    | some entry => cases entry <;> rfl
  get key kind := by
    rw [ledger_get]
    exact ⟨rfl, rfl⟩
  remove key := by simp [answer, Heap.remove, Table.contains, ledger, Store.holdings]
  ascending := Table.pairwise_keys
  nodup := Table.nodup_keys
  mem_keys key := by
    rw [Table.mem_keys]
    simp [Table.contains, ledger, Store.holdings]
  size := by simp [Table.size, Table.keys]
  isEmpty := by simp [Table.isEmpty, Table.size]

/-- The store whose keys a request can change. -/
def Request.target? : Request → Option StoreId
  | put s _ _ | putNil s _ | remove s _ | clear s | merge s _ _ => some s
  | create | clone _ | get _ _ _ | share _ _ _ | contents _ | dump _ | keep _ | kept _ => none

/-- A copy made for the reader of a value is no change of the stores there
are. -/
theorem contents_own {h : Heap} {kind : Kind} {data : kind.Carrier} {t : StoreId}
    (there : t < h.stores.size) : (h.own kind data).2.contents t = h.contents t := by
  cases kind with
  | scalar => rfl
  | store => exact contents_add_of_lt there

/-- **A request changes no store but its target**, of those there are. -/
theorem contents_answer {h : Heap} {r : Request} {t : StoreId} (other : r.target? ≠ some t)
    (there : t < h.stores.size) : (answer r h).2.contents t = h.contents t := by
  have ne {s : StoreId} (target : r.target? = some s) : s ≠ t := fun eq => other (eq ▸ target)
  cases r with
  | create => exact contents_add_of_lt there
  | clone s => exact contents_add_of_lt there
  | put s key value =>
    rw [← contents_own there]
    exact contents_modify_of_ne (ne rfl)
  | putNil s key => exact contents_modify_of_ne (ne rfl)
  | remove s key => exact contents_modify_of_ne (ne rfl)
  | clear s => exact contents_modify_of_ne (ne rfl)
  | merge target source options => exact contents_modify_of_ne (ne rfl)
  | get s key kind =>
    rw [answer, Heap.get]
    split
    · exact contents_own there
    · rfl
  | share | contents | dump | keep | kept => rfl

/-- A value is copied into a new store at most. -/
theorem size_le_own {h : Heap} {kind : Kind} {data : kind.Carrier} :
    h.stores.size ≤ (h.own kind data).2.stores.size := by
  cases kind with
  | scalar => exact Nat.le_refl _
  | store => exact Nat.le_of_lt (Array.size_push _ ▸ Nat.lt_succ_self _)

/-- **No store is ever removed.** -/
theorem size_le_answer {h : Heap} {r : Request} :
    h.stores.size ≤ (answer r h).2.stores.size := by
  cases r with
  | create => exact Nat.le_of_lt (Array.size_push _ ▸ Nat.lt_succ_self _)
  | clone s => exact Nat.le_of_lt (Array.size_push _ ▸ Nat.lt_succ_self _)
  | put s key value => exact Nat.le_trans size_le_own (Nat.le_of_eq size_modify.symm)
  | putNil s key => exact Nat.le_of_eq size_modify.symm
  | remove s key => exact Nat.le_of_eq size_modify.symm
  | clear s => exact Nat.le_of_eq size_modify.symm
  | merge target source options => exact Nat.le_of_eq size_modify.symm
  | get s key kind =>
    rw [answer, Heap.get]
    split
    · exact size_le_own
    · exact Nat.le_refl _
  | share | contents | dump | keep | kept => exact Nat.le_refl _

/-- **Stores are finite maps.** After any history the stores are the maps
that a plain replay gives, and answer as they do; a request changes the
contents of one store at most, and a clone is a store of its own from then
on; and stores that hold the same are listed the same, whatever their
histories. -/
theorem refines_ledger :
    (∀ (α : Type) (history : History α), ∃ requests, (history.play empty).2 = after requests) ∧
    (∀ requests, (after requests).ledger = Ledger.after requests ∧
      ∀ s, (after requests).Reads (Ledger.after requests) s) ∧
    (∀ requests r t, r.target? ≠ some t → t < (after requests).stores.size →
      (after (requests ++ [r])).contents t = (after requests).contents t) ∧
    (∀ requests s, (answer (.clone s) (after requests)).1 = (after requests).stores.size ∧
      (after (requests ++ [.clone s])).contents (after requests).stores.size =
        (after requests).contents s) ∧
    ∀ requests others s t,
      (∀ key, ((Ledger.after requests).holding? s key).map Holding.kindName =
        ((Ledger.after others).holding? t key).map Holding.kindName) →
      ((after requests).contents s).keys = ((after others).contents t).keys ∧
        ((after requests).contents s).size = ((after others).contents t).size ∧
        ((after requests).contents s).outline = ((after others).contents t).outline := by
  have snoc (requests : List Request) (r : Request) :
      after (requests ++ [r]) = (answer r (after requests)).2 := by
    rw [after, List.foldl_append]
    rfl
  have reads (requests : List Request) (s : StoreId) :
      (after requests).Reads (Ledger.after requests) s := ledger_after requests ▸ reads_ledger
  refine ⟨fun _ => exists_after, fun requests => ⟨ledger_after requests, reads requests⟩,
    fun requests r t other there => ?_, fun requests s => ⟨rfl, ?_⟩,
    fun requests others s t same => Store.listing_eq fun key => ?_⟩
  · rw [snoc]
    exact contents_answer other there
  · rw [snoc]
    exact contents_add_self
  · rw [(reads requests s).kindName, (reads others t).kindName, same key]

/-- A store that is cleared leaves another alone, and two stores with one
key are listed the same, though one of them has had another. -/
theorem refines_ledger_sample :
    ((after ([.create, .create, .putNil 0 "a"] ++ [.clear 1])).contents 0 =
      (after [.create, .create, .putNil 0 "a"]).contents 0) ∧
    ((after [.create, .putNil 0 "a", .putNil 0 "b", .remove 0 "a"]).contents 0).keys =
      ((after [.create, .putNil 0 "b"]).contents 0).keys := by
  obtain ⟨-, -, frame, -, listing⟩ := refines_ledger
  refine ⟨frame _ (.clear 1) 0 (by decide) (by decide), (listing _ _ 0 0 fun key => ?_).1⟩
  by_cases a : key = "a" <;> by_cases b : key = "b" <;>
    simp [Ledger.after, Ledger.replay, Ledger.empty, Ledger.add, Ledger.write, Ledger.change,
      a, b]

end Heap

end StagedWorkflow
