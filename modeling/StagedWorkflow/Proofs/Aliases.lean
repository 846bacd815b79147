import StagedWorkflow.Proofs.Sharing
import StagedWorkflow.Proofs.Frame

/-!
# Stores inside stores

A store that a key holds is reached through handles, and a handle can be held
at many keys. What is done to the store behind one is seen through those with
the same cell and through no other (`Heap.contents_inner`), for two cells hold
two stores. A store that is read by value is another store with the same
handles in it (`Heap.copied_get`), so the two go apart while the stores inside
them stay shared.
-/

namespace StagedWorkflow

namespace Heap

variable {h : Heap} {r : Request} {requests past more : List Request} {i j : Nat}
variable {s t m m' : StoreId} {key other : String} {cell cell' : CellId}

/-! ## What is seen through a handle -/

/-- **A store changes only by requests to itself**, through any history. -/
theorem contents_append (there : t < (after past).stores.size)
    (others : ∀ r ∈ more, r.target? ≠ some t) :
    (after (past ++ more)).contents t = (after past).contents t := by
  induction more using List.reverseRecOn with
  | nil => rw [List.append_nil]
  | append_singleton more r ih =>
    obtain ⟨before, last⟩ := List.forall_mem_append.mp others
    have still : t < (after (past ++ more)).stores.size := Nat.lt_of_lt_of_le there size_le_after
    rw [← List.append_assoc, after_concat, contents_answer (last r List.mem_cons_self) still,
      ih before]

/-- **Two handles to stores have one cell exactly if they have one store.** -/
theorem cell_eq_iff_inner_eq
    (first : (after (requests.take i)).handle? s key = some ⟨cell, .store, m⟩)
    (second : (after (requests.take j)).handle? t other = some ⟨cell', .store, m'⟩) :
    cell' = cell ↔ m' = m := by
  constructor
  · intro same
    cases eq_of_cell_eq second first same
    rfl
  · rintro rfl
    obtain ⟨n, -, placed⟩ := exists_placed? first
    obtain ⟨n', -, placed'⟩ := exists_placed? second
    obtain rfl := place_eq_of_store placed placed'
    cases placed.symm.trans placed'
    rfl

/-- **A request to the store behind a handle is seen through the handles with
the same cell**, and through no other, whenever they are taken. -/
theorem contents_inner (target : r.target? = some m) (there : m' < (after past).stores.size)
    (first : (after (requests.take i)).handle? s key = some ⟨cell, .store, m⟩)
    (second : (after (requests.take j)).handle? t other = some ⟨cell', .store, m'⟩) :
    (after (past ++ [r])).contents m' =
      if cell' = cell then (after (past ++ [r])).contents m else (after past).contents m' := by
  split
  next same => rw [(cell_eq_iff_inner_eq first second).mp same]
  next apart =>
    refine contents_append there fun r' mem eq => apart ?_
    obtain rfl := List.mem_singleton.mp mem
    exact (cell_eq_iff_inner_eq first second).mpr (Option.some.inj (eq.symm.trans target))

/-! ## Initial data -/

/-- What a store has is shared with the store it is merged into. -/
theorem handle?_merge_of_some {handle : Handle} (target : t < h.stores.size)
    (there : h.handle? s key = some handle) :
    (h.merge t s {}).2.handle? t key = some handle ∧
      (h.merge t s {}).2.handle? s key = some handle := by
  have found : ∃ entry, (h.contents s).get? key = some entry ∧ entry.handle? = some handle :=
    Option.bind_eq_some_iff.mp there
  obtain ⟨entry, found, own⟩ := found
  have merged : Store.handle? ((h.contents t).merge (h.contents s) {}).2 key = some handle := by
    rw [Store.handle?, Store.get?_merge_default, found]
    exact own
  have into : (h.merge t s {}).2.handle? t key = some handle := by
    show (h.modify t fun _ => ((h.contents t).merge (h.contents s) {}).2).handle? t key = _
    rw [handle?_modify, if_pos ⟨rfl, target⟩, merged]
  refine ⟨into, ?_⟩
  by_cases same : t = s
  · exact same ▸ into
  · show (h.modify t fun _ => ((h.contents t).merge (h.contents s) {}).2).handle? s key = _
    rw [handle?_modify, if_neg fun here => same here.1, there]

/-! ## Copies -/

/-- **That a store is now a copy of what another was.** It is another store
with the same entries, so the values of both have the same cells, also where
they are stores; and either stays as it is until there is a request to
itself, whatever is asked of the other. -/
structure Copied (past : List Request) (m : StoreId) (now : List Request) (n : StoreId) :
    Prop where
  ne : n ≠ m
  original_lt : m < (after now).stores.size
  copy_lt : n < (after now).stores.size
  contents : (after now).contents n = (after past).contents m
  share : ∀ key kind, (after now).share n key kind = (after past).share m key kind
  original_stays : ∀ more : List Request, (∀ r ∈ more, r.target? ≠ some m) →
    (after (now ++ more)).contents m = (after now).contents m
  copy_stays : ∀ more : List Request, (∀ r ∈ more, r.target? ≠ some n) →
    (after (now ++ more)).contents n = (after now).contents n

/-- The first store that is new is a copy if it is filled like the other. -/
theorem copied_of_contents {size : Nat} (old : m < size)
    (grown : (after requests).stores.size = size + 1)
    (contents : (after requests).contents size = (after past).contents m) :
    Copied past m requests size where
  ne := Nat.ne_of_gt old
  original_lt := grown ▸ Nat.lt_succ_of_lt old
  copy_lt := grown ▸ Nat.lt_succ_self size
  contents := contents
  share key kind := congrArg (Store.share · key kind) contents
  original_stays _ := contents_append (grown ▸ Nat.lt_succ_of_lt old)
  copy_stays _ := contents_append (grown ▸ Nat.lt_succ_self size)

/-- A store that is read by value is a new one. -/
theorem answer_get_store (found : h.share s key .store = .ok (cell, m)) :
    answer (.get s key .store) h = (.ok h.stores.size, (h.add (h.contents m)).2) := by
  have read : (h.contents s).read key .store = .ok m := congrArg (Prod.snd <$> ·) found
  rw [answer, Heap.get, read]
  rfl

/-- **A store that is read by value is a copy of the one behind the key.** -/
theorem copied_get (found : (after requests).share s key .store = .ok (cell, m))
    (there : m < (after requests).stores.size) :
    Copied requests m (requests ++ [.get s key .store]) (after requests).stores.size := by
  have now : after (requests ++ [.get s key .store]) =
      ((after requests).add ((after requests).contents m)).2 := by
    rw [after_concat, answer_get_store found]
  refine copied_of_contents there ?_ ?_
  · rw [now]
    exact Array.size_push _
  · rw [now]
    exact contents_add_self

/-- **And so is the store behind a key that it is put at.** -/
theorem copied_put {n : StoreId} (copied : Copied requests m past n)
    (there : t < (after past).stores.size) :
    Copied requests m (past ++ [.put t other ⟨.store, n⟩]) (after past).stores.size := by
  refine copied_of_contents copied.original_lt ?_ ?_
  · rw [after_concat]
    exact size_modify.trans (Array.size_push _)
  · rw [← copied.contents, after_concat]
    show (((after past).add ((after past).contents n)).2.modify t _).contents _ = _
    rw [contents_modify_of_ne (Nat.ne_of_lt there)]
    exact contents_add_self

/-! ## The law -/

/-- **Writes to a store inside a store are seen through its handles.** Take
two handles to stores at any places and times of a history, and a request in
it whose target is the store behind the first. The handles have one cell
exactly if the values they were taken at descend from one put, and exactly
then they have one store. What the request does is seen through the second
handle if the cells are one; if they are not, its store is as before, and so
is every other store. When a stage is entered, the handles in its initial
data come to be in the store of the workflow too. A store that is read by
value is a copy, and so is one that is then put at any key. And one cell that
holds no store holds one value at all times. -/
theorem seen_through_aliases :
    (∀ past r later i s key cell m j t other cell' m',
      let requests : List Request := past ++ r :: later
      (after (requests.take i)).share s key .store = .ok (cell, m) →
      (after (requests.take j)).share t other .store = .ok (cell', m') →
      r.target? = some m →
      (cell' = cell ↔ ∃ n, Ledger.Descends (requests.take i) n s key ∧
        Ledger.Descends (requests.take j) n t other) ∧
      (cell' = cell ↔ m' = m) ∧
      (m' < (after past).stores.size → (after (past ++ [r])).contents m' =
        if cell' = cell then (after (past ++ [r])).contents m else (after past).contents m') ∧
      -- a handle taken before is to a store that is there
      (j ≤ past.length → m' < (after past).stores.size) ∧
      ∀ x, x ≠ m → x < (after past).stores.size →
        (after (past ++ [r])).contents x = (after past).contents x) ∧
    (∀ (β : Type) (c : Setting β) (site : Site β) (stage : Stage β) world requests,
      world.heap = after requests → site.workflow.store < (after requests).stores.size →
      let entered := (Pass.enter c site stage world).world.heap
      entered = after (requests ++ [.merge site.workflow.store stage.initial {}]) ∧
      ∀ key cell m, (after requests).share stage.initial key .store = .ok (cell, m) →
        entered.share site.workflow.store key .store = .ok (cell, m) ∧
          entered.share stage.initial key .store = .ok (cell, m)) ∧
    (∀ requests s key cell m, (after requests).share s key .store = .ok (cell, m) →
      let n := (after requests).stores.size
      let read := requests ++ [.get s key .store]
      (answer (.get s key .store) (after requests)).1 = .ok n ∧ Copied requests m read n ∧
      ∀ t other, t < (after read).stores.size →
        let put := read ++ [.put t other ⟨.store, n⟩]
        ∃ cell' p, (after put).share t other .store = .ok (cell', p) ∧ cell' ≠ cell ∧ p ≠ n ∧
          Copied requests m put p) ∧
    ∀ (requests : List Request) i s key scalar cell data j t other kind data',
      (after (requests.take i)).share s key (.scalar scalar) = .ok (cell, data) →
      (after (requests.take j)).share t other kind = .ok (cell, data') →
      (⟨kind, data'⟩ : Value) = ⟨.scalar scalar, data⟩ := by
  refine ⟨?_, ?_, ?_, ?_⟩
  · intro past r later i s key cell m j t other cell' m' requests first second target
    rw [share_eq_ok_iff] at first second
    refine ⟨eq_comm.trans (cell_eq_iff first second), cell_eq_iff_inner_eq first second,
      fun there => contents_inner target there first second, fun early => ?_, fun x ne there => ?_⟩
    · have before : requests.take j = past.take j := List.take_append_of_le_length early
      rw [before] at second
      exact inner_lt_size second
    · refine contents_append there fun r' mem eq => ne ?_
      obtain rfl := List.mem_singleton.mp mem
      exact Option.some.inj (eq.symm.trans target)
  · intro β c site stage world requests heap there entered
    have merged : entered = ((after requests).merge site.workflow.store stage.initial {}).2 := by
      rw [← heap]
      exact Pass.heap_enter
    refine ⟨by rw [merged, after_concat]; rfl, fun key cell m found => ?_⟩
    rw [share_eq_ok_iff] at found
    rw [merged, share_eq_ok_iff, share_eq_ok_iff]
    exact handle?_merge_of_some there found
  · intro requests s key cell m found n read
    have had : (after requests).handle? s key = some ⟨cell, .store, m⟩ :=
      share_eq_ok_iff.mp found
    have there : m < (after requests).stores.size :=
      inner_lt_size (i := requests.length) (by rwa [List.take_length])
    have copied : Copied requests m read n := copied_get found there
    refine ⟨by rw [answer_get_store found], copied, ?_⟩
    intro t other there put
    have before : read.take requests.length = requests := List.take_left
    have made : cell < (after read).cells :=
      cell_lt_cells (i := requests.length) (by rwa [before])
    refine ⟨(after read).cells, (after read).stores.size, ?_, Nat.ne_of_gt made,
      Nat.ne_of_gt copied.copy_lt, copied_put copied there⟩
    rw [share_eq_ok_iff, after_concat]
    exact handle?_put_self there
  · intro requests i s key scalar cell data j t other kind data' first second
    rw [share_eq_ok_iff] at first second
    exact congrArg Handle.value (eq_of_cell_eq second first rfl)

/-- A store in the initial data of a stage: when the stage is entered it is
shared with the workflow, so a key that is written there later is seen in the
initial data, while a copy that was read in between has a store of its own. -/
theorem seen_through_aliases_initial :
    let requests : List Request := [.create, .create, .create, .put 1 "in" ⟨.store, 2⟩]
    let site : Site Sample.Code := ⟨Sample.workflow .rest, .member 0⟩
    let world : World := { Sample.world with heap := after requests }
    (Pass.enter Sample.setting site (Sample.stage .rest) world).world.heap.share 0 "in" .store =
      .ok (0, 3) ∧
    (∃ n, Ledger.Descends requests n 1 "in" ∧
      Ledger.Descends (requests ++ [.merge 0 1 {}]) n 0 "in") ∧
    ((after (requests ++ [.merge 0 1 {}, .putNil 3 "x"])).contents 0 =
      (after (requests ++ [.merge 0 1 {}])).contents 0) ∧
    Copied requests 3 (requests ++ [.get 1 "in" .store]) 4 := by
  intro requests site world
  obtain ⟨seen, entered, copies, -⟩ := seen_through_aliases
  have initial : (after requests).share 1 "in" .store = .ok (0, 3) := by rfl
  have shared := (entered Sample.Code Sample.setting site (Sample.stage .rest) world requests rfl
    (by decide)).2 "in" 0 3 initial
  obtain ⟨descends, -, -, -, others⟩ := seen (requests ++ [.merge 0 1 {}]) (.putNil 3 "x") []
    4 1 "in" 0 3 5 0 "in" 0 3 (by rfl) (by rfl) rfl
  exact ⟨shared.1, descends.mp rfl, others 0 (by decide) (by decide),
    (copies requests 1 "in" 0 3 initial).2.1⟩

end Heap

end StagedWorkflow
