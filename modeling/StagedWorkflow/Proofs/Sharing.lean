import Mathlib.Data.List.Induction
import StagedWorkflow.Proofs.Provenance

/-!
# What is shared

A cell tells where a value comes from. The handle of a value is the one that
was made by the put the value descends from (`Heap.handle?_after_iff`), and no
two puts make one cell, nor one store (`Heap.place_eq_of_cell`,
`Heap.place_eq_of_store`), since the numbers of cells and of stores only grow.
So two handles, taken wherever and whenever in a history, have one cell
exactly if the values descend from one put (`Heap.cell_eq_iff`).
-/

namespace StagedWorkflow

namespace Heap

variable {h : Heap} {r : Request} {s t : StoreId} {key : String}

/-! ## Histories -/

variable {requests past more : List Request} {i j n m : Nat}

theorem after_concat : after (past ++ [r]) = (answer r (after past)).2 := by
  rw [after, List.foldl_append]
  rfl

theorem ledger_size : (Ledger.after past).size = (after past).stores.size := by
  rw [← ledger_after]
  rfl

theorem kept_own {kind : Kind} {data : kind.Carrier} : (h.own kind data).2.kept = h.kept := by
  cases kind <;> rfl

/-- Only a put makes a cell, and it makes one. -/
theorem cells_put {value : Value} : (h.put s key value).cells = h.cells + 1 := by
  show (h.own value.kind value.data).2.cells + 1 = h.cells + 1
  rw [cells_own]

theorem cells_le_answer : h.cells ≤ (answer r h).2.cells := by
  cases r with
  | put s key value => exact Nat.le_trans (Nat.le_succ _) (Nat.le_of_eq cells_put.symm)
  | get s key kind =>
    rw [answer, Heap.get]
    split
    · exact Nat.le_of_eq cells_own.symm
    · exact Nat.le_refl _
  | create | clone | putNil | remove | clear | merge | share | contents | dump | keep | kept =>
    exact Nat.le_refl _

/-- **A handle that is kept stays**, whatever is asked of the heap. -/
theorem kept_answer {index : Nat} {handle : Handle} (kept : h.kept[index]? = some handle) :
    (answer r h).2.kept[index]? = some handle := by
  cases r with
  | put s key value =>
    show (h.own value.kind value.data).2.kept[index]? = some handle
    rw [kept_own]
    exact kept
  | get s key kind =>
    rw [answer, Heap.get]
    split
    · rw [kept_own]
      exact kept
    · exact kept
  | keep other =>
    have lt : index < h.kept.length := (List.getElem?_eq_some_iff.mp kept).1
    show (h.kept ++ [other])[index]? = some handle
    rw [List.getElem?_append_left lt]
    exact kept
  | create | clone | putNil | remove | clear | merge | share | contents | dump | kept => exact kept

/-- **What every request keeps, a history keeps.** -/
theorem after_append_of_answer (holds : Heap → Prop)
    (kept : ∀ r h, holds h → holds (answer r h).2) (start : holds (after past)) :
    holds (after (past ++ more)) := by
  induction more using List.reverseRecOn with
  | nil => rwa [List.append_nil]
  | append_singleton more r ih =>
    rw [← List.append_assoc, after_concat]
    exact kept r _ ih

theorem cells_le_after : (after past).cells ≤ (after (past ++ more)).cells :=
  after_append_of_answer (fun h => (after past).cells ≤ h.cells)
    (fun _ _ le => Nat.le_trans le cells_le_answer) (Nat.le_refl _)

theorem size_le_after : (after past).stores.size ≤ (after (past ++ more)).stores.size :=
  after_append_of_answer (fun h => (after past).stores.size ≤ h.stores.size)
    (fun _ _ le => Nat.le_trans le size_le_answer) (Nat.le_refl _)

/-- What every request keeps holds in the end if it holds at some time. -/
theorem after_of_take (holds : Heap → Prop) (kept : ∀ r h, holds h → holds (answer r h).2)
    (start : holds (after (requests.take i))) : holds (after requests) := by
  rw [← List.take_append_drop i requests]
  exact after_append_of_answer holds kept start

/-- A later time in a history goes on from an earlier one. -/
theorem exists_take_eq (le : i ≤ j) : ∃ more, requests.take j = requests.take i ++ more := by
  refine ⟨(requests.take j).drop i, ?_⟩
  have first : (requests.take j).take i = requests.take i := by
    rw [List.take_take, Nat.min_eq_left le]
  rw [← first, List.take_append_drop]

/-! ## The handle a put makes -/

/-- The handle of the value that is put at a place of a history. -/
def placed? (requests : List Request) (n : Nat) : Option Handle :=
  match requests[n]? with
  | some (.put _ _ value) =>
    let before := after (requests.take n)
    some ⟨before.cells, value.kind, (before.own value.kind value.data).1⟩
  | _ => none

theorem placed?_append (lt : n < past.length) : placed? (past ++ more) n = placed? past n := by
  have before : (past ++ more).take n = past.take n :=
    List.take_append_of_le_length (Nat.le_of_lt lt)
  rw [placed?, placed?, List.getElem?_append_left lt, before]

theorem placed?_take (lt : n < (requests.take i).length) :
    placed? (requests.take i) n = placed? requests n := by
  have later : placed? (requests.take i ++ requests.drop i) n = placed? (requests.take i) n :=
    placed?_append lt
  rw [← later, List.take_append_drop]

theorem placed?_concat {value : Value} :
    placed? (past ++ [.put s key value]) past.length =
      some ⟨(after past).cells, value.kind, ((after past).own value.kind value.data).1⟩ := by
  simp [placed?]

/-- **A value has the handle of the put it descends from.** -/
theorem handle?_of_descends {handle : Handle} (h : Ledger.Descends requests n s key)
    (placed : placed? requests n = some handle) :
    (after requests).handle? s key = some handle := by
  induction h with
  | @put past s key value there =>
    rw [placed?_concat] at placed
    rw [ledger_size, after_concat] at there
    have lt : s < ((after past).own value.kind value.data).2.stores.size :=
      Nat.lt_of_lt_of_eq there size_modify
    rw [after_concat, handle?_answer]
    simp [Ledger.touches, written?, lt, placed]
  | @left past r n s key before untouched ih =>
    rw [placed?_append before.lt_length] at placed
    rw [← ledger_after] at untouched
    have had : (after past).handle? s key = some handle := ih placed
    have old : s ≠ (after past).stores.size := Nat.ne_of_lt (lt_size_of_handle? had)
    rw [after_concat, handle?_answer, untouched, if_neg Bool.false_ne_true, if_neg old, had]
  | @cloned past r n s key before copied untouched ih =>
    rw [placed?_append before.lt_length] at placed
    rw [← ledger_after] at copied untouched
    have had : (after past).handle? s key = some handle := ih placed
    rw [ledger_size, after_concat, handle?_answer, ← ledger_size, ← ledger_after, untouched,
      if_neg Bool.false_ne_true, if_pos rfl, copied, Option.bind_some, had]
  | @merged past n source target options key before there admitted ih =>
    rw [placed?_append before.lt_length] at placed
    rw [ledger_size] at there
    rw [← ledger_after] at admitted
    have had : (after past).handle? source key = some handle := ih placed
    rw [after_concat, handle?_answer]
    simp [Ledger.touches, admitted, written?, there, had]

/-- **A value descends from a put.** -/
theorem exists_descends {handle : Handle} (there : (after requests).handle? s key = some handle) :
    ∃ n, Ledger.Descends requests n s key ∧ placed? requests n = some handle := by
  induction requests using List.reverseRecOn generalizing s key handle with
  | nil => cases there
  | append_singleton past r ih =>
    -- what was there before the request had its put before it
    have earlier {n : Nat} {t : StoreId} {k : String} (h : Ledger.Descends past n t k)
        (placed : placed? past n = some handle) : placed? (past ++ [r]) n = some handle := by
      rw [placed?_append h.lt_length, placed]
    rw [after_concat, handle?_answer] at there
    split at there
    next touched =>
      cases r with
      | put t k value =>
        obtain ⟨rfl, rfl⟩ : t = s ∧ k = key := by simpa [Ledger.touches] using touched
        rw [written?] at there
        split at there
        next lt =>
          refine ⟨past.length, .put ?_, by rw [placed?_concat, there]⟩
          rw [ledger_size, after_concat]
          exact Nat.lt_of_lt_of_eq lt size_modify.symm
        next => cases there
      | merge target source options =>
        obtain ⟨rfl, admitted⟩ : target = s ∧
            (after past).ledger.admits options target source key = true := by
          simpa [Ledger.touches] using touched
        rw [written?] at there
        split at there
        next lt =>
          obtain ⟨n, descends, placed⟩ := ih there
          refine ⟨n, .merged descends ?_ ?_, earlier descends placed⟩
          · rw [ledger_size]
            exact lt
          · rw [← ledger_after]
            exact admitted
        next => cases there
      | putNil | remove | clear => cases there
      | create | clone | get | share | contents | dump | keep | kept => cases touched
    next untouched =>
      have untouched : (Ledger.after past).touches s key r = false := by
        rw [← ledger_after]
        exact Bool.not_eq_true _ ▸ untouched
      split at there
      next new =>
        obtain ⟨t, copied, had⟩ := Option.bind_eq_some_iff.mp there
        obtain ⟨n, descends, placed⟩ := ih had
        rw [ledger_after] at copied
        rw [← ledger_size] at new
        subst new
        exact ⟨n, .cloned descends copied untouched, earlier descends placed⟩
      next old =>
        obtain ⟨n, descends, placed⟩ := ih there
        exact ⟨n, .left descends untouched, earlier descends placed⟩

/-- There is a put where a value descends from one. -/
theorem exists_placed?_of_descends (h : Ledger.Descends requests n s key) :
    ∃ handle, placed? requests n = some handle := by
  induction h with
  | put => exact ⟨_, placed?_concat⟩
  | left before _ ih => exact placed?_append before.lt_length ▸ ih
  | cloned before _ _ ih => exact placed?_append before.lt_length ▸ ih
  | merged before _ _ ih => exact placed?_append before.lt_length ▸ ih

/-- **The handles there are, are those of the puts they descend from.** -/
theorem handle?_after_iff {handle : Handle} :
    (after requests).handle? s key = some handle ↔
      ∃ n, Ledger.Descends requests n s key ∧ placed? requests n = some handle :=
  ⟨exists_descends, fun ⟨_, descends, placed⟩ => handle?_of_descends descends placed⟩

/-! ## Each put makes a handle of its own -/

/-- A put takes the first cell that is free. -/
theorem cell_of_placed? {handle : Handle} (placed : placed? requests n = some handle) :
    handle.cell = (after (requests.take n)).cells ∧
      handle.cell < (after (requests.take (n + 1))).cells := by
  rw [placed?] at placed
  split at placed
  next s key value there =>
    obtain rfl := Option.some.inj placed
    refine ⟨rfl, ?_⟩
    rw [List.take_add_one, there, Option.toList_some, after_concat]
    exact Nat.lt_of_lt_of_eq (Nat.lt_succ_self _) cells_put.symm
  next => cases placed

/-- A put of a store takes the first number that is free. -/
theorem store_of_placed? {cell : CellId} {inner : StoreId}
    (placed : placed? requests n = some ⟨cell, .store, inner⟩) :
    inner = (after (requests.take n)).stores.size ∧
      inner < (after (requests.take (n + 1))).stores.size := by
  rw [placed?] at placed
  split at placed
  next s key value there =>
    rcases value with ⟨_ | _, data⟩
    · cases placed
    · cases placed
      refine ⟨rfl, ?_⟩
      rw [List.take_add_one, there, Option.toList_some, after_concat]
      have size : (after (requests.take n) |>.put s key ⟨.store, data⟩).stores.size =
          (after (requests.take n)).stores.size + 1 := size_modify.trans (Array.size_push _)
      exact Nat.lt_of_lt_of_eq (Nat.lt_succ_self _) size.symm
  next => cases placed

/-- A number that only grows through a history has a value just before one
request at most, if the request makes it grow. -/
theorem place_eq {x : Nat} (count : Heap → Nat)
    (grows : ∀ past more, count (after past) ≤ count (after (past ++ more)))
    (first : x = count (after (requests.take n)) ∧ x < count (after (requests.take (n + 1))))
    (second : x = count (after (requests.take m)) ∧ x < count (after (requests.take (m + 1)))) :
    n = m := by
  have le {i j : Nat} (h : i ≤ j) :
      count (after (requests.take i)) ≤ count (after (requests.take j)) := by
    obtain ⟨more, eq⟩ : ∃ more, requests.take j = requests.take i ++ more := exists_take_eq h
    rw [eq]
    exact grows _ _
  rcases Nat.lt_trichotomy n m with lt | eq | gt
  · have := le (show n + 1 ≤ m from lt)
    omega
  · exact eq
  · have := le (show m + 1 ≤ n from gt)
    omega

/-- **No two puts have one cell.** -/
theorem place_eq_of_cell {a b : Handle} (first : placed? requests n = some a)
    (second : placed? requests m = some b) (same : a.cell = b.cell) : n = m :=
  place_eq Heap.cells (fun _ _ => cells_le_after) (cell_of_placed? first)
    (same ▸ cell_of_placed? second)

/-- **No two puts have one store.** -/
theorem place_eq_of_store {a b : CellId} {inner : StoreId}
    (first : placed? requests n = some ⟨a, .store, inner⟩)
    (second : placed? requests m = some ⟨b, .store, inner⟩) : n = m :=
  place_eq (·.stores.size) (fun _ _ => size_le_after) (store_of_placed? first)
    (store_of_placed? second)

/-! ## Handles taken at two times -/

variable {other : String} {a b : Handle}

/-- A handle that can be taken at some time is that of a put of the whole
history. -/
theorem exists_placed? (there : (after (requests.take i)).handle? s key = some a) :
    ∃ n, Ledger.Descends (requests.take i) n s key ∧ placed? requests n = some a := by
  obtain ⟨n, descends, placed⟩ := exists_descends there
  rw [placed?_take descends.lt_length] at placed
  exact ⟨n, descends, placed⟩

/-- **Two handles have one cell exactly if they come from one put.** -/
theorem cell_eq_iff (first : (after (requests.take i)).handle? s key = some a)
    (second : (after (requests.take j)).handle? t other = some b) :
    a.cell = b.cell ↔
      ∃ n, Ledger.Descends (requests.take i) n s key ∧
        Ledger.Descends (requests.take j) n t other := by
  constructor
  · intro same
    obtain ⟨n, descends, placed⟩ := exists_placed? first
    obtain ⟨m, descends', placed'⟩ := exists_placed? second
    obtain rfl := place_eq_of_cell placed placed' same
    exact ⟨n, descends, descends'⟩
  · rintro ⟨n, descends, descends'⟩
    obtain ⟨handle, placed⟩ := exists_placed?_of_descends descends
    obtain ⟨handle', placed'⟩ := exists_placed?_of_descends descends'
    have same : handle = handle' := by
      rw [placed?_take descends.lt_length] at placed
      rw [placed?_take descends'.lt_length] at placed'
      exact Option.some.inj (placed.symm.trans placed')
    have eq_first : a = handle :=
      Option.some.inj (first.symm.trans (handle?_of_descends descends placed))
    have eq_second : b = handle' :=
      Option.some.inj (second.symm.trans (handle?_of_descends descends' placed'))
    rw [eq_first, eq_second, same]

/-- One cell holds one value, at all times. -/
theorem eq_of_cell_eq (first : (after (requests.take i)).handle? s key = some a)
    (second : (after (requests.take j)).handle? t other = some b) (same : a.cell = b.cell) :
    a = b := by
  obtain ⟨n, -, placed⟩ := exists_placed? first
  obtain ⟨m, -, placed'⟩ := exists_placed? second
  obtain rfl := place_eq_of_cell placed placed' same
  exact Option.some.inj (placed.symm.trans placed')

/-- A handle that is taken by its kind is the one that is there. -/
theorem share_eq_ok_iff {kind : Kind} {cell : CellId} {data : kind.Carrier} :
    h.share s key kind = .ok (cell, data) ↔ h.handle? s key = some ⟨cell, kind, data⟩ :=
  Store.share_eq_ok_iff_handle?

/-- The cells there are have been made. -/
theorem cell_lt_cells (there : (after (requests.take i)).handle? s key = some a) :
    a.cell < (after requests).cells := by
  obtain ⟨n, -, placed⟩ := exists_placed? there
  exact after_of_take (fun h => a.cell < h.cells)
    (fun _ _ lt => Nat.lt_of_lt_of_le lt cells_le_answer) (cell_of_placed? placed).2

/-- And so have the stores behind handles. -/
theorem inner_lt_size {cell : CellId} {inner : StoreId}
    (there : (after (requests.take i)).handle? s key = some ⟨cell, .store, inner⟩) :
    inner < (after requests).stores.size := by
  obtain ⟨n, -, placed⟩ := exists_placed? there
  exact after_of_take (fun h => inner < h.stores.size)
    (fun _ _ lt => Nat.lt_of_lt_of_le lt size_le_answer) (store_of_placed? placed).2

/-- **A put makes a handle of its own.** -/
theorem handle?_put_self {value : Value} (there : s < h.stores.size) :
    (h.put s key value).handle? s key =
      some ⟨h.cells, value.kind, (h.own value.kind value.data).1⟩ := by
  have lt : s < (h.own value.kind value.data).2.stores.size :=
    Nat.lt_of_lt_of_le there size_le_own
  rw [handle?_put]
  simp [written?, lt]

/-- What a put has put has a cell that no handle has which was taken
before. -/
theorem exists_share_put (other : String) (value : Value)
    (first : (after (requests.take i)).handle? s key = some a)
    (there : t < (after requests).stores.size) :
    ∃ cell data, (after (requests ++ [.put t other value])).share t other value.kind =
      .ok (cell, data) ∧ cell ≠ a.cell := by
  refine ⟨(after requests).cells, ((after requests).own value.kind value.data).1, ?_,
    Nat.ne_of_gt (cell_lt_cells first)⟩
  rw [share_eq_ok_iff, after_concat]
  exact handle?_put_self there

/-- **Sharing follows provenance.** Two handles, taken by `share` from any
stores and keys and at any two times of a history, have one cell exactly if
the values they were taken at descend from one put, and then they are handles
of the same value. A put makes a cell that no handle has which was taken
before, whatever the value; so does a value that is read by copy and then
put. And a handle stays what it is, with the store behind it if it is that of
a store, whatever is done to the key it was taken from. -/
theorem shares_iff_descends (requests : List Request) :
    (∀ i j s key kind cell data t other kind' cell' data',
      (after (requests.take i)).share s key kind = .ok (cell, data) →
      (after (requests.take j)).share t other kind' = .ok (cell', data') →
      (cell = cell' ↔ ∃ n, Ledger.Descends (requests.take i) n s key ∧
        Ledger.Descends (requests.take j) n t other) ∧
      (cell = cell' → (⟨kind, data⟩ : Value) = ⟨kind', data'⟩)) ∧
    (∀ i s key kind cell data t other value,
      (after (requests.take i)).share s key kind = .ok (cell, data) →
      t < (after requests).stores.size →
      ∃ cell' data', (after (requests ++ [.put t other value])).share t other value.kind =
        .ok (cell', data') ∧ cell' ≠ cell) ∧
    (∀ s key kind cell data t other copy,
      (after requests).share s key kind = .ok (cell, data) →
      (answer (Request.get s key kind) (after requests)).1 = .ok copy →
      t < (after requests).stores.size →
      ∃ cell' data', (after (requests ++ [.get s key kind, .put t other ⟨kind, copy⟩])).share
        t other kind = .ok (cell', data') ∧ cell' ≠ cell) ∧
    (∀ i s key cell inner,
      (after (requests.take i)).share s key .store = .ok (cell, inner) →
      inner < (after requests).stores.size) ∧
    ∀ (i index : Nat) (handle : Handle),
      (after (requests.take i)).kept[index]? = some handle →
      (after requests).kept[index]? = some handle := by
  refine ⟨?_, ?_, ?_, ?_, ?_⟩
  · intro i j s key kind cell data t other kind' cell' data' first second
    rw [share_eq_ok_iff] at first second
    exact ⟨cell_eq_iff first second,
      fun same => congrArg Handle.value (eq_of_cell_eq first second same)⟩
  · intro i s key kind cell data t other value first there
    exact exists_share_put other value (share_eq_ok_iff.mp first) there
  · intro s key kind cell data t other copy first got there
    have before : (requests ++ [Request.get s key kind]).take requests.length = requests :=
      List.take_left
    have later : t < (after (requests ++ [Request.get s key kind])).stores.size :=
      Nat.lt_of_lt_of_le there size_le_after
    rw [← before, share_eq_ok_iff] at first
    obtain ⟨cell', data', found, ne⟩ := exists_share_put other ⟨kind, copy⟩ first later
    rw [List.append_assoc] at found
    exact ⟨cell', data', found, ne⟩
  · intro i s key cell inner first
    rw [share_eq_ok_iff] at first
    exact inner_lt_size first
  · intro i index handle there
    exact after_of_take (fun h => h.kept[index]? = some handle) (fun _ _ => kept_answer) there

/-- A text that came to a second store with a copy of the first: it is the
text that was put, also after its key was made nil in the first store; the
same text put once more is another. -/
theorem shares_iff_descends_cloned :
    let requests : List Request :=
      [.create, .put 0 "a" ⟨.scalar .text, "x"⟩, .clone 0, .putNil 0 "a"]
    (∃ n, Ledger.Descends (requests.take 2) n 0 "a" ∧ Ledger.Descends (requests.take 4) n 1 "a") ∧
      ∃ cell' data', (after (requests ++ [.put 0 "a" ⟨.scalar .text, "x"⟩])).share 0 "a"
        (.scalar .text) = .ok (cell', data') ∧ cell' ≠ 0 := by
  intro requests
  obtain ⟨same, fresh, -⟩ := shares_iff_descends requests
  have first : (after (requests.take 2)).share 0 "a" (.scalar .text) = .ok (0, "x") := by rfl
  have second : (after (requests.take 4)).share 1 "a" (.scalar .text) = .ok (0, "x") := by rfl
  exact ⟨(same 2 4 0 "a" _ 0 _ 1 "a" _ 0 _ first second).1.mp rfl,
    fresh 2 0 "a" _ 0 _ 0 "a" ⟨.scalar .text, "x"⟩ first (by decide)⟩

end Heap

end StagedWorkflow
