import StagedWorkflow.Proofs.Labels
import StagedWorkflow.Script.StoreOp

/-!
# Readers of a store

A store is asked for a copy of a value, for the handle of one, or for a value
with a default in its stead, and besides for what it has at a key: anything,
the explicit nil, and a value of which kind. The first three look at the
value and the last at the label beside it; `LabelledHeap.Agrees` says how
their answers fit together, and `LabelledHeap.readers_agree` that they do so
after any history, with labels and without.

Everything comes from going once through the ways a key can be read at a kind
(`LabelledStore.Reading`). There are three where labels are right, since no
two kinds share a name.
-/

namespace StagedWorkflow

namespace LabelledStore

variable {s : LabelledStore} {key : String} {kind : Kind}

/-- **The ways a key can be read at a kind**: it is not there; the label is
another name, which is shown; or the label is the kind's. -/
inductive Reading (s : LabelledStore) (key : String) (kind : Kind) : Prop where
  | missing (there : s.get? key = none)
      (read : s.read key kind = .error (.keyNotFound key))
      (share : s.share key kind = .error (.keyNotFound key))
  | refused (e : Labelled) (there : s.get? key = some e) (other : e.label ≠ kind.name)
      (nil : e.isNil = true ↔ e.label = Kind.nilName)
      (read : s.read key kind = .error (.typeMismatch key kind.name e.label))
      (share : s.share key kind = .error (.typeMismatch key kind.name e.label))
  | found (e : Labelled) (cell : CellId) (data : kind.Carrier) (there : s.get? key = some e)
      (named : e.label = kind.name) (nil : e.isNil = false) (read : s.read key kind = .ok data)
      (share : s.share key kind = .ok (cell, data))

theorem Right.reading (right : s.Right) : s.Reading key kind := by
  have read_eq : s.read key kind = (·.2) <$> s.share key kind := read_eq_share
  cases there : s.get? key with
  | none =>
    have share : s.share key kind = .error (.keyNotFound key) := by simp [share, there]
    exact .missing there (by rw [read_eq, share]; rfl) share
  | some e =>
    have named : e.Right := right key e there
    rcases e with ⟨_ | handle, label⟩
    · obtain rfl : label = Kind.nilName := named
      have share : s.share key kind = .error (.typeMismatch key kind.name Kind.nilName) := by
        simp [share, there, mismatch]
      refine .refused _ there Kind.name_ne_nilName.symm ?_ (by rw [read_eq, share]; rfl) share
      simp [Labelled.isNil]
    · obtain rfl : label = handle.value.kind.name := named
      cases typed : handle.value.as? kind with
      | none =>
        -- no two kinds share a name, so the label is not the one expected
        have other : handle.value.kind.name ≠ kind.name := fun eq =>
          Value.as?_eq_none_iff.mp typed (Kind.name_injective eq)
        have share : s.share key kind =
            .error (.typeMismatch key kind.name handle.value.kind.name) := by
          simp [share, there, typed, mismatch]
        refine .refused _ there other ?_ (by rw [read_eq, share]; rfl) share
        simp [Labelled.isNil, Kind.name_ne_nilName]
      | some data =>
        have same : handle.value.kind = kind :=
          congrArg Value.kind (Value.as?_eq_some_iff.mp typed)
        have share : s.share key kind = .ok (handle.cell, data) := by simp [share, there, typed]
        exact .found _ _ _ there (congrArg Kind.name same) rfl (by rw [read_eq, share]; rfl) share

end LabelledStore

namespace LabelledHeap

variable {h : LabelledHeap} {s : StoreId} {key : String} {kind : Kind}

/-- That a value a reader owns is the one that was read: a scalar is itself,
and a store has the same entries. -/
def Copies (h later : LabelledHeap) : (kind : Kind) → kind.Carrier → kind.Carrier → Prop
  | .scalar _, data, copy => copy = data
  | .store, data, copy => later.contents copy = h.contents data

theorem copies_own {data : kind.Carrier} :
    h.Copies (h.own kind data).2 kind data (h.own kind data).1 := by
  cases kind with
  | scalar => rfl
  | store => simp [Copies, own, add, contents]

/-- **That the readers of a store agree** about a key and a kind. -/
structure Agrees (h : LabelledHeap) (s : StoreId) (key : String) (kind : Kind) : Prop where
  /-- A key is not found exactly where there is none. -/
  keyNotFound : (h.get s key kind).1 = .error (.keyNotFound key) ↔
    (h.contents s).contains key = false
  /-- A value is read exactly at the kind that the label names. -/
  found : (∃ data, (h.get s key kind).1 = .ok data) ↔
    (h.contents s).label? key = some kind.name
  /-- Any other label is a mismatch, and is shown. -/
  mismatch : ∀ error, (h.get s key kind).1 = .error error → error ≠ .keyNotFound key →
    ∃ label, (h.contents s).label? key = some label ∧ kind.name ≠ label ∧
      error = .typeMismatch key kind.name label
  /-- A handle is refused with the same error. -/
  share_error : ∀ error, (h.contents s).share key kind = .error error ↔
    (h.get s key kind).1 = .error error
  /-- A handle points to what the copy is a copy of. -/
  share_ok : ∀ cell data, (h.contents s).share key kind = .ok (cell, data) →
    ∃ copy, (h.get s key kind).1 = .ok copy ∧ h.Copies (h.get s key kind).2 kind data copy
  /-- A default stands in for every error, and for nothing else. -/
  getOr_ok : ∀ default data, (h.get s key kind).1 = .ok data →
    h.getOr s key kind default = (data, (h.get s key kind).2)
  getOr_error : ∀ default error, (h.get s key kind).1 = .error error →
    h.getOr s key kind default = (default, h)
  isNil : (h.contents s).isNil key = true ↔ (h.contents s).label? key = some Kind.nilName
  /-- The explicit nil is of no kind, the unit's included. -/
  nil_mismatch : (h.contents s).isNil key = true →
    (h.get s key kind).1 = .error (.typeMismatch key kind.name Kind.nilName)

/-- **Readers agree where labels are right.** -/
theorem agrees_of_right (right : h.Right) : h.Agrees s key kind := by
  have reading : (h.contents s).Reading key kind := (right s).reading
  cases reading with
  | missing there read share =>
    have get_eq : h.get s key kind = (.error (.keyNotFound key), h) := by rw [get, read]
    have absent : (h.contents s).contains key = false := by simp [Table.contains, there]
    have unlabelled : (h.contents s).label? key = none := by simp [LabelledStore.label?, there]
    have not_nil : (h.contents s).isNil key = false := by simp [LabelledStore.isNil, there]
    constructor <;> simp [get_eq, absent, unlabelled, not_nil, share, getOr, eq_comm]
  | refused e there other nil read share =>
    have get_eq : h.get s key kind = (.error (.typeMismatch key kind.name e.label), h) := by
      rw [get, read]
    have present : (h.contents s).contains key = true := by simp [Table.contains, there]
    have labelled : (h.contents s).label? key = some e.label := by
      simp [LabelledStore.label?, there]
    have nil_eq : (h.contents s).isNil key = e.isNil := by simp [LabelledStore.isNil, there]
    constructor <;> simp [get_eq, present, labelled, nil_eq, nil, share, getOr, other, eq_comm]
  | found e cell data there named nil read share =>
    have get_eq : h.get s key kind = (.ok (h.own kind data).1, (h.own kind data).2) := by
      rw [get, read]
    have present : (h.contents s).contains key = true := by simp [Table.contains, there]
    have labelled : (h.contents s).label? key = some kind.name := by
      simp [LabelledStore.label?, there, named]
    have not_nil : (h.contents s).isNil key = false := by simp [LabelledStore.isNil, there, nil]
    constructor <;>
      simp [get_eq, present, labelled, not_nil, share, getOr, Kind.name_ne_nilName, copies_own]

/-! ## Scripts, and heaps without labels -/

/-- What a script answers that reads with a default: the value, or the
default where there is none. -/
theorem play_readOr (right : h.Right) {literal : Literal} {value : Value} {earlier : Heap}
    (built : (Heap.History.build literal).play earlier = (some value, h.bare)) :
    (Script.StoreOp.readOr s key literal).run.play earlier =
      (Except.ok <$> Heap.History.valueDatum value.kind
        (h.getOr s key value.kind value.data).1 : Heap.History (Except StoreError Datum)).play
        (h.getOr s key value.kind value.data).2.bare := by
  have answered : (Heap.History.ask (.get s key value.kind)).play h.bare =
      ((h.get s key value.kind).1, (h.get s key value.kind).2.bare) := bare_get right
  rw [Script.StoreOp.readOr, ExceptT.run_bind, ExceptT.run_lift, bind_map_left,
    Heap.History.play_bind, built]
  simp only [Script.StoreOp.ask, ExceptT.run_bind, ExceptT.run_lift, bind_map_left]
  rw [Heap.History.play_bind, answered, getOr]
  rcases h.get s key value.kind with ⟨_ | _, later⟩ <;> rfl

/-- **That a heap without labels is read as one with them.** -/
structure Explains (h : LabelledHeap) (bare : Heap) (s : StoreId) (key : String) : Prop where
  contains : (bare.contents s).contains key = (h.contents s).contains key
  isNil : (bare.contents s).isNil key = (h.contents s).isNil key
  kindName : (bare.contents s).kindName? key = (h.contents s).label? key
  get : ∀ kind, bare.get s key kind = ((h.get s key kind).1, (h.get s key kind).2.bare)
  share : ∀ kind, bare.share s key kind = (h.contents s).share key kind
  /-- A script that reads with a default answers what is read with it. -/
  getOr : ∀ earlier literal value,
    (Heap.History.build literal).play earlier = (some value, bare) →
    (Script.StoreOp.readOr s key literal).run.play earlier =
      (Except.ok <$> Heap.History.valueDatum value.kind
        (h.getOr s key value.kind value.data).1 : Heap.History (Except StoreError Datum)).play
        (h.getOr s key value.kind value.data).2.bare

theorem explains_bare (right : h.Right) : h.Explains h.bare s key where
  contains := by rw [contents_bare, LabelledStore.contains_bare]
  isNil := by rw [contents_bare, LabelledStore.isNil_bare]
  kindName := by rw [contents_bare, LabelledStore.label?_bare (right s)]
  get _ := bare_get right
  share _ := by rw [Heap.share, contents_bare, LabelledStore.share_bare (right s)]
  getOr _ _ _ built := play_readOr right built

/-- **Labels are right, and readers agree.** After any history each label is
the name of the kind of the value beside it, and that of the explicit nil
where there is no value and only there. So the readers agree about every key
and kind; and the heap that the history leaves without labels is read just
so. -/
theorem readers_agree {α : Type} (history : Heap.History α) :
    (∀ s key e, ((play history empty).2.contents s).get? key = some e →
      e.Right ∧ (e.label = Kind.nilName ↔ e.held = none)) ∧
    (∀ s key kind, (play history empty).2.Agrees s key kind) ∧
    (history.play Heap.empty).1 = (play history empty).1 ∧
    ∀ s key, (play history empty).2.Explains (history.play Heap.empty).2 s key := by
  have right : (play history empty).2.Right := right_play history right_empty
  have bare : history.play Heap.empty = ((play history empty).1, (play history empty).2.bare) := by
    rw [← bare_empty]
    exact play_bare history right_empty
  refine ⟨fun s key e there => ⟨right s key e there, ?_⟩,
    fun s key kind => agrees_of_right right, congrArg Prod.fst bare,
    fun s key => congrArg Prod.snd bare ▸ explains_bare right⟩
  have named : e.Right := right s key e there
  rcases e with ⟨_ | handle, label⟩
  · exact ⟨fun _ => rfl, fun _ => named⟩
  · obtain rfl : label = handle.value.kind.name := named
    simp [Kind.name_ne_nilName]

/-- An explicit nil and a text that came with a merge: the nil is no unit,
the text is no number, and both errors show the label. -/
theorem readers_agree_merged :
    let history : Heap.History Unit := do
      let source ← Heap.History.ask .create
      Heap.History.ask (.putNil source "none")
      Heap.History.ask (.put source "name" ⟨.scalar .text, "a"⟩)
      let target ← Heap.History.ask .create
      let _ ← Heap.History.ask (.merge target source {})
    let h := (play history empty).2
    (h.get 1 "none" (.scalar .unit)).1 = .error (.typeMismatch "none" "()" "nil") ∧
      (h.contents 1).share "name" (.scalar .int32) =
        .error (.typeMismatch "name" "i32" "alloc::string::String") ∧
      (∃ data, (h.get 1 "name" (.scalar .text)).1 = .ok data) ∧
      ((h.contents 1).get? "none" = some .nil ∧ Labelled.nil.Right) := by
  intro history h
  obtain ⟨right, agree, -, -⟩ := readers_agree history
  have nil : (h.contents 1).isNil "none" = true := by decide
  have there : (h.contents 1).get? "none" = some .nil := by rfl
  have refused : (h.get 1 "name" (.scalar .int32)).1 =
      .error (.typeMismatch "name" "i32" "alloc::string::String") := by rfl
  exact ⟨(agree 1 "none" (.scalar .unit)).nil_mismatch nil,
    ((agree 1 "name" (.scalar .int32)).share_error _).mpr refused,
    (agree 1 "name" (.scalar .text)).found.mpr (by decide), there, (right 1 "none" _ there).1⟩

end LabelledHeap

end StagedWorkflow
