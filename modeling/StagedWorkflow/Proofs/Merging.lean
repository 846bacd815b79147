import Mathlib.Data.Set.Card
import StagedWorkflow.Heap.Basic
import StagedWorkflow.Proofs.Union

/-!
# Merging as a biased union

What a merge writes is settled before it starts: the keys that are
`Store.Admitted`. They come to hold what the source holds, and no other key
changes (`Store.get?_merge_of_admitted`, `Store.get?_merge_of_refused`). So
the entries of the source can come in any order (`Store.mergeEntries_perm`),
a merge that is repeated changes nothing (`Store.merge_again`), and nor does
that of a store into itself (`Store.merge_self`). Merges can be bracketed as
one likes (`Store.merge_assoc`).

`Heap.merges_biased` says so of the stores of a heap, where the source can
be the target.
-/

namespace StagedWorkflow

namespace Store

/-- Whether a merge writes a key: the source has it, not as a nil that is
left out, and the target had not if it is not to be overwritten. -/
def Admitted (target source : Store) (options : MergeOptions) (key : String) : Prop :=
  source.contains key ∧ ¬ (options.skipNil ∧ source.isNil key) ∧
    ¬ (options.overwrite = false ∧ target.contains key)

variable {s source : Store} {options : MergeOptions} {key : String} {entry : Entry}

/-- An entry of the source is written exactly if its key is admitted. -/
theorem admits_iff (found : source.get? key = some entry) :
    s.admits options key entry ↔ s.Admitted source options key := by
  simp only [admits, Admitted, isNil, Table.contains, found, Option.isSome_some, Option.any_some]
  cases options.overwrite <;> cases options.skipNil <;> simp

/-- **An admitted key comes to hold what the source holds**, be it nil. -/
theorem get?_merge_of_admitted (admitted : s.Admitted source options key) :
    (s.merge source options).2.get? key = source.get? key := by
  obtain ⟨entry, found⟩ := Option.isSome_iff_exists.mp admitted.1
  rw [get?_merge, found]
  exact if_pos ((admits_iff found).mpr admitted)

/-- **Any other key is as before.** -/
theorem get?_merge_of_refused (refused : ¬ s.Admitted source options key) :
    (s.merge source options).2.get? key = s.get? key := by
  rw [get?_merge]
  cases found : source.get? key with
  | none => rfl
  | some entry => exact if_neg fun admits => refused ((admits_iff found).mp admits)

/-- **As many keys are written as are admitted.** -/
theorem written_merge :
    (s.merge source options).1 = {key | s.Admitted source options key}.ncard := by
  let chosen := source.toList.filter fun e => s.admits options e.1 e.2
  have distinct : (chosen.map Prod.fst).Nodup :=
    List.pairwise_map.mpr (source.distinct.filter _)
  have same : {key | s.Admitted source options key} = ↑(chosen.map Prod.fst).toFinset := by
    ext key
    simp only [Set.mem_ofPred_eq, List.coe_toFinset, List.mem_map, chosen, List.mem_filter]
    constructor
    · intro admitted
      obtain ⟨entry, found⟩ := Option.isSome_iff_exists.mp admitted.1
      exact ⟨(key, entry), ⟨Table.get?_eq_some_iff.mp found, (admits_iff found).mpr admitted⟩, rfl⟩
    · rintro ⟨⟨_, entry⟩, ⟨mem, admits⟩, rfl⟩
      exact (admits_iff (Table.get?_eq_some_iff.mpr mem)).mp admits
  rw [same, Set.ncard_coe_finset, List.toFinset_card_of_nodup distinct, List.length_map,
    ← List.countP_eq_length_filter]
  exact written_mergeEntries source.distinct

/-- **The order does not matter** in which the entries of the source come. -/
theorem mergeEntries_perm {entries : List (String × Entry)} (perm : entries.Perm source.toList) :
    s.mergeEntries entries options = s.merge source options := by
  have distinct : entries.Pairwise fun a b => a.1 ≠ b.1 :=
    (perm.pairwise_iff fun ne => ne.symm).mpr source.distinct
  refine Prod.ext ?_ (Table.ext_get? fun key => ?_)
  · rw [merge, written_mergeEntries distinct, written_mergeEntries source.distinct]
    exact perm.countP_eq _
  · have same : entries.lookup key = source.toList.lookup key := by
      ext entry
      rw [Table.lookup_eq_some_iff distinct, Table.lookup_eq_some_iff source.distinct, perm.mem_iff]
    rw [merge, get?_mergeEntries distinct, get?_mergeEntries source.distinct, same]

/-- A merge takes no key away. -/
theorem contains_merge (had : s.contains key) : (s.merge source options).2.contains key := by
  by_cases admitted : s.Admitted source options key
  · rw [Table.contains, get?_merge_of_admitted admitted]
    exact admitted.1
  · rwa [Table.contains, get?_merge_of_refused admitted]

/-- **A merge that is repeated changes nothing.** -/
theorem merge_again :
    ((s.merge source options).2.merge source options).2 = (s.merge source options).2 := by
  refine Table.ext_get? fun key => ?_
  by_cases again : (s.merge source options).2.Admitted source options key
  · -- a key that is admitted against more keys was admitted before
    have before : s.Admitted source options key :=
      ⟨again.1, again.2.1, fun ⟨keeps, had⟩ => again.2.2 ⟨keeps, contains_merge had⟩⟩
    rw [get?_merge_of_admitted again, get?_merge_of_admitted before]
  · exact get?_merge_of_refused again

/-- **A store that is merged into itself stays as it is.** -/
theorem merge_self : (s.merge s options).2 = s := by
  refine Table.ext_get? fun key => ?_
  by_cases admitted : s.Admitted s options key
  · exact get?_merge_of_admitted admitted
  · exact get?_merge_of_refused admitted

/-- Of the entries of a store all are written that are not left out, unless
they are all in their own way. -/
theorem written_merge_self :
    (s.merge s options).1 =
      if options.overwrite then
        (s.toList.filter fun e => !(options.skipNil && e.2.isNil)).length
      else 0 := by
  rw [merge, written_mergeEntries s.distinct]
  have there (e : String × Entry) (mem : e ∈ s.toList) : s.contains e.1 = true := by
    rw [Table.contains, Table.get?_eq_some_iff.mpr mem]
    rfl
  split
  · next writes =>
    rw [← List.countP_eq_length_filter]
    refine List.countP_congr fun e mem => ?_
    simp [admits, writes]
  · next under =>
    refine List.countP_eq_zero.mpr fun e mem => ?_
    simp [admits, under, there e mem]

/-! ## Which of the two comes first -/

/-- Whether an entry goes over that is not in the way of another. -/
def passes (options : MergeOptions) (entry : Entry) : Bool :=
  !(options.skipNil && entry.isNil)

theorem filter_passes (kept : options.skipNil = false) {held : Option Entry} :
    held.filter (passes options) = held := by
  cases held <;> simp [passes, kept]

/-- With overwriting the source comes first. -/
theorem get?_merge_over (writes : options.overwrite = true) :
    (s.merge source options).2.get? key =
      ((source.get? key).filter (passes options)).or (s.get? key) := by
  rw [get?_merge]
  cases source.get? key with
  | none => rfl
  | some entry => cases pass : passes options entry <;> simp_all [admits, passes, Option.filter]

/-- Without overwriting the target comes first. -/
theorem get?_merge_under (under : options.overwrite = false) :
    (s.merge source options).2.get? key =
      (s.get? key).or ((source.get? key).filter (passes options)) := by
  rw [get?_merge]
  cases source.get? key with
  | none => simp
  | some entry =>
    cases had : s.get? key <;> cases pass : passes options entry <;>
      simp_all [admits, passes, Option.filter, Table.contains]

/-- **Merges can be bracketed as one likes**, but for those that overwrite
nothing and leave nils out: there a nil that is left out of the target can
have kept something out of the source before. -/
theorem merge_assoc {a b c : Store} (plain : options.overwrite = true ∨ options.skipNil = false) :
    ((a.merge b options).2.merge c options).2 = (a.merge (b.merge c options).2 options).2 := by
  refine Table.ext_get? fun key => ?_
  cases writes : options.overwrite with
  | true =>
    simp only [get?_merge_over writes]
    cases c.get? key with
    | none => simp
    | some entry => cases pass : passes options entry <;> simp [Option.filter, pass]
  | false =>
    have kept : options.skipNil = false := plain.resolve_left (by simp [writes])
    simp only [get?_merge_under writes, filter_passes kept, Option.or_assoc]

example :
    let options : MergeOptions := ⟨false, true⟩
    let b : Store := (∅ : Store).insert "a" .nil
    let c : Store := (∅ : Store).insert "a" (.held 0 ⟨.store, 0⟩)
    (((∅ : Store).merge b options).2.merge c options).2.contains "a" = true ∧
      ((∅ : Store).merge (b.merge c options).2 options).2.contains "a" = false := by
  decide

end Store

namespace Heap

variable {h : Heap} {target source : StoreId}

/-- A store that is given what it has is not changed. -/
theorem modify_contents {s : StoreId} : (h.modify s fun _ => h.contents s) = h := by
  have same : (h.stores.modify s fun _ => h.contents s) = h.stores := by
    refine Array.ext (Array.size_modify ..) fun i lt lt' => ?_
    rw [Array.getElem_modify]
    split
    · next at_s =>
      subst at_s
      simp [contents, lt']
    · rfl
  rw [modify, same]

theorem merge_eq {options : MergeOptions} : h.merge target source options =
    (((h.contents target).merge (h.contents source) options).1,
      h.modify target fun _ => ((h.contents target).merge (h.contents source) options).2) := rfl

theorem contents_merge {options : MergeOptions} (there : target < h.stores.size) :
    (h.merge target source options).2.contents target =
      ((h.contents target).merge (h.contents source) options).2 :=
  contents_modify_self there

/-- **A merge that is repeated changes no store**, be the source another or
the target itself. -/
theorem merge_again {options : MergeOptions} (there : target < h.stores.size) :
    ((h.merge target source options).2.merge target source options).2 =
      (h.merge target source options).2 := by
  let done := (h.merge target source options).2
  have still : ((done.contents target).merge (done.contents source) options).2 =
      done.contents target := by
    by_cases same : source = target
    · rw [same]
      exact Store.merge_self
    · have source_eq : done.contents source = h.contents source :=
        contents_modify_of_ne (Ne.symm same)
      rw [source_eq, contents_merge there]
      exact Store.merge_again
  calc (done.merge target source options).2
    _ = done.modify target fun _ =>
          ((done.contents target).merge (done.contents source) options).2 := rfl
    _ = done.modify target fun _ => done.contents target := by rw [still]
    _ = done := modify_contents

/-- What a store has and a source would not overwrite is what a copy of the
source takes over from it. -/
theorem contents_merge_under (there : target < h.stores.size) :
    (h.merge target source { overwrite := false }).2.contents target =
      ((h.clone source).2.merge (h.clone source).1 target).2.contents (h.clone source).1 := by
  have copied : (h.clone source).1 < (h.clone source).2.stores.size := by simp [clone, add]
  have copy_eq : (h.clone source).2.contents (h.clone source).1 = h.contents source :=
    contents_add_self
  have target_eq : (h.clone source).2.contents target = h.contents target :=
    contents_add_of_lt there
  rw [contents_merge there, contents_merge copied, copy_eq, target_eq]
  refine Table.ext_get? fun key => ?_
  rw [Store.get?_merge_default, Store.get?_merge_under rfl, Store.filter_passes rfl]

/-- **What a merge of stores does.** -/
structure Merges (h : Heap) (target source : StoreId) (options : MergeOptions) : Prop where
  /-- A key that is admitted comes to hold what the source holds, be it nil. -/
  admitted : ∀ key, (h.contents target).Admitted (h.contents source) options key →
    ((h.merge target source options).2.contents target).get? key = (h.contents source).get? key
  /-- Any other key is as before. -/
  refused : ∀ key, ¬ (h.contents target).Admitted (h.contents source) options key →
    ((h.merge target source options).2.contents target).get? key = (h.contents target).get? key
  /-- No other store is changed, and so not the source if it is another. -/
  others : ∀ other ≠ target, (h.merge target source options).2.contents other = h.contents other
  /-- As many keys are answered as are admitted. -/
  written : (h.merge target source options).1 =
    {key | (h.contents target).Admitted (h.contents source) options key}.ncard
  /-- The entries of the source can come in any order. -/
  anyOrder : ∀ entries, entries.Perm (h.contents source).toList →
    (h.contents target).mergeEntries entries options =
      ((h.merge target source options).1, (h.merge target source options).2.contents target)
  /-- Merging once more changes nothing. -/
  again : ((h.merge target source options).2.merge target source options).2 =
    (h.merge target source options).2
  /-- A store that is merged into itself is not changed. All its entries are
  written, or those that are no nils, or none. -/
  self : h.merge target target options =
    (if options.overwrite then
      ((h.contents target).toList.filter fun e => !(options.skipNil && e.2.isNil)).length
    else 0, h)
  /-- To overwrite nothing is to write over a copy of the source. -/
  under : (h.merge target source { overwrite := false }).2.contents target =
    ((h.clone source).2.merge (h.clone source).1 target).2.contents (h.clone source).1

/-- **A merge is a biased union**, whichever stores are merged with whatever
options; with the options that `merge` itself has it is associative. -/
theorem merges_biased (there : target < h.stores.size) (options : MergeOptions) :
    h.Merges target source options ∧
      ∀ a b c : Store, ((a.merge b {}).2.merge c {}).2 = (a.merge (b.merge c {}).2 {}).2 := by
  refine ⟨?_, fun a b c => Store.merge_assoc (.inl rfl)⟩
  constructor
  case admitted =>
    intro key admitted
    rw [contents_merge there, Store.get?_merge_of_admitted admitted]
  case refused =>
    intro key refused
    rw [contents_merge there, Store.get?_merge_of_refused refused]
  case others => exact fun other ne => contents_modify_of_ne ne.symm
  case written => exact Store.written_merge
  case anyOrder =>
    intro entries perm
    rw [Store.mergeEntries_perm perm, contents_merge there]
    rfl
  case again => exact merge_again there
  case self => rw [merge_eq, Store.merge_self, Store.written_merge_self, modify_contents]
  case under => exact contents_merge_under there

/-- Two stores that share a key, where one holds a nil. -/
def Sample.overlapping : Heap :=
  ⟨#[(∅ : Store).insert "a" .nil,
    ((∅ : Store).insert "a" (.held 0 ⟨.store, 0⟩)).insert "b" .nil], 1, []⟩

/-- Of two keys one is in the way of the target and the other a nil. -/
theorem merges_biased_overlapping :
    0 < Sample.overlapping.stores.size ∧
      Sample.overlapping.Merges 0 1 ⟨false, true⟩ ∧
      (Sample.overlapping.merge 0 1 ⟨false, true⟩).1 = 0 ∧
      (Sample.overlapping.merge 0 1 ⟨true, true⟩).1 = 1 :=
  ⟨by decide, (merges_biased (by decide) ⟨false, true⟩).1, by decide, by decide⟩

end Heap

end StagedWorkflow
