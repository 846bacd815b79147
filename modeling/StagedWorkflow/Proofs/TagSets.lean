import Mathlib.Data.List.Forall2
import Mathlib.Data.List.Dedup
import Mathlib.Data.Set.Card
import StagedWorkflow.Session.Tags

/-!
# Tag sets and their histories

A tag set is told by the tags that it has, whatever was done to come by it.
The history of a set is a list that it was made of and the changes since
(`TagSet.Past`); a clone has the history of its original up to then, and
from there on one of its own (`Session.TagCommand.account`). One step keeps
that every set has the tags of its history (`Session.TagCommand.run_account`),
and so does a whole session (`Session.TagHistory.holds`). Listing, size, the
answers to changes and equality all follow from the tags
(`Session.TagHistory.canonical_sets`).
-/

namespace StagedWorkflow

/-- The code points of a text. -/
def codePoints (text : String) : List Nat :=
  text.toList.map Char.toNat

/-- A lesser text is lesser by its code points, a shorter one before those
that it begins. -/
theorem lex_codePoints {s t : String} (lt : s < t) :
    List.Lex (· < ·) (codePoints s) (codePoints t) := by
  have chars : List.Lex (· < ·) s.toList t.toList := String.lt_iff.mp lt
  unfold codePoints
  generalize s.toList = a, t.toList = b at chars
  induction chars with
  | nil => exact .nil
  | cons _ ih => exact .cons ih
  | rel less => exact .rel less

namespace TagSet

variable {s t : TagSet} {tag : String}

/-! ## Listing, and size -/

theorem mem_toList : tag ∈ s.toList ↔ s.contains tag = true := by
  rw [toList, Table.keys, List.mem_map, contains, Table.contains, Option.isSome_iff_exists]
  constructor
  · rintro ⟨⟨_, value⟩, mem, rfl⟩
    exact ⟨value, Table.get?_eq_some_iff.mpr mem⟩
  · rintro ⟨value, found⟩
    exact ⟨(tag, value), Table.get?_eq_some_iff.mp found, rfl⟩

theorem pairwise_toList : s.toList.Pairwise (· < ·) :=
  List.pairwise_map.mpr s.table.ascending

theorem nodup_toList : s.toList.Nodup :=
  List.pairwise_map.mpr s.table.distinct

/-- **The size is the number of tags.** -/
theorem size_eq_ncard : s.size = {tag | s.contains tag = true}.ncard := by
  have same : {tag | s.contains tag = true} = ↑s.toList.toFinset := by
    ext tag
    simp only [Set.mem_ofPred_eq, List.coe_toFinset, mem_toList]
  rw [same, Set.ncard_coe_finset, List.toFinset_card_of_nodup nodup_toList, size, Table.size,
    toList, Table.keys, List.length_map]

/-! ## Making a set of a list -/

/-- The order that tags are sorted in. -/
def comesFirst (a b : String) : Bool :=
  decide (a ≤ b)

theorem pairwise_sorted {tags : List String} :
    (tags.mergeSort comesFirst).dedup.Pairwise (· < ·) := by
  have sorted : (tags.mergeSort comesFirst).Pairwise fun a b => comesFirst a b = true := by
    refine List.pairwise_mergeSort (fun a b c first second => ?_) (fun a b => ?_) tags
    · simp only [comesFirst, decide_eq_true_eq] at first second ⊢
      exact String.le_trans first second
    · simpa [comesFirst] using String.le_total a b
  have kept := sorted.sublist (List.dedup_sublist _)
  refine (kept.and (List.nodup_dedup _)).imp fun h => ?_
  exact Std.lt_of_le_of_ne (of_decide_eq_true h.1) h.2

/-- The set of a list that is sorted first; of equal tags, which then are
neighbours, one is kept. -/
def collect (tags : List String) : TagSet :=
  ⟨⟨(tags.mergeSort comesFirst).dedup.map (·, ()), List.pairwise_map.mpr pairwise_sorted⟩⟩

theorem toList_collect {tags : List String} :
    (collect tags).toList = (tags.mergeSort comesFirst).dedup := by
  rw [toList, Table.keys, collect, List.map_map]
  exact List.map_id _

/-- **A list makes the same set at once as tag by tag.** -/
theorem collect_eq_ofList {tags : List String} : collect tags = ofList tags := by
  refine ext_contains fun tag => Bool.eq_iff_iff.mpr ?_
  rw [← mem_toList, toList_collect, List.mem_dedup, List.mem_mergeSort, contains_ofList,
    List.contains_iff_mem]

/-- How a set is made of a list. -/
inductive Making where
  /-- Of the list as a whole. -/
  | atOnce
  /-- From the empty set, tag by tag. -/
  | tagByTag

/-- The set that is made of a list. -/
def Making.make : Making → List String → TagSet
  | atOnce, tags => collect tags
  | tagByTag, tags => ofList tags

theorem make_eq_ofList {making : Making} {tags : List String} : making.make tags = ofList tags := by
  cases making with
  | atOnce => exact collect_eq_ofList
  | tagByTag => rfl

theorem contains_make {making : Making} {tags : List String} :
    (making.make tags).contains tag = true ↔ tag ∈ tags := by
  rw [make_eq_ofList, contains_ofList, List.contains_iff_mem]

/-! ## The past of a set -/

/-- A change of a set. -/
inductive Change where
  | inserted (tag : String)
  | removed (tag : String)

/-- What a set was made of, and the changes since, in order. -/
structure Past where
  source : List String
  changes : List Change

namespace Past

/-- The past with a change more. -/
def after (p : Past) (change : Change) : Past :=
  { p with changes := p.changes ++ [change] }

/-- That a tag was in the source or has been inserted, and has not been
removed since. -/
def Holds (p : Past) (tag : String) : Prop :=
  (tag ∈ p.source ∧ .removed tag ∉ p.changes) ∨
    ∃ before since, p.changes = before ++ .inserted tag :: since ∧ .removed tag ∉ since

variable {p : Past}

/-- **The last change counts**, for the tag that it is about. -/
theorem holds_after {change : Change} :
    (p.after change).Holds tag ↔
      change = .inserted tag ∨ change ≠ .removed tag ∧ p.Holds tag := by
  have never_iff (since : List Change) : .removed tag ∉ since ++ [change] ↔
      .removed tag ∉ since ∧ change ≠ .removed tag := by
    simp [eq_comm]
  constructor
  · rintro (⟨mem, never⟩ | ⟨before, since, split, never⟩)
    · obtain ⟨never, other⟩ := (never_iff p.changes).mp never
      exact .inr ⟨other, .inl ⟨mem, never⟩⟩
    · -- either the change is the insertion itself, or it is the last one since
      rcases List.eq_nil_or_concat' since with rfl | ⟨since, last, rfl⟩
      · exact .inl (List.singleton_inj.mp (List.append_inj' split rfl).2)
      · have split' : p.changes ++ [change] = (before ++ .inserted tag :: since) ++ [last] := by
          simpa [after] using split
        obtain ⟨earlier, eq⟩ := List.append_inj' split' rfl
        rw [← List.singleton_inj.mp eq] at never
        obtain ⟨never, other⟩ := (never_iff since).mp never
        exact .inr ⟨other, .inr ⟨before, since, earlier, never⟩⟩
  · rintro (rfl | ⟨other, ⟨mem, never⟩ | ⟨before, since, split, never⟩⟩)
    · exact .inr ⟨p.changes, [], rfl, List.not_mem_nil⟩
    · exact .inl ⟨mem, (never_iff p.changes).mpr ⟨never, other⟩⟩
    · exact .inr ⟨before, since ++ [change], by simp [after, split],
        (never_iff since).mpr ⟨never, other⟩⟩

theorem holds_of {source : List String} : (⟨source, []⟩ : Past).Holds tag ↔ tag ∈ source := by
  simp [Holds]

end Past

/-- That a set has the tags of its past. -/
def Has (s : TagSet) (p : Past) : Prop :=
  ∀ tag, s.contains tag = true ↔ p.Holds tag

variable {p : Past}

theorem Has.insert (h : s.Has p) : (s.insert tag).2.Has (p.after (.inserted tag)) := by
  intro other
  rw [contains_insert, Bool.or_eq_true, beq_iff_eq, h other, Past.holds_after]
  simp [eq_comm]

theorem Has.remove (h : s.Has p) : (s.remove tag).2.Has (p.after (.removed tag)) := by
  intro other
  rw [contains_remove, Bool.and_eq_true, bne_iff_ne, h other, Past.holds_after]
  simp [eq_comm]

/-- **What can be seen of a set with a past** is settled by the tags that the
past leaves. -/
structure Canonical (s : TagSet) (p : Past) : Prop where
  contains : s.Has p
  /-- The tags are listed in strictly ascending order of their code points. -/
  ascending : s.toList.Pairwise fun a b => List.Lex (· < ·) (codePoints a) (codePoints b)
  listed : ∀ tag, tag ∈ s.toList ↔ p.Holds tag
  /-- The size is the number of the tags. -/
  size : s.size = {tag | p.Holds tag}.ncard
  /-- An insertion answers whether the tag is new. -/
  insert : ∀ tag, (s.insert tag).1 = true ↔ ¬ p.Holds tag
  /-- A removal answers whether the tag was there. -/
  remove : ∀ tag, (s.remove tag).1 = true ↔ p.Holds tag

theorem Has.canonical (h : s.Has p) : s.Canonical p where
  contains := h
  ascending := pairwise_toList.imp lex_codePoints
  listed tag := mem_toList.trans (h tag)
  size := by
    rw [size_eq_ncard]
    congr 1
    exact Set.ext h
  insert tag := by rw [TagSet.insert, Bool.not_eq_true', ← Bool.not_eq_true, h tag]
  remove := h

end TagSet

namespace Session

open TagSet (Past Making Canonical)

variable {items : List TaggedItem}

namespace TagCommand

variable {sets : List TagSet} {pasts : List Past} {number : Nat}

/-- What a command adds to the pasts of the sets, by number. -/
def account (pasts : List Past) (number : Nat) : TagCommand → List Past
  | insert tag => pasts.modify number (·.after (.inserted tag))
  | remove tag => pasts.modify number (·.after (.removed tag))
  -- a clone has the past of its original
  | clone => pasts ++ [pasts.getD number ⟨[], []⟩]
  | contains _ | containsAll _ | containsAny _ | size | isEmpty | list | equals _ | outline _
  | itemsWith _ | itemsWithAll _ | itemsWithAny _ | itemsHave _ => pasts

/-- A change of one set and its past keeps what holds between all of them. -/
theorem forall₂_change {change : TagSet.Change} {f : TagSet → TagSet}
    (h : List.Forall₂ TagSet.Has sets pasts)
    (step : ∀ s p, TagSet.Has s p → (f s).Has (p.after change)) :
    List.Forall₂ TagSet.Has (sets.set number (f (sets.getD number ∅)))
      (pasts.modify number (·.after change)) := by
  induction h generalizing number with
  | nil => cases number <;> exact .nil
  | cons head rest ih =>
    cases number with
    | zero => exact .cons (step _ _ head) rest
    | succ number => exact .cons head ih

theorem has_getD (h : List.Forall₂ TagSet.Has sets pasts) :
    TagSet.Has (sets.getD number ∅) (pasts.getD number ⟨[], []⟩) := by
  induction h generalizing number with
  | nil => exact fun tag => by simp [TagSet.Past.holds_of]
  | cons head _ ih =>
    cases number with
    | zero => exact head
    | succ number => exact ih

/-- **One command keeps that the sets have the tags of their pasts.** -/
theorem run_account (h : List.Forall₂ TagSet.Has sets pasts) (command : TagCommand) :
    List.Forall₂ TagSet.Has (command.run items sets number).2 (command.account pasts number) := by
  cases command with
  | insert tag => exact forall₂_change (f := fun s => (s.insert tag).2) h fun _ _ => .insert
  | remove tag => exact forall₂_change (f := fun s => (s.remove tag).2) h fun _ _ => .remove
  | clone => exact List.rel_append h (.cons (has_getD h) .nil)
  | _ => exact h

/-- **A command on one set leaves the others as they are**, clones and
originals included. -/
theorem getElem?_run {other : Nat} (ne : other ≠ number) (command : TagCommand)
    (lt : other < sets.length) : (command.run items sets number).2[other]? = sets[other]? := by
  cases command with
  | insert tag => exact List.getElem?_set_ne ne.symm
  | remove tag => exact List.getElem?_set_ne ne.symm
  | clone => exact List.getElem?_append_left lt
  | _ => rfl

end TagCommand

/-- A history of tag sets: the lists that the first ones are made of, and
commands, each on the set of a number. -/
structure TagHistory where
  sources : List (Making × List String)
  commands : List (Nat × TagCommand)

namespace TagHistory

/-- The sets at the end of a history. -/
def sets (items : List TaggedItem) (h : TagHistory) : List TagSet :=
  h.commands.foldl (fun sets (number, command) => (command.run items sets number).2)
    (h.sources.map fun (making, tags) => making.make tags)

/-- The past of each set at the end of a history. -/
def pasts (h : TagHistory) : List Past :=
  h.commands.foldl (fun pasts (number, command) => command.account pasts number)
    (h.sources.map fun (_, tags) => ⟨tags, []⟩)

/-- The sets have the tags of their pasts, from the first to the last command. -/
theorem holds (h : TagHistory) : List.Forall₂ TagSet.Has (h.sets items) h.pasts := by
  obtain ⟨sources, commands⟩ := h
  have start : List.Forall₂ TagSet.Has (sources.map fun (making, tags) => making.make tags)
      (sources.map fun (_, tags) => (⟨tags, []⟩ : Past)) := by
    induction sources with
    | nil => exact .nil
    | cons source rest ih =>
      exact .cons (fun tag => TagSet.contains_make.trans Past.holds_of.symm) ih
  unfold sets pasts
  generalize (sources.map fun (making, tags) => making.make tags) = sets,
    (sources.map fun (_, tags) => (⟨tags, []⟩ : Past)) = pasts at start
  induction commands generalizing sets pasts with
  | nil => exact start
  | cons first rest ih => exact ih _ _ (TagCommand.run_account start first.2)

/-- **A session that goes through a history shows the sets at its end.** -/
theorem runTags_eq (h : TagHistory) : ∃ answers,
    runTags items (h.sources.map fun (making, tags) => making.make tags) h.commands =
      .record [("steps", .list answers),
        ("sets", .list ((h.sets items).map fun s => .texts s.toList))] := by
  -- whatever has been answered, the sets change the same way
  have same : (h.commands.foldl (fun said step =>
        let ran := step.2.run items said.2 step.1
        (said.1 ++ [ran.1], ran.2))
        (([] : List Datum), h.sources.map fun source => source.1.make source.2)).2 =
      h.sets items := by
    refine (List.foldl_hom Prod.snd ?_).symm.trans rfl
    exact fun _ _ => rfl
  rw [← same]
  exact ⟨_, rfl⟩

/-- **A tag set is canonical**, whatever its history: what can be seen of it
is settled by its tags, and its tags by its past. Two sets are equal if they
have the same tags, and only then; a clone is equal to its original, and what
is done to one of them is not done to the other. -/
theorem canonical_sets (items : List TaggedItem) (h : TagHistory) :
    List.Forall₂ Canonical (h.sets items) h.pasts ∧
    (∀ s t : TagSet, s = t ↔ ∀ tag, s.contains tag = t.contains tag) ∧
    (∀ number s, (h.sets items)[number]? = some s →
      (TagCommand.clone.run items (h.sets items) number).2 = h.sets items ++ [s]) ∧
    ∀ number (command : TagCommand) other s, other ≠ number → (h.sets items)[other]? = some s →
      (command.run items (h.sets items) number).2[other]? = some s := by
  refine ⟨h.holds.imp fun _ _ has => has.canonical,
    fun s t => ⟨fun eq tag => by rw [eq], TagSet.ext_contains⟩, fun number s found => ?_,
    fun number command other s ne found => ?_⟩
  · simp [TagCommand.run, List.getD, found]
  · rw [TagCommand.getElem?_run ne command (List.getElem?_eq_some_iff.mp found).1, found]

/-- Two sets made of the same tags, and a clone that goes its own way. -/
def sample : TagHistory :=
  ⟨[(.atOnce, ["é", "ab", "a", "é"]), (.tagByTag, ["a", "é", "ab"])],
    [(0, .clone), (2, .remove "a"), (2, .insert "z")]⟩

theorem canonical_sets_sample :
    List.Forall₂ Canonical (sample.sets []) sample.pasts ∧
    (sample.sets []).map TagSet.toList = [["a", "ab", "é"], ["a", "ab", "é"], ["ab", "z", "é"]] ∧
    ∀ s, (sample.sets [])[0]? = some s →
      (TagCommand.run [] (sample.sets []) 2 (.remove "é")).2[0]? = some s := by
  obtain ⟨canonical, -, -, others⟩ := canonical_sets [] sample
  refine ⟨canonical, ?_, fun s found => others 2 (.remove "é") 0 s (by decide) found⟩
  simp only [sets, sample, List.map, TagSet.make_eq_ofList]
  decide

end TagHistory

end Session

end StagedWorkflow
