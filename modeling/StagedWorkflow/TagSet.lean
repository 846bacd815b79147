import StagedWorkflow.Table
import StagedWorkflow.Text.Outline
/-!
# Tags

Stages and actions carry sets of tags. A query asks for one tag, for all
tags of a list, or for any of them; it keeps the order of what it searches.
A tag set has one form for each set, so equality is equality of members
(`TagSet.ext_contains`).
-/

namespace StagedWorkflow

/-- A set of tags. -/
structure TagSet where
  table : Table Unit

namespace TagSet

/-- The set without tags. -/
def empty : TagSet := ⟨∅⟩

instance : EmptyCollection TagSet := ⟨empty⟩

instance : Inhabited TagSet := ⟨∅⟩

/-- The tags, in ascending order. -/
def toList (s : TagSet) : List String :=
  s.table.keys

/-- Whether a tag is in the set. -/
def contains (s : TagSet) (tag : String) : Bool :=
  s.table.contains tag

/-- The set with a tag more, and whether it is new to the set. -/
def insert (s : TagSet) (tag : String) : Bool × TagSet :=
  (!s.contains tag, ⟨s.table.insert tag ()⟩)

/-- The set without a tag, and whether the tag was there. -/
def remove (s : TagSet) (tag : String) : Bool × TagSet :=
  (s.contains tag, ⟨s.table.erase tag⟩)

/-- The set of a list of tags. -/
def ofList (tags : List String) : TagSet :=
  tags.foldl (fun s tag => (s.insert tag).2) ∅

/-- Whether every tag of a list is in the set. -/
def containsAll (s : TagSet) (tags : List String) : Bool :=
  tags.all s.contains

/-- Whether some tag of a list is in the set. -/
def containsAny (s : TagSet) (tags : List String) : Bool :=
  tags.any s.contains

/-- The number of tags. -/
def size (s : TagSet) : Nat :=
  s.table.size

/-- Whether there are no tags. -/
def isEmpty (s : TagSet) : Bool :=
  s.table.isEmpty

@[simp] theorem contains_empty {tag : String} : (∅ : TagSet).contains tag = false := rfl

theorem contains_insert {s : TagSet} {tag other : String} :
    (s.insert tag).2.contains other = (other == tag || s.contains other) := by
  simp only [insert, contains, Table.contains, Table.get?_insert]
  by_cases h : other = tag <;> simp [h]

theorem contains_remove {s : TagSet} {tag other : String} :
    (s.remove tag).2.contains other = (other != tag && s.contains other) := by
  simp only [remove, contains, Table.contains, Table.get?_erase]
  by_cases h : other = tag <;> simp [h]

/-- The set of a list has the members of the list. -/
theorem contains_ofList {tags : List String} {tag : String} :
    (ofList tags).contains tag = tags.contains tag := by
  -- the tags of a list are added to whatever is there
  have grown (s : TagSet) : (tags.foldl (fun s tag => (s.insert tag).2) s).contains tag =
      (s.contains tag || tags.contains tag) := by
    induction tags generalizing s with
    | nil => simp
    | cons head rest ih =>
      rw [List.foldl_cons, ih, contains_insert, List.contains_cons]
      cases tag == head <;> cases s.contains tag <;> simp
  rw [ofList, grown, contains_empty, Bool.false_or]

/-- **Sets with the same members are the same set.** -/
theorem ext_contains {s t : TagSet} (h : ∀ tag, s.contains tag = t.contains tag) : s = t := by
  -- a table of units holds nothing but its keys
  have same : s.table = t.table := Table.ext_get? fun tag => by
    have := h tag
    unfold contains Table.contains at this
    cases hs : s.table.get? tag <;> cases ht : t.table.get? tag <;> simp_all
  cases s; cases t; cases same; rfl

instance : DecidableEq TagSet := fun s t =>
  if h : s.table.toList = t.table.toList then
    .isTrue (by
      cases s with | mk s => cases t with | mk t => cases s; cases t; cases h; rfl)
  else .isFalse fun eq => h (by rw [eq])

/-- How a tag set is shown. -/
def outline (s : TagSet) : Text.Outline :=
  .parts "TagSet" [.set (s.toList.map .text)]

end TagSet

/-- Things that carry tags. -/
class Tagged (α : Type) where
  tags : α → TagSet

namespace Tagged

variable {α : Type} [Tagged α]

/-- Whether a thing carries a tag. -/
def hasTag (item : α) (tag : String) : Bool :=
  (tags item).contains tag

/-- The things that carry a tag, in order. -/
def withTag (items : List α) (tag : String) : List α :=
  items.filter (hasTag · tag)

/-- The things that carry every one of some tags, in order. -/
def withAllTags (items : List α) (wanted : List String) : List α :=
  items.filter fun item => (tags item).containsAll wanted

/-- The things that carry at least one of some tags, in order. -/
def withAnyTag (items : List α) (wanted : List String) : List α :=
  items.filter fun item => (tags item).containsAny wanted

end Tagged

end StagedWorkflow
