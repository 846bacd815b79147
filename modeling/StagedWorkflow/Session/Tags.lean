import StagedWorkflow.TagSet
import StagedWorkflow.Report
/-!
# Sessions with tag sets

A session that works on tag sets, by number, and asks for the items of a
list that carry certain tags.
-/

namespace StagedWorkflow

namespace Session

/-- A thing with a name and tags. -/
structure TaggedItem where
  name : String
  tagSet : TagSet

instance : Tagged TaggedItem := ⟨TaggedItem.tagSet⟩

/-- A command on one of the sets. -/
inductive TagCommand where
  | insert (tag : String)
  | remove (tag : String)
  | contains (tag : String)
  | containsAll (tags : List String)
  | containsAny (tags : List String)
  | size
  | isEmpty
  | list
  /-- Whether another set, by number, is equal. -/
  | equals (other : Nat)
  /-- A new set equal to this one. -/
  | clone
  | outline (pretty : Bool)
  /-- The names of the items that carry a tag. -/
  | itemsWith (tag : String)
  | itemsWithAll (tags : List String)
  | itemsWithAny (tags : List String)
  /-- For each item, whether it carries a tag. -/
  | itemsHave (tag : String)

/-- The names of items. -/
def itemNames (items : List TaggedItem) : Datum :=
  .texts (items.map (·.name))

/-- Carries out a command on the set of a number. -/
def TagCommand.run (items : List TaggedItem) (sets : List TagSet) (number : Nat) :
    TagCommand → Datum × List TagSet
  | insert tag =>
    let (isNew, set) := (sets.getD number ∅).insert tag
    (.truth isNew, sets.set number set)
  | remove tag =>
    let (was, set) := (sets.getD number ∅).remove tag
    (.truth was, sets.set number set)
  | contains tag => (.truth ((sets.getD number ∅).contains tag), sets)
  | containsAll tags => (.truth ((sets.getD number ∅).containsAll tags), sets)
  | containsAny tags => (.truth ((sets.getD number ∅).containsAny tags), sets)
  | size => (.count (sets.getD number ∅).size, sets)
  | isEmpty => (.truth (sets.getD number ∅).isEmpty, sets)
  | list => (.texts (sets.getD number ∅).toList, sets)
  | equals other =>
    (match sets[other]? with
      | none => .null
      | some set => .truth (decide (sets.getD number ∅ = set)), sets)
  | clone => (.count sets.length, sets ++ [sets.getD number ∅])
  | outline pretty => ((sets.getD number ∅).outline.datum pretty, sets)
  | itemsWith tag => (itemNames (Tagged.withTag items tag), sets)
  | itemsWithAll tags => (itemNames (Tagged.withAllTags items tags), sets)
  | itemsWithAny tags => (itemNames (Tagged.withAnyTag items tags), sets)
  | itemsHave tag => (.list (items.map fun item => .truth (Tagged.hasTag item tag)), sets)

/-- The answers to commands in order, and the sets at the end. -/
def runTags (items : List TaggedItem) (sets : List TagSet) (commands : List (Nat × TagCommand)) :
    Datum :=
  let (answers, last) := commands.foldl (fun (answers, sets) (number, command) =>
    let (answer, sets) := command.run items sets number
    (answers ++ [answer], sets)) ([], sets)
  .record [("steps", .list answers), ("sets", .list (last.map fun s => .texts s.toList))]

end Session

end StagedWorkflow
