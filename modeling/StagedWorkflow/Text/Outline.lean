import StagedWorkflow.Text.Quoted
/-!
# Text — outlines

An outline is the nested form in which structures are shown to a person:
leaves, labelled items, and groups between brackets. It has two layouts of
the same content: `inline` on one line, and `indented` with an item a line.
-/

namespace StagedWorkflow

namespace Text

/-- What stands around the items of a group. -/
structure Frame where
  opening : String
  closing : String
  /-- On one line, the items stand apart from the brackets. -/
  spaced : Bool := false
  /-- There is more than the items show, written as two dots after them. -/
  more : Bool := false

/-- A structure to be shown. -/
inductive Outline where
  | leaf (text : String)
  | labelled (label : String) (body : Outline)
  | group (frame : Frame) (items : List Outline)

namespace Outline

/-- A text, in quotes. -/
def text (s : String) : Outline :=
  .leaf (quote s)

/-- A truth value. -/
def truth (b : Bool) : Outline :=
  .leaf (if b then "true" else "false")

/-- A structure by name, with its fields. -/
def fields (name : String) (items : List (String × Outline)) (more : Bool := false) : Outline :=
  .group ⟨name ++ " \x7b", "\x7d", true, more⟩ (items.map fun item => .labelled item.1 item.2)

/-- A structure by name, with unnamed parts. -/
def parts (name : String) (items : List Outline) : Outline :=
  .group ⟨name ++ "(", ")", false, false⟩ items

/-- A list. -/
def list (items : List Outline) : Outline :=
  .group ⟨"[", "]", false, false⟩ items

/-- A set. -/
def set (items : List Outline) : Outline :=
  .group ⟨"\x7b", "\x7d", false, false⟩ items

/-- A map with text keys. -/
def map (items : List (String × Outline)) : Outline :=
  .group ⟨"\x7b", "\x7d", false, false⟩ (items.map fun item => .labelled (quote item.1) item.2)

mutual

/-- The layout on one line. -/
def inline : Outline → String
  | .leaf text => text
  | .labelled label body => label ++ ": " ++ inline body
  | .group frame items =>
    let shown := inlineAll items ++ if frame.more then [".."] else []
    let gap := if frame.spaced then " " else ""
    frame.opening ++ gap ++ ", ".intercalate shown ++ gap ++ frame.closing

/-- The layouts of several outlines on one line. -/
def inlineAll : List Outline → List String
  | [] => []
  | item :: items => inline item :: inlineAll items

end

/-- The blanks before an item, four for each group around it. -/
def margin (depth : Nat) : String :=
  String.ofList (List.replicate (4 * depth) ' ')

mutual

/-- The layout with an item a line, inside `depth` groups. -/
def indentedAt (depth : Nat) : Outline → String
  | .leaf text => text
  | .labelled label body => label ++ ": " ++ indentedAt depth body
  | .group frame items =>
    if items.isEmpty && !frame.more then frame.opening ++ frame.closing
    else
      frame.opening ++ "\n" ++ indentedLines (depth + 1) items
        ++ (if frame.more then margin (depth + 1) ++ "..\n" else "")
        ++ margin depth ++ frame.closing

/-- The lines of a group's items. -/
def indentedLines (depth : Nat) : List Outline → String
  | [] => ""
  | item :: items =>
    margin depth ++ indentedAt depth item ++ ",\n" ++ indentedLines depth items

end

/-- The layout with an item a line. -/
def indented (outline : Outline) : String :=
  outline.indentedAt 0

/-- The text of an outline, in the layout asked for. -/
def render (outline : Outline) (pretty : Bool) : String :=
  if pretty then outline.indented else outline.inline

end Outline

end Text

end StagedWorkflow
