import ConfGraph.Console.Exhibit
import ConfGraph.Value.Fields

/-!
# Grids

A console can show the parts of a thing in a grid: a row for each part, and a column for each field
that one of them has.  Parts without fields of their own stand in a column for themselves.

* `Grid`: columns with their heads.
* `Grid.text`: a grid as it is written.
* `Grid.ofExhibit?`: the parts of a thing in a grid.
-/

namespace ConfGraph

/-- A column of a grid: its head, and the texts of the rows that have one. -/
structure Column where
  head : String
  cells : List (Nat × String)

/-- Columns side by side, with so many rows. -/
structure Grid where
  rows : Nat
  columns : List Column

namespace Column

/-- The text of a row. -/
def cell (c : Column) (row : Nat) : String := (c.cells.lookup row).getD ""

/-- The room that a column takes. -/
def room (c : Column) : Nat :=
  c.cells.foldl (fun w cell => max w (Exhibit.room cell.2)) (Exhibit.room c.head)

/-- A column with a text for each row. -/
def full (head : String) (cells : List String) : Column :=
  ⟨head, cells.zipIdx.map fun c => (c.2, c.1)⟩

end Column

namespace Grid

/-! ## 1. Lines -/

/-- A line between rows. -/
def ruler (left middle right : String) (widths : List Nat) : String :=
  let parts := widths.map fun w => String.ofList (List.replicate (w + 2) '─')
  left ++ String.intercalate middle parts ++ right

/-- A row of texts. -/
def row (widths : List Nat) (cells : List String) : String :=
  let padded := (cells.zip widths).map fun c => c.1 ++ Exhibit.blanks (c.2 - Exhibit.room c.1)
  "│ " ++ String.intercalate " │ " padded ++ " │"

/-- **A grid as it is written.** -/
def text (g : Grid) : String :=
  let widths := g.columns.map Column.room
  let body := (List.range g.rows).map fun i => row widths (g.columns.map (·.cell i))
  String.intercalate "\n"
    ([ruler "┌" "┬" "┐" widths, row widths (g.columns.map (·.head)), ruler "├" "┼" "┤" widths]
      ++ body ++ [ruler "└" "┴" "┘" widths])

/-! ## 2. Grids of things -/

/-- How things are shown in a grid: on one line, however long. -/
def look : Look := ⟨0, 3, 1000000000⟩

/-- A thing in a grid; a record with many fields is shown by the name of its kind only. -/
def cellText (x : Exhibit) : String :=
  match x with
  | .record _ maker fields =>
    if 2 < fields.length then s!"[{Exhibit.makerText maker}]" else x.render look
  | x => x.render look

/-- The parts of a thing that has parts. -/
def parts? : Exhibit → Option (List (String × Exhibit))
  | .simple _ => none
  | .list _ _ items fields => some (items.map (fun i => (toString i.1, i.2)) ++ fields)
  | .record _ _ fields | .function _ _ fields => some fields
  | .table .. | .phrase _ | .again _ => some []

/-- What is known of the columns while rows are added: those of fields, and that of things without
fields. -/
structure Draft where
  named : Fields (List (Nat × String))
  values : List (Nat × String)

/-- Adds a row for a thing.  If some fields are wanted, only these get columns. -/
def Draft.add (wanted : Option (List String)) (d : Draft) (i : Nat) (x : Exhibit) : Draft :=
  match parts? x, wanted with
  | none, none => { d with values := d.values ++ [(i, cellText x)] }
  | own, wanted =>
    let own := own.getD []
    let names := wanted.getD (Fields.names own)
    let put (named : Fields (List (Nat × String))) (name : String) : Fields (List (Nat × String)) :=
      let cell := ((Fields.get? own name).map cellText).getD ""
      Fields.put named name ((Fields.get? named name).getD [] ++ [(i, cell)])
    { d with named := names.foldl put d.named }

/-- The head of the column for things without fields. -/
def valuesHead : String := "Values"

/-- Things in a grid, by their names. -/
def ofParts (wanted : Option (List String)) (parts : List (String × Exhibit)) : Grid :=
  let d := parts.zipIdx.foldl (fun d part => d.add wanted part.2 part.1.2) (⟨[], []⟩ : Draft)
  let named := d.named.map fun c => (⟨c.1, c.2⟩ : Column)
  let values := if d.values.isEmpty then [] else [(⟨valuesHead, d.values⟩ : Column)]
  ⟨parts.length, .full "(index)" (parts.map (·.1)) :: (named ++ values)⟩

/-- The entries of a table in a grid. -/
def ofEntries (entries : List (Exhibit × Exhibit)) : Grid :=
  ⟨entries.length, [
    .full "(iteration index)" ((List.range entries.length).map fun i => toString i),
    .full "Key" (entries.map fun e => cellText e.1),
    .full valuesHead (entries.map fun e => cellText e.2)]⟩

/-- **The parts of a thing in a grid**, if it has any. -/
def ofExhibit? (wanted : Option (List String)) : Exhibit → Option Grid
  | .simple _ | .function .. => none
  | .table _ entries => some (ofEntries entries)
  | x => (parts? x).map (ofParts wanted)

end Grid

end ConfGraph
