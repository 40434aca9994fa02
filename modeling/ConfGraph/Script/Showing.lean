import ConfGraph.Script.Graphs

/-!
# What scripts show

What scripts hand to a console may be shared and may hold itself; the tables of a graph show what
they hold.

* `Heap.exhibit`: a datum as it may be shown.
* `printable`: a datum as it is handed to a console.
-/

namespace ConfGraph.Script

namespace Heap

/-- How many levels may be shown at most. -/
def shownLevels : Nat := 8

/-- What stands in a cell as it may be shown, if it is known how its parts are. -/
def cellExhibit (h : Heap) (part : Datum → Exhibit) (id : CellId) (c : Cell) : Exhibit :=
  let fields := c.fields.map fun f => (f.1, part f.2)
  match c.body with
  | .record =>
    .record id (if h.descends (h.cells.size + 1) id then some Family.object.maker.name else none)
      fields
  | .list length items => .list id length (items.map fun i => (i.1, part i.2)) fields
  | .function _ face => .function id face.name fields
  | .table entries =>
    .table id (entries.map fun e =>
      (Exhibit.ofValue e.key.value, Exhibit.ofValue (h.freshEntry e).held.value))
  | .failure _ => .phrase s!"[{(h.value (.cell id)).display}]"
  | .collection s _ => .phrase ("Object [" ++ s.word ++ "] \x7b\x7d")
  | .console => .phrase ("Object [" ++ Shelf.console.word ++ "] \x7b\x7d")

/-- A datum as it may be shown, through at most so many levels, of which `path` have been gone
through. -/
def exhibitAt (h : Heap) : Nat → List CellId → Datum → Exhibit
  | _, _, .undefined => .simple .undefined
  | _, _, .null => .simple .null
  | _, _, .bool b => .simple (.bool b)
  | _, _, .num x => .simple (.num x)
  | _, _, .str s => .simple (.str s)
  | 0, _, .cell id => .again id
  | levels + 1, path, .cell id =>
    if path.contains id then .again id
    else
      match h.get? id with
      | none => .simple .undefined
      | some c => h.cellExhibit (h.exhibitAt levels (id :: path)) id c

/-- **A datum as it may be shown.** -/
def exhibit (h : Heap) (d : Datum) : Exhibit := h.exhibitAt shownLevels [] d

end Heap

variable {σ : Type} [HasHeap σ]

/-- A datum as it is handed to a console. -/
def printable (d : Datum) : Act σ Printable := do
  let h ← getHeap
  return ⟨h.value d, h.exhibit d⟩

/-- Data as they are handed to a console. -/
def printables : List Datum → Act σ (List Printable)
  | [] => return []
  | d :: rest => do
    let a ← printable d
    let as ← printables rest
    return a :: as

end ConfGraph.Script
