import ConfGraph.Text.Blank
import ConfGraph.Text.Units

/-!
# Places in a text

A program runs as text, and a call is known by the place at which it stands in that text.  Line ends
count wherever they are, also inside a quoted text.

* `Spot`: a place in a text.
* `Spot.past`: the place after a text that stands at a place.
-/

namespace ConfGraph.Script

/-- A place in a text: its line, and its column in 16-bit units, both counted from one. -/
structure Spot where
  line : Nat
  column : Nat
deriving DecidableEq, Repr

namespace Spot

/-- The start of a text. -/
def start : Spot := ⟨1, 1⟩

/-- The start of the line after a place. -/
def nextLine (s : Spot) : Spot := ⟨s.line + 1, 1⟩

/-- **The place after a text.**  A carriage return and a line feed end one line. -/
def past (s : Spot) : List Char → Spot
  | [] => s
  | '\r' :: '\n' :: rest => past s.nextLine rest
  | c :: rest =>
    past (if Text.isLineEnd c then s.nextLine else ⟨s.line, s.column + (Text.charUnits c).length⟩)
      rest

end Spot

end ConfGraph.Script
