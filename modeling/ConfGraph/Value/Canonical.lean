import ConfGraph.Text.Units
import ConfGraph.Value.Printer

/-!
# Canonical text

The text by which values are compared: JSON without blanks in which the fields of every record are
ordered by the 16-bit units of their names.  What JSON cannot write stands as `null`, also as the
value of a field, but a position of a list at which nothing was put stays empty.

* `Value.canonical`: the canonical text.
* `Value.same`: two values are the same when their canonical texts are.
-/

namespace ConfGraph.Value

/-- The order of entries by the units of their names. -/
def nameLe {α : Type} (a b : String × α) : Bool := Text.unitsLe a.1 b.1

/-- Entries in the order of their names. -/
def sortByName {α : Type} (entries : List (String × α)) : List (String × α) :=
  entries.mergeSort nameLe

/-- One entry of a canonical record. -/
def entryText (e : String × List Char) : List Char := Text.quote e.1 ++ ':' :: e.2

mutual

/-- The canonical text of a value. -/
def canonical : Value → List Char
  | .undefined | .null | .function _ | .constant .. => "null".toList
  | .hole => []
  | .bool b => if b then "true".toList else "false".toList
  | .num x => numberJson x
  | .str s => Text.quote s
  | .list items => '[' :: (joinWith [','] (canonicalItems items) ++ [']'])
  | .record _ fields | .heir fields _ =>
    '\x7b' :: (joinWith [','] ((sortByName (canonicalFields fields)).map entryText) ++ ['\x7d'])
  | .opaqueObject .. | .endless => "\x7b\x7d".toList

/-- The canonical texts of the items of a list. -/
def canonicalItems : List Value → List (List Char)
  | [] => []
  | v :: rest => v.canonical :: canonicalItems rest

/-- The names of a record's fields with the canonical texts of what they hold. -/
def canonicalFields : List (String × Value) → List (String × List Char)
  | [] => []
  | (name, v) :: rest => (name, v.canonical) :: canonicalFields rest

end

/-- The canonical text of a value. -/
def canonicalText (v : Value) : String := String.ofList v.canonical

/-- Two values are the same when their canonical texts are. -/
def same (v w : Value) : Bool := v.canonical == w.canonical

@[simp] theorem canonicalItems_eq_map (items : List Value) :
    canonicalItems items = items.map canonical := by
  induction items with
  | nil => rfl
  | cons v rest ih => simp [canonicalItems, ih]

@[simp] theorem canonicalFields_eq_map (fields : List (String × Value)) :
    canonicalFields fields = fields.map fun f => (f.1, f.2.canonical) := by
  induction fields with
  | nil => rfl
  | cons f rest ih => simp [canonicalFields, ih]

end ConfGraph.Value
