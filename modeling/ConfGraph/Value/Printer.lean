import ConfGraph.Text.Quoted
import ConfGraph.Value.Basic

/-!
# JSON text of a value

The compact form and the form with one item a line, each level indented by the same text.  In a
list, what JSON cannot write is written as `null`; in a record, such fields are left out.

* `Value.json?`: the compact form, `none` for a value that JSON cannot write at all.
* `Value.prettyAt`, `Value.pretty`: the form with line breaks.
* `Value.settled`: a value as its JSON text shows it, records that say their own form replaced by it.
-/

namespace ConfGraph.Value

/-- Pieces with a comma between them. -/
def joinWith (sep : List Char) : List (List Char) → List Char
  | [] => []
  | [a] => a
  | a :: rest => a ++ sep ++ joinWith sep rest

/-- A number in JSON: `null` unless it is finite. -/
def numberJson (x : Float) : List Char :=
  if Number.isFinite x then Number.text x else "null".toList

/-! ## 1. Compact -/

mutual

/-- The compact JSON text of a value. -/
def json? : Value → Option (List Char)
  | .undefined | .hole | .function _ | .constant .. => none
  | .null => some "null".toList
  | .bool b => some (if b then "true".toList else "false".toList)
  | .num x => some (numberJson x)
  | .str s => some (Text.quote s)
  | .list items => some ('[' :: (joinWith [','] (jsonItems items) ++ [']']))
  | .record _ fields | .heir fields _ =>
    some ('\x7b' :: (joinWith [','] (jsonFields fields) ++ ['\x7d']))
  | .opaqueObject .. | .endless => some "\x7b\x7d".toList

/-- The items of a list; `null` for what cannot be written. -/
def jsonItems : List Value → List (List Char)
  | [] => []
  | v :: rest => (v.json?.getD "null".toList) :: jsonItems rest

/-- The fields of a record that can be written. -/
def jsonFields : List (String × Value) → List (List Char)
  | [] => []
  | (name, v) :: rest =>
    match v.json? with
    | none => jsonFields rest
    | some text => (Text.quote name ++ ':' :: text) :: jsonFields rest

end

/-- The compact JSON text of a value, `null` for what cannot be written. -/
def json (v : Value) : String := String.ofList (v.json?.getD "null".toList)

/-! ## 2. One item a line -/

/-- A line break and the indentation of a level. -/
def lineBreak (indent : List Char) (level : Nat) : List Char :=
  '\n' :: (List.replicate level indent).flatten

/-- Items between brackets, each on a line of its own; the bare brackets if there are none. -/
def block (indent : List Char) (opening closing : Char) (level : Nat) :
    List (List Char) → List Char
  | [] => [opening, closing]
  | items =>
    let inner := lineBreak indent (level + 1)
    opening :: (inner ++ joinWith (',' :: inner) items ++ lineBreak indent level ++ [closing])

mutual

/-- The text of a value that starts at a level of indentation. -/
def prettyAt (indent : List Char) (level : Nat) : Value → Option (List Char)
  | .undefined | .hole | .function _ | .constant .. => none
  | .null => some "null".toList
  | .bool b => some (if b then "true".toList else "false".toList)
  | .num x => some (numberJson x)
  | .str s => some (Text.quote s)
  | .list items => some (block indent '[' ']' level (prettyItems indent (level + 1) items))
  | .record _ fields | .heir fields _ =>
    some (block indent '\x7b' '\x7d' level (prettyFields indent (level + 1) fields))
  | .opaqueObject .. | .endless => some "\x7b\x7d".toList

/-- The items of a list, each starting at a level. -/
def prettyItems (indent : List Char) (level : Nat) : List Value → List (List Char)
  | [] => []
  | v :: rest => ((v.prettyAt indent level).getD "null".toList) :: prettyItems indent level rest

/-- The fields of a record, each starting at a level. -/
def prettyFields (indent : List Char) (level : Nat) : List (String × Value) → List (List Char)
  | [] => []
  | (name, v) :: rest =>
    match v.prettyAt indent level with
    | none => prettyFields indent level rest
    | some text => (Text.quote name ++ ':' :: ' ' :: text) :: prettyFields indent level rest

end

/-- The JSON text of a value with one item a line, two blanks for each level. -/
def pretty (v : Value) : String := String.ofList ((v.prettyAt [' ', ' '] 0).getD "null".toList)

/-! ## 3. Records that say their own form -/

/-- The form that a record says itself when it is asked under a name: what its field `toJSON` gives
if that is a function. -/
def statedForm? (name : String) (v : Value) : Option Value :=
  match v.member? "toJSON" with
  | some (.constant _ result) => some result
  | some (.function ⟨_, _, .echo⟩) => some (.str name)
  | some (.function _) => some .undefined
  | _ => none

mutual

/-- A value whose parts are replaced by the forms that they say themselves. -/
def withStated : Value → Value
  | .list items => .list (statedItems 0 items)
  | .record origin fields => .record origin (statedFields fields)
  | .heir fields parent => .heir (statedFields fields) (withStated parent)
  | .constant face result => .constant face (withStated result)
  | v => v

/-- The items of a list from a position on, each in the form that it says itself. -/
def statedItems (i : Nat) : List Value → List Value
  | [] => []
  | v :: rest =>
    let w := withStated v
    (w.statedForm? (toString i)).getD w :: statedItems (i + 1) rest

/-- The fields of a record, each in the form that it says itself. -/
def statedFields : List (String × Value) → List (String × Value)
  | [] => []
  | (name, v) :: rest =>
    let w := withStated v
    (name, (w.statedForm? name).getD w) :: statedFields rest

end

/-- **A value as its JSON text shows it.** -/
def settled (v : Value) : Value :=
  let w := v.withStated
  (w.statedForm? "").getD w

end ConfGraph.Value
