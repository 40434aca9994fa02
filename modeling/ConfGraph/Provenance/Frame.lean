import ConfGraph.Text.Identifier
import ConfGraph.Value.Basic

/-!
# Stack frames

A stack text has a line for each call.  A line with a location reads `at fn (file:line:column)` or
`at file:line:column`, after any white space; other lines say nothing.  A file name may itself hold
blanks, colons, digits and parentheses, so the reading is defined by what it prefers: a function
name if there can be one, and the shortest function name, then the shortest file name.

* `Frame.ofLine?`: the frame of a line.
* `Frame.ofStack`: the frames of a stack text, innermost first.
* `Frame.isScript`: whether a frame is one of a script.
* `Frame.render`: a frame as a line.
* `Frame.seen`: what shows of calls in progress.
-/

namespace ConfGraph

/-- One call on the stack. -/
structure Frame where
  /-- The function, if it has a name. -/
  fn : Option String
  file : String
  line : Nat
  column : Nat
deriving DecidableEq, Repr

namespace Frame

/-- What the file name of every script starts with. -/
def scriptMark : String := "cfgscript:"

/-- Whether a frame is one of a script. -/
def isScript (f : Frame) : Bool := scriptMark.toList.isPrefixOf f.file.toList

/-! ## 1. Reading -/

/-- A run of digits in front of a text, which must not be empty, and the rest. -/
def number? (cs : List Char) : Option (Nat × List Char) :=
  let ds := cs.takeWhile Char.isDigit
  if ds.isEmpty then none
  else some (ds.foldl (fun n c => 10 * n + (c.toNat - 48)) 0, cs.dropWhile Char.isDigit)

/-- A text that is a colon, a line number, a colon, a column number and perhaps a closing
parenthesis, and nothing else. -/
def place? : List Char → Option (Nat × Nat)
  | ':' :: rest =>
    match number? rest with
    | some (line, ':' :: rest) =>
      match number? rest with
      | some (column, []) => some (line, column)
      | some (column, [')']) => some (line, column)
      | _ => none
    | _ => none
  | _ => none

/-- The shortest file name, not empty, after which the text is a place.  `done` holds the file name
so far, last character first. -/
def located? (done : List Char) (cs : List Char) : Option (String × Nat × Nat) :=
  match (if done.isEmpty then none else place? cs) with
  | some (line, column) => some (String.ofList done.reverse, line, column)
  | none =>
    match cs with
    | [] => none
    | c :: rest => if Text.isLineEnd c then none else located? (c :: done) rest

/-- A located file after the blank and the parenthesis that end a function name. -/
def afterName? : List Char → Option (String × Nat × Nat)
  | ' ' :: '(' :: rest => located? [] rest
  | _ => none

/-- The shortest function name, not empty, after which a located file stands in parentheses. -/
def called? (done : List Char) (cs : List Char) : Option Frame :=
  match (if done.isEmpty then none else afterName? cs) with
  | some (file, line, column) => some ⟨some (String.ofList done.reverse), file, line, column⟩
  | none =>
    match cs with
    | [] => none
    | c :: rest => if Text.isLineEnd c then none else called? (c :: done) rest

/-- The frame of what stands after `at` and a blank: with a function name if possible. -/
def ofCall? (cs : List Char) : Option Frame :=
  match called? [] cs with
  | some f => some f
  | none => (located? [] cs).map fun (file, line, column) => ⟨none, file, line, column⟩

/-- The frame of a line. -/
def ofLine? (line : List Char) : Option Frame :=
  match line.dropWhile Text.isBlank with
  | 'a' :: 't' :: ' ' :: rest => ofCall? rest
  | _ => none

/-- The frames of a stack text, in order. -/
def ofStack (stack : String) : List Frame := (Text.splitAt '\n' stack.toList).filterMap ofLine?

/-! ## 2. Writing -/

/-- The place of a frame. -/
def placeText (f : Frame) : List Char :=
  f.file.toList ++ ':' :: Number.natText f.line ++ ':' :: Number.natText f.column

/-- A frame as a line. -/
def render (f : Frame) : List Char :=
  "    at ".toList ++
    match f.fn with
    | some fn => fn.toList ++ ' ' :: '(' :: f.placeText ++ [')']
    | none => f.placeText

/-- How many calls a stack text tells of. -/
def depth : Nat := 10

/-- **The frames that show of calls in progress**, given from the innermost on, `none` for a call
outside all scripts.  Calls show as a stack text tells them, so a file name that is no part of a
line, or that holds what looks like a place, may hide a call or change it. -/
def seen (calls : List (Option Frame)) : List Frame :=
  let lines := (calls.take depth).filterMap (·.map render)
  ofStack (String.ofList (lines.flatMap ('\n' :: ·)))

/-- A frame as a value. -/
def toValue (f : Frame) : Value :=
  .record .host [
    ("fn", f.fn.elim .null .str), ("file", .str f.file),
    ("line", .nat f.line), ("column", .nat f.column)]

end Frame

end ConfGraph
