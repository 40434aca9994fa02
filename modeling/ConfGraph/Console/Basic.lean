import ConfGraph.Console.Grid
import ConfGraph.Value.Printer

/-!
# The console

A console writes lines to the standard or to the error output.  Lines may be indented in groups,
and a text with percent signs takes the things after it into itself.

* `Printable`: a thing that is handed to a console.
* `Console.format`: the text of several things.
* `Console.call`: what a function of the console writes.
-/

namespace ConfGraph

/-- A thing that is handed to a console: as a value, and as it may be shown. -/
structure Printable where
  value : Value
  exhibit : Exhibit

/-- A line that a console writes. -/
structure PrintedLine where
  /-- Whether it goes to the error output. -/
  toErrors : Bool
  text : String

/-- What a console keeps: how far lines are indented, and what has been counted. -/
structure Console where
  indent : Nat
  counts : Fields Nat

namespace Console

/-- A console at its start. -/
def start : Console := ⟨0, []⟩

/-! ## 1. Formats -/

/-- A text by itself; anything else as it is shown. -/
def plainly (a : Printable) : String :=
  match a.value with
  | .str s => s
  | _ => a.exhibit.render .usual

/-- Whether something says its own text. -/
def speaks (v : Value) : Bool := v.isPrimitive || v.isFunction || (v.member? "toString").isSome

/-- What a thing becomes inside a text; `none` for a sign that takes nothing. -/
def inserted? (sign : Char) (a : Printable) : Option String :=
  match sign, a.value with
  | 's', .num x | 'd', .num x => some (Exhibit.numberText x)
  | 's', v => some (if speaks v then v.display else a.exhibit.render (.within 0))
  | 'd', v => some (Exhibit.numberText (v.number?.getD Number.nan))
  | 'i', v => some (Exhibit.numberText (Number.wholeOfBeginning 0 v.display))
  | 'f', v => some (Exhibit.numberText (Number.ofBeginning v.display))
  | 'j', v =>
    some (if v.isEndless then "[Circular]" else (v.settled.json?.map String.ofList).getD "undefined")
  | 'O', _ => some (a.exhibit.render .usual)
  | 'o', _ => some (a.exhibit.render (.within 4))
  | 'c', _ => some ""
  | _, _ => none

/-- A text that takes things into itself, and the things left over. -/
def filled : List Char → List Printable → List Char × List Printable
  | '%' :: '%' :: rest, args =>
    let (cs, args) := filled rest args
    ('%' :: cs, args)
  | '%' :: sign :: rest, a :: args =>
    match inserted? sign a with
    | some s =>
      let (cs, args) := filled rest args
      (s.toList ++ cs, args)
    | none =>
      let (cs, args) := filled rest (a :: args)
      ('%' :: sign :: cs, args)
  | c :: rest, args =>
    let (cs, args) := filled rest args
    (c :: cs, args)
  | [], args => ([], args)

/-- **The text of several things.** -/
def format (args : List Printable) : String :=
  match args with
  | ⟨.str s, _⟩ :: a :: rest =>
    let (cs, left) := filled s.toList (a :: rest)
    String.intercalate " " (String.ofList cs :: left.map plainly)
  | args => String.intercalate " " (args.map plainly)

/-! ## 2. Lines -/

/-- A text as written: each of its lines is indented. -/
def written (c : Console) (s : String) : String :=
  let blanks := Exhibit.blanks c.indent
  (if c.indent = 0 then s else blanks ++ s.replace "\n" ("\n" ++ blanks)) ++ "\n"

/-- Several things on a line. -/
def line (c : Console) (toErrors : Bool) (args : List Printable) : Console × List PrintedLine :=
  (c, [⟨toErrors, c.written (format args)⟩])

/-- A text as a thing. -/
def textual (s : String) : Printable := ⟨.str s, .simple (.str s)⟩

/-- The name under which something is counted. -/
def label : List Printable → String
  | [] => "default"
  | a :: _ =>
    match a.value with
    | .undefined => "default"
    | v => v.display

/-- What is written about something that does not hold. -/
def complaint : List Printable → List Printable
  | ⟨.str s, _⟩ :: rest => textual s!"Assertion failed: {s}" :: rest
  | args => textual "Assertion failed" :: args

/-- The names of the fields that are wanted in a grid, if some are. -/
def wantedNames : List Printable → Option (List String)
  | ⟨.list names, _⟩ :: _ => some (names.map Value.display)
  | _ => none

/-- How far a group is indented. -/
def groupIndent : Nat := 2

/-! ## 3. Functions -/

/-- **What a function of the console writes.** -/
def call (c : Console) (name : String) (args : List Printable) : Console × List PrintedLine :=
  match name, args with
  | "log", args | "info", args | "debug", args | "dirxml", args => c.line false args
  | "warn", args | "error", args => c.line true args
  | "dir", a :: _ => c.line false [textual (a.exhibit.render .usual)]
  | "dir", [] => c.line false [textual "undefined"]
  | "trace", args =>
    let said := format args
    c.line true [textual (if said = "" then "Trace" else s!"Trace: {said}")]
  | "assert", [] => c.line true (complaint [])
  | "assert", a :: rest => if a.value.isFalsy then c.line true (complaint rest) else (c, [])
  | "count", args =>
    let name := label args
    let n := (Fields.get? c.counts name).getD 0 + 1
    { c with counts := Fields.put c.counts name n }.line false [textual s!"{name}: {n}"]
  | "countReset", args => ({ c with counts := Fields.erase c.counts (label args) }, [])
  | "group", args | "groupCollapsed", args =>
    ({ c with indent := c.indent + groupIndent }, if args.isEmpty then [] else (c.line false args).2)
  | "groupEnd", _ => ({ c with indent := c.indent - groupIndent }, [])
  | "table", a :: rest =>
    c.line false [((Grid.ofExhibit? (wantedNames rest) a.exhibit).map (textual ·.text)).getD a]
  | "table", [] => c.line false [textual "undefined"]
  | _, _ => (c, [])

end Console

end ConfGraph
