import ConfGraph.Decimal.Arithmetic
import ConfGraph.Text.Units
import ConfGraph.Value.Basic

/-!
# Exhibits

What a console shows of a thing: texts in quotes, lists and records with their parts on one line if
there are few and short ones, else each on a line of its own, and many items of a list in columns.
What lies too deep is shown by the name of its kind only.

* `Exhibit`: a thing with as much of its parts as may be shown.
* `Exhibit.render`: the text of a thing.
-/

namespace ConfGraph

/-- A thing as it may be shown.  Things with parts have a number by which they are told apart. -/
inductive Exhibit where
  /-- A value without parts. -/
  | simple (v : Value)
  /-- A list: its length, its items by their positions, and other fields. -/
  | list (id length : Nat) (items : List (Nat × Exhibit)) (fields : List (String × Exhibit))
  /-- A record, with the name of its maker unless it has none. -/
  | record (id : Nat) (maker : Option String) (fields : List (String × Exhibit))
  | table (id : Nat) (entries : List (Exhibit × Exhibit))
  | function (id : Nat) (name : String) (fields : List (String × Exhibit))
  /-- Something with a text of its own. -/
  | phrase (text : String)
  /-- A thing inside itself. -/
  | again (id : Nat)

/-- How much of things is shown. -/
structure Look where
  /-- How many levels inside a thing are shown. -/
  levels : Nat
  /-- How many items of a list are shown. -/
  items : Nat
  /-- How long a line may be. -/
  lineWidth : Nat

namespace Exhibit

/-! ## 1. Values -/

mutual

/-- A value as it may be shown. -/
def ofValue : Value → Exhibit
  | .list items => .list 0 items.length (itemsOf 0 items) []
  | .record _ fields | .heir fields _ => .record 0 (some "Object") (fieldsOf fields)
  | .function face | .constant face _ => .function 0 face.name []
  | .opaqueObject _ text => .phrase text
  | .endless => .phrase "[Circular]"
  | v => .simple v

/-- The items of a list from a position on. -/
def itemsOf (i : Nat) : List Value → List (Nat × Exhibit)
  | [] => []
  | .hole :: rest => itemsOf (i + 1) rest
  | v :: rest => (i, ofValue v) :: itemsOf (i + 1) rest

/-- The fields of a record. -/
def fieldsOf : List (String × Value) → List (String × Exhibit)
  | [] => []
  | (name, v) :: rest => (name, ofValue v) :: fieldsOf rest

end

/-! ## 2. Simple things -/

/-- The length of a text. -/
def width (s : String) : Nat := (Text.units s).length

/-- Characters that take no room, given as ranges. -/
def roomless : List (Nat × Nat) := [
  (0, 0x1F), (0x7F, 0x9F), (0x300, 0x36F), (0x200B, 0x200F), (0x20D0, 0x20FF), (0xFE00, 0xFE0F),
  (0xFE20, 0xFE2F), (0xE0100, 0xE01EF)]

/-- Characters that take twice the room, given as ranges. -/
def roomy : List (Nat × Nat) := [
  (0x1100, 0x115F), (0x2329, 0x232A), (0x2E80, 0x303E), (0x3041, 0x3247), (0x3250, 0x4DBF),
  (0x4E00, 0xA4C6), (0xA960, 0xA97C), (0xAC00, 0xD7A3), (0xF900, 0xFAFF), (0xFE10, 0xFE19),
  (0xFE30, 0xFE6B), (0xFF01, 0xFF60), (0xFFE0, 0xFFE6), (0x1B000, 0x1B001), (0x1F200, 0x1F251),
  (0x1F300, 0x1F64F), (0x1F680, 0x1F6FF), (0x1F900, 0x1F9FF), (0x20000, 0x3FFFD)]

/-- Whether a number lies in one of several ranges. -/
def isWithin (n : Nat) (ranges : List (Nat × Nat)) : Bool :=
  ranges.any fun r => r.1 ≤ n && n ≤ r.2

/-- The room that a character takes on a line. -/
def charRoom (c : Char) : Nat :=
  if isWithin c.toNat roomless then 0 else if isWithin c.toNat roomy then 2 else 1

/-- The room that a text takes on a line. -/
def room (s : String) : Nat := s.toList.foldl (fun w c => w + charRoom c) 0

/-- A number; minus zero shows its sign. -/
def numberText (x : Float) : String :=
  if Number.isZero x && Number.isNegative x then "-0" else String.ofList (Number.display x)

/-- Two hexadecimal digits. -/
def hexPair (n : Nat) : List Char :=
  let digit (d : Nat) : Char := if d < 10 then Char.ofNat (48 + d) else Char.ofNat (55 + d)
  [digit (n / 16), digit (n % 16)]

/-- A character between two marks. -/
def escape (mark c : Char) : List Char :=
  if c = mark && mark = '\'' || c = '\\' then ['\\', c]
  else
    match c with
    | '\n' => ['\\', 'n']
    | '\t' => ['\\', 't']
    | '\r' => ['\\', 'r']
    | c =>
      let n := c.toNat
      if n = 8 then ['\\', 'b']
      else if n = 12 then ['\\', 'f']
      else if n < 32 || (127 ≤ n && n ≤ 159) then '\\' :: 'x' :: hexPair n
      else [c]

/-- The mark around a text: the first of three that is not in it. -/
def markFor (cs : List Char) : Char :=
  if !cs.contains '\'' then '\''
  else if !cs.contains '"' then '"'
  else if !cs.contains '\x60' && !(String.ofList cs).contains "$\x7b" then '\x60'
  else '\''

/-- A text between marks. -/
def quoted (s : String) : String :=
  let cs := s.toList
  let mark := markFor cs
  String.ofList (mark :: (cs.flatMap (escape mark) ++ [mark]))

/-- The lines of a text, each with its end. -/
def linesOf (s : String) : List String :=
  let parts := s.splitOn "\n"
  let ended := (parts.take (parts.length - 1)).map (· ++ "\n")
  ended ++ (parts.drop (parts.length - 1)).filter (· != "")

/-- A text inside something else: one that is too long for the line is broken at its line ends. -/
def quotedAt (l : Look) (indent : Nat) (s : String) : String :=
  if 16 < width s && l.lineWidth < width s + indent + 4 then
    String.intercalate (" +\n" ++ String.ofList (List.replicate (indent + 2) ' '))
      ((linesOf s).map quoted)
  else quoted s

/-- A value without parts. -/
def simpleText (l : Look) (indent : Nat) : Value → String
  | .str s => quotedAt l indent s
  | .num x => numberText x
  | v => v.primitiveText

/-- Whether a name needs no marks. -/
def isBare (s : String) : Bool :=
  match s.toList with
  | [] => false
  | c :: cs =>
    let starts (c : Char) : Bool := c.isAlpha || c == '_'
    starts c && cs.all fun c => starts c || c.isDigit

/-- The name of a field. -/
def fieldName (s : String) : String :=
  if s = "__proto__" then "['__proto__']" else if isBare s then s else quoted s

/-! ## 3. Columns -/

/-- So many blanks. -/
def blanks (n : Nat) : String := String.ofList (List.replicate n ' ')

/-- How many items may stand side by side. -/
def columnCount (l : Look) (indent widest count : Nat) (total : Float) (entries : Nat) : Nat :=
  let size := Number.ofNat (widest + 2)
  let bias := (size - total / Number.ofNat entries).sqrt
  let biased := Number.larger (size - 3 - bias) 1
  let square := Number.rounded ((2.5 * biased * Number.ofNat count).sqrt / biased)
  min (min square.toUInt64.toNat ((l.lineWidth - indent) / (widest + 2))) 12

/-- Items in pieces of one length. -/
def pieces (n : Nat) : Nat → List String → List (List String)
  | 0, _ => []
  | _, [] => []
  | fuel + 1, items => items.take n :: pieces n fuel (items.drop n)

/-- The widest item of each column. -/
def columnWidths (columns : Nat) (items : List String) : List Nat :=
  (List.range columns).map fun i =>
    (items.zipIdx.filter fun item => item.2 % columns == i).foldl
      (fun w item => max w (room item.1)) 0

/-- One line of items in columns; numbers stand at the right. -/
def columnLine (numbers : Bool) (widths : List Nat) (items : List String) : String :=
  let last := items.length - 1
  String.join ((items.zip widths).zipIdx.map fun item =>
    let text := if item.2 = last then item.1.1 else item.1.1 ++ ", "
    let space := if item.2 = last then item.1.2 else item.1.2 + 2
    let pad := blanks (space - room text)
    if numbers then pad ++ text else if item.2 = last then text else text ++ pad)

/-- The items of a list in columns, if they are of similar length; what is said of further items is
the last one. -/
def grouped (l : Look) (indent : Nat) (numbers hasMore : Bool) (output : List String) : List String :=
  let items := if hasMore then output.take (output.length - 1) else output
  let widths := items.map room
  let widest := widths.foldl max 0
  let total := Number.ofNat (widths.foldl (fun sum w => sum + w + 2) 0)
  let size := Number.ofNat (widest + 2)
  if (widest + 2) * 3 + indent < l.lineWidth && (total / size > 5 || widest ≤ 6) then
    let columns := columnCount l indent widest items.length total output.length
    if columns ≤ 1 then output
    else
      let lines := (pieces columns items.length items).map
        (columnLine numbers (columnWidths columns items))
      lines ++ output.drop items.length
  else output

/-! ## 4. Parts together -/

/-- How many levels may stand on one line. -/
def onOneLine : Nat := 3

/-- Whether parts fit on a line that begins with `start`. -/
def fits (l : Look) (start : Nat) (output : List String) : Bool :=
  let total := (output.map width).foldl (· + ·) (output.length + start)
  2 * output.length + start ≤ l.lineWidth && total ≤ l.lineWidth

/-- Parts between brackets.  `inner` levels lie inside them. -/
def together (l : Look) (indent inner : Nat) (before opening closing : String)
    (grouping : List String → List String) (output : List String) : String :=
  let lead := if before = "" then opening else before ++ " " ++ opening
  let arranged := grouping output
  let line := String.intercalate ", " arranged
  let start := arranged.length + indent + width opening + width before + 10
  if inner < onOneLine && arranged.length = output.length && fits l start arranged
      && !line.contains '\n' then
    lead ++ " " ++ line ++ " " ++ closing
  else
    let lineBreak := "\n" ++ blanks indent
    lead ++ lineBreak ++ "  " ++ String.intercalate ("," ++ lineBreak ++ "  ") arranged
      ++ lineBreak ++ closing

/-- What is known while things are shown: the things found inside themselves so far, and the level
of the latest thing with parts. -/
structure Progress where
  found : List Nat
  reached : Nat

/-- The number by which a thing inside itself is called. -/
def Progress.call (p : Progress) (id : Nat) : Nat × Progress :=
  if p.found.contains id then (p.found.idxOf id + 1, p)
  else (p.found.length + 1, { p with found := p.found ++ [id] })

/-- What stands before a thing that was found inside itself. -/
def Progress.label (p : Progress) (id : Nat) : String :=
  if p.found.contains id then s!"<ref *{p.found.idxOf id + 1}>" else ""

/-- Two words, either of which may be missing. -/
def words (a b : String) : String := if a = "" then b else if b = "" then a else a ++ " " ++ b

/-- What is said of positions at which there is nothing. -/
def gapText (n : Nat) : String := if n = 1 then "<1 empty item>" else s!"<{n} empty items>"

/-- What is said of further items. -/
def moreText (n : Nat) : String := if n = 1 then "... 1 more item" else s!"... {n} more items"

/-- Shown items with what is said of positions at which there is nothing, from one position on. -/
def withGaps (position length : Nat) : List (Nat × String) → List String
  | [] => if position < length then [gapText (length - position)] else []
  | (i, s) :: rest =>
    let shown := s :: withGaps (i + 1) length rest
    if position < i then gapText (i - position) :: shown else shown

/-- The first shown items, with what is said of the others. -/
def limited (l : Look) (shown : List String) : List String :=
  if l.items < shown.length then shown.take l.items ++ [moreText (shown.length - l.items)]
  else shown

/-- The word for a kind of records. -/
def makerText : Option String → String
  | some maker => maker
  | none => "Object: null prototype"

/-- How the parts of a list are arranged. -/
def arranged (l : Look) (indent length : Nat) (items : List (Nat × Exhibit)) (output : List String) :
    List String :=
  let numbers := items.length == length && items.all fun item => match item.2 with
    | .simple (.num _) => true
    | _ => false
  if 6 < output.length then grouped l indent numbers (l.items < output.length) output else output

mutual

/-- The text of a thing at a level, in a line that is indented.  Below the last
level no parts are shown. -/
def shown (l : Look) (indent level : Nat) (p : Progress) : Exhibit → String × Progress
  | .simple v => (simpleText l indent v, p)
  | .phrase text => (text, p)
  | .again id =>
    let (n, p) := p.call id
    (s!"[Circular *{n}]", p)
  | .list id length items fields =>
    if length = 0 && fields.isEmpty then ("[]", p)
    else if l.levels < level then ("[Array]", p)
    else
      let p := { p with reached := level }
      let (shownItems, p) := shownItems l (indent + 2) (level + 1) p items
      let (shownFields, p) := shownFields l (indent + 2) (level + 1) p fields
      let output := limited l (withGaps 0 length shownItems) ++ shownFields
      (together l indent (p.reached - level) (p.label id) "[" "]" (arranged l indent length items) output, p)
  | .record id maker fields =>
    let opening := if maker = some "Object" then "\x7b" else words (recordWord maker) "\x7b"
    if fields.isEmpty then (opening ++ "\x7d", p)
    else if l.levels < level then (s!"[{makerText maker}]", p)
    else
      let (output, p) := shownFields l (indent + 2) (level + 1) { p with reached := level } fields
      (together l indent (p.reached - level) (p.label id) opening "\x7d" (fun parts => parts) output, p)
  | .table id entries =>
    let opening := s!"Map({entries.length}) \x7b"
    if entries.isEmpty then (opening ++ "\x7d", p)
    else if l.levels < level then ("[Map]", p)
    else
      let (output, p) :=
        shownEntries l (indent + 2) (level + 1) { p with reached := level } entries
      (together l indent (p.reached - level) (p.label id) opening "\x7d" (fun parts => parts) output, p)
  | .function id name fields =>
    let word := if name = "" then "[Function (anonymous)]" else s!"[Function: {name}]"
    if fields.isEmpty then (word, p)
    else if l.levels < level then ("[Function]", p)
    else
      let (output, p) := shownFields l (indent + 2) (level + 1) { p with reached := level } fields
      (together l indent (p.reached - level) (words (p.label id) word) "\x7b" "\x7d" (fun parts => parts)
        output, p)
where
  /-- What stands before the parts of a record. -/
  recordWord (maker : Option String) : String :=
    match maker with
    | some maker => maker
    | none => "[Object: null prototype]"

/-- The texts of the items of a list. -/
def shownItems (l : Look) (indent level : Nat) (p : Progress) :
    List (Nat × Exhibit) → List (Nat × String) × Progress
  | [] => ([], p)
  | (i, x) :: rest =>
    let (s, p) := shown l indent level p x
    let (ss, p) := shownItems l indent level p rest
    ((i, s) :: ss, p)

/-- The texts of the fields of a record. -/
def shownFields (l : Look) (indent level : Nat) (p : Progress) :
    List (String × Exhibit) → List String × Progress
  | [] => ([], p)
  | (name, x) :: rest =>
    let (s, p) := shown l indent level p x
    let (ss, p) := shownFields l indent level p rest
    (s!"{fieldName name}: {s}" :: ss, p)

/-- The texts of the entries of a table. -/
def shownEntries (l : Look) (indent level : Nat) (p : Progress) :
    List (Exhibit × Exhibit) → List String × Progress
  | [] => ([], p)
  | (k, x) :: rest =>
    let (key, p) := shown l indent level p k
    let (s, p) := shown l indent level p x
    let (ss, p) := shownEntries l indent level p rest
    (s!"{key} => {s}" :: ss, p)

end

/-- **The text of a thing.** -/
def render (l : Look) (x : Exhibit) : String := (shown l 0 0 ⟨[], 0⟩ x).1

end Exhibit

namespace Look

/-- The usual look, with so many levels. -/
def within (levels : Nat) : Look := ⟨levels, 100, 80⟩

/-- The usual look. -/
def usual : Look := within 2

end Look

end ConfGraph
