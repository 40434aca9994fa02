import ConfGraph.Text.Blank

/-!
# Identifiers

The names that scripts may use: an ASCII letter, underscore or dollar sign, followed by those and
digits.  A segment of a dotted name may also hold hyphens after its first character.

* `isIdentifier`: a name.
* `isSegment`, `isDotted`: a segment, and segments joined by dots.
-/

namespace ConfGraph.Text

/-- What a name may start with. -/
def startsName (c : Char) : Bool :=
  ('a' ≤ c && c ≤ 'z') || ('A' ≤ c && c ≤ 'Z') || c == '_' || c == '$'

/-- What may follow in a name. -/
def continuesName (c : Char) : Bool := startsName c || ('0' ≤ c && c ≤ '9')

/-- What may follow in a segment of a dotted name. -/
def continuesSegment (c : Char) : Bool := continuesName c || c == '-'

/-- Whether a text is a name. -/
def isIdentifier (cs : List Char) : Bool :=
  match cs with
  | [] => false
  | c :: rest => startsName c && rest.all continuesName

/-- Whether a text is a segment of a dotted name. -/
def isSegment (cs : List Char) : Bool :=
  match cs with
  | [] => false
  | c :: rest => startsName c && rest.all continuesSegment

/-- The parts of a text between occurrences of a character. -/
def splitAt (sep : Char) : List Char → List (List Char)
  | [] => [[]]
  | c :: rest =>
    if c = sep then [] :: splitAt sep rest
    else
      match splitAt sep rest with
      | [] => [[c]]
      | p :: ps => (c :: p) :: ps

/-- Whether a text is made of segments joined by dots. -/
def isDotted (cs : List Char) : Bool := (splitAt '.' cs).all isSegment

end ConfGraph.Text
