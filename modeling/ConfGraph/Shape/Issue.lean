/-!
# Issues

What is wrong with a value, and where.  An issue has a path, the names and positions that lead to
the place, and a cause.  Some causes *abort*: they say that the value is of another kind
altogether.  The others only say that a value of the right kind is out of range; choosing between
alternatives turns on the difference.

* `Cause.message`: the wording of each cause.
* `Issue.text`, `Issue.report`: one issue, and several in one line.
-/

namespace ConfGraph

/-- What is wrong with a value. -/
inductive Cause where
  /-- A value of another kind than expected. -/
  | kind (expected received : String)
  /-- A text with too few characters. -/
  | shortText (least : Nat)
  /-- A list with too few items. -/
  | fewItems (least : Nat)
  /-- A list with too many items. -/
  | manyItems (most : Nat)
  /-- Something with a length, neither text nor list, whose length is too small. -/
  | shortLength (least : Nat)
  /-- A number that is not above a bound. -/
  | notAbove (bound : Nat)
  /-- A whole number beyond those that doubles tell apart. -/
  | aboveExact
  /-- A whole number below those that doubles tell apart. -/
  | belowExact
  /-- A record with an empty name. -/
  | emptyName
  /-- A tag that names none of the alternatives. -/
  | unknownTag (tags : List String)
  /-- Names that the record must not have. -/
  | extraNames (names : List String)
  /-- A word outside a fixed list. -/
  | unknownWord (words : List String)
  /-- A value that fits none of several alternatives. -/
  | noAlternative
  /-- Something with a length that cannot be compared with a number; the whole reading ends with it. -/
  | incomparable
deriving DecidableEq, Repr

namespace Cause

/-- The largest whole number below which doubles tell all whole numbers apart. -/
def exactBound : Nat := 9007199254740991

/-- Pieces of text with a separator between them. -/
def separated (sep : String) (pieces : List String) : String := String.intercalate sep pieces

/-- The wording of a cause. -/
def message : Cause → String
  | kind expected received => s!"Invalid input: expected {expected}, received {received}"
  | shortText least => s!"Too small: expected string to have >={least} characters"
  | fewItems least => s!"Too small: expected array to have >={least} items"
  | manyItems most => s!"Too big: expected array to have <={most} items"
  | shortLength least => s!"Too small: expected unknown to be >={least}"
  | notAbove bound => s!"Too small: expected number to be >{bound}"
  | aboveExact => s!"Too big: expected int to be <={exactBound}"
  | belowExact => s!"Too small: expected int to be >=-{exactBound}"
  | emptyName => "Invalid key in record"
  | unknownTag tags =>
    "Invalid discriminator value. Expected " ++ separated " | " (tags.map fun t => s!"'{t}'")
  | extraNames [name] => s!"Unrecognized key: \"{name}\""
  | extraNames names =>
    "Unrecognized keys: " ++ separated ", " (names.map fun n => s!"\"{n}\"")
  | unknownWord words =>
    "Invalid option: expected one of " ++ separated "|" (words.map fun w => s!"\"{w}\"")
  | noAlternative => "Invalid input"
  | incomparable => "Cannot convert object to primitive value"

/-- Whether a cause says that the value is of another kind altogether. -/
def aborts : Cause → Bool
  | kind .. | emptyName | unknownTag _ | unknownWord _ | noAlternative | incomparable => true
  | _ => false

end Cause

/-- A cause and the path to its place. -/
structure Issue where
  path : List String
  cause : Cause
deriving DecidableEq, Repr

namespace Issue

/-- An issue seen from one level further out. -/
def under (name : String) (i : Issue) : Issue := { i with path := name :: i.path }

/-- A path and a message as one text; an empty path leaves no trace. -/
def located (path : List String) (message : String) : String :=
  let place := Cause.separated "." path
  if place.isEmpty then message else s!"{place}: {message}"

/-- One issue as text. -/
def text (i : Issue) : String := located i.path i.cause.message

/-- Several issues in one line. -/
def report (is : List Issue) : String := Cause.separated "; " (is.map text)

/-- Whether one of the issues aborts. -/
def anyAborts (is : List Issue) : Bool := is.any fun i => i.cause.aborts

/-- Whether one of the issues ends the whole reading, so that none of them is reported. -/
def anyEnds (is : List Issue) : Bool := is.any fun i => i.cause == .incomparable

end Issue

end ConfGraph
