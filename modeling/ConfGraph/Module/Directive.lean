import ConfGraph.Text.Blank

/-!
# The directive of config modules

A config module opens with the text `use config` in quotes.  Before it there may be white space,
line comments and block comments.  A block comment ends at *some* `*/` after its start, not
necessarily the first: a text is accepted if one choice of ends leads to the directive.

* `isConfig`: whether a source opens with the directive.
* `Outlook`: what is known of the text from one position on, computed from the end backwards.
-/

namespace ConfGraph.Module

/-- The directive in single quotes. -/
def singleQuoted : List Char := "'use config'".toList

/-- The directive in double quotes. -/
def doubleQuoted : List Char := "\"use config\"".toList

/-- Whether a text starts with the directive. -/
def startsWithDirective (cs : List Char) : Bool :=
  singleQuoted.isPrefixOf cs || doubleQuoted.isPrefixOf cs

/-- What is known of the text from one position on. -/
structure Outlook where
  /-- The directive is reached from here. -/
  here : Bool
  /-- The directive is reached after some end of a block comment. -/
  afterBlock : Bool
  /-- The directive is reached after the end of the line. -/
  afterLine : Bool

/-- Nothing is reached from the end. -/
def Outlook.atEnd : Outlook := ⟨false, false, false⟩

/-- What is known of a text that starts with a character, from what is known of the text after one
and after two characters. -/
def Outlook.extend (c : Char) (rest : List Char) (next second : Outlook) : Outlook where
  here :=
    startsWithDirective (c :: rest)
    || (Text.isBlank c && next.here)
    || (c == '/' && rest.head? == some '/' && second.afterLine)
    || (c == '/' && rest.head? == some '*' && second.afterBlock)
  afterBlock := (c == '*' && rest.head? == some '/' && second.here) || next.afterBlock
  afterLine := if c == '\n' then next.here else next.afterLine

/-- What is known of a text, and of the text after its first character. -/
def outlooks : List Char → Outlook × Outlook
  | [] => (.atEnd, .atEnd)
  | c :: rest =>
    let (next, second) := outlooks rest
    (.extend c rest next second, next)

/-- Whether a source opens with the directive. -/
def isConfig (source : String) : Bool := (outlooks source.toList).1.here

end ConfGraph.Module
