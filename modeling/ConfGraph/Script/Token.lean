import ConfGraph.Text.Blank
import ConfGraph.Text.Identifier

/-!
# The words of scripts

The text of a script is a sequence of words: blanks, comments, quoted texts, texts in backquotes with
code inside, patterns between slashes, numbers, names and marks.  A word that does not end makes the
script ill formed.

Two readings depend on what stands before: whether a slash divides or opens a pattern, and whether an
arrow opens a comment, which it does as the first word of its line.

* `Token`: one word.
* `isOldNumber?`, `isOldQuoted?`: which numbers and quoted texts are well formed, and which of them have
  a form of old that strict scripts do not allow.
* `token?`: the first word of a text, and the rest.
-/

namespace ConfGraph.Script

/-- A mark, by what it does. -/
inductive Mark where
  | openParen
  | closeParen
  | openBracket
  | closeBracket
  | openBrace
  | closeBrace
  | semicolon
  | comma
  | colon
  | question
  /-- What stands before the name of a field. -/
  | dot
  | spread
  | arrow
  /-- Adds one or takes one away, before or after a value. -/
  | step
  /-- Stands before a value. -/
  | sign
  /-- Stands between two values, or before one. -/
  | operator
  /-- Stands between two values. -/
  | joint
  /-- Stands between a place and what is written to it. -/
  | assign
deriving DecidableEq, Repr

/-- One word. -/
inductive Token where
  | blank
  /-- The end of a line, or a comment with one inside. -/
  | lineEnd
  | name (w : String)
  /-- A name that only the members of a class see. -/
  | privateName
  /-- A number; one that starts with nought and a digit is of the old form. -/
  | number (isOld : Bool)
  /-- A quoted text; one that names a character by digits is of the old form. -/
  | quoted (content : List Char) (isOld : Bool)
  | pattern
  /-- A text in backquotes, or its first part up to code inside it. -/
  | backquoted (hasCode : Bool)
  | mark (m : Mark)

/-! ## 1. Words with an end of their own -/

/-- What stands before the end of the line, and the rest. -/
def toLineEnd (cs : List Char) : List Char × List Char :=
  cs.span fun c => !Text.isLineEnd c

/-- The content of a block comment, and the rest. -/
def blockEnd? : List Char → Option (List Char × List Char)
  | [] => none
  | '*' :: '/' :: rest => some ([], rest)
  | c :: rest => (blockEnd? rest).map fun r => (c :: r.1, r.2)

/-- The content of a quoted text up to its mark, and the rest.  A line ends inside it only after a
backslash. -/
def quoteEnd? (quote : Char) : List Char → Option (List Char × List Char)
  | [] => none
  | '\\' :: '\r' :: '\n' :: rest => (quoteEnd? quote rest).map fun r => ('\\' :: '\n' :: r.1, r.2)
  | '\\' :: c :: rest => (quoteEnd? quote rest).map fun r => ('\\' :: c :: r.1, r.2)
  | c :: rest =>
    if c = quote then some ([], rest)
    else if c = '\n' || c = '\r' then none
    else (quoteEnd? quote rest).map fun r => (c :: r.1, r.2)

/-- The rest after a pattern up to its flags; a slash in brackets does not end it. -/
def patternEnd? (inBrackets : Bool) : List Char → Option (List Char)
  | [] => none
  | '\\' :: c :: rest => if Text.isLineEnd c then none else patternEnd? inBrackets rest
  | c :: rest =>
    if Text.isLineEnd c then none
    else if c = '/' && !inBrackets then some rest
    else patternEnd? (if c = '[' then true else if c = ']' then false else inBrackets) rest

/-- The rest after a text in backquotes or up to code inside it, which the answer tells. -/
def backquoteEnd? : List Char → Option (Bool × List Char)
  | [] => none
  | '\\' :: _ :: rest => backquoteEnd? rest
  | '$' :: '\x7b' :: rest => some (true, rest)
  | c :: rest => if c = '\x60' then some (false, rest) else backquoteEnd? rest

/-! ## 2. Names and numbers -/

/-- What a name in a script is made of, beside digits. -/
def isNameChar (c : Char) : Bool :=
  Text.continuesName c || c == '\\' || (c.toNat ≥ 128 && !Text.isBlank c)

/-- The rest after the digits and letters of a number, which may hold a point unless they start
with a letter after nought, and a sign after the letter of a power of ten. -/
def numberRest (mayPoint : Bool) : List Char → List Char
  | [] => []
  | c :: rest =>
    if (c = 'e' || c = 'E') && mayPoint && (rest.head? == some '+' || rest.head? == some '-') then
      afterSign rest
    else if Text.continuesName c then
      numberRest (mayPoint && !(c.isAlpha && c != 'e' && c != 'E')) rest
    else if c = '.' && mayPoint then digitsRest rest
    else c :: rest
where
  /-- The rest after the sign and the digits of a power of ten. -/
  afterSign : List Char → List Char
    | [] => []
    | _ :: rest => rest.dropWhile Text.continuesName
  /-- The rest after the digits behind the point. -/
  digitsRest : List Char → List Char
    | [] => []
    | c :: rest =>
      if (c = 'e' || c = 'E') && (rest.head? == some '+' || rest.head? == some '-') then
        afterSign rest
      else if Text.continuesName c then digitsRest rest
      else c :: rest

/-! ## 3. The forms of numbers -/

/-- Whether digits are in groups, with a low line between two of them. -/
def areGroups (isDigit : Char → Bool) : List Char → Bool
  | [] => false
  | [c] => isDigit c
  | c :: '_' :: rest => isDigit c && areGroups isDigit rest
  | c :: rest => isDigit c && areGroups isDigit rest

/-- Whether a text is a digit of a number of another base than ten. -/
def isDigitOf (base : Nat) (c : Char) : Bool :=
  if base = 16 then c.isDigit || ('a' ≤ c && c ≤ 'f') || ('A' ≤ c && c ≤ 'F')
  else '0' ≤ c && c.toNat < '0'.toNat + base

/-- Whether a text is the power of ten of a number, or empty. -/
def isPower : List Char → Bool
  | [] => true
  | c :: rest =>
    (c = 'e' || c = 'E') &&
      areGroups Char.isDigit
        (if rest.head? == some '+' || rest.head? == some '-' then rest.tail else rest)

/-- Whether a text is what may stand behind the digits of a number. -/
def isNumberTail : List Char → Bool
  | ['n'] => true
  | '.' :: rest =>
    let (digits, power) := rest.span fun c => c.isDigit || c = '_'
    (digits.isEmpty || areGroups Char.isDigit digits) && isPower power
  | rest => isPower rest

/-- Whether a well formed number is of the old form; `none` if the text is no number. -/
def isOldNumber? (cs : List Char) : Option Bool :=
  let based (base : Nat) (rest : List Char) : Option Bool :=
    let digits := if rest.getLast? == some 'n' then rest.dropLast else rest
    if areGroups (isDigitOf base) digits then some false else none
  match cs with
  | '0' :: 'x' :: rest | '0' :: 'X' :: rest => based 16 rest
  | '0' :: 'o' :: rest | '0' :: 'O' :: rest => based 8 rest
  | '0' :: 'b' :: rest | '0' :: 'B' :: rest => based 2 rest
  | '.' :: _ => if isNumberTail cs then some false else none
  | _ =>
    let (digits, tail) := cs.span fun c => c.isDigit || c = '_'
    if digits.head? == some '0' && digits.length > 1 then
      if digits.all Char.isDigit && tail != ['n'] &&
          (tail.isEmpty || !digits.all (isDigitOf 8)) && isNumberTail tail then some true
      else none
    else if areGroups Char.isDigit digits && isNumberTail tail then some false
    else none

/-- A number and the rest, where the number is told by the rest. -/
def number? (cs rest : List Char) : Option (Token × List Char) :=
  (isOldNumber? (cs.take (cs.length - rest.length))).map fun isOld => (.number isOld, rest)

/-! ## 4. Characters by their codes -/

/-- The rest after the code of a character up to a closing brace, which names one. -/
def bracedCode? (code : Nat) : List Char → Option (List Char)
  | [] => none
  | '\x7d' :: rest => if code ≤ 0x10ffff then some rest else none
  | c :: rest =>
    if isDigitOf 16 c then bracedCode? (min (code * 16 + hexValue c) 0x110000) rest else none
where
  /-- What a digit of base sixteen stands for. -/
  hexValue (c : Char) : Nat :=
    if c.isDigit then c.toNat - 48 else if 'a' ≤ c then c.toNat - 87 else c.toNat - 55

/-- Whether well formed content of a quoted text is of the old form; `none` if it names characters
in a way that is none. -/
def isOldQuoted? : List Char → Option Bool
  | [] => some false
  | '\\' :: 'x' :: a :: b :: rest =>
    if isDigitOf 16 a && isDigitOf 16 b then isOldQuoted? rest else none
  | ['\\', 'x'] | ['\\', 'x', _] => none
  | '\\' :: 'u' :: '\x7b' :: rest =>
    if rest.head? == some '\x7d' then none
    else if (bracedCode? 0 rest).isSome then isOldQuoted? rest else none
  | '\\' :: 'u' :: a :: b :: c :: d :: rest =>
    if [a, b, c, d].all (isDigitOf 16) then isOldQuoted? rest else none
  | '\\' :: 'u' :: _ => none
  | '\\' :: c :: rest =>
    (isOldQuoted? rest).map fun isOld =>
      isOld || (c.isDigit && (c != '0' || rest.head?.any Char.isDigit))
  | _ :: rest => isOldQuoted? rest

/-- A quoted text up to its mark, and the rest. -/
def quoted? (quote : Char) (cs : List Char) : Option (Token × List Char) := do
  let (content, rest) ← quoteEnd? quote cs
  let isOld ← isOldQuoted? content
  pure (.quoted content isOld, rest)

/-! ## 5. One word -/

/-- The flags that a pattern may have, each at most once. -/
def patternFlags : List Char := "dgimsuvy".toList

/-- Whether the flags of a pattern are well formed. -/
def areFlags : List Char → Bool
  | [] => true
  | c :: rest => patternFlags.contains c && !rest.contains c && areFlags rest

/-- The word of a comment with its content. -/
def commentToken (content : List Char) : Token :=
  if content.any Text.isLineEnd then .lineEnd else .blank

/-- A pattern with its flags, and the rest. -/
def pattern? (cs : List Char) : Option (Token × List Char) :=
  match patternEnd? false cs with
  | none => none
  | some rest =>
    let (flags, rest) := rest.span isNameChar
    if areFlags flags && !(flags.contains 'u' && flags.contains 'v') then some (.pattern, rest)
    else none

/-- The first word of a text that starts with a point or a question mark. -/
def pointed? (cs : List Char) : Option (Token × List Char) :=
  match cs with
  | '.' :: '.' :: '.' :: rest => some (.mark .spread, rest)
  | '?' :: '?' :: '=' :: rest => some (.mark .assign, rest)
  | '?' :: '?' :: rest => some (.mark .joint, rest)
  | '.' :: c :: rest =>
    if c.isDigit then number? cs (numberRest.digitsRest rest) else some (.mark .dot, c :: rest)
  | '?' :: '.' :: c :: rest =>
    some (if c.isDigit then (.mark .question, '.' :: c :: rest) else (.mark .dot, c :: rest))
  | '?' :: rest => some (.mark .question, rest)
  | _ :: rest => some (.mark .dot, rest)
  | [] => none

/-- Marks of several characters between two values, longer ones before those that they start
with. -/
def longMarks : List (List Char × Mark) :=
  ([">>>=", "**=", "<<=", ">>=", "&&=", "||=", "+=", "-=", "*=", "%=", "&=", "|=", "^="].map
    fun mark => (mark.toList, Mark.assign)) ++
  (["===", "!==", ">>>", "==", "!=", "<=", ">=", "**", "<<", ">>", "&&", "||"].map
    fun mark => (mark.toList, Mark.joint))

/-- One of the marks of several characters, and the rest. -/
def longMark? (cs : List Char) : Option (Mark × List Char) :=
  (longMarks.find? (·.1.isPrefixOf cs)).map fun m => (m.2, cs.drop m.1.length)

/-- The mark of a single character. -/
def markOf (c : Char) : Mark :=
  match c with
  | '(' => .openParen
  | ')' => .closeParen
  | '[' => .openBracket
  | ']' => .closeBracket
  | '\x7b' => .openBrace
  | '\x7d' => .closeBrace
  | ';' => .semicolon
  | ',' => .comma
  | ':' => .colon
  | '!' | '~' => .sign
  | '+' | '-' => .operator
  | '=' => .assign
  | _ => .joint

/-- **The first word of a text**, where a slash may divide, and on its line or not.  `none` if it
does not end, or there is none. -/
def token? (divides atLineStart : Bool) : List Char → Option (Token × List Char)
  | [] => none
  | '/' :: '/' :: rest => some (.blank, (toLineEnd rest).2)
  | '/' :: '*' :: rest => (blockEnd? rest).map fun r => (commentToken r.1, r.2)
  | '<' :: '!' :: '-' :: '-' :: rest => some (.blank, (toLineEnd rest).2)
  | '-' :: '-' :: '>' :: rest =>
    if atLineStart then some (.blank, (toLineEnd rest).2) else some (.mark .step, '>' :: rest)
  | '+' :: '+' :: rest | '-' :: '-' :: rest => some (.mark .step, rest)
  | '=' :: '>' :: rest => some (.mark .arrow, rest)
  | '/' :: rest =>
    if !divides then pattern? rest
    else if rest.head? == some '=' then some (.mark .assign, rest.tail)
    else some (.mark .joint, rest)
  | '\'' :: rest => quoted? '\'' rest
  | '"' :: rest => quoted? '"' rest
  | '\x60' :: rest => (backquoteEnd? rest).map fun r => (.backquoted r.1, r.2)
  | '#' :: rest =>
    match rest.span isNameChar with
    | ([], _) => none
    | (c :: _, rest) => if c.isDigit then none else some (.privateName, rest)
  | c :: rest =>
    if Text.isLineEnd c then some (.lineEnd, rest)
    else if Text.isBlank c then some (.blank, rest)
    else if c = '.' || c = '?' then pointed? (c :: rest)
    else if c.isDigit then
      number? (c :: rest) (numberRest (c != '0' || !rest.head?.any fun c => c.isAlpha && c != 'e') rest)
    else if isNameChar c then
      let (name, rest) := (c :: rest).span isNameChar
      some (.name (String.ofList name), rest)
    else
      match longMark? (c :: rest) with
      | some (m, rest) => some (.mark m, rest)
      | none => some (.mark (markOf c), rest)

end ConfGraph.Script
