import ConfGraph.Script.Token

/-!
# Passing over words

What stands before the first statement of a script is passed over word by word.  What a word may mean
depends on what stands before it, and on what encloses it: whether a slash divides, whether a brace
opens a block or a record, whether the end of a line ends a statement, and whether a quoted text is a
directive, which it is only as a whole statement that nothing but directives stands before.

Only code that does nothing is passed over.  Code that calls something, writes to something or declares
something is ill formed here, unless it is the body of a function that nobody calls; what is only read
is taken to be there.

* `Before`, `Enclosure`: what stands before a position, and what encloses it.
* `Outlook`: all that is known at a position.
* `Outlook.acts`: words that do something.
* `word?`: passes over one word.
-/

namespace ConfGraph.Script

/-! ## 1. Positions -/

/-- What stands before a position. -/
inductive Before where
  /-- The end of a statement, so that one may start. -/
  | statement
  /-- Something after which a value may come. -/
  | opening
  /-- Something after which a value must come. -/
  | operator
  /-- What separates two values or statements of one list. -/
  | comma
  /-- A value. -/
  | value
  /-- A name that is a value, or tells how the next name is meant. -/
  | soft
  /-- Something after which the name of a field comes. -/
  | member
  /-- The arrow of a function. -/
  | arrow
  /-- The start of an entry of a record, or what tells how its name is meant. -/
  | key
deriving DecidableEq, Repr

/-- Whether a value has just ended. -/
def Before.isValue : Before → Bool
  | value | soft => true
  | _ => false

/-- A word whose sense shows at the next opening mark. -/
inductive Pending where
  /-- A condition is to come, then a statement. -/
  | control
  /-- A block is to come, perhaps after something in parentheses. -/
  | block
  /-- The body of a function is to come. -/
  | function (isStatement : Bool)
  /-- The members of a class are to come. -/
  | members (isStatement : Bool)
deriving DecidableEq, Repr

/-- What an opening mark encloses. -/
inductive Enclosure where
  /-- Statements that make up one. -/
  | block
  /-- The statements of a function, which is a statement or a value. -/
  | body (isStatement : Bool)
  /-- The entries of a record. -/
  | fields
  /-- The members of a class, which is a statement or a value. -/
  | members (isStatement : Bool)
  /-- Code inside a text in backquotes. -/
  | inset
  | parens
  /-- The condition of a statement. -/
  | condition
  | brackets
deriving DecidableEq, Repr

/-- Whether statements are enclosed. -/
def Enclosure.holdsStatements : Enclosure → Bool
  | block | body _ => true
  | _ => false

/-- Whether names with what they stand for are enclosed. -/
def Enclosure.holdsNames : Enclosure → Bool
  | fields | members _ => true
  | _ => false

/-- How far the directives at the start of a script may reach. -/
inductive Prologue where
  /-- Only directives stand before. -/
  | started
  /-- A quoted text stands before, which is a directive if the statement ends here. -/
  | told (isStrict : Bool)
  | over
deriving DecidableEq, Repr

/-- An opening mark, with what was known at it. -/
structure Opened where
  enclosure : Enclosure
  pending : Option Pending
  questions : Nat

/-- What is known at a position of a script. -/
structure Outlook where
  before : Before
  /-- Nothing but blanks and comments stand before on the line. -/
  atLineStart : Bool
  prologue : Prologue
  /-- A directive forbids to write what cannot be written. -/
  isStrict : Bool
  /-- Something of an old form stands before, which goes with no such directive. -/
  hasOld : Bool
  /-- A word whose sense is still to show. -/
  pending : Option Pending
  /-- How many colons are to come for the question marks before. -/
  questions : Nat
  /-- What encloses the position, the innermost first. -/
  opened : List Opened

namespace Outlook

/-- At the start of a script, which may have a line of its own or not. -/
def start (ownLine : Bool) : Outlook :=
  ⟨.statement, ownLine, .started, false, false, none, 0, []⟩

/-- What encloses a position; the whole script holds statements. -/
def enclosure (o : Outlook) : Enclosure := (o.opened.head?.map (·.enclosure)).getD .block

/-- Whether nothing encloses a position. -/
def isOutermost (o : Outlook) : Bool := o.opened.isEmpty

/-! ## 2. Steps -/

/-- After a word. -/
def onto (o : Outlook) (b : Before) : Outlook := { o with before := b, atLineStart := false }

/-- Where a statement ends.  A quoted text that is all of it is a directive, after which others may
come. -/
def ended (o : Outlook) : Outlook :=
  let o := { o with before := .statement, pending := none, questions := 0 }
  match o.prologue with
  | .told isStrict => { o with prologue := .started, isStrict := o.isStrict || isStrict }
  | _ => { o with prologue := .over }

/-- Where a value or another part of a statement starts.  After a value on another line, a statement
starts; on the same line, nothing can. -/
def starting? (o : Outlook) : Option Outlook :=
  match o.before with
  | .statement | .opening | .operator | .comma | .arrow => some o
  | .soft => if o.atLineStart && o.enclosure.holdsStatements then some o.ended else some o
  | .value => if o.atLineStart && o.enclosure.holdsStatements then some o.ended else none
  | .member | .key => none

/-- After a word that ends the hope for a directive. -/
def plainly (o : Outlook) (b : Before) : Outlook := { o.onto b with prologue := .over }

/-- A value, or the start of one. -/
def value? (o : Outlook) (b : Before) : Option Outlook := o.starting?.map (·.plainly b)

/-- A word after which something is to show. -/
def expecting? (o : Outlook) (b : Before) (p : Bool → Pending) : Option Outlook :=
  o.starting?.map fun o => { o.plainly b with pending := some (p (o.before == .statement)) }

/-- Opens an enclosure. -/
def enter (o : Outlook) (e : Enclosure) (b : Before) (pending : Option Pending) : Outlook :=
  { o.plainly b with
    pending := none, questions := 0, opened := ⟨e, pending, o.questions⟩ :: o.opened }

/-- Closes an enclosure. -/
def leave (o : Outlook) (b : Before) : Outlook :=
  match o.opened with
  | [] => o
  | top :: rest =>
    { o.plainly b with pending := top.pending, questions := top.questions, opened := rest }

/-! ## 3. Names -/

/-- Words that stand before a value. -/
def unaryWords : List String :=
  ["typeof", "void", "delete", "new", "throw", "case", "await", "var", "const"]

/-- Words that no expression and no statement of a script starts with. -/
def wrongWords : List String := ["enum", "export"]

/-- Names that may tell how the next name is meant. -/
def softNames : List String :=
  ["async", "let", "yield", "break", "continue", "import"]

/-- Passes over a name that is no name of a field. -/
def name? (o : Outlook) (w : String) : Option Outlook :=
  if w = "in" || w = "instanceof" || (w = "of" && o.enclosure == .condition) then
    if o.before.isValue then some (o.plainly .operator) else none
  else if w = "extends" then
    match o.before.isValue, o.pending with
    | true, some (.members _) => some (o.plainly .operator)
    | _, _ => none
  else if wrongWords.contains w then none
  else if w = "return" then if o.isOutermost then none else o.value? .opening
  else if w = "await" && o.opened.all (·.enclosure != .body false) then o.value? .soft
  else if unaryWords.contains w then o.value? .operator
  else if w = "else" || w = "do" then o.value? .statement
  else if w = "if" || w = "while" || w = "for" || w = "with" then
    o.expecting? .opening fun _ => .control
  else if w = "try" || w = "finally" || w = "catch" || w = "switch" then
    o.expecting? .value fun _ => .block
  else if w = "function" then o.expecting? .soft .function
  else if w = "class" then o.expecting? .soft .members
  else if softNames.contains w then o.value? .soft
  else o.value? .value

/-! ## 4. Marks -/

/-- Passes over an opening brace. -/
def brace? (o : Outlook) : Option Outlook :=
  match o.before, o.pending with
  | .statement, _ => some (o.enter .block .statement none)
  | .arrow, _ => some (o.enter (.body false) .statement none)
  | .value, some .block | .soft, some .block => some (o.enter .block .statement none)
  | .value, some (.function s) | .soft, some (.function s) =>
    some (o.enter (.body s) .statement none)
  | .value, some (.members s) | .soft, some (.members s) =>
    some (o.enter (.members s) .key none)
  | .value, _ | .soft, _ =>
    if o.enclosure.holdsNames then some (o.enter (.body false) .statement none)
    else if o.atLineStart && o.enclosure.holdsStatements then
      some (o.ended.enter .block .statement none)
    else none
  | .opening, p | .operator, p | .comma, p => some (o.enter .fields .key p)
  | .member, _ | .key, _ => none

/-- Whether a list may end at a position. -/
def mayClose (o : Outlook) : Bool :=
  match o.before with
  | .operator | .member | .arrow => false
  | _ => true

/-- Passes over a closing brace. -/
def unbrace? (o : Outlook) : Option Outlook :=
  match o.enclosure, o.mayClose && !o.isOutermost with
  | .block, true | .body true, true | .members true, true => some (o.leave .statement)
  | .body false, true =>
    let o := o.leave .value
    some (match o.enclosure with
      | .members _ => { o with before := .key }
      | _ => o)
  | .fields, true | .members false, true => some (o.leave .value)
  | _, _ => none

/-- Passes over what closes parentheses or brackets. -/
def close? (o : Outlook) (isParen : Bool) : Option Outlook :=
  match o.enclosure, o.mayClose, isParen with
  | .parens, true, true | .brackets, true, false => some (o.leave .value)
  | .condition, true, true => some { o.leave .statement with pending := none }
  | _, _, _ => none

/-- Passes over an opening parenthesis. -/
def paren? (o : Outlook) : Option Outlook :=
  match o.pending, o.before with
  | some .control, _ => some (o.enter .condition .opening none)
  | _, .member => none
  | p, _ => some (o.enter .parens .opening p)

/-- Passes over a semicolon. -/
def semicolon? (o : Outlook) : Option Outlook :=
  match o.enclosure, o.before with
  | _, .operator | _, .member | _, .arrow => none
  | .condition, _ => some (o.onto .opening)
  | .members _, _ => some (o.onto .key)
  | .block, _ | .body _, _ => some { o.ended with atLineStart := false }
  | _, _ => none

/-- Passes over a colon. -/
def colon? (o : Outlook) : Option Outlook :=
  if !o.before.isValue then none
  else if o.questions > 0 then some { o.plainly .operator with questions := o.questions - 1 }
  else
    match o.enclosure with
    | .fields => some (o.plainly .operator)
    | .block | .body _ => some (o.plainly .statement)
    | _ => none

/-- Passes over what stands between two values. -/
def joint? (o : Outlook) : Option Outlook :=
  match o.before, o.enclosure with
  | .key, _ => some o
  | .value, _ => some (o.plainly .operator)
  | .soft, _ => some (o.plainly .operator)
  | _, _ => none

/-- Passes over a comma. -/
def comma? (o : Outlook) : Option Outlook :=
  match o.before, o.enclosure with
  | .operator, _ | .member, _ | .arrow, _ | .key, _ => none
  | _, .fields => some (o.plainly .key)
  | _, _ => some (o.plainly .comma)

/-- Passes over a mark. -/
def mark? (o : Outlook) : Mark → Option Outlook
  | .openParen => o.paren?
  | .closeParen => o.close? true
  | .openBracket => some (o.enter .brackets .opening o.pending)
  | .closeBracket => o.close? false
  | .openBrace => o.brace?
  | .closeBrace => o.unbrace?
  | .semicolon => o.semicolon?
  | .comma => o.comma?
  | .colon => o.colon?
  | .question =>
    if o.before.isValue then some { o.plainly .operator with questions := o.questions + 1 }
    else none
  | .dot => if o.before.isValue then some (o.plainly .member) else none
  | .spread => some (o.plainly .operator)
  | .arrow => if o.before.isValue then some (o.plainly .arrow) else none
  | .step =>
    if o.before.isValue && !o.atLineStart then some (o.plainly .value) else o.value? .operator
  | .sign => o.value? .operator
  | .operator => if o.before.isValue then some (o.plainly .operator) else o.value? .operator
  | .joint | .assign => o.joint?

/-! ## 5. Code that does something -/

/-- Whether a name at a position is that of a field. -/
def namesField (o : Outlook) : Bool :=
  match o.before with
  | .member => true
  | .key | .soft => o.enclosure.holdsNames
  | _ => false

/-- Whether a position is in the body of a function that nobody calls: what is part of something
might be called by its name. -/
def isIdle (o : Outlook) : Bool :=
  (o.opened.any fun e => e.enclosure == .body false || e.enclosure == .body true) &&
    o.opened.all fun e => !e.enclosure.holdsNames

/-- Words that do something, declare something or choose what to do. -/
def actingWords : List String :=
  ["await", "const", "debugger", "delete", "do", "for", "if", "import", "let", "new", "switch",
    "throw", "try", "var", "while", "with"]

/-- Whether a name does something where it stands. -/
def nameActs (o : Outlook) (w : String) : Bool :=
  !o.namesField && (actingWords.contains w ||
    ((w == "function" || w == "class") && o.enclosure.holdsStatements &&
      (o.before == .statement || o.before.isValue)))

/-- Whether an opening parenthesis calls what stands before: that is neither something that the
parameters of a function follow, nor the name of a part of something. -/
def calls (o : Outlook) : Bool :=
  o.before == .value &&
    match o.pending with
    | none | some (.members _) => true
    | _ => false

/-- **Whether a word does something where it stands**: it calls, writes or declares. -/
def acts (o : Outlook) : Token → Bool
  | .name w => o.nameActs w
  | .mark .openParen => o.calls
  | .mark .step => true
  | .mark .assign =>
    match o.enclosure with
    | .members _ => false
    | _ => true
  | .backquoted _ => o.before.isValue
  | _ => false

/-! ## 6. Words -/

/-- Passes over a name, which may be that of a field. -/
def anyName? (o : Outlook) (w : String) : Option Outlook :=
  match o.before, o.enclosure.holdsNames with
  | .member, _ => some (o.plainly .value)
  | .key, true | .soft, true => some (o.plainly .soft)
  | _, _ => o.name? w

/-- Whether the members of a class enclose a position. -/
def isInClass (o : Outlook) : Bool :=
  o.opened.any fun e => match e.enclosure with
    | .members _ => true
    | _ => false

/-- Passes over a name that only the members of a class see. -/
def privateName? (o : Outlook) : Option Outlook :=
  if !o.isInClass then none
  else
    match o.before, o.enclosure with
    | .member, _ => some (o.plainly .value)
    | .key, .members _ | .soft, .members _ => some (o.plainly .soft)
    | _, _ => o.value? .value

/-- Passes over a quoted text, which may be all of a statement. -/
def quoted? (o : Outlook) (content : List Char) : Option Outlook :=
  match o.before, o.enclosure.holdsNames with
  | .key, true | .soft, true => some (o.plainly .value)
  | _, _ =>
    o.starting?.map fun o =>
      if o.before == .statement && o.prologue == .started then
        { o.onto .value with prologue := .told (content == "use strict".toList) }
      else o.plainly .value

/-- Passes over a word. -/
def past? (o : Outlook) : Token → Option Outlook
  | .blank => some o
  | .lineEnd => some { o with atLineStart := true }
  | .name w => o.anyName? w
  | .privateName => o.privateName?
  | .number isOld =>
    let o := { o with hasOld := o.hasOld || isOld }
    if o.before == .key then some (o.plainly .value) else o.value? .value
  | .quoted content isOld => ({ o with hasOld := o.hasOld || isOld }).quoted? content
  | .pattern => o.value? .value
  | .backquoted hasCode =>
    let o := if o.before.isValue then o else { o with before := .value }
    some (if hasCode then o.enter .inset .opening o.pending else o.plainly .value)
  | .mark m => o.mark? m

end Outlook

/-- **Passes over one word.**  `none` if it cannot stand where it stands, or does not end, or if it does
something outside functions that nobody calls.  The brace that ends code inside a text in backquotes
goes on with that text. -/
def word? (o : Outlook) (cs : List Char) : Option (Outlook × List Char) :=
  match o.enclosure, cs with
  | .inset, '\x7d' :: rest =>
    match backquoteEnd? rest with
    | none => none
    | some (hasCode, rest) =>
      if o.mayClose then
        let o := o.leave .value
        some (if hasCode then o.enter .inset .opening o.pending else o, rest)
      else none
  | _, _ =>
    match token? o.before.isValue o.atLineStart cs with
    | none => none
    | some (t, rest) =>
      if o.acts t && !o.isIdle then none else (o.past? t).map fun o => (o, rest)

/-! ## 7. Where statements follow -/

/-- Whether a script may end at a position. -/
def Outlook.mayEnd (o : Outlook) : Bool :=
  o.isOutermost && o.pending.isNone && o.mayClose && o.before != .comma &&
    !(o.ended.isStrict && o.hasOld)

/-- Whether a statement may start at a position, as one of the script. -/
def Outlook.mayStart (o : Outlook) : Bool :=
  o.isOutermost && o.pending.isNone &&
    (o.before == .statement || (o.before == .value && o.atLineStart))

/-- What is known where statements follow on a position.  They start as statements, or go on with
what stands before if that asks for more.  A directive that comes to hold here holds for all that
stands before. -/
def Outlook.following? (o : Outlook) : Option Outlook :=
  if !o.isOutermost || o.pending.isSome then none
  else
    (match o.before with
    | .statement | .comma | .operator => some o
    | .value | .soft => if o.atLineStart then some o.ended else none
    | _ => none).filter fun o => !(o.isStrict && o.hasOld)

end ConfGraph.Script
