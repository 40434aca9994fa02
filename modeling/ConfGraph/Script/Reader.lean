import ConfGraph.Fault
import ConfGraph.Script.Layout
import ConfGraph.Script.Lexer
import ConfGraph.Script.Reserved
import ConfGraph.Value.Reader

/-!
# Script text

A statement of a script is written as an at sign and a JSON record, or, if it calls a function with
literals only, as it is.  What stands before the first statement is passed over word by word; what
follows are statements.  Each statement stands for the text that says the same, and its calls have
their places in that text.

* `call?`: a call as it is written.
* `Program.ofText`: the program of a text.
-/

namespace ConfGraph.Script

/-! ## 1. Calls as they are written -/

/-- What of a text stands before a rest of it. -/
def before (cs rest : List Char) : List Char := cs.take (cs.length - rest.length)

/-- A literal that is one word, and the rest. -/
def atom? : List Char → Option (Value × List Char)
  | 'u' :: 'n' :: 'd' :: 'e' :: 'f' :: 'i' :: 'n' :: 'e' :: 'd' :: rest => some (.undefined, rest)
  | 'N' :: 'a' :: 'N' :: rest => some (.num Number.nan, rest)
  | 'I' :: 'n' :: 'f' :: 'i' :: 'n' :: 'i' :: 't' :: 'y' :: rest => some (.num Number.infinity, rest)
  | '-' :: 'I' :: 'n' :: 'f' :: 'i' :: 'n' :: 'i' :: 't' :: 'y' :: rest =>
    some (.num (Number.infinityOf true), rest)
  | cs => Json.atom? cs

/-- Literals with commas between them up to a closing parenthesis, and the rest. -/
def literals? (cs : List Char) : Option (List Value × List Char) :=
  match Json.skip cs with
  | ')' :: rest => some ([], rest)
  | rest => Json.readItems? atom? (rest.length + 1) ')' rest

/-- **A call of a function by its name**, with literals for arguments, as it is written; and the
rest. -/
def call? (cs : List Char) : Option (Stmt × List Char) :=
  let (name, rest) := cs.span Text.continuesName
  match Text.isIdentifier name, rest with
  | true, '(' :: rest =>
    match literals? rest with
    | some (args, ';' :: rest) => some (.call (String.ofList name) (Expr.literals args), rest)
    | _ => none
  | _, _ => none

/-! ## 2. Statements -/

/-- A statement after its mark, and the rest of the text. -/
def statement? (cs : List Char) : Option (Stmt × List Char) := do
  let (v, rest) ← Json.value? cs
  let s ← Stmt.ofValue? v
  return (s, rest)

/-- The statements of a text of at most `size` characters that starts at a place, and the place
after the last of them. -/
def statements? : Nat → Spot → List Char → Option (List (Spot × Stmt) × Spot)
  | _, spot, [] => some ([], spot)
  | 0, _, _ => none
  | size + 1, spot, '@' :: cs => do
    let (s, rest) ← statement? cs
    let (more, ending) ← statements? size (spot.past s.written) rest
    return ((spot, s) :: more, ending)
  | size + 1, spot, '\n' :: cs => statements? size spot.nextLine cs
  | size + 1, spot, cs => do
    let (s, rest) ← call? cs
    let (more, ending) ← statements? size (spot.past (before cs rest)) rest
    return ((spot, s) :: more, ending)

/-! ## 3. Programs -/

/-- The mark of a program that gives way, which stands before its first statement. -/
def asyncMark : List Char := "@async ".toList

/-- What stands before the statements of a program that gives way. -/
def asyncLead : List Char := "(async () => \x7b ".toList

/-- What stands after them, up to where they are called. -/
def asyncEnd : List Char := " \x7d)".toList

/-- What stands before the text of a module, as the code of a function. -/
def moduleLead : List Char :=
  "(function (exports, require, module, __filename, __dirname) \x7b ".toList

/-- What is known before the first statement of a text of at most `size` characters, and the rest
from there on. -/
def skip? : Nat → Outlook → List Char → Option (Outlook × List Char)
  | _, o, [] => if o.mayEnd then some (o, []) else none
  | 0, _, _ => none
  | size + 1, o, cs =>
    if cs.head? == some '@' || (o.mayStart && (call? cs).isSome) then some (o, cs)
    else
      match word? o cs with
      | some (o, rest) => skip? size o rest
      | none => none

/-- A text without a first line that tells a system how to run it, if it may have one. -/
def afterHashbang (mayRun : Bool) (cs : List Char) : List Char :=
  match cs with
  | '#' :: '!' :: rest => if mayRun then (toLineEnd rest).2 else cs
  | cs => cs

/-- Whether a statement can go on with what stands before it. -/
def Outlook.admits (o : Outlook) (s : Stmt) : Bool :=
  match o.before, s with
  | .operator, .call f _ => !(⟨false, false, true⟩ : Manner).isStatement f
  | .comma, .call f _ => !(⟨false, false, true⟩ : Manner).isStatement f
  | .comma, .provide .. | .comma, .provideAll _ | .comma, .increase .. => true
  | .comma, _ | .operator, _ => false
  | _, _ => true

/-- The call of something that is no function: what stands before code in parentheses. -/
def mistakenCall : Stmt := .call "null" []

/-- Whether a statement does nothing. -/
def Stmt.isBlank : Stmt → Bool
  | .blank => true
  | _ => false

/-- The statements of a function up to the one that leaves it. -/
def upToLeaving : List (Spot × Stmt) → List (Spot × Stmt)
  | [] => []
  | s :: rest => if s.2.leaves then [s] else s :: upToLeaving rest

/-- The program of a text, if it is well formed.  Only a text that is run as it is has its first
line for itself, and may start with a line for the system. -/
def Program.ofText? (mayRun : Bool) (text : String) : Option Program := do
  let cs := text.toList
  let code := afterHashbang mayRun cs
  let (o, rest) ← skip? (code.length + 1) (.start mayRun) code
  let lead := if mayRun then [] else moduleLead
  let spot := (Spot.start.past lead).past (before cs rest)
  let isAsync := asyncMark.isPrefixOf rest
  let (body, ending) ←
    if isAsync then
      statements? (rest.length + 1) (spot.past asyncLead) (rest.drop asyncMark.length)
    else statements? (rest.length + 1) spot rest
  let statements := body.map (·.2)
  let m : Manner := ⟨o.isStrict, isAsync, !mayRun⟩
  if isAsync && o.isOutermost && o.before.isValue then
    if Stmt.areSound m statements then
      return ⟨false, o.isStrict, [(spot, mistakenCall)], ending⟩
    else none
  else do
    let o ← if rest.isEmpty then some o else o.following?
    let m := { m with isStrict := o.isStrict }
    let mayFollow := isAsync || ((statements.find? (!·.isBlank)).elim o.mayEnd o.admits)
    if Stmt.areSound m statements && mayFollow then
      let ending := if isAsync then ending.past asyncEnd else ending
      return ⟨isAsync, o.isStrict, upToLeaving body, ending⟩
    else none

/-- **The program of a text.** -/
def Program.ofText (mayRun : Bool) (text : String) : Except Fault Program :=
  match Program.ofText? mayRun text with
  | some p => .ok p
  | none => .error (.plain "SyntaxError" "Invalid or unexpected token")

end ConfGraph.Script
