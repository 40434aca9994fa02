import ConfGraph.Script.Program

/-!
# Reserved words

Some words have a meaning of their own wherever they stand, so that nothing can be named by them.  A
program that calls or assigns one is ill formed, unless what it writes means something else: what
looks like a call may be an operator before a value in parentheses, or a statement with one.

* `Manner`: what is known of a program as a whole.
* `Manner.isName`: whether a word can be a name.
* `Operator`: the words that stand before a value.
* `Stmt.isSound`: whether statements use words only for what they mean.
-/

namespace ConfGraph.Script

/-- What is known of the place at which a program stands. -/
structure Manner where
  isStrict : Bool
  /-- Its code may give way. -/
  isAsync : Bool
  /-- It is the code of a function. -/
  isFunction : Bool

/-! ## 1. Words -/

/-- Words that are never names. -/
def reservedWords : List String :=
  ["break", "case", "catch", "class", "const", "continue", "debugger", "default", "delete", "do",
    "else", "enum", "export", "extends", "false", "finally", "for", "function", "if", "import",
    "in", "instanceof", "new", "null", "return", "super", "switch", "this", "throw", "true", "try",
    "typeof", "var", "void", "while", "with"]

/-- Words that are no names where what cannot be written must not be written. -/
def strictWords : List String :=
  ["implements", "interface", "let", "package", "private", "protected", "public", "static", "yield"]

/-- The word for what code works on. -/
def selfWord : String := "this"

/-- Words that stand for a value. -/
def valueWords : List String := [selfWord, "null", "true", "false"]

namespace Manner

/-- Whether a word can be a name. -/
def isName (m : Manner) (w : String) : Bool :=
  !reservedWords.contains w && !(m.isStrict && strictWords.contains w)
    && !(m.isAsync && w == "await")

/-- Whether a word stands for a value. -/
def isValue (m : Manner) (w : String) : Bool := m.isName w || valueWords.contains w

/-- Whether a word can be the name of a variable that is assigned. -/
def isVariable (m : Manner) (w : String) : Bool :=
  m.isName w && !(m.isStrict && (w == "eval" || w == "arguments"))

/-- Inside a function that a program makes, which does not give way. -/
def inFunction (m : Manner) : Manner := { m with isAsync := false }

end Manner

/-! ## 2. Operators -/

/-- A word that stands before a value. -/
inductive Operator where
  /-- Tells what kind of value it is. -/
  | kind
  /-- Forgets it. -/
  | nothing
  /-- Takes away a field. -/
  | remove
  /-- Makes a thing. -/
  | make
  /-- Waits for it. -/
  | wait
deriving DecidableEq, Repr

/-- The operator of a word. -/
def Operator.ofWord? (w : String) : Option Operator :=
  match w with
  | "typeof" => some .kind
  | "void" => some .nothing
  | "delete" => some .remove
  | "new" => some .make
  | "await" => some .wait
  | _ => none

/-- Whether an expression is a variable. -/
def Expr.isVariable : Expr → Bool
  | .variable _ => true
  | _ => false

/-- Whether an operator may stand before values in parentheses. -/
def Operator.isSound (m : Manner) (op : Operator) (args : List Expr) : Bool :=
  !args.isEmpty
    && match op with
      | .wait => m.isAsync
      | .remove => !(m.isStrict && args.length == 1 && args.any Expr.isVariable)
      | _ => true

/-! ## 3. Programs -/

mutual

/-- Whether an expression uses words only for what they mean. -/
def Expr.isSound (m : Manner) : Expr → Bool
  | .list items => Expr.areSound m items
  | .record entries => Expr.areEntriesSound m entries
  | .variable name => m.isValue name
  | .field holder _ => holder.isSound m
  | .call f args =>
    (m.isValue f || (Operator.ofWord? f).any (·.isSound m args)) && Expr.areSound m args
  | .constantly result => result.isSound m.inFunction
  | _ => true

/-- Whether expressions use words only for what they mean. -/
def Expr.areSound (m : Manner) : List Expr → Bool
  | [] => true
  | e :: rest => e.isSound m && Expr.areSound m rest

/-- Whether the entries of a record use words only for what they mean. -/
def Expr.areEntriesSound (m : Manner) : List (String × Expr) → Bool
  | [] => true
  | (_, e) :: rest => e.isSound m && Expr.areEntriesSound m rest

end

/-- Whether a word that looks like a called function makes a statement with values in
parentheses. -/
def Manner.isStatement (m : Manner) (w : String) : Bool :=
  match w with
  | "if" | "while" | "throw" => true
  | "with" => !m.isStrict
  | "return" => m.isFunction || m.isAsync
  | _ => false

mutual

/-- Whether a statement uses words only for what they mean. -/
def Stmt.isSound (m : Manner) : Stmt → Bool
  | .call f args =>
    (Expr.call f args).isSound m
      || (m.isStatement f && !args.isEmpty && Expr.areSound m args)
  | .assign name value => m.isVariable name && value.isSound m
  | .attempt body result => m.isVariable result && Stmt.areSound m body
  | .raise _ | .blank => true
  | .raiseValue value | .provide _ value | .provideAll value => value.isSound m
  | .pause => m.isAsync
  | .increase name .. => m.isValue name

/-- Whether statements use words only for what they mean. -/
def Stmt.areSound (m : Manner) : List Stmt → Bool
  | [] => true
  | s :: rest => s.isSound m && Stmt.areSound m rest

end

/-- Whether a statement leaves the code in which it stands. -/
def Stmt.leaves : Stmt → Bool
  | .call "return" _ => true
  | _ => false

end ConfGraph.Script
