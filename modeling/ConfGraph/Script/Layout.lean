import ConfGraph.Script.Program
import ConfGraph.Text.Quoted

/-!
# Programs as they are written

The text of a program tells where each of its calls stands.

* `Expr.written`, `Stmt.written`: expressions and statements as they are written.
* `Expr.callLead`, `Stmt.assignLead` and the like: what stands before their parts.
-/

namespace ConfGraph.Script

/-! ## 1. Expressions -/

/-- What stands between two parts of an expression. -/
def between : List Char := ", ".toList

namespace Expr

/-- What stands before the items of a list. -/
def listLead : List Char := ['[']

/-- What stands before the entries of a record. -/
def recordLead : List Char := ['\x7b']

/-- What stands before the arguments of a call. -/
def callLead (f : String) : List Char := f.toList ++ ['(']

/-- What stands before the value of an entry. -/
def entryLead (name : String) : List Char := Text.quote name ++ ": ".toList

/-- What stands before the result of a function. -/
def thunkLead : List Char := "() => (".toList

mutual

/-- An expression as it is written. -/
def written : Expr → List Char
  | .undefined => "undefined".toList
  | .null => "null".toList
  | .bool b => (Value.primitiveText (.bool b)).toList
  | .num x => Number.literal x
  | .str s => Text.quote s
  | .list items => listLead ++ writtenItems items ++ [']']
  | .record entries => recordLead ++ writtenEntries entries ++ ['\x7d']
  | .variable name => name.toList
  | .field holder name => written holder ++ '[' :: (Text.quote name ++ [']'])
  | .call f args => callLead f ++ writtenItems args ++ [')']
  | .identity => "g => g".toList
  | .constantly result => thunkLead ++ written result ++ [')']

/-- Expressions with commas between them. -/
def writtenItems : List Expr → List Char
  | [] => []
  | e :: rest => written e ++ (if rest.isEmpty then [] else between) ++ writtenItems rest

/-- The entries of a record with commas between them. -/
def writtenEntries : List (String × Expr) → List Char
  | [] => []
  | (name, e) :: rest =>
    entryLead name ++ written e ++ (if rest.isEmpty then [] else between) ++ writtenEntries rest

end

end Expr

/-! ## 2. Statements -/

namespace Stmt

/-- What stands between two statements on one line. -/
def gap : List Char := [' ']

/-- What stands before the value of an assigned variable. -/
def assignLead (name : String) : List Char := "var ".toList ++ name.toList ++ " = ".toList

/-- What stands before the statements that may fail. -/
def attemptLead (result : String) : List Char := assignLead result ++ "null; try \x7b ".toList

/-- What stands after the statements that may fail. -/
def attemptEnd (result : String) : List Char :=
  "\x7d catch (e) \x7b ".toList ++ result.toList ++ " = e.name + \": \" + e.message; \x7d".toList

/-- What stands before a thrown value. -/
def raiseLead : List Char := "throw ".toList

/-- A field of a variable. -/
def fieldOf (name key : String) : List Char := name.toList ++ '[' :: (Text.quote key ++ [']'])

/-- What stands before an export. -/
def provideLead (name : String) : List Char := fieldOf exportsName name ++ " = ".toList

/-- What stands before all exports. -/
def provideAllLead : List Char := "module.".toList ++ exportsName.toList ++ " = ".toList

/-- What stands before what is added to a field, which is named twice. -/
def increaseLead (name key : String) : List Char :=
  fieldOf name key ++ " = (".toList ++ fieldOf name key ++ " || 0) + ".toList

mutual

/-- A statement as it is written. -/
def written : Stmt → List Char
  | .call f args => (Expr.call f args).written ++ [';']
  | .assign name value => assignLead name ++ value.written ++ [';']
  | .attempt body result =>
    attemptLead result ++ writtenAll body ++ attemptEnd result
  | .raise message => raiseLead ++ "new Error(".toList ++ Text.quote message ++ ");".toList
  | .raiseValue value => raiseLead ++ value.written ++ [';']
  | .pause => "await null;".toList
  | .blank => []
  | .provide name value => provideLead name ++ value.written ++ [';']
  | .provideAll value => provideAllLead ++ value.written ++ [';']
  | .increase name key amount => increaseLead name key ++ Number.literal amount ++ [';']

/-- Statements on one line. -/
def writtenAll : List Stmt → List Char
  | [] => []
  | s :: rest => written s ++ gap ++ writtenAll rest

end

end Stmt

end ConfGraph.Script
