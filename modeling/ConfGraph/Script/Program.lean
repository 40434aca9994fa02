import ConfGraph.Script.Spot
import ConfGraph.Value.Basic

/-!
# Programs

A script is a list of statements.  Statements and expressions are written as JSON records: a
literal stands for itself, and records with a `$` name are the other forms of expressions.

* `Expr`, `Stmt`, `Program`: expressions, statements and whole programs.
* `Expr.ofValue`, `Stmt.ofValue?`: what a JSON value stands for.
* `Expr.literal`: the expression that writes a value down.
* `Stmt.assigned`: the variables that statements assign.
-/

namespace ConfGraph.Script

/-! ## 1. Expressions and statements -/

/-- An expression. -/
inductive Expr where
  | undefined
  | null
  | bool (b : Bool)
  | num (x : Float)
  | str (s : String)
  | list (items : List Expr)
  | record (entries : List (String × Expr))
  /-- What a variable holds. -/
  | variable (name : String)
  /-- A field of something. -/
  | field (holder : Expr) (name : String)
  | call (f : String) (args : List Expr)
  /-- The function that gives back what it is given. -/
  | identity
  /-- A function without parameters. -/
  | constantly (result : Expr)
deriving Inhabited

/-- A statement. -/
inductive Stmt where
  | call (f : String) (args : List Expr)
  | assign (name : String) (value : Expr)
  /-- Runs statements; a failure ends them, and its text is assigned to a variable. -/
  | attempt (body : List Stmt) (result : String)
  /-- Fails with an error. -/
  | raise (message : String)
  /-- Fails with any value. -/
  | raiseValue (value : Expr)
  /-- Gives way to others. -/
  | pause
  | blank
  /-- Writes a field of the exports of a module. -/
  | provide (name : String) (value : Expr)
  /-- Replaces the exports of a module. -/
  | provideAll (value : Expr)
  /-- Adds a number to a field of what a variable holds. -/
  | increase (name key : String) (amount : Float)

/-! ## 2. Expressions as values -/

/-- The name of the variable that holds the exports of a module. -/
def exportsName : String := "exports"

namespace Expr

/-- The call that gives the graph in context. -/
def currentGraph : Expr := .call "currentGraph" []

/-- The text of a text literal. -/
def str? : Expr → Option String
  | .str s => some s
  | _ => none

/-- The items of a list. -/
def items : Expr → List Expr
  | .list items => items
  | _ => []

/-- The text of a literal. -/
def literalText : Expr → String
  | .null => "null"
  | .bool b => Value.primitiveText (.bool b)
  | .num x => Value.primitiveText (.num x)
  | .str s => s
  | _ => "undefined"

/-- The text under which a field is read, from the second part of a `$get`. -/
def keyText : List Value → String
  | _ :: key :: _ => key.display
  | _ => "undefined"

/-- The forms of records with a `$` name, from their parts as values and read as expressions.  The
first form counts of which there is a part. -/
def form? (fields : List (String × Value)) (parts : List (String × Expr)) : Option Expr :=
  let has (name : String) : Bool := (Fields.get? parts name).isSome
  let part (name : String) : Expr := (Fields.get? parts name).getD .undefined
  if has "$call" then (part "$call").str?.map fun f => .call f (part "args").items
  else if has "$var" then (part "$var").str?.map .variable
  else if has "$get" then
    let key := keyText (((Fields.get? fields "$get").bind Value.items?).getD [])
    (part "$get").items.head?.map fun holder => .field holder key
  else if has "$undefined" then some .undefined
  else if has "$num" then some (.num (Number.ofText (part "$num").literalText))
  else if has "$basis" then some (.field currentGraph "basisTx")
  else if has "$size" then some (.field (.field currentGraph "entities") "size")
  else if has "$attr" then
    match (part "$attr").items with
    | [ref, name] => some (.call "attr" [currentGraph, ref, name])
    | [ref] => some (.call "attr" [currentGraph, ref])
    | _ => none
  else if has "$identity" then some .identity
  else if has "$const" then some (.constantly (part "$const"))
  else none

mutual

/-- The expression that a value stands for. -/
def ofValue : Value → Expr
  | .null => .null
  | .bool b => .bool b
  | .num x => .num x
  | .str s => .str s
  | .list items => .list (ofItems items)
  | .record _ fields =>
    let parts := ofFields fields
    (form? fields parts).getD (.record parts)
  | _ => .undefined

/-- The expressions that values stand for. -/
def ofItems : List Value → List Expr
  | [] => []
  | v :: rest => ofValue v :: ofItems rest

/-- The expressions that the fields of a record stand for. -/
def ofFields : List (String × Value) → List (String × Expr)
  | [] => []
  | (name, v) :: rest => (name, ofValue v) :: ofFields rest

end

mutual

/-- The expression that writes a value down. -/
def literal : Value → Expr
  | .null => .null
  | .bool b => .bool b
  | .num x => .num x
  | .str s => .str s
  | .list items => .list (literals items)
  | .record _ fields => .record (literalEntries fields)
  | _ => .undefined

/-- The expressions that write values down. -/
def literals : List Value → List Expr
  | [] => []
  | v :: rest => literal v :: literals rest

/-- The entries that write fields down. -/
def literalEntries : List (String × Value) → List (String × Expr)
  | [] => []
  | (name, v) :: rest => (name, literal v) :: literalEntries rest

end

end Expr

/-! ## 3. Statements as values -/

namespace Stmt

/-- A part of a statement. -/
inductive Part where
  | expr (e : Expr)
  /-- The statements inside it, if all of them are well formed. -/
  | body (statements : Option (List Stmt))
  /-- A number that is added to a field of a variable. -/
  | addition (name key : String) (amount : Float)

/-- The expression of a part. -/
def Part.expr? : Part → Option Expr
  | .expr e => some e
  | .body _ | .addition .. => none

/-- The addition that values stand for: only a number can be added. -/
def addition? : List Value → Option Part
  | [.str name, key, .num amount] => some (.addition name (Expr.ofValue key).literalText amount)
  | _ => none

/-- The statement that is made of given parts. -/
def ofParts? (parts : List (String × Part)) : Option Stmt :=
  let expr? (name : String) : Option Expr := (Fields.get? parts name).bind Part.expr?
  let expr (name : String) : Expr := (expr? name).getD .undefined
  let text? (name : String) : Option String := (expr? name).bind Expr.str?
  let has (name : String) : Bool := (Fields.get? parts name).isSome
  if has "call" then (text? "call").map fun f => .call f (expr "args").items
  else if has "let" then (text? "let").map fun name => .assign name (expr "be")
  else if has "try" then
    match Fields.get? parts "try" with
    | some (.body (some statements)) => some (.attempt statements ((text? "as").getD ""))
    | _ => none
  else if has "throw" then some (.raise (expr "throw").literalText)
  else if has "throwValue" then some (.raiseValue (expr "throwValue"))
  else if has "tick" then some .pause
  else if has "blank" then some .blank
  else if has "export" then (text? "export").map fun name => .provide name (expr "be")
  else if has "exports" then some (.provideAll (expr "exports"))
  else
    match Fields.get? parts "inc" with
    | some (.addition name key amount) => some (.increase name key amount)
    | _ => none

mutual

/-- The statement that a value stands for. -/
def ofValue? : Value → Option Stmt
  | .record _ fields => ofParts? (ofFields fields)
  | _ => none

/-- The parts of a statement. -/
def ofFields : List (String × Value) → List (String × Part)
  | [] => []
  | (name, .list items) :: rest =>
    let asExpr : Part := .expr (.list (Expr.ofItems items))
    let part :=
      match name with
      | "try" => .body (ofItems items)
      | "inc" => (addition? items).getD asExpr
      | _ => asExpr
    (name, part) :: ofFields rest
  | (name, v) :: rest => (name, .expr (Expr.ofValue v)) :: ofFields rest

/-- The statements that values stand for. -/
def ofItems : List Value → Option (List Stmt)
  | [] => some []
  | v :: rest => (ofValue? v).bind fun s => (ofItems rest).map fun more => s :: more

end

/-! ## 4. Variables -/

mutual

/-- The variables that a statement assigns, at any depth. -/
def assigned : Stmt → List String
  | .assign name _ => [name]
  | .attempt body result => result :: assignedIn body
  | _ => []

/-- The variables that statements assign. -/
def assignedIn : List Stmt → List String
  | [] => []
  | s :: rest => s.assigned ++ assignedIn rest

end

end Stmt

/-- A program. -/
structure Program where
  /-- It may give way, which makes its code that of a function. -/
  isAsync : Bool
  /-- What cannot be written must not be written. -/
  isStrict : Bool
  /-- The statements, with the places at which they stand. -/
  body : List (Spot × Stmt)
  /-- The place after its last statement. -/
  ending : Spot

namespace Program

/-- The variables that a program assigns. -/
def assigned (p : Program) : List String := Stmt.assignedIn (p.body.map (·.2))

end Program

end ConfGraph.Script
