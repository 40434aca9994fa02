import ConfGraph.Script.Program

/-!
# Offered names

Who imports a program as a library wants to know the names of its exports before it runs.  They are
told from its text alone: a name is offered where a field of the exports is written, whether or not
that ever happens.  Of a record that replaces the exports, the names are seen up to the first value
that is more than a name itself.  Exports that are required from another file offer what that file
offers.

* `Offer`: what a program offers.
* `Program.offer`: the offer of a program.
-/

namespace ConfGraph.Script

/-- What a program offers. -/
structure Offer where
  names : List String
  /-- The specifiers of the files whose names are offered too. -/
  through : List String

namespace Expr

/-- Whether a number is written as a name. -/
def isNamedNumber (x : Float) : Bool := Number.isNaN x || x == Number.infinity

/-- Whether an expression is written as a name. -/
def isName : Expr → Bool
  | .undefined | .null | .bool _ | .variable _ => true
  | .num x => isNamedNumber x
  | _ => false

/-- Whether an expression is written with a name at its beginning. -/
def startsWithName : Expr → Bool
  | .call .. | .identity => true
  | .field holder _ => startsWithName holder
  | e => e.isName

/-- The entries of the record that stands at the beginning of an expression. -/
def entries : Expr → List (String × Expr)
  | .record entries => entries
  | .field holder _ => entries holder
  | _ => []

/-- The specifier of the file that an expression requires at its beginning. -/
def required? : Expr → Option String
  | .call "require" [.str specifier] => some specifier
  | .field holder _ => required? holder
  | _ => none

end Expr

namespace Offer

/-- No offer. -/
def nothing : Offer := ⟨[], []⟩

/-- The names that the entries of a record offer. -/
def entryNames : List (String × Expr) → List String
  | [] => []
  | (name, e) :: rest =>
    if e.isName then name :: entryNames rest
    else if e.startsWithName then [name]
    else []

mutual

/-- An offer after a statement. -/
def after (o : Offer) : Stmt → Offer
  | .provide name _ => { o with names := o.names ++ [name] }
  | .increase holder key _ =>
    if holder = exportsName then { o with names := o.names ++ [key] } else o
  | .provideAll value => ⟨o.names ++ entryNames value.entries, value.required?.toList⟩
  | .attempt body _ => afterAll o body
  | _ => o

/-- An offer after several statements. -/
def afterAll (o : Offer) : List Stmt → Offer
  | [] => o
  | s :: rest => afterAll (after o s) rest

end

end Offer

/-- **What a program offers.** -/
def Program.offer (p : Program) : Offer := Offer.nothing.afterAll (p.body.map (·.2))

end ConfGraph.Script
