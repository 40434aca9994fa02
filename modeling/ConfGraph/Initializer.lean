import ConfGraph.Fault

/-!
# Initializers

An initializer is one step of a build.  In a config file it is a record with one field, or `null`.

* `Initializer`: the kinds of step.
* `Initializer.parse`: reads the form of a config file.
* `Initializer.input`: writes it.
* `Initializer.description`: a short text for the log.
-/

namespace ConfGraph

/-- One step of a build. -/
inductive Initializer where
  /-- A registered function, or `specifier#export`. -/
  | function (ref : String)
  /-- A config module. -/
  | module (id : String)
  /-- A script file. -/
  | file (path : String)
  /-- A batch of ops, checked when it is applied. -/
  | ops (batch : Value)
  /-- A script in place. -/
  | script (source : String)
  | none
  /-- A step of a kind that is not known. -/
  | unknown (form : Value)

namespace Initializer

open Shape

/-! ## 1. The form of config files -/

/-- A record with one field and no other. -/
def single {α : Type} (name : String) (s : Shape α) : Shape α := closed [name] (field name s)

/-- Any number of ops, as a batch. -/
def batch (ops : List TxOp) : Initializer := .ops (.list (ops.map TxOp.toValue))

/-- An initializer in the form of config files. -/
def inputShape : Shape Initializer := fun v =>
  oneOf [
    (Shape.null v).map fun _ => .none,
    (single "fn" nonEmptyText v).map .function,
    (single "module" nonEmptyText v).map .module,
    (single "file" nonEmptyText v).map .file,
    (single "ops" opsShape v).map batch,
    (single "script" text v).map .script]

/-- Reads an initializer in the form of config files. -/
def parse (v : Value) : Except Fault Initializer :=
  match inputShape v with
  | .ok i => .ok i
  | .error issues => .error (.ofIssues issues (.badInitializer v))

/-- An initializer in the form of config files. -/
def input : Initializer → Value
  | function ref => .record .host [("fn", .str ref)]
  | module id => .record .host [("module", .str id)]
  | file path => .record .host [("file", .str path)]
  | ops b => .record .host [("ops", b)]
  | script source => .record .host [("script", .str source)]
  | none => .null
  | unknown form => form

/-! ## 2. Other forms -/

/-- An initializer as a tagged record. -/
def toValue : Initializer → Value
  | function ref => .record .host [("kind", .str "function"), ("ref", .str ref)]
  | module id => .record .host [("kind", .str "module"), ("id", .str id)]
  | file path => .record .host [("kind", .str "file"), ("path", .str path)]
  | ops b => .record .host [("kind", .str "ops"), ("ops", b)]
  | script source => .record .host [("kind", .str "script"), ("source", .str source)]
  | none => .record .host [("kind", .str "none")]
  | unknown form => form

/-- The length of a batch as it is told in the log. -/
def lengthText : Value → String
  | .str s => toString (Text.units s).length
  | v => (v.field "length").display

/-- A batch is told by its length, which `null` does not have, and which must have a text. -/
def checkDescribable : Initializer → Except Fault Unit
  | ops .undefined => .error (.noFieldOf "undefined" "length")
  | ops .null => .error (.noFieldOf "null" "length")
  | ops b => if (b.field "length").text?.isSome then .ok () else .error .noPrimitive
  | _ => .ok ()

/-- A short text for the log. -/
def description : Initializer → String
  | function ref => s!"function {ref}"
  | module id => s!"module {id}"
  | file path => s!"file {path}"
  | ops b => s!"ops ({lengthText b})"
  | script _ => "inline script"
  | none => "none"
  | unknown _ => "undefined"

end Initializer

end ConfGraph
