import ConfGraph.Graph.Transaction

/-!
# Faults

Everything that may be thrown.  Faults of the library have a code, a longer explanation and
suggestions; beside them there are plain errors, errors of the file system, and values that are
no errors at all, which scripts may throw.

* `Fault`: the causes.
* `Fault.message`, `Fault.explain`, `Fault.render`: their wording.
* `Fault.data`: what a fault of the library was raised with.
-/

namespace ConfGraph

/-- What may be thrown. -/
inductive Fault where
  /-- No open scope is in reach. -/
  | noScope
  /-- No entity has the given config id.  Of the graph its number of transactions is told. -/
  | unresolved (basisTx id : Value) (dslFunction : String)
  | moduleNotFound (id : String)
  | notConfigModule (id : String)
  /-- Arguments outside the shape of a DSL function. -/
  | badArguments (function : String) (args : List Value) (issues : String)
  /-- No function for a function initializer. -/
  | noFunction (ref reason : String)
  | badInitializer (value : Value) (issues : String)
  | rejected (r : Rejection)
  /-- A plain error: its name and message. -/
  | plain (name message : String)
  /-- An error of the file system or of finding a package. -/
  | system (code message : String)
  /-- A thrown value that is no error. -/
  | thrown (v : Value)

namespace Fault

/-- A plain error without a name of its own. -/
def error (message : String) : Fault := .plain "Error" message

/-- A value used as what it is not. -/
def typeError (message : String) : Fault := .plain "TypeError" message

/-- A field is read of something that has none. -/
def noFieldOf (holder field : String) : Fault :=
  typeError s!"Cannot read properties of {holder} (reading '{field}')"

/-- Something is called that cannot be called. -/
def notCallable (what : String) : Fault := typeError s!"{what} is not a function"

/-- A function that works on a receiver is called without one. -/
def noReceiver (what : String) : Fault := typeError s!"{what} called on null or undefined"

/-- A function that works on a receiver of one kind is called with something else. -/
def wrongReceiver (what kind : String) : Fault :=
  typeError s!"{what} requires that 'this' be a {kind}"

/-- Nothing is taken for a record. -/
def noRecord : Fault := typeError "Cannot convert undefined or null to object"

/-- What must not be written is written. -/
def readOnly (name holder : String) : Fault :=
  typeError s!"Cannot assign to read only property '{name}' of {holder}"

/-- A value has no text and no number. -/
def noPrimitive : Fault := typeError "Cannot convert object to primitive value"

/-- Something is gone through that cannot be gone through. -/
def notIterable (what : String) : Fault := typeError s!"{what} is not iterable"

/-- Something that cannot be gone through is made a table of. -/
def noEntries (kind : String) : Fault :=
  typeError s!"{kind} is not iterable (cannot read property Symbol(Symbol.iterator))"

/-- What a table is made of is no entry. -/
def notAnEntry (what : String) : Fault := typeError s!"Iterator value {what} is not an entry object"

/-- Something else is in the place of a graph. -/
def noGraph : Fault := notIterable "object"

/-- The fault of a value that could not be read: the one with the report of its issues, unless one of
them ended the reading. -/
def ofIssues (issues : List Issue) (reported : String → Fault) : Fault :=
  if Issue.anyEnds issues then noPrimitive else reported (Issue.report issues)

/-- Calls are nested too deep. -/
def tooDeep : Fault := plain "RangeError" "Maximum call stack size exceeded"

/-- A fault of the library has a code. -/
def code? : Fault → Option String
  | noScope => some "scope/outside-script"
  | unresolved .. => some "script/unresolved-id"
  | moduleNotFound _ => some "module/not-found"
  | notConfigModule _ => some "module/not-config"
  | badArguments .. => some "dsl/invalid-args"
  | noFunction .. => some "initializer/not-found"
  | badInitializer .. => some "initializer/invalid"
  | rejected _ => some "graph/invalid-tx"
  | plain .. | system .. | thrown _ => none

/-- The name of a kind of fault. -/
def name : Fault → String
  | noScope => "ScopeError"
  | unresolved .. => "UnresolvedReferenceError"
  | moduleNotFound _ => "ModuleNotFoundError"
  | notConfigModule _ => "NotAConfigModuleError"
  | badArguments .. => "ArgumentValidationError"
  | noFunction .. => "InitializerNotFoundError"
  | badInitializer .. => "InvalidInitializerError"
  | rejected _ => "TransactionError"
  | plain name _ => name
  | system .. => "Error"
  | thrown _ => "NonError"

/-- Whether a fault is an error, and not any other value. -/
def isError : Fault → Bool
  | thrown _ => false
  | _ => true

/-- Whether a fault is a value that cannot be told, as it holds itself. -/
def isUntold : Fault → Bool
  | thrown v => v.isEndless
  | _ => false

/-- The message of a fault. -/
def message : Fault → String
  | noScope => "Cannot reference context config in non-script context"
  | unresolved _ id _ => s!"Could not find entity identified by `{id.display}`"
  | moduleNotFound id => s!"Could not find config module `{id}`"
  | notConfigModule id => s!"`{id}` is not a config module"
  | badArguments function _ issues => s!"Invalid arguments to `{function}`: {issues}"
  | noFunction ref reason => s!"Could not resolve initializer function `{ref}`: {reason}"
  | badInitializer _ issues => s!"Invalid initializer: {issues}"
  | rejected r =>
    match r.place.toValue with
    | .null => s!"Invalid transaction: {r.reason.message}"
    | index => s!"Invalid transaction op #{index.display}: {r.reason.message}"
  | plain _ message => message
  | system _ message => message
  | thrown v => v.display

/-- What a fault was raised with. -/
def data : Fault → Value
  | noScope => .record .host []
  | unresolved basisTx id dslFunction =>
    .record .host [("basisTx", basisTx), ("id", id), ("dslFunction", .str dslFunction)]
  | moduleNotFound id => .record .host [("module", .str id)]
  | notConfigModule id => .record .host [("module", .str id)]
  | badArguments function args issues =>
    .record .host [("function", .str function), ("args", .list args), ("issues", .str issues)]
  | noFunction ref reason => .record .host [("ref", .str ref), ("reason", .str reason)]
  | badInitializer value issues => .record .host [("value", value), ("issues", .str issues)]
  | rejected r =>
    .record .host
      [("reason", .str r.reason.message), ("opIndex", r.place.toValue),
        ("entity", r.culprit.elim .undefined Culprit.toValue)]
  | plain .. | system .. | thrown _ => .undefined

/-! ## Explanations -/

/-- What a fault of the library means. -/
def explanation : Fault → String
  | noScope =>
    "A script DSL form was used while no configuration is in context. DSL forms work by "
    ++ "imperatively updating the configuration currently being built; calling them on their own, or "
    ++ "after the build that owned them has finished, is not meaningful."
  | unresolved _ id dslFunction =>
    s!"An entity with the config id `{id.display}` was referenced from the `{dslFunction}` DSL form, "
      ++ "but no entity with that id exists in the config yet. Entities must be defined in the "
      ++ "context configuration before they are referenced."
  | moduleNotFound id =>
    s!"`{id}` was given as a configuration module, but no module with that identifier was found "
      ++ "under the configured module roots."
  | notConfigModule id =>
    s!"`{id}` was given as a configuration module. Configuration modules are identified by a "
      ++ "`'use config';` directive as their first statement, and this module does not have one."
  | badArguments function _ _ =>
    s!"The arguments passed to `{function}` do not match its declared argument shape. "
      ++ "The call was rejected before it touched the configuration."
  | noFunction .. =>
    "A function initializer names either a function registered on the engine, or an export of a "
    ++ "module written as `specifier#exportName`."
  | badInitializer .. =>
    "An initializer must be one of `\x7b fn \x7d`, `\x7b module \x7d`, `\x7b file \x7d`, "
    ++ "`\x7b ops \x7d`, `\x7b script \x7d` or null."
  | rejected _ =>
    "A transaction could not be applied to the configuration graph. No part of it was applied."
  | plain .. | system .. | thrown _ => ""

/-- What to do about a fault of the library. -/
def suggestions : Fault → List String
  | noScope =>
    ["Use this DSL form only inside a config initializer (such as one passed to "
      ++ "`ConfigEngine.build`)."]
  | unresolved .. =>
    ["Ensure that you have already created an entity with this config id earlier in your script.",
      "Make sure that the config ids match exactly, with no typos."]
  | moduleNotFound id =>
    [s!"Ensure that a module named `{id}` exists under one of the module roots.",
      s!"Ensure that the declaration and the usages of `{id}` are all typo-free."]
  | notConfigModule id =>
    [s!"Add `'use config';` at the top of `{id}` if it is intended to be a config module.",
      "Use a different module that is actually a config module."]
  | badArguments function _ _ =>
    [s!"Check the documentation of `{function}` for the expected arguments."]
  | noFunction .. =>
    ["Register the function with `ConfigEngine.registerFunction` before building.",
      "Check that the module exists and exports a function under that name."]
  | badInitializer .. => ["Check the initializer list in your config file."]
  | rejected _ =>
    ["Check that every op is well-formed and that referenced entities and tempids exist."]
  | plain .. | system .. | thrown _ => []

/-- Message, explanation and suggestions of a fault of the library. -/
def explain (f : Fault) (code : String) : String :=
  let advice := f.suggestions
  let head := [s!"{f.message} [{code}]", "", f.explanation]
  let tail := if advice.isEmpty then [] else "" :: "Suggestions:" :: advice.map fun s => s!"  - {s}"
  Cause.separated "\n" (head ++ tail)

/-- The text printed for a failed build. -/
def render (f : Fault) : String :=
  match f.code? with
  | some code => f.explain code
  | none => if f.isError then s!"{f.name}: {f.message}" else "Unknown error"

end Fault

end ConfGraph
