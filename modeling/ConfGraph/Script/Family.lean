import ConfGraph.Value.Basic

/-!
# Families

Whatever a script works with answers to some names without having them written on it: lists can be
sliced, texts trimmed, and all records know `toString`.  Each family of things has a common ancestor
that answers for it.  The functions behind these names work on a receiver, which scripts never give
them.

* `Failure`: the kinds of errors.
* `Family`: the families.
* `Family.maker`: the function that makes things of a family.
* `Family.methods`: the functions that a family answers with, and their numbers of parameters.
-/

namespace ConfGraph.Script

/-- The kinds of errors that scripts can make. -/
inductive Failure where
  | general
  | evaluation
  | range
  | reference
  | grammar
  | type
  | address
  | several
deriving DecidableEq, Repr

namespace Failure

/-- All kinds of errors. -/
def all : List Failure :=
  [general, evaluation, range, reference, grammar, type, address, several]

/-- The name that errors of a kind answer with. -/
def name : Failure → String
  | general => "Error"
  | evaluation => "EvalError"
  | range => "RangeError"
  | reference => "ReferenceError"
  | grammar => "SyntaxError"
  | type => "TypeError"
  | address => "URIError"
  | several => "AggregateError"

/-- The position of a kind among all. -/
def index (k : Failure) : Nat := all.idxOf k

end Failure

/-- What common names belong to. -/
inductive Family where
  | object
  | list
  | function
  | text
  | number
  | truth
  | table
  | failure (k : Failure)
deriving DecidableEq, Repr

namespace Family

/-- All families. -/
def all : List Family :=
  [object, list, function, text, number, truth, table] ++ Failure.all.map failure

/-- The position of a family among all. -/
def index : Family → Nat
  | object => 0
  | list => 1
  | function => 2
  | text => 3
  | number => 4
  | truth => 5
  | table => 6
  | failure k => 7 + k.index

/-- The family whose ancestor is above the ancestor of a family. -/
def above? : Family → Option Family
  | object => none
  | failure .general => some object
  | failure _ => some (failure .general)
  | _ => some object

/-- The function that makes things of a family. -/
def maker : Family → Face
  | object => ⟨"Object", 1, .recordMaker⟩
  | list => ⟨"Array", 1, .ordinary⟩
  | function => ⟨"Function", 1, .ordinary⟩
  | text => ⟨"String", 1, .ordinary⟩
  | number => ⟨"Number", 1, .ordinary⟩
  | truth => ⟨"Boolean", 1, .ordinary⟩
  | table => ⟨"Map", 0, .ordinary⟩
  | failure .several => ⟨Failure.name .several, 2, .ordinary⟩
  | failure k => ⟨k.name, 1, .ordinary⟩

/-- The family with a maker of a name. -/
def ofMaker? (name : String) : Option Family := all.find? fun f => f.maker.name == name

/-- The names of several functions with one number of parameters. -/
def withArity (arity : Nat) (names : List String) : List (String × Nat) :=
  names.map fun name => (name, arity)

/-- The functions that a family answers with. -/
def methods : Family → List (String × Nat)
  | object =>
    withArity 0 ["toString", "valueOf", "toLocaleString"]
    ++ withArity 1 ["hasOwnProperty", "isPrototypeOf", "propertyIsEnumerable", "__lookupGetter__",
      "__lookupSetter__"]
    ++ withArity 2 ["__defineGetter__", "__defineSetter__"]
  | list =>
    withArity 0 ["pop", "reverse", "shift", "keys", "entries", "values", "flat", "toReversed",
      "toLocaleString", "toString"]
    ++ withArity 1 ["at", "concat", "fill", "find", "findIndex", "findLast", "findLastIndex",
      "lastIndexOf", "push", "unshift", "sort", "includes", "indexOf", "join", "forEach", "filter",
      "flatMap", "map", "every", "some", "reduce", "reduceRight", "toSorted"]
    ++ withArity 2 ["copyWithin", "slice", "splice", "toSpliced", "with"]
  | function => withArity 0 ["toString"] ++ withArity 1 ["bind", "call"] ++ withArity 2 ["apply"]
  | text =>
    withArity 0 ["big", "blink", "bold", "fixed", "isWellFormed", "italics", "normalize", "small",
      "strike", "sub", "sup", "toLocaleLowerCase", "toLocaleUpperCase", "toLowerCase", "toString",
      "toUpperCase", "toWellFormed", "trim", "trimEnd", "trimLeft", "trimRight", "trimStart",
      "valueOf"]
    ++ withArity 1 ["anchor", "at", "charAt", "charCodeAt", "codePointAt", "concat", "endsWith",
      "fontcolor", "fontsize", "includes", "indexOf", "lastIndexOf", "link", "localeCompare",
      "match", "matchAll", "padEnd", "padStart", "repeat", "search", "startsWith"]
    ++ withArity 2 ["replace", "replaceAll", "slice", "split", "substr", "substring"]
  | number =>
    withArity 0 ["toLocaleString", "valueOf"]
    ++ withArity 1 ["toExponential", "toFixed", "toPrecision", "toString"]
  | truth => withArity 0 ["toString", "valueOf"]
  | table =>
    withArity 0 ["clear", "entries", "keys", "values"] ++ withArity 1 ["delete", "forEach", "get",
      "has"]
    ++ withArity 2 ["set"]
  | failure .general => withArity 0 ["toString"]
  | failure _ => []

/-- The ancestor of a family as plain text. -/
def blankText : Family → String
  | text => ""
  | number => "0"
  | truth => "false"
  | f => s!"[object {f.maker.name}]"

/-- Two functions have a second name. -/
def nameOf (method : String) : String :=
  match method with
  | "trimLeft" => "trimStart"
  | "trimRight" => "trimEnd"
  | name => name

end Family

end ConfGraph.Script
