import ConfGraph.Script.Family

/-!
# The standard library

Beside the things they make, scripts find functions and numbers on shelves: on the function that
makes the things of a family, in two collections with names of their own, among the variables that
every script has, and on the console.

* `Shelf`: the shelves.
* `Shelf.members`: what stands on a shelf.
-/

namespace ConfGraph.Script

/-- Where members of the standard library are found. -/
inductive Shelf where
  /-- The function that makes the things of a family. -/
  | maker (f : Family)
  | mathematics
  | json
  /-- The variables that every script has. -/
  | everywhere
  | console
deriving DecidableEq, Repr

/-- What stands on a shelf under a name. -/
inductive Member where
  /-- A function, by its number of parameters. -/
  | function (arity : Nat)
  | number (x : Float)

namespace Shelf

/-- Several functions with one number of parameters. -/
def functions (arity : Nat) (names : List String) : List (String × Member) :=
  names.map fun name => (name, .function arity)

/-- Several numbers. -/
def numbers (ns : List (String × Float)) : List (String × Member) :=
  ns.map fun n => (n.1, .number n.2)

/-- The limits of numbers. -/
def limits : List (String × Float) := [
  ("EPSILON", 2.220446049250313e-16), ("MAX_SAFE_INTEGER", 9007199254740991),
  ("MAX_VALUE", 1.7976931348623157e308), ("MIN_SAFE_INTEGER", -9007199254740991),
  ("MIN_VALUE", 5e-324), ("NEGATIVE_INFINITY", -Number.infinity), ("NaN", Number.nan),
  ("POSITIVE_INFINITY", Number.infinity)]

/-- Well-known numbers. -/
def constants : List (String × Float) := [
  ("E", 2.718281828459045), ("LN10", 2.302585092994046), ("LN2", 0.6931471805599453),
  ("LOG10E", 0.4342944819032518), ("LOG2E", 1.4426950408889634), ("PI", 3.141592653589793),
  ("SQRT1_2", 0.7071067811865476), ("SQRT2", 1.4142135623730951)]

/-- What stands on a shelf. -/
def members : Shelf → List (String × Member)
  | maker .object =>
    functions 1 ["entries", "freeze", "fromEntries", "getOwnPropertyDescriptors",
      "getOwnPropertyNames", "getOwnPropertySymbols", "getPrototypeOf", "isExtensible", "isFrozen",
      "isSealed", "keys", "preventExtensions", "seal", "values"]
    ++ functions 2 ["assign", "create", "defineProperties", "getOwnPropertyDescriptor", "groupBy",
      "hasOwn", "is", "setPrototypeOf"]
    ++ functions 3 ["defineProperty"]
  | maker .list => functions 0 ["of"] ++ functions 1 ["from", "fromAsync", "isArray"]
  | maker .text => functions 1 ["fromCharCode", "fromCodePoint", "raw"]
  | maker .number =>
    functions 1 ["isFinite", "isInteger", "isNaN", "isSafeInteger", "parseFloat"]
    ++ functions 2 ["parseInt"] ++ numbers limits
  | maker .table => functions 2 ["groupBy"]
  | maker (.failure .general) =>
    functions 2 ["captureStackTrace"] ++ functions 1 ["isError"] ++ numbers [("stackTraceLimit", 10)]
  | maker _ => []
  | mathematics =>
    functions 0 ["random"]
    ++ functions 1 ["abs", "acos", "acosh", "asin", "asinh", "atan", "atanh", "cbrt", "ceil",
      "clz32", "cos", "cosh", "exp", "expm1", "floor", "fround", "log", "log10", "log1p", "log2",
      "round", "sign", "sin", "sinh", "sqrt", "tan", "tanh", "trunc"]
    ++ functions 2 ["atan2", "hypot", "imul", "max", "min", "pow"] ++ numbers constants
  | json => functions 2 ["parse"] ++ functions 3 ["stringify"]
  | everywhere =>
    functions 0 ["Iterator", "Set", "Symbol", "WeakMap", "WeakSet"]
    ++ functions 1 ["ArrayBuffer", "BigInt", "DataView", "FinalizationRegistry", "Promise",
      "SharedArrayBuffer", "WeakRef", "isFinite", "isNaN", "parseFloat"]
    ++ functions 2 ["Proxy", "RegExp", "parseInt"]
    ++ functions 3 ["BigInt64Array", "BigUint64Array", "Float32Array", "Float64Array", "Int16Array",
      "Int32Array", "Int8Array", "Uint16Array", "Uint32Array", "Uint8Array", "Uint8ClampedArray"]
    ++ functions 7 ["Date"]
  | console =>
    functions 0 ["log", "warn", "dir", "time", "timeEnd", "timeLog", "trace", "assert", "clear",
      "count", "countReset", "group", "groupCollapsed", "groupEnd", "table", "debug", "info",
      "dirxml", "error", "profile", "profileEnd", "timeStamp", "context", "createTask"]

/-- The word for a shelf, by which its members are told apart from others of their names. -/
def word : Shelf → String
  | maker f => f.maker.name
  | mathematics => "Math"
  | json => "JSON"
  | everywhere => "globalThis"
  | console => "console"

/-- The collection of a name. -/
def collection? (name : String) : Option Shelf :=
  [mathematics, json].find? fun s => s.word == name

/-- The functions that make things only when they are told to make them. -/
def strictMakers : List String := [
  "ArrayBuffer", "BigInt64Array", "BigUint64Array", "DataView", "FinalizationRegistry",
  "Float32Array", "Float64Array", "Int16Array", "Int32Array", "Int8Array", "Iterator", "Map",
  "Promise", "Proxy", "Set", "SharedArrayBuffer", "Uint16Array", "Uint32Array", "Uint8Array",
  "Uint8ClampedArray", "WeakMap", "WeakRef", "WeakSet"]

end Shelf

end ConfGraph.Script
