import ConfGraph.Decimal.Numeral
import ConfGraph.Value.Fields

/-!
# Values

What a caller may hand to the library: the six kinds of JSON value and, since scripts are callers
too, the absent value, functions, records that inherit from others, and opaque objects.

* `Value`: the values.
* `Value.IsJson`: the values that a JSON text can write.
* `Value.member?`, `Value.field`: what a value answers to under a name.
* `Value.text?`, `Value.display`: a value as plain text inside a message.
* `Value.number?`: a value as a number.
-/

namespace ConfGraph

/-- Which side made a record: the host, or a script in its own evaluation namespace.  A script's
records are told apart in messages. -/
inductive Origin where
  | host
  | script
deriving DecidableEq, Repr

/-- What is known of a function. -/
inductive Nature where
  | ordinary
  /-- It gives back its first argument. -/
  | echo
  /-- It makes plain records. -/
  | recordMaker
deriving DecidableEq, Repr

/-- What shows of a function. -/
structure Face where
  name : String
  /-- The number of its parameters. -/
  arity : Nat
  nature : Nature
deriving DecidableEq, Repr

/-- A value from outside. -/
inductive Value where
  | undefined
  | null
  | bool (b : Bool)
  | num (x : Float)
  | str (s : String)
  | list (items : List Value)
  /-- A position of a list at which nothing was ever put. -/
  | hole
  | record (origin : Origin) (fields : List (String × Value))
  /-- A record that looks for what it does not have in another value. -/
  | heir (fields : List (String × Value)) (parent : Value)
  | function (face : Face)
  /-- A function that always gives the same. -/
  | constant (face : Face) (result : Value)
  /-- An object without readable fields, such as a map: the name of its maker, and its plain
  text. -/
  | opaqueObject (maker text : String)
  /-- A record that holds itself, where it would start over. -/
  | endless

namespace Value

instance : Inhabited Value := ⟨.undefined⟩

/-- A record made by the host, its fields written one after the other. -/
def object (entries : List (String × Value)) : Value := .record .host (Fields.ofList entries)

/-- A whole number. -/
def nat (n : Nat) : Value := .num (Number.ofNat n)

/-- What a value answers to under a name: a field of its own or an inherited one.  What every
object answers to beside that is not told. -/
def member? (name : String) : Value → Option Value
  | .record _ fields => Fields.get? fields name
  | .heir fields parent => (Fields.get? fields name).or (member? name parent)
  | .list items => if name = "length" then some (.nat items.length) else none
  | .function face | .constant face _ =>
    if name = "name" then some (.str face.name)
    else if name = "length" then some (.nat face.arity)
    else none
  | _ => none

/-- What a value answers to under a name; `undefined` where there is nothing. -/
def field (v : Value) (name : String) : Value := (v.member? name).getD .undefined

/-- A field, if it is present and not `undefined`. -/
def field? (v : Value) (name : String) : Option Value :=
  match v.field name with
  | .undefined => none
  | w => some w

/-- The text of a text value. -/
def str? : Value → Option String
  | .str s => some s
  | _ => none

/-- The items of a list value. -/
def items? : Value → Option (List Value)
  | .list items => some items
  | _ => none

/-- The natural number that a numeric value is. -/
def nat? : Value → Option Nat
  | .num x => Number.toNat? x
  | _ => none

/-- The fields that a record has itself. -/
def fields? : Value → Option (List (String × Value))
  | .record _ fields | .heir fields _ => some fields
  | _ => none

/-- Whether a value is an object in the wide sense: a record or an opaque object, not a list. -/
def isObject : Value → Bool
  | .record .. | .heir .. | .opaqueObject .. | .endless => true
  | _ => false

/-- Whether a value can be called. -/
def isFunction : Value → Bool
  | .function _ | .constant .. => true
  | _ => false

/-- Whether a value has no parts. -/
def isPrimitive : Value → Bool
  | .undefined | .null | .bool _ | .num _ | .str _ => true
  | _ => false

mutual

/-- The values that a JSON text can write: no absent value, function, heir or opaque object at any
depth, and only finite numbers. -/
def IsJson : Value → Prop
  | .undefined | .hole | .heir .. | .function _ | .constant .. | .opaqueObject .. | .endless => False
  | .null | .bool _ | .str _ => True
  | .num x => Number.isFinite x = true
  | .list items => AllJson items
  | .record _ fields => FieldsJson fields

/-- Every item is a JSON value. -/
def AllJson : List Value → Prop
  | [] => True
  | v :: rest => v.IsJson ∧ AllJson rest

/-- Every field holds a JSON value. -/
def FieldsJson : List (String × Value) → Prop
  | [] => True
  | (_, v) :: rest => v.IsJson ∧ FieldsJson rest

end

mutual

/-- Whether a value holds itself somewhere. -/
def isEndless : Value → Bool
  | .endless => true
  | .list items => anyEndless items
  | .record _ fields => anyFieldEndless fields
  | .heir fields _ => anyFieldEndless fields
  | _ => false

/-- Whether one of several values holds itself. -/
def anyEndless : List Value → Bool
  | [] => false
  | v :: rest => v.isEndless || anyEndless rest

/-- Whether what a field holds holds itself. -/
def anyFieldEndless : List (String × Value) → Bool
  | [] => false
  | (_, v) :: rest => v.isEndless || anyFieldEndless rest

end

/-! ## Plain text -/

/-- Whether a value counts as false. -/
def isFalsy : Value → Bool
  | .undefined | .hole | .null | .bool false => true
  | .num x => Number.isZero x || Number.isNaN x
  | .str s => s.isEmpty
  | _ => false

/-- A value without parts as plain text. -/
def primitiveText : Value → String
  | .null => "null"
  | .bool b => if b then "true" else "false"
  | .num x => String.ofList (Number.display x)
  | .str s => s
  | _ => "undefined"

/-- What a value gives when it is called without arguments, if it can be called and gives something
without parts. -/
def reply? : Value → Option Value
  | .constant _ r => if r.isPrimitive then some r else none
  | .function ⟨_, _, .echo⟩ => some .undefined
  | _ => none

/-- What a record says of itself when it is asked by one of two names, the second only if the first
gives nothing; the inner `none` if neither does, the outer one if the first name is not its own. -/
def spoken? (v : Value) (first second : String) : Option (Option Value) :=
  (v.member? first).map fun f => f.reply?.or ((v.member? second).bind reply?)

/-- A function as plain text. -/
def Face.text (f : Face) : String :=
  match f.nature with
  | .echo => "g => g"
  | _ => s!"function {f.name}() \x7b [native code] \x7d"

mutual

/-- **A value as plain text**: texts as they are, numbers in their shortest form, the items of a list
joined by commas, records as they say themselves or else by one phrase.  A record that says nothing
has no text, nor has one that inherits from nothing. -/
def text? : Value → Option String
  | .undefined | .hole => some "undefined"
  | .null => some "null"
  | .bool b => some (primitiveText (.bool b))
  | .num x => some (primitiveText (.num x))
  | .str s => some s
  | .list items => (itemTexts? items).map (String.intercalate ",")
  | .record origin fields =>
    ((record origin fields).spoken? "toString" "valueOf").elim (some "[object Object]")
      (·.map primitiveText)
  | .heir fields parent =>
    match (heir fields parent).spoken? "toString" "valueOf" with
    | some said => said.map primitiveText
    | none => if parent.isPrimitive || parent.isFunction then none else parent.text?
  | .function face => some (Face.text face)
  | .constant face _ => some (Face.text face)
  | .opaqueObject _ text => some text
  | .endless => some "[object Object]"

/-- The items of a list as plain text; nothing for one that is absent. -/
def itemTexts? : List Value → Option (List String)
  | [] => some []
  | v :: rest =>
    match v with
    | .undefined | .null | .hole => (itemTexts? rest).map ("" :: ·)
    | v => v.text?.bind fun s => (itemTexts? rest).map (s :: ·)

end

/-- A value as plain text; nothing for one that has none. -/
def display (v : Value) : String := v.text?.getD ""

/-! ## Numbers -/

/-- A value without parts as a number. -/
def primitiveNumber : Value → Float
  | .null => 0
  | .bool b => if b then 1 else 0
  | .num x => x
  | .str s => Number.ofText s
  | _ => Number.nan

/-- A value as one without parts: a record by what it says itself, anything else with parts by its
text.  `none` if there is neither. -/
def primitive? (v : Value) : Option Value :=
  if v.isPrimitive then some v
  else
    match (v.member? "valueOf").bind reply? with
    | some said => some said
    | none => v.text?.map .str

/-- **A value as a number.**  `none` if it has none. -/
def number? (v : Value) : Option Float := v.primitive?.map primitiveNumber

/-- Adds a value to another one: as texts if one of them is a text, and else as numbers. -/
def plus? (v w : Value) : Option Value :=
  match v.primitive?, w.primitive? with
  | some (.str s), some w => some (.str (s ++ w.primitiveText))
  | some v, some (.str t) => some (.str (v.primitiveText ++ t))
  | some v, some w => some (.num (v.primitiveNumber + w.primitiveNumber))
  | _, _ => none

/-! ## Kinds -/

/-- Names under which every record has a function, written or not. -/
def commonFunctions : List String := [
  "constructor", "hasOwnProperty", "isPrototypeOf", "propertyIsEnumerable", "toLocaleString",
  "toString", "valueOf", "__defineGetter__", "__defineSetter__", "__lookupGetter__",
  "__lookupSetter__"]

/-- The word for a kind that has a name: a few names have words of their own. -/
def kindWord (name : String) : String :=
  if name = "nan" then "NaN"
  else if name = "__proto__" then "[object Object]"
  else if name = "constructor" then Face.text ⟨"Object", 1, .recordMaker⟩
  else if commonFunctions.contains name then Face.text ⟨name, 0, .ordinary⟩
  else name

/-- The word for what a maker makes. -/
def makerWord (maker : Value) : String :=
  if maker.isFalsy then "object" else kindWord (maker.field "name").display

/-- The word for a record without a maker of its own, by what is at the end of what it inherits. -/
def rootWord : Value → String
  | .heir _ parent => rootWord parent
  | .record .. => "Object"
  | .list _ => "Array"
  | .function _ | .constant .. => "Function"
  | .opaqueObject maker _ => maker
  | _ => "object"

/-- The name of a value's kind in messages.  A record made by a script is called by its maker, which
a field `constructor` may replace. -/
def kind : Value → String
  | .undefined | .hole => "undefined"
  | .null => "null"
  | .bool _ => "boolean"
  | .num x => if Number.isFinite x then "number" else String.ofList (Number.display x)
  | .str _ => "string"
  | .list _ => "array"
  | .record .host _ => "object"
  | .record .script fields => ((Fields.get? fields "constructor").map makerWord).getD "Object"
  | .heir fields parent =>
    (((heir fields parent).member? "constructor").map makerWord).getD (rootWord parent)
  | .function _ | .constant .. => "function"
  | .opaqueObject maker _ => maker
  | .endless => "object"

end Value

end ConfGraph
