import ConfGraph.Fault
import ConfGraph.Graph.Revision

/-!
# Likenesses

A script may put anything in the place of a graph, and may write to a graph what no transaction
would.  What then stands there may still do for a graph: all that is asked of it is either there, or
fails where it is missing.

* `Part`: a thing that may be changed behind the back of every transaction.
* `Entry`, `Table`: what stands in the place of the entities or of the names.
* `Rows`: what stands in the place of the log.
* `Likeness`: what stands in the place of a graph.
-/

namespace ConfGraph

/-! ## 1. Things -/

/-- A thing, and where it comes from unless nobody else can have it. -/
structure Part where
  value : Value
  tag : Option Tag

namespace Part

/-- A thing that nobody else has. -/
def own (v : Value) : Part := ⟨v, none⟩

/-- Nothing. -/
def undefined : Part := own .undefined

instance : Inhabited Part := ⟨undefined⟩

/-- A thing that comes from somewhere.  What has no parts is never told from an equal one. -/
def sharedFrom (t : Tag) (v : Value) : Part := ⟨v, if v.isPrimitive then none else some t⟩

/-- Whether two things are the very same; no number is the same as what is no number. -/
def isSame (p q : Part) : Bool :=
  match p.value, q.value with
  | .undefined, .undefined | .null, .null => true
  | .bool a, .bool b => a == b
  | .num x, .num y => x == y
  | .str s, .str t => s == t
  | _, _ => p.tag.isSome && p.tag == q.tag

/-- Whether two things are the same key of a table, where also what is no number is the same as
itself. -/
def isKey (p q : Part) : Bool :=
  match p.value, q.value with
  | .num x, .num y => x == y || (Number.isNaN x && Number.isNaN y)
  | _, _ => p.isSame q

/-- Whether a thing is there. -/
def isThere (p : Part) : Bool :=
  match p.value with
  | .undefined => false
  | _ => true

/-- Whether a thing is there and is not `null`. -/
def isGiven (p : Part) : Bool :=
  match p.value with
  | .undefined | .null => false
  | _ => true

end Part

/-! ## 2. Fields -/

/-- What something has itself under a name. -/
def Value.own? (v : Value) (name : String) : Option Value :=
  let place (items : List Value) : Option Value :=
    match (Fields.index? name).bind (items[·]?) with
    | some .hole => none
    | found => found
  match v with
  | .record _ fields | .heir fields _ => Fields.get? fields name
  | .list items => if name = "length" then some (.nat items.length) else place items
  | .str s =>
    let chars : List Value := s.toList.map fun c => .str (String.singleton c)
    if name = "length" then some (.nat (Text.units s).length) else place chars
  | v => v.member? name

/-- The canonical text of what something that has no field of a name answers to under it all the
same. -/
def Value.inherited? (name : String) : Value → Option (List Char)
  | .undefined | .null | .hole => none
  | .heir _ parent =>
    if name = "__proto__" then
      match parent with
      | .null => none
      | parent => some parent.canonical
    else ((parent.own? name).map canonical).or (inherited? name parent)
  | .list _ => if name = "__proto__" then some "[]".toList else inheritedText name
  | .function _ | .constant .. =>
    if name = "__proto__" then some "null".toList else inheritedText name
  | _ => inheritedText name

/-! ## 3. Tables -/

/-- What a table has under a key: what the key stands for, and the fields of it that are copied with
it. -/
structure Entry where
  key : Part
  held : Part
  fields : Fields Part

namespace Entry

/-- A record of things. -/
def recordOf (fields : Fields Part) : Value := .record .host (fields.map fun f => (f.1, f.2.value))

/-- An entry of a record that nobody else has. -/
def ofFields (key : Part) (fields : Fields Part) : Entry := ⟨key, .own (recordOf fields), fields⟩

/-- An entry of a thing whose fields nobody else has. -/
def ofPart (key held : Part) : Entry :=
  ⟨key, held, (held.value.fields?.getD []).map fun f => (f.1, .own f.2)⟩

/-- Reads a field of what is held, which must be something. -/
def reading (e : Entry) (name : String) : Except Fault Unit :=
  match e.held.value with
  | .undefined => .error (.noFieldOf "undefined" name)
  | .null => .error (.noFieldOf "null" name)
  | _ => .ok ()

end Entry

/-- The entry of a table under a key. -/
def entryAt (entries : List Entry) (key : Part) : Option Entry :=
  entries.find? fun e => e.key.isKey key

/-- An item of a list, which may be taken for an entry in two ways. -/
structure Item where
  whole : Part
  /-- What it has as fields `0` and `1`, if it has fields. -/
  entry : Option Entry
  /-- Its first two items, if it has items. -/
  pair : Option Entry

/-- What stands in the place of a table. -/
inductive Table where
  | entries (entries : List Entry)
  | list (items : List Item)
  | text (s : String)
  | other (v : Value)

namespace Table

/-- The entries of a table that is gone through, up to the first that is none. -/
def visits : Table → Except Fault (List (Except Fault Entry))
  | entries es => .ok (es.map .ok)
  | list items => .ok (items.map fun i => i.pair.elim (.error (.notIterable ".for")) .ok)
  | text s =>
    .ok (s.toList.map fun c => .ok (.ofPart (.own (.str (String.singleton c))) .undefined))
  | other _ => .error (.notIterable "entities")

/-- What calling something gives that stands in the place of a function. -/
def reply (what : String) (f : Value) (key : Part) : Except Fault Part :=
  match f with
  | .constant _ r => .ok (.own r)
  | .function ⟨_, _, .echo⟩ => .ok key
  | .function _ => .ok .undefined
  | _ => .error (.notCallable what)

/-- What a table of a graph does if something else than a table is asked by the name of a method. -/
def stranger (t : Table) (place method : String) (key : Part) : Except Fault Part :=
  let what := s!"graph.{place}.{method}"
  match t with
  | other .undefined => .error (.noFieldOf "undefined" method)
  | other .null => .error (.noFieldOf "null" method)
  | other v => reply what (v.field method) key
  | _ => .error (.notCallable what)

/-- The entry that a table gives under a key. -/
def get (t : Table) (place : String) (key : Part) : Except Fault (Option Entry) :=
  match t with
  | entries es => .ok (entryAt es key)
  | t => (t.stranger place "get" key).map fun p => if p.isThere then some (.ofPart key p) else none

/-- Whether a table has a key. -/
def has (t : Table) (place : String) (key : Part) : Except Fault Bool :=
  match t with
  | entries es => .ok (entryAt es key).isSome
  | t => (t.stranger place "has" key).map fun p => !p.value.isFalsy

end Table

/-! ## 4. Graphs -/

/-- A record of the log, with where the frames in it come from. -/
structure Row where
  whole : Part
  frames : Option Tag

/-- What stands in the place of the log. -/
structure Rows where
  isList : Bool
  /-- The records, unless it cannot be gone through. -/
  rows : Option (List Row)

/-- What kind of thing stands in the place of a graph. -/
inductive Form where
  /-- Nothing, by the word for it. -/
  | nothing (word : String)
  /-- Something that is no thing with fields, though it may have some. -/
  | simple
  | thing
deriving DecidableEq, Repr

/-- What stands in the place of a graph. -/
structure Likeness where
  serial : Nat
  form : Form
  basisTx : Value
  nextId : Value
  entities : Table
  tempIds : Table
  log : Rows

namespace Likeness

/-- A part of what stands in the place of a graph. -/
def part {α : Type} (l : Likeness) (name : String) (a : α) : Except Fault α :=
  match l.form with
  | .nothing word => .error (.noFieldOf word name)
  | _ => .ok a

/-- Whether a likeness passes for a graph that a function gives back. -/
def passes (l : Likeness) : Bool :=
  l.form == .thing && l.log.isList && match l.entities with
    | .entries _ => true
    | _ => false

end Likeness

end ConfGraph
