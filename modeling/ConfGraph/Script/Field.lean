import ConfGraph.Script.Heap
import ConfGraph.Value.Reader

/-!
# Fields

A field is looked for in a cell itself, then in its parents.  An ancestor answers to the names of its
family besides.  What is written goes to the cell itself, and some fields cannot be written: a
strict script fails there, any other goes on as if nothing had been written.

* `Heap.find`: looks for a field.
* `readField`: reads a field.
* `Heap.write`: writes a field of a cell.
* `writeField`: writes a field.
-/

namespace ConfGraph.Script

/-! ## 1. Looking for fields -/

/-- What there is under a name. -/
inductive Found where
  | datum (d : Datum)
  /-- The function behind a common name, at the ancestor that answers. -/
  | method (root : CellId) (family : Family) (name : String) (arity : Nat)
  /-- The function that makes things of the family of an ancestor. -/
  | maker (root : CellId) (family : Family)
  /-- A function of the standard library, as it is in a realm. -/
  | library (realm : Realm) (shelf : Shelf) (name : String) (arity : Nat)
  /-- A collection of the standard library, as it is in a realm. -/
  | collection (realm : Realm) (shelf : Shelf)
  /-- The record from which things descend that a function makes. -/
  | descent (maker : CellId)
  | nothing
  /-- It cannot be read. -/
  | refused (f : Fault)

namespace Heap

/-- A field that a cell has itself. -/
def own? (c : Cell) (name : String) : Option Datum :=
  match c.body with
  | .list length items =>
    if name = "length" then some (.nat length)
    else
      match Fields.index? name with
      | some i => items.lookup i
      | none => Fields.get? c.fields name
  | .function _ face =>
    if name = "name" then some (.str face.name)
    else if name = "length" then some (.nat face.arity)
    else Fields.get? c.fields name
  | .failure hidden => (Fields.get? hidden name).or (Fields.get? c.fields name)
  | _ => Fields.get? c.fields name

/-- What can be seen of a datum that is no cell, by the family that answers for it. -/
def primitiveFamily : Datum → Family
  | .str _ => .text
  | .num _ => .number
  | .bool _ => .truth
  | _ => .object

/-- The parent of a datum as it is seen in a realm. -/
def parentOf (h : Heap) (r : Realm) : Datum → Option CellId
  | .cell id => (h.get? id).bind (·.parent)
  | d => some (r.root (primitiveFamily d))

/-- How large a table is. -/
def tableSize? (h : Heap) : Datum → Option Nat
  | .cell id =>
    match h.get? id with
    | some ⟨.table entries, _, _, _⟩ => some entries.length
    | _ => none
  | _ => none

/-- The fault of asking a function for who called it. -/
def noCaller : Fault :=
  .typeError ("'caller', 'callee', and 'arguments' properties may not be accessed on strict mode "
    ++ "functions or the arguments objects for calls to them")

/-- The fault of asking something for its size that is no table. -/
def noSize : Fault :=
  .typeError "Method get Map.prototype.size called on incompatible receiver #<Map>"

/-- What an ancestor answers to under a name. -/
def common (h : Heap) (r : Realm) (receiver : Datum) (root : CellId) (f : Family)
    (name : String) : Found :=
  if name = "constructor" then .maker root f
  else if let some d := ancestral? (some f) name then .datum d
  else
    match f.methods.lookup name with
    | some arity => .method root f name arity
    | none =>
      match f, name with
      | .object, "__proto__" => .datum ((h.parentOf r receiver).elim .null .cell)
      | .table, "size" => (h.tableSize? receiver).elim (.refused noSize) fun n => .datum (.nat n)
      | .function, "caller" | .function, "arguments" => .refused noCaller
      | .text, "length" => .datum (.nat 0)
      | _, _ => .nothing

/-- What stands on a shelf under a name. -/
def shelved (r : Realm) (s : Shelf) (name : String) : Found :=
  match s.members.lookup name with
  | some (.function arity) => .library r s name arity
  | some (.number x) => .datum (.num x)
  | none => .nothing

/-- Whether things may descend from a function of the host. -/
def mayHaveHeirs : Callable → Bool
  | .currentGraph | .update | .transact | .resolveId | .attr => true
  | .require _ => true
  | _ => false

/-- What a cell has itself beside its fields. -/
def ownCommon (id : CellId) (c : Cell) (name : String) : Found :=
  match c.body with
  | .function (.maker f r) _ =>
    if name = "prototype" then .datum (.cell (r.root f)) else shelved r (.maker f) name
  | .function callable face =>
    if name = "prototype" && mayHaveHeirs callable && !face.name.isEmpty then .descent id
    else .nothing
  | .collection s r => shelved r s name
  | _ => .nothing

/-- Looks for a field in a cell and in at most `depth` parents. -/
def findFrom (h : Heap) (r : Realm) (receiver : Datum) (name : String) : Nat → CellId → Found
  | 0, _ => .nothing
  | depth + 1, id =>
    match h.get? id with
    | none => .nothing
    | some c =>
      match own? c name, ownCommon id c name with
      | some d, _ => .datum d
      | none, .nothing =>
        let further : Found := c.parent.elim .nothing (findFrom h r receiver name depth)
        match c.home with
        | none => further
        | some f =>
          match h.common r receiver id f name with
          | .nothing => further
          | found => found
      | none, found => found

/-- One character of a text. -/
def character? (s : String) (name : String) : Option Datum :=
  if name = "length" then some (.nat (Text.units s).length)
  else
    ((Fields.index? name).bind ((Text.units s)[·]?)).map fun u =>
      .str (String.singleton (Json.unitChar u))

/-- **Looks for a field** of a datum, as it is seen in a realm. -/
def find (h : Heap) (r : Realm) (d : Datum) (name : String) : Found :=
  let start : CellId := match d with
    | .cell id => id
    | d => r.root (primitiveFamily d)
  let walked := h.findFrom r d name (h.cells.size + 1) start
  match d with
  | .str s => (character? s name).elim walked .datum
  | _ => walked

/-- The realm of an ancestor. -/
def realmOf (root : CellId) (f : Family) : Realm := root - f.index

/-- The cell of what is found; functions are made when they are first found. -/
def obtain (h : Heap) (found : Found) : Datum × Heap :=
  match found with
  | .datum d => (d, h)
  | .method root f name arity =>
    let face : Face := ⟨Family.nameOf name, arity, .ordinary⟩
    let (id, h) :=
      h.intern s!"{root}.{name}" (functionCell (realmOf root f) (.method f name) face)
    (.cell id, h)
  | .maker root f =>
    let r := realmOf root f
    let (id, h) := h.intern s!"{root}.constructor" (functionCell r (.maker f r) f.maker)
    (.cell id, h)
  | .library r s name arity =>
    let (id, h) :=
      h.intern s!"{r}.{s.word}.{name}" (functionCell r (.library s name r) ⟨name, arity, .ordinary⟩)
    (.cell id, h)
  | .collection r s =>
    let (id, h) :=
      h.intern s!"{r}.{s.word}" ⟨.collection s r, [], some (r.root .object), none⟩
    (.cell id, h)
  | .descent maker =>
    let (id, h) := h.intern s!"heirs of {maker}" (recordCell hostRealm [("constructor", .cell maker)])
    (.cell id, h)
  | .nothing | .refused _ => (.undefined, h)

end Heap

variable {σ : Type} [HasHeap σ]

/-- **Reads a field** of a datum in a realm. -/
def readField (r : Realm) (d : Datum) (name : String) : Act σ Datum :=
  match d with
  | .undefined => Act.fail (.noFieldOf "undefined" name)
  | .null => Act.fail (.noFieldOf "null" name)
  | d => do
    let h ← getHeap
    match h.find r d name with
    | .refused f => Act.fail f
    | found => onHeap fun h => h.obtain found

/-! ## 2. Writing fields -/

/-- What comes of writing a field. -/
inductive Written where
  | heap (h : Heap)
  /-- The field cannot be written. -/
  | ignored
  | failed (f : Fault)

namespace Heap

/-- Writes an item of a list; the list grows to hold it. -/
def putItem (i : Nat) (d : Datum) : List (Nat × Datum) → List (Nat × Datum)
  | [] => [(i, d)]
  | (j, e) :: rest =>
    if i = j then (i, d) :: rest
    else if i < j then (i, d) :: (j, e) :: rest
    else (j, e) :: putItem i d rest

/-- The longest that a list may be. -/
def longest : Nat := 4294967295

/-- Changes the length of a list. -/
def resized (c : Cell) (items : List (Nat × Datum)) (length : Float) : Option Cell :=
  match Number.toNat? length with
  | some n =>
    if n ≤ longest then some { c with body := .list n (items.filter fun i => i.1 < n) } else none
  | none => if Number.isZero length then some { c with body := .list 0 [] } else none

/-- Whether an ancestor of records is among a cell and at most `depth` parents. -/
def descends (h : Heap) : Nat → CellId → Bool
  | 0, _ => false
  | depth + 1, id =>
    match h.get? id with
    | none => false
    | some c => c.home == some .object || c.parent.any (descends h depth)

/-- Whether one cell is another one, or among at most `depth` of its parents. -/
def isAbove (h : Heap) (above : CellId) : Nat → CellId → Bool
  | 0, _ => false
  | depth + 1, id => id == above || ((h.get? id).bind (·.parent)).any (isAbove h above depth)

/-- Replaces the parent of a cell, by another cell or by none; anything else is ignored. -/
def setParent (h : Heap) (id : CellId) (c : Cell) (d : Datum) : Written :=
  match d with
  | .null =>
    if c.home == some .object then .heap h else .heap (h.set id { c with parent := none })
  | .cell p =>
    if c.parent == some p then .heap h
    else if c.home == some .object then
      .failed (.typeError
        "Immutable prototype object 'Object.prototype' cannot have their prototype set")
    else if h.isAbove id (h.cells.size + 1) p then
      .failed (.typeError "Cyclic __proto__ value")
    else .heap (h.set id { c with parent := some p })
  | _ => .heap h

/-- Writes a field of a list. -/
def writeItem (h : Heap) (id : CellId) (c : Cell) (length : Nat) (items : List (Nat × Datum))
    (name : String) (d : Datum) : Written :=
  if name = "length" then
    match (h.value d).number?.bind (resized c items) with
    | some c => .heap (h.set id c)
    | none => .failed (.plain "RangeError" "Invalid array length")
  else
    match Fields.index? name with
    | some i =>
      .heap (h.set id { c with body := .list (max length (i + 1)) (putItem i d items) })
    | none => .heap (h.set id { c with fields := Fields.put c.fields name d })

/-- Whether a shelf has a number of a name that stays as it is. -/
def isFixed (s : Shelf) (name : String) : Bool :=
  name != "stackTraceLimit" && match s.members.lookup name with
    | some (.number _) => true
    | _ => false

/-- Whether a field of a cell is kept from being written. -/
def isKept (c : Cell) (name : String) : Bool :=
  match c.body with
  | .function (.maker f _) _ =>
    name = "name" || name = "length" || name = "prototype" || isFixed (.maker f) name
  | .function .. => name = "name" || name = "length"
  | .collection s _ => isFixed s name
  | .table _ => name = "size"
  | _ => false

/-- Whether writing a field of a cell is refused. -/
def isRefused (c : Cell) (name : String) : Bool :=
  match c.body with
  | .function .. => name = "caller" || name = "arguments"
  | _ => false

/-- Whether a cell has a field itself. -/
def hasOwn (h : Heap) (id : CellId) (c : Cell) (name : String) : Bool :=
  (own? c name).isSome
    || (match ownCommon id c name with | .nothing => false | _ => true)
    || (match c.home with
      | some f => (match h.common hostRealm (.cell id) id f name with | .nothing => false | _ => true)
      | none => false)

/-- Whether a field of a locked cell is kept from being written. -/
def isLocked (h : Heap) (id : CellId) (c : Cell) (name : String) : Bool :=
  match h.locks.lookup id with
  | none => false
  | some .frozen => true
  | some _ => !h.hasOwn id c name

/-- **Writes a field of a cell.** -/
def write (h : Heap) (id : CellId) (name : String) (d : Datum) : Written :=
  match h.get? id with
  | none => .ignored
  | some c =>
    if name = "__proto__" && (own? c name).isNone && h.descends (h.cells.size + 1) id then
      if (h.locks.lookup id).isSome then .failed (.typeError "#<Object> is not extensible")
      else h.setParent id c d
    else if isKept c name || h.isLocked id c name then .ignored
    else if isRefused c name && (own? c name).isNone then
      .failed noCaller
    else
      match c.body with
      | .list length items => h.writeItem id c length items name d
      | .failure hidden =>
        if Fields.has hidden name then
          .heap (h.set id { c with body := .failure (Fields.put hidden name d) })
        else .heap (h.set id { c with fields := Fields.put c.fields name d })
      | _ => .heap (h.set id { c with fields := Fields.put c.fields name d })

end Heap

/-- The fault of a strict script that writes a field of a cell that cannot be written. -/
def Heap.keptFault (h : Heap) (id : CellId) (name : String) : Fault :=
  let isOwn := (h.get? id).any fun c => h.hasOwn id c name
  let holder :=
    if (h.value (.cell id)).items?.isSome then "object '[object Array]'" else "object '#<Object>'"
  match (h.locks.lookup id).isSome, isOwn, (h.get? id).map Cell.body with
  | true, false, _ => .typeError s!"Cannot add property {name}, object is not extensible"
  | true, true, some (.record) | true, true, some (.list ..) => .readOnly name holder
  | _, _, some (.collection ..) => .readOnly name "object '#<Object>'"
  | _, _, some (.function _ _) => .readOnly name s!"function '{(h.value (.cell id)).display}'"
  | _, _, _ => .typeError s!"Cannot set property {name} of #<Map> which has only a getter"

/-- The fault of a strict script that writes a field of what is no cell. -/
def simpleFault (d : Datum) (name : String) : Fault :=
  let created (kind text : String) : Fault :=
    .typeError s!"Cannot create property '{name}' on {kind} '{text}'"
  match d with
  | .str s =>
    if (Heap.character? s name).isSome then .readOnly name s!"string '{s}'"
    else created "string" s
  | .num x => created "number" (Value.num x).display
  | .bool b => created "boolean" (Value.bool b).display
  | _ => .noRecord

/-- **Writes a field** of a datum, from a strict script or another one.  What is no cell has no
fields of its own. -/
def writeField (isStrict : Bool) (d : Datum) (name : String) (value : Datum) : Act σ Unit :=
  match d with
  | .undefined => Act.fail (.typeError s!"Cannot set properties of undefined (setting '{name}')")
  | .null => Act.fail (.typeError s!"Cannot set properties of null (setting '{name}')")
  | .cell id => do
    let h ← getHeap
    match h.write id name value with
    | .heap h => onHeap fun _ => ((), h)
    | .ignored => if isStrict then Act.fail (h.keptFault id name) else return ()
    | .failed f => Act.fail f
  | d => if isStrict then Act.fail (simpleFault d name) else return ()

end ConfGraph.Script
