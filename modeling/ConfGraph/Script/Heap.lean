import Std.Data.TreeMap
import ConfGraph.Dsl.Basic
import ConfGraph.Script.Library
import ConfGraph.Script.Program
import ConfGraph.Text.Units

/-!
# The heap of scripts

What scripts work with may be shared and changed: lists, records and functions stand in cells, and
whoever holds a cell sees its changes.  Modules hand out their exports in this way.  What a cell
does not have itself it looks for in its parent.

Every script has ancestors of its own for the things it makes, one for each family, which stand side
by side and make up its realm.  The host has the first realm of all.

* `Datum`, `Cell`, `Heap`: what scripts work with.
* `Heap.adopt`: brings a value from outside into the heap.
* `Heap.value`: what stands behind a datum, as a value.
-/

namespace ConfGraph.Script

/-- Cells are named by their position in order of making. -/
abbrev CellId := Nat

/-- The ancestors of a script's things, named by the first of them. -/
abbrev Realm := CellId

/-- The ancestor of the things of a family. -/
def Realm.root (r : Realm) (f : Family) : CellId := r + f.index

/-- The realm of the host. -/
def hostRealm : Realm := 0

/-- What the code of a program, or of a function in it, is known by. -/
structure Header where
  /-- The name under which it shows in stack frames. -/
  fn : Option String
  /-- The file name under which it shows in stack frames. -/
  file : String
  realm : Realm
  isStrict : Bool

/-- Where in a program a piece of code stands, and the cell of the variables it sees. -/
structure Place where
  bindings : CellId
  header : Header
  spot : Spot

/-- The place after a text that stands at a place. -/
def Place.past (p : Place) (text : List Char) : Place := { p with spot := p.spot.past text }

/-- A place as a stack frame. -/
def Place.frame (p : Place) : Frame := ⟨p.header.fn, p.header.file, p.spot.line, p.spot.column⟩

/-- Who requires something: a file at a path, perhaps as a module of a listing. -/
structure Requirer where
  path : String
  /-- The number of the listing. -/
  listing : Option Nat

/-- What a script can call. -/
inductive Callable where
  | currentGraph
  | update
  | transact
  | resolveId
  | attr
  /-- Requires what a specifier means to somebody. -/
  | require (who : Requirer)
  | dsl (f : DslFunction)
  | identity
  /-- An expression to be evaluated where it stands. -/
  | thunk (place : Place) (result : Expr)
  /-- The function behind a common name, which works on a receiver. -/
  | method (family : Family) (name : String)
  /-- The function that makes things of a family. -/
  | maker (family : Family) (realm : Realm)
  /-- A function of the standard library. -/
  | library (shelf : Shelf) (name : String) (realm : Realm)
  /-- A function that does nothing a script can see. -/
  | silent

/-- What a variable, a field or an argument may hold. -/
inductive Datum where
  | undefined
  | null
  | bool (b : Bool)
  | num (x : Float)
  | str (s : String)
  | cell (id : CellId)

instance : Inhabited Datum := ⟨.undefined⟩

/-- A whole number. -/
def Datum.nat (n : Nat) : Datum := .num (Number.ofNat n)

/-- What a cell is beside its fields. -/
inductive Body where
  | record
  /-- The items of a list by their positions, in order; at other positions there is nothing. -/
  | list (length : Nat) (items : List (Nat × Datum))
  | function (callable : Callable) (face : Face)
  /-- An error, with the fields that do not show. -/
  | failure (hidden : Fields Datum)
  /-- A collection of the standard library. -/
  | collection (shelf : Shelf) (realm : Realm)
  /-- The entities of a graph, or the names that its latest transaction gave. -/
  | table (entries : List Entry)
  | console

/-- What stands in a cell. -/
structure Cell where
  body : Body
  fields : Fields Datum
  /-- Where fields are looked for that are not there. -/
  parent : Option CellId
  /-- The family of which this is the ancestor. -/
  home : Option Family

/-- What may not be done to a cell any more. -/
inductive Lock where
  /-- Nothing is added. -/
  | closed
  /-- Nothing is added or taken away. -/
  | sealed
  /-- Nothing is changed. -/
  | frozen
deriving DecidableEq, Repr

/-- The position of a lock from the weakest to the strongest. -/
def Lock.rank : Lock → Nat
  | closed => 1
  | sealed => 2
  | frozen => 3

/-- All cells, and what is known of them. -/
structure Heap where
  /-- In order of making. -/
  cells : Array Cell
  /-- Functions of the host, and functions behind common names, which are made when they are first
  looked for. -/
  known : List (String × CellId)
  /-- Cells that stand for what graphs hold, by where it comes from. -/
  links : List (Tag × CellId)
  /-- What stands for graphs, or what scripts have put in their place, by serial numbers. -/
  graphs : List (Nat × Datum)
  /-- The cells that scripts have locked, the latest locks first. -/
  locks : List (CellId × Lock)

namespace Heap

/-- Makes a cell. -/
def make (h : Heap) (c : Cell) : CellId × Heap := (h.cells.size, { h with cells := h.cells.push c })

/-- What stands in a cell. -/
def get? (h : Heap) (id : CellId) : Option Cell := h.cells[id]?

/-- Replaces what stands in a cell. -/
def set (h : Heap) (id : CellId) (c : Cell) : Heap :=
  { h with cells := h.cells.setIfInBounds id c }

/-- Locks a cell. -/
def lock (h : Heap) (id : CellId) (l : Lock) : Heap :=
  if ((h.locks.lookup id).map Lock.rank).getD 0 < l.rank then
    { h with locks := (id, l) :: h.locks }
  else h

/-! ## 1. Realms -/

/-- The ancestor of a family in a realm. -/
def ancestor (r : Realm) (f : Family) : Cell where
  body :=
    match f with
    | .list => .list 0 []
    | .function => .function .silent ⟨"", 0, .ordinary⟩
    | _ => .record
  fields := []
  parent := f.above?.map r.root
  home := some f

/-- Makes a realm. -/
def makeRealm (h : Heap) : Realm × Heap :=
  let r : Realm := h.cells.size
  (r, { h with cells := Family.all.foldl (fun cells f => cells.push (ancestor r f)) h.cells })

/-- A heap with nothing in it but the realm of the host. -/
def start : Heap := (makeRealm ⟨#[], [], [], [], []⟩).2

/-- A record in a realm. -/
def recordCell (r : Realm) (fields : Fields Datum) : Cell :=
  ⟨.record, fields, some (r.root .object), none⟩

/-- A list in a realm. -/
def listCell (r : Realm) (items : List Datum) : Cell :=
  ⟨.list items.length (items.zipIdx.map fun i => (i.2, i.1)), [], some (r.root .list), none⟩

/-- An error in a realm, with the fields that do not show. -/
def failureCell (r : Realm) (k : Failure) (hidden : Fields Datum) : Cell :=
  ⟨.failure hidden, [], some (r.root (.failure k)), none⟩

/-- A function in a realm. -/
def functionCell (r : Realm) (c : Callable) (face : Face) : Cell :=
  ⟨.function c face, [], some (r.root .function), none⟩

/-- The cell of a name, which is made if there is none. -/
def intern (h : Heap) (key : String) (c : Cell) : CellId × Heap :=
  match h.known.lookup key with
  | some id => (id, h)
  | none =>
    let (id, h) := h.make c
    (id, { h with known := (key, id) :: h.known })

/-! ## 2. From outside -/

/-- The positions of a list at which there is something, from one on. -/
def placed (i : Nat) : List (Option Datum) → List (Nat × Datum)
  | [] => []
  | some d :: rest => (i, d) :: placed (i + 1) rest
  | none :: rest => placed (i + 1) rest

mutual

/-- Brings a value into the heap, as things of a realm. -/
def adopt (h : Heap) (r : Realm) : Value → Datum × Heap
  | .undefined | .hole => (.undefined, h)
  | .null => (.null, h)
  | .bool b => (.bool b, h)
  | .num x => (.num x, h)
  | .str s => (.str s, h)
  | .list items =>
    let (ds, h) := adoptItems h r items
    let (id, h) := h.make ⟨.list ds.length (placed 0 ds), [], some (r.root .list), none⟩
    (.cell id, h)
  | .record _ fields =>
    let (ds, h) := adoptFields h r fields
    let (id, h) := h.make (recordCell r ds)
    (.cell id, h)
  | .heir fields parent =>
    let (ds, h) := adoptFields h r fields
    let (p, h) := adopt h r parent
    let (id, h) := h.make ⟨.record, ds, match p with | .cell p => some p | _ => none, none⟩
    (.cell id, h)
  | .function face | .constant face _ =>
    let (id, h) := h.make (functionCell r .silent face)
    (.cell id, h)
  | .opaqueObject .. | .endless =>
    let (id, h) := h.make (recordCell r [])
    (.cell id, h)

/-- Brings the items of a list into the heap; nothing for a position at which there is nothing. -/
def adoptItems (h : Heap) (r : Realm) : List Value → List (Option Datum) × Heap
  | [] => ([], h)
  | v :: rest =>
    let (d, h) := adopt h r v
    let (ds, h) := adoptItems h r rest
    ((match v with | .hole => none | _ => some d) :: ds, h)

/-- Brings the fields of a record into the heap. -/
def adoptFields (h : Heap) (r : Realm) : List (String × Value) → Fields Datum × Heap
  | [] => ([], h)
  | (name, v) :: rest =>
    let (d, h) := adopt h r v
    let (ds, h) := adoptFields h r rest
    ((name, d) :: ds, h)

end

/-! ## 3. To outside -/

/-- Whether a cell is an ancestor on which nothing has been written, nor on its own ancestors. -/
def isPlainAncestor (h : Heap) (id : CellId) : Bool :=
  match h.get? id with
  | none => false
  | some c =>
    c.home.isSome && c.fields.isEmpty
      && c.parent.all fun p => (h.get? p).any fun c => c.parent.isNone && c.fields.isEmpty

/-- Who counts as the maker of what descends from an ancestor. -/
def originOf (root : CellId) : Origin :=
  if root < hostRealm + Family.all.length then .host else .script

/-- How often a cell may come up inside itself before it counts as endless. -/
def rounds : Nat := 2

/-- So many positions of a list from one on, with what is there. -/
def spread (i : Nat) : Nat → List (Nat × Value) → List Value
  | 0, _ => []
  | n + 1, [] => .hole :: spread (i + 1) n []
  | n + 1, (j, v) :: rest =>
    if i = j then v :: spread (i + 1) n rest else .hole :: spread (i + 1) n ((j, v) :: rest)

mutual

/-- What an expression that calls nothing gives, as a value, if the values of variables are known. -/
def resultOf (held : String → Option Value) : Expr → Option Value
  | .undefined => some .undefined
  | .null => some .null
  | .bool b => some (.bool b)
  | .num x => some (.num x)
  | .str s => some (.str s)
  | .variable name => held name
  | .list items => (resultsOf held items).map .list
  | .record entries => (entryResultsOf held entries).map (.record .script)
  | .identity => some (.function ⟨"", 1, .echo⟩)
  | .constantly result =>
    some ((resultOf held result).elim (.function ⟨"", 0, .ordinary⟩)
      (.constant ⟨"", 0, .ordinary⟩))
  | .field .. | .call .. => none

/-- What expressions that call nothing give. -/
def resultsOf (held : String → Option Value) : List Expr → Option (List Value)
  | [] => some []
  | e :: rest =>
    match resultOf held e, resultsOf held rest with
    | some v, some vs => some (v :: vs)
    | _, _ => none

/-- What the entries of a record give that call nothing. -/
def entryResultsOf (held : String → Option Value) :
    List (String × Expr) → Option (List (String × Value))
  | [] => some []
  | (name, e) :: rest =>
    match resultOf held e, entryResultsOf held rest with
    | some v, some vs => some ((name, v) :: vs)
    | _, _ => none

end

/-- A function as a value, if what stands behind data is known. -/
def functionValue (h : Heap) (behind : Datum → Value) (c : Callable) (face : Face) : Value :=
  match c with
  | .thunk place result =>
    let held (name : String) : Option Value :=
      ((h.get? place.bindings).bind fun c => Fields.get? c.fields name).map behind
    (resultOf held result).elim (.function face) (.constant face)
  | _ => .function face

/-- What an ancestor of errors says itself under a name. -/
def ancestral? (home : Option Family) (name : String) : Option Datum :=
  match home, name with
  | some (.failure k), "name" => some (.str k.name)
  | some (.failure _), "message" => some (.str "")
  | _, _ => none

/-- What a cell or one of at most `depth` parents says of an error under a name. -/
def told (h : Heap) (name : String) : Nat → CellId → Option Datum
  | 0, _ => none
  | depth + 1, id =>
    (h.get? id).bind fun c =>
      let hidden : Fields Datum := match c.body with
        | .failure hidden => hidden
        | _ => []
      ((Fields.get? hidden name).or (Fields.get? c.fields name)).or
        ((ancestral? c.home name).or (c.parent.bind (told h name depth)))

/-- An error as plain text: its name and its message. -/
def failureText (h : Heap) (behind : Datum → Value) (id : CellId) : String :=
  let part (name missing : String) : String :=
    match (h.told name (h.cells.size + 1) id).map behind with
    | none | some .undefined => missing
    | some v => v.display
  let name := part "name" (Failure.name .general)
  let message := part "message" ""
  if name = "" then message
  else if message = "" then name
  else s!"{name}: {message}"

/-- A record as a value. -/
def recordValue (h : Heap) (behind : Datum → Value) (id : CellId) (c : Cell) : Value :=
  let fields := c.fields.map fun f => (f.1, behind f.2)
  match c.home, c.parent with
  | some .object, _ => .record (originOf id) fields
  | some (.failure k), _ => .opaqueObject k.name (h.failureText behind id)
  | some f, _ => .opaqueObject f.maker.name f.blankText
  | none, none => .heir fields .null
  | none, some p =>
    if h.isPlainAncestor p && (h.get? p).any (·.home == some .object) then
      .record (originOf p) fields
    else .heir fields (behind (.cell p))

/-- What stands in a cell, as a value. -/
def cellValue (h : Heap) (behind : Datum → Value) (id : CellId) (c : Cell) : Value :=
  match c.body with
  | .list length items => .list (spread 0 length (items.map fun i => (i.1, behind i.2)))
  | .function callable face => functionValue h behind callable face
  | .failure _ =>
    let kind := ((c.parent.bind h.get?).bind (·.home)).elim "Object" fun f => f.maker.name
    let v : Value := .opaqueObject kind (h.failureText behind id)
    if c.fields.isEmpty then v else .heir (c.fields.map fun f => (f.1, behind f.2)) v
  | .collection shelf _ => .opaqueObject "Object" s!"[object {shelf.word}]"
  | .table _ => .opaqueObject "Map" "[object Map]"
  | .console => .opaqueObject "Object" s!"[object {Shelf.console.word}]"
  | .record => recordValue h behind id c

/-- The variables that an expression reads outside all functions in it. -/
def heldNames : Expr → List String
  | .variable name => [name]
  | .list items => heldNamesOf items
  | .record entries => heldNamesIn entries
  | .constantly result => heldNames result
  | _ => []
where
  /-- The variables that expressions read. -/
  heldNamesOf : List Expr → List String
    | [] => []
    | e :: rest => heldNames e ++ heldNamesOf rest
  /-- The variables that the entries of a record read. -/
  heldNamesIn : List (String × Expr) → List String
    | [] => []
    | (_, e) :: rest => heldNames e ++ heldNamesIn rest

/-- What the value of a cell may depend on. -/
def parts (h : Heap) (id : CellId) (c : Cell) : List Datum :=
  let shown := c.fields.map (·.2) ++ (c.parent.map Datum.cell).toList
  match c.body with
  | .list _ items => items.map (·.2)
  | .function (.thunk place result) _ =>
    let bindings := ((h.get? place.bindings).map (·.fields)).getD []
    (heldNames result).filterMap (Fields.get? bindings)
  | .function .. => []
  | .failure _ =>
    let depth := h.cells.size + 1
    ((h.told "name" depth id).toList ++ (h.told "message" depth id).toList) ++ c.fields.map (·.2)
  | .record =>
    match c.home with
    | some (.failure _) =>
      let depth := h.cells.size + 1
      (h.told "name" depth id).toList ++ (h.told "message" depth id).toList
    | _ => shown
  | _ => []

/-- The values of the cells that have been gone through. -/
abbrev Seen := Std.TreeMap CellId Value

/-- The value of a datum if those of cells are known. -/
def Seen.value (seen : Seen) : Datum → Value
  | .undefined => .undefined
  | .null => .null
  | .bool b => .bool b
  | .num x => .num x
  | .str s => .str s
  | .cell id => (seen.get? id).getD .endless

/-- What a walk through cells has found: the values of cells that do not lead back to themselves, and
those of the parts of the cell at hand. -/
structure Walk where
  /-- Values that hold wherever a cell comes up. -/
  whole : Seen
  /-- Values of the parts of the cell at hand. -/
  here : Seen
  /-- Whether none of them was cut short. -/
  isWhole : Bool

/-- What stands in a cell, as a value, through at most `depth` cells, of which `path` have been gone
through; the values of cells that come up again are taken from those found before. -/
def valueAt (h : Heap) : Nat → List CellId → CellId → Seen → Value × Bool × Seen
  | 0, _, _, whole => (.endless, false, whole)
  | depth + 1, path, id, whole =>
    match whole.get? id, h.get? id with
    | some v, _ => (v, true, whole)
    | none, none => (.undefined, true, whole)
    | none, some c =>
      if path.count id ≥ rounds then (.endless, false, whole)
      else
        let visit (w : Walk) (d : Datum) : Walk :=
          match d with
          | .cell part =>
            if w.here.contains part then w
            else
              let (v, isWhole, whole) := valueAt h depth (id :: path) part w.whole
              ⟨whole, w.here.insert part v, w.isWhole && isWhole⟩
          | _ => w
        let w := (h.parts id c).foldl visit ⟨whole, ∅, true⟩
        let v := cellValue h w.here.value id c
        (v, w.isWhole, if w.isWhole then w.whole.insert id v else w.whole)

/-- **What stands behind a datum, as a value**, which is cut short where it holds itself. -/
def value (h : Heap) (d : Datum) : Value :=
  match d with
  | .cell id => (h.valueAt (rounds * h.cells.size + 1) [] id ∅).1
  | d => (∅ : Seen).value d

end Heap

/-! ## 4. States that carry a heap -/

/-- A state of which a heap is a part. -/
class HasHeap (σ : Type) where
  heap : σ → Heap
  withHeap : σ → Heap → σ

variable {σ : Type} [HasHeap σ]

/-- An act on the heap. -/
def onHeap {α : Type} (f : Heap → α × Heap) : Act σ α := fun _ s =>
  let (a, h) := f (HasHeap.heap s)
  (.ok a, HasHeap.withHeap s h)

/-- The heap. -/
def getHeap : Act σ Heap := fun _ s => (.ok (HasHeap.heap s), s)

/-- Makes a cell. -/
def makeCell (c : Cell) : Act σ CellId := onHeap fun h => h.make c

/-- Brings a value into the heap, as things of a realm. -/
def adoptIn (r : Realm) (v : Value) : Act σ Datum := onHeap fun h => h.adopt r v

/-- Brings a value of the host into the heap. -/
def adopt (v : Value) : Act σ Datum := adoptIn hostRealm v

/-- What stands behind a datum, as a value. -/
def valueOf (d : Datum) : Act σ Value := do
  let h ← getHeap
  return h.value d

end ConfGraph.Script
