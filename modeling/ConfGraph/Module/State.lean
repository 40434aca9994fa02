import ConfGraph.Module.Discovery
import ConfGraph.Script.Global

/-!
# What is remembered of modules

Each module that has been evaluated is remembered with the cell of its module object, so that all
who require it share its exports.  Config modules, libraries and plain files are kept apart.

* `Cache`: modules of one kind.
* `Evaluation`, `Serving`, `Moment`: what is told of evaluations and of what they hand out.
* `State`: the session, the heap and what is remembered.
-/

namespace ConfGraph.Module

open Script

/-- Modules that are remembered, with the cells of their module objects. -/
abbrev Cache := List (String × CellId)

namespace Cache

/-- Whether a module is remembered. -/
def has (c : Cache) (id : String) : Bool := (c.lookup id).isSome

/-- Forgets a module. -/
def forget (c : Cache) (id : String) : Cache := c.filter fun m => m.1 != id

/-- The identifiers of the modules. -/
def ids (c : Cache) : List String := c.map (·.1)

end Cache

/-- One evaluation of a module. -/
structure Evaluation where
  /-- Tells it from others. -/
  number : Nat
  id : String
  isConfig : Bool
  /-- The module object. -/
  cell : CellId
  /-- The file whose text is run. -/
  path : String
deriving DecidableEq, Repr

/-- A module object that is given to somebody who requires a listed module. -/
structure Serving where
  /-- The number of the listing by which it is asked for. -/
  listing : Nat
  /-- The path of the module that asks. -/
  requirer : String
  specifier : String
  /-- The module that is meant. -/
  id : String
  isConfig : Bool
  /-- The module object. -/
  cell : CellId
deriving DecidableEq, Repr

/-- What happens to evaluations and to their module objects. -/
inductive Moment where
  | began (e : Evaluation)
  | completed (e : Evaluation)
  /-- It failed. -/
  | failed (e : Evaluation)
  /-- A module object was given to somebody. -/
  | served (x : Serving)
deriving DecidableEq, Repr

/-- What modules work on. -/
structure State where
  session : Session
  heap : Heap
  /-- The config modules evaluated by the latest load, in the order in which they began. -/
  loaded : Cache
  /-- The other listed modules evaluated so far. -/
  libraries : Cache
  /-- The files outside every listing that have been required so far, by their paths. -/
  plain : Cache
  /-- The modules found by each load so far, in the order of loads. -/
  listings : List (List Listed)
  /-- What has happened to evaluations and module objects so far, which no code can see. -/
  journal : List Moment

/-- The state at the start. -/
def State.start : State := ⟨Session.start, Heap.start, [], [], [], [], []⟩

instance : HasSession State := ⟨State.session, fun s session => { s with session }⟩

instance : HasHeap State := ⟨State.heap, fun s heap => { s with heap }⟩

/-- What is done with a specifier for somebody. -/
abbrev Require := Requirer → Datum → Act State Datum

/-- The name under which a module shows in stack frames. -/
def frameName : String := "Object.<anonymous>"

/-- The exports of a module object. -/
def exportsOf (cell : CellId) : Act State Datum := readField hostRealm (.cell cell) exportsName

/-- The variables of a module: its exports, on which its code works, `require`, the module object and
its path. -/
def moduleVariables (path : String) (exports : Datum) (cell require : CellId) : Fields Datum := [
  (selfWord, exports), (exportsName, exports), ("require", .cell require), ("module", .cell cell),
  ("__filename", .str path), ("__dirname", .str (Path.parent path))]

/-- Makes the exports and the module object of a module. -/
def makeModule : Act State (Datum × CellId) := do
  let exports ← makeCell (Heap.recordCell hostRealm [])
  let cell ← makeCell (Heap.recordCell hostRealm [(exportsName, .cell exports)])
  return (.cell exports, cell)

/-- Makes the `require` of somebody. -/
def makeRequire (name : String) (who : Requirer) : Act State CellId :=
  makeCell (Heap.functionCell hostRealm (.require who) ⟨name, 1, .ordinary⟩)

/-- Makes the data of globals. -/
def makeGlobals (globals : Fields Global) : Act State (Fields Datum) :=
  onHeap fun h => h.globalData globals

/-- Runs an act as called through several calls of the host. -/
def throughHost {α : Type} (calls : Nat) (a : Act State α) : Act State α :=
  Act.inside (fun c => { c with site := List.replicate calls none ++ c.site }) a

end ConfGraph.Module
