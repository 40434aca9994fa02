import ConfGraph.Script.Run

/-!
# Globals

What scripts see beside their own variables: functions of the host, DSL functions and texts.  All
scripts see the very same functions.

* `Global`: what a script may see.
* `Heap.globalDatum`: what stands for it in the heap.
-/

namespace ConfGraph.Script

/-- What a script may see beside its own variables. -/
inductive Global where
  | console
  | function (callable : Callable) (face : Face)
  | dsl (f : DslFunction)
  | text (s : String)

namespace Heap

/-- The functions of the console. -/
def consoleFunctions (h : Heap) : List String → Fields Datum × Heap
  | [] => ([], h)
  | name :: rest =>
    let (id, h) :=
      h.intern s!"console.{name}"
        (functionCell hostRealm (.library .console name hostRealm) ⟨name, 0, .ordinary⟩)
    let (ds, h) := consoleFunctions h rest
    ((name, .cell id) :: ds, h)

/-- The cell of the console. -/
def consoleCell (h : Heap) : CellId × Heap :=
  let (ds, h) := h.consoleFunctions (Shelf.console.members.map (·.1))
  h.intern "console" ⟨.console, ds, some (hostRealm.root .object), none⟩

/-- The name by which the heap knows a DSL function. -/
def dslKey (f : DslFunction) : String :=
  match f.identity with
  | some identity => s!"dsl {identity}"
  | none => s!"own dsl {f.qualifiedName}"

/-- What can be read of a DSL function. -/
def dslFields (f : DslFunction) : Fields Datum := [
  ("qualifiedName", .str f.qualifiedName), ("dslName", .str f.name),
  ("doc", f.signature.doc.elim .undefined .str)]

/-- The cell of a DSL function. -/
def dslCell (h : Heap) (f : DslFunction) : CellId × Heap :=
  h.intern (dslKey f)
    { functionCell hostRealm (.dsl f) ⟨"invoke", 0, .ordinary⟩ with fields := dslFields f }

/-- What stands for a global in the heap. -/
def globalDatum (h : Heap) : Global → Datum × Heap
  | .console => let (id, h) := h.consoleCell; (.cell id, h)
  | .function c face =>
    let (id, h) := h.intern s!"host {face.name}" (functionCell hostRealm c face)
    (.cell id, h)
  | .dsl f => let (id, h) := h.dslCell f; (.cell id, h)
  | .text s => (.str s, h)

/-- What stands for several globals in the heap. -/
def globalData (h : Heap) : Fields Global → Fields Datum × Heap
  | [] => ([], h)
  | (name, g) :: rest =>
    let (d, h) := h.globalDatum g
    let (ds, h) := globalData h rest
    ((name, d) :: ds, h)

end Heap

end ConfGraph.Script
