import ConfGraph.Script.Reserved
import ConfGraph.Script.Standard

/-!
# Operators

What the words that stand before a value make of it.

* `removeField`: takes away a field.
* `operate`: what an operator makes of a value.
-/

namespace ConfGraph.Script

variable {σ : Type} [HasSession σ] [HasHeap σ]

/-- The kind of a value, in one word. -/
def kindWord (h : Heap) (d : Datum) : String :=
  match d with
  | .undefined => "undefined"
  | .null => "object"
  | .bool _ => "boolean"
  | .num _ => "number"
  | .str _ => "string"
  | .cell id =>
    match (h.get? id).map Cell.body with
    | some (.function ..) => "function"
    | _ => "object"

/-- A cell without a field of its own. -/
def withoutField (c : Cell) (name : String) : Cell :=
  let c := { c with fields := Fields.erase c.fields name }
  match c.body, Fields.index? name with
  | .list length items, some i => { c with body := .list length (items.filter fun x => x.1 != i) }
  | .failure hidden, _ => { c with body := .failure (Fields.erase hidden name) }
  | _, _ => c

/-- Whether a field of a cell cannot be taken away. -/
def isFast (h : Heap) (id : CellId) (c : Cell) (name : String) : Bool :=
  let isSealed := match h.locks.lookup id with
    | some .sealed | some .frozen => h.hasOwn id c name
    | _ => false
  isSealed
    || match c.body with
      | .list .. => name = "length"
      | .function (.maker ..) _ => name = "prototype"
      | _ => false

/-- **Takes away a field**, for a strict script or another one; tells whether that could be done. -/
def removeField (isStrict : Bool) (d : Datum) (name : String) : Act σ Datum := do
  match d with
  | .undefined | .null => Act.fail .noRecord
  | .cell id => do
    let h ← getHeap
    match h.get? id with
    | none => return .bool true
    | some c =>
      if isFast h id c name then
        if isStrict then Act.fail (.typeError s!"Cannot delete property '{name}' of #<Object>")
        else return .bool false
      else do
        onHeap fun h => ((), h.set id (withoutField c name))
        return .bool true
  | _ => return .bool true

/-- Makes a thing with a function. -/
def makeThing (word : String) (d : Datum) : Act σ Datum := do
  match (← getHeap).body? d with
  | some (.function (.maker f r) _) =>
    if f == .table then Act.fail (.typeError s!"{word} is not a constructor")
    else Standard.make f r []
  | _ => Act.fail (.typeError s!"{word} is not a constructor")

/-- What an operator makes of a value. -/
def operate (op : Operator) (d : Datum) : Act σ Datum :=
  match op with
  | .kind => do return .str (kindWord (← getHeap) d)
  | .nothing => return .undefined
  | .remove => return .bool true
  | .make => makeThing "(intermediate value)" d
  | .wait => return d

end ConfGraph.Script
