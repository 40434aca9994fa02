import ConfGraph.Graph.Basic
import ConfGraph.Shape.Basic

/-!
# Reading transactions

The shapes of ops, of their values and of their references.  Fields that an op does not know are
dropped.

* `opsShape`: a list of ops.
* `attrsShape`: the attributes of a create.
-/

namespace ConfGraph

open Shape

/-! ## 1. Values and references -/

/-- A stored reference: a record with a positive `ref`. -/
def storedRefShape : Shape AttrValue := object fun v => (field "ref" positive v).map .ref

mutual

/-- A stored value. -/
def attrValueShape : Value → Checked AttrValue
  | .list items => oneOf [(gather (attrValueOutcomes 0 items)).map .list]
  | v =>
    oneOf [(text v).map .str, (number v).map .num, (boolean v).map .bool,
      (null v).map fun _ => .null, storedRefShape v]

/-- The outcomes for the items of a list of stored values. -/
def attrValueOutcomes : Nat → List Value → List (Checked AttrValue)
  | _, [] => []
  | i, v :: rest => under (toString i) (attrValueShape v) :: attrValueOutcomes (i + 1) rest

end

/-- A lookup: an attribute and a stored value. -/
def lookupShape : Shape EntityRef := object fun v =>
  (both (field "attr" nonEmptyText v) (field "value" attrValueShape v)).map fun p =>
    .lookup p.1 p.2

/-- A reference to an entity. -/
def entityRefShape : Shape EntityRef := fun v =>
  oneOf [(positive v).map .id, (nonEmptyText v).map .tempId, lookupShape v]

/-- A reference in an op: a record with any reference under `ref`. -/
def opRefShape : Shape OpValue := object fun v => (field "ref" entityRefShape v).map .ref

mutual

/-- A value in an op. -/
def opValueShape : Value → Checked OpValue
  | .list items => oneOf [(gather (opValueOutcomes 0 items)).map .list]
  | v =>
    oneOf [(text v).map .str, (number v).map .num, (boolean v).map .bool,
      (null v).map fun _ => .null, opRefShape v]

/-- The outcomes for the items of a list of values in an op. -/
def opValueOutcomes : Nat → List Value → List (Checked OpValue)
  | _, [] => []
  | i, v :: rest => under (toString i) (opValueShape v) :: opValueOutcomes (i + 1) rest

end

/-! ## 2. Ops -/

/-- The attributes of a create. -/
def attrsShape : Shape (Fields OpValue) := entries opValueShape

/-- The op `create`. -/
def createShape : Shape TxOp := fun v =>
  (both (field "tempId" (optional nonEmptyText) v) (field "attrs" attrsShape v)).map fun p =>
    .create p.1 p.2

/-- The op `assert`. -/
def assertShape : Shape TxOp := fun v =>
  (both (field "entity" entityRefShape v)
    (both (field "attr" nonEmptyText v) (field "value" opValueShape v))).map fun p =>
      .assert p.1 p.2.1 p.2.2

/-- The op `retract`. -/
def retractShape : Shape TxOp := fun v =>
  (both (field "entity" entityRefShape v) (field "attr" nonEmptyText v)).map fun p =>
    .retract p.1 p.2

/-- One op, told apart by its tag. -/
def opShape : Shape TxOp := object fun v =>
  match v.field "op" with
  | .str "create" => createShape v
  | .str "assert" => assertShape v
  | .str "retract" => retractShape v
  | _ => under "op" (fail (.unknownTag ["create", "assert", "retract"]))

/-- A list of ops. -/
def opsShape : Shape (List TxOp) := list opShape

end ConfGraph
