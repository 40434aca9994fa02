import ConfGraph.Value.Canonical

/-!
# Configuration graphs

A configuration graph is an immutable store of entities.  Each entity has an id, handed out from 1
in order of creation, and attributes; an attribute may refer to another entity.  Graphs grow by
transactions, and the graph keeps the log of them.

* `AttrValue`, `Graph`: what is stored.
* `EntityRef`, `OpValue`, `TxOp`: what a transaction may say.
* `Graph.toValue`: a graph as a value; `Graph.fingerprint` digests its canonical text in
  `ConfGraph.Graph.Fingerprint`.
-/

namespace ConfGraph

/-- Entities are numbered from 1. -/
abbrev EntityId := Nat

/-- The name under which an entity's own id is read. -/
def dbId : String := "db/id"

/-- The attribute by which users name an entity; no two entities share a value of it. -/
def configId : String := "config/id"

/-! ## 1. What is stored -/

/-- The value of an attribute. -/
inductive AttrValue where
  | str (s : String)
  | num (x : Float)
  | bool (b : Bool)
  | null
  | list (items : List AttrValue)
  /-- A reference to an entity of the same graph. -/
  | ref (id : EntityId)
  /-- What a script has made of a stored value behind the back of every transaction. -/
  | altered (v : Value)

/-- The attributes of an entity, in property order. -/
abbrev Attrs := Fields AttrValue

/-- The record of one transaction. -/
structure TxRecord where
  /-- The number of the transaction, from 1. -/
  tx : Nat
  /-- How many ops it had. -/
  opCount : Nat
  /-- Who contributed it; `null` if nobody is named. -/
  provenance : Value

/-- A configuration graph. -/
structure Graph where
  /-- How many transactions have been applied. -/
  basisTx : Nat
  /-- The id of the next new entity. -/
  nextId : EntityId
  /-- The entities with their attributes, in order of creation. -/
  entities : List (EntityId × Attrs)
  /-- The names that the latest transaction gave to entities. -/
  tempIds : List (String × EntityId)
  /-- The log, oldest first. -/
  transactions : List TxRecord

/-- The graph without entities. -/
def Graph.empty : Graph := ⟨0, 1, [], [], []⟩

instance : Inhabited Graph := ⟨Graph.empty⟩

/-! ## 2. What a transaction may say -/

/-- How an op names an entity: by its id, by a name of the same transaction, or as the first entity
that has a value of an attribute. -/
inductive EntityRef where
  | id (n : EntityId)
  | tempId (name : String)
  | lookup (attr : String) (value : AttrValue)

/-- A value in an op, whose references are still to be resolved. -/
inductive OpValue where
  | str (s : String)
  | num (x : Float)
  | bool (b : Bool)
  | null
  | list (items : List OpValue)
  | ref (target : EntityRef)

/-- One op of a transaction. -/
inductive TxOp where
  /-- Makes an entity, or adds to the one that has the given config id. -/
  | create (tempId : Option String) (attrs : Fields OpValue)
  /-- Sets one attribute. -/
  | assert (entity : EntityRef) (attr : String) (value : OpValue)
  /-- Removes one attribute. -/
  | retract (entity : EntityRef) (attr : String)

/-! ## 3. As values -/

mutual

/-- A stored value as a value. -/
def AttrValue.toValue : AttrValue → Value
  | .str s => .str s
  | .num x => .num x
  | .bool b => .bool b
  | .null => .null
  | .list items => .list (AttrValue.toValues items)
  | .ref id => .record .host [("ref", .nat id)]
  | .altered v => v

/-- Stored values as values. -/
def AttrValue.toValues : List AttrValue → List Value
  | [] => []
  | a :: rest => a.toValue :: AttrValue.toValues rest

end

/-- A reference in an op as a value. -/
def EntityRef.toValue : EntityRef → Value
  | .id n => .nat n
  | .tempId name => .str name
  | .lookup attr value => .record .host [("attr", .str attr), ("value", value.toValue)]

mutual

/-- A value in an op as a value. -/
def OpValue.toValue : OpValue → Value
  | .str s => .str s
  | .num x => .num x
  | .bool b => .bool b
  | .null => .null
  | .list items => .list (OpValue.toValues items)
  | .ref target => .record .host [("ref", target.toValue)]

/-- Values in an op as values. -/
def OpValue.toValues : List OpValue → List Value
  | [] => []
  | a :: rest => a.toValue :: OpValue.toValues rest

end

/-- An op as a value. -/
def TxOp.toValue : TxOp → Value
  | .create tempId attrs =>
    .record .host <|
      ("op", .str "create") ::
      ((tempId.map fun t => [("tempId", Value.str t)]).getD []
        ++ [("attrs", .record .host (attrs.map fun f => (f.1, f.2.toValue)))])
  | .assert entity attr value =>
    .record .host [("op", .str "assert"), ("entity", entity.toValue), ("attr", .str attr),
      ("value", value.toValue)]
  | .retract entity attr =>
    .record .host [("op", .str "retract"), ("entity", entity.toValue), ("attr", .str attr)]

/-- The attributes of an entity as a value. -/
def Attrs.toValue (attrs : Attrs) : Value :=
  .record .host (attrs.map fun f => (f.1, f.2.toValue))

namespace Graph

/-- An entity as a value: its id under `db/id`, and its attributes. -/
def entityValue (e : EntityId × Attrs) : Value :=
  .object ((dbId, .nat e.1) :: e.2.map fun f => (f.1, f.2.toValue))

/-- A record of the log as a value. -/
def recordValue (r : TxRecord) : Value :=
  .record .host [("tx", .nat r.tx), ("opCount", .nat r.opCount), ("provenance", r.provenance)]

/-- A graph as a value: the number of transactions, the entities and the log. -/
def toValue (g : Graph) : Value :=
  .record .host [
    ("basisTx", .nat g.basisTx),
    ("entities", .list (g.entities.map entityValue)),
    ("transactions", .list (g.transactions.map recordValue))]

end Graph

@[simp] theorem AttrValue.toValues_eq_map (items : List AttrValue) :
    AttrValue.toValues items = items.map AttrValue.toValue := by
  induction items with
  | nil => rfl
  | cons a rest ih => simp [AttrValue.toValues, ih]

@[simp] theorem OpValue.toValues_eq_map (items : List OpValue) :
    OpValue.toValues items = items.map OpValue.toValue := by
  induction items with
  | nil => rfl
  | cons a rest ih => simp [OpValue.toValues, ih]

end ConfGraph
