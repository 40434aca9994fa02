import ConfGraph.Likeness.Transaction

/-!
# Graphs as likenesses

Every graph is a likeness of itself.  A likeness is taken for a graph only if nothing about it could
not have come from transactions: then both say the same to whoever asks.

* `Revision.likeness`: a graph as a likeness.
* `Likeness.revision?`: the graph that a likeness is.
-/

namespace ConfGraph

/-! ## 1. Stored values -/

mutual

/-- A value as a stored one, whatever it is. -/
def AttrValue.ofValue : Value → AttrValue
  | .str s => .str s
  | .num x => .num x
  | .bool b => .bool b
  | .null => .null
  | .list items => .list (AttrValue.ofItems items)
  | .record _ [("ref", .num x)] =>
    match Number.toNat? x with
    | some n => .ref n
    | none => .altered (.record .host [("ref", .num x)])
  | v => .altered v

/-- Values as stored ones. -/
def AttrValue.ofItems : List Value → List AttrValue
  | [] => []
  | v :: rest => AttrValue.ofValue v :: AttrValue.ofItems rest

end

/-! ## 2. From graphs -/

namespace Revision

/-- The attributes of an entity as things. -/
def parts (r : Revision) (e : EntityId) (attrs : Attrs) : Fields Part :=
  attrs.map fun a => (a.1, .sharedFrom (r.tag (.attr e a.1)) a.2.toValue)

/-- The records of the log from a position on. -/
def rowsFrom (r : Revision) (i : Nat) : List TxRecord → List Row
  | [] => []
  | record :: rest =>
    ⟨.sharedFrom (r.tag (.record i)) (Graph.recordValue record), some (r.tag (.frames i))⟩
      :: rowsFrom r (i + 1) rest

/-- **A graph as a likeness.** -/
def likeness (r : Revision) : Likeness where
  serial := r.serial
  form := .thing
  basisTx := .nat r.graph.basisTx
  nextId := .nat r.graph.nextId
  entities :=
    .entries (r.graph.entities.map fun e => .ofFields (.own (.nat e.1)) (r.parts e.1 e.2))
  tempIds :=
    .entries (r.graph.tempIds.map fun t => .ofPart (.own (.str t.1)) (.own (.nat t.2)))
  log := ⟨true, some (r.rowsFrom 0 r.graph.transactions)⟩

end Revision

/-! ## 3. To graphs -/

/-- Numbers of transactions and entities stay below this bound, so that counting on is exact. -/
def countBound : Nat := Number.fractionSize

/-- A number that a transaction may have counted to. -/
def Value.count? (v : Value) : Option Nat := v.nat?.filter (· < countBound)

/-- The attributes of an entity, if all are there. -/
def storedFields (fields : Fields Part) : Option Attrs :=
  fields.mapM fun f => if f.2.isThere then some (f.1, .ofValue f.2.value) else none

/-- The entity that an entry is, if its record is its own and its id was handed out. -/
def Entry.entity? (nextId : Nat) (e : Entry) : Option (EntityId × Attrs) :=
  match e.key.value.count?, e.held.value, e.held.tag with
  | some id, .record .., none =>
    if 0 < id && id < nextId then (storedFields e.fields).map fun attrs => (id, attrs) else none
  | _, _, _ => none

/-- Where the attributes of an entry come from. -/
def Entry.tags (e : Entry) : List (Slot × Tag) :=
  match e.key.value.nat? with
  | none => []
  | some id => e.fields.filterMap fun f => f.2.tag.map fun t => (.attr id f.1, t)

/-- The name that an entry gives. -/
def Entry.name? (e : Entry) : Option (String × EntityId) :=
  match e.key.value, e.held.value.count? with
  | .str name, some id => some (name, id)
  | _, _ => none

/-- The record of the log that a row is, if it has what a record has and nothing else. -/
def Row.record? (row : Row) : Option TxRecord :=
  match row.whole.value with
  | .record _ [("tx", tx), ("opCount", opCount), ("provenance", provenance)] =>
    match tx.count?, opCount.count?, provenance with
    | _, _, .undefined => none
    | some tx, some opCount, provenance => some ⟨tx, opCount, provenance⟩
    | _, _, _ => none
  | _ => none

/-- Where the records of a log come from, and the frames in them, from a position on. -/
def rowTags (i : Nat) : List Row → List (Slot × Tag)
  | [] => []
  | row :: rest =>
    (row.whole.tag.toList.map fun t => (Slot.record i, t))
      ++ (row.frames.toList.map fun t => (Slot.frames i, t)) ++ rowTags (i + 1) rest

namespace Likeness

/-- The entities of a likeness, if they are those of a graph that hands out an id next. -/
def entities? (l : Likeness) (nextId : Nat) : Option (List (EntityId × Attrs)) :=
  match l.entities with
  | .entries es => es.mapM (Entry.entity? nextId)
  | _ => none

/-- The names of a likeness, if they are those of a graph. -/
def tempIds? (l : Likeness) : Option (List (String × EntityId)) :=
  match l.tempIds with
  | .entries es => es.mapM Entry.name?
  | _ => none

/-- The log of a likeness, if it is that of a graph. -/
def records? (l : Likeness) : Option (List TxRecord) :=
  match l.log with
  | ⟨true, some rows⟩ => rows.mapM Row.record?
  | _ => none

/-- Where the parts of a likeness come from. -/
def tags (l : Likeness) : List (Slot × Tag) :=
  (match l.entities with
    | .entries es => es.flatMap Entry.tags
    | _ => []) ++ rowTags 0 (l.log.rows.getD [])

/-- **The graph that a likeness is**, if it is one. -/
def revision? (l : Likeness) : Option Revision := do
  if l.form ≠ .thing then failure
  let basisTx ← l.basisTx.count?
  let nextId ← l.nextId.count?
  if nextId = 0 then failure
  let entities ← l.entities? nextId
  let tempIds ← l.tempIds?
  let records ← l.records?
  return ⟨l.serial, ⟨basisTx, nextId, entities, tempIds, records⟩, l.tags⟩

end Likeness

end ConfGraph
