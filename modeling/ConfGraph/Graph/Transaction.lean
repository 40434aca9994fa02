import ConfGraph.Graph.Query
import ConfGraph.Graph.Schema

/-!
# Transactions

A transaction is a batch of ops, applied as a whole or not at all, in two passes.  The first gives
every create its entity, so that ops may name entities of later creates; the second writes the
attributes, op by op and attribute by attribute, resolving references just before each write.

* `Draft`: the state within a transaction.
* `Draft.allocate`, `Draft.prepareAll`: the first pass.
* `Draft.write`, `Draft.remove`, `Draft.performAll`: the second.
* `Graph.transact`: a whole batch.
* `Rejection`: why a batch is refused, and where.
-/

namespace ConfGraph

/-! ## 1. Refusals -/

/-- Why a batch is refused. -/
inductive Reason where
  /-- The batch is no list of ops. -/
  | malformed (issues : List Issue)
  /-- `db/id` is no attribute that can be written. -/
  | dbIdWritten
  /-- `db/id` is no attribute that can be removed. -/
  | dbIdRemoved
  /-- A config id is a text. -/
  | configIdNoText
  /-- A config id names one entity. -/
  | configIdTaken (name : String) (holder : EntityId)
  /-- A name of a transaction stands for one entity. -/
  | tempIdTwice (name : String)
  | noEntity (id : EntityId)
  | noMatch (attr : String) (value : AttrValue)
  | tempIdUnbound (name : String)
  /-- A reason in the words of whoever refused. -/
  | stated (words : String)

/-- The wording of a reason. -/
def Reason.message : Reason → String
  | malformed issues => Issue.report issues
  | dbIdWritten => "`db/id` cannot be asserted"
  | dbIdRemoved => "`db/id` cannot be retracted"
  | configIdNoText => "`config/id` must be a string"
  | configIdTaken name holder => s!"`config/id` \"{name}\" already belongs to entity {holder}"
  | tempIdTwice name => s!"tempid \"{name}\" is bound to two entities"
  | noEntity id => s!"entity {id} does not exist"
  | noMatch attr value => s!"no entity has {attr} = {value.toValue.canonicalText}"
  | tempIdUnbound name => s!"tempid \"{name}\" is not bound in this transaction"
  | stated words => words

/-- The entity that a refusal is about: an id, a name of the transaction, or whatever whoever refused
says. -/
inductive Culprit where
  | id (n : EntityId)
  | tempId (name : String)
  | stated (v : Value)

/-- A culprit as a value. -/
def Culprit.toValue : Culprit → Value
  | .id n => .nat n
  | .tempId name => .str name
  | .stated v => v

/-- Where in a batch it is refused. -/
inductive RefusalPlace where
  /-- The batch as a whole. -/
  | batch
  /-- The op at a position. -/
  | op (index : Nat)
  /-- A place in the words of whoever refused. -/
  | stated (v : Value)

/-- The position of the op as a value, `null` for the batch as a whole. -/
def RefusalPlace.toValue : RefusalPlace → Value
  | .batch => .null
  | .op index => .nat index
  | .stated v => v

/-- A reason and the entity it is about. -/
structure Complaint where
  reason : Reason
  culprit : Option Culprit

/-- Why a batch is refused, where, and about which entity. -/
structure Rejection where
  reason : Reason
  place : RefusalPlace
  culprit : Option Culprit

/-- A complaint about the op at a position. -/
def Complaint.atOp (c : Complaint) (index : Nat) : Rejection := ⟨c.reason, .op index, c.culprit⟩

/-! ## 2. The state within a transaction -/

/-- The entities so far, the names bound so far, and the id of the next new entity. -/
structure Draft where
  entities : List (EntityId × Attrs)
  tempIds : List (String × EntityId)
  nextId : EntityId

/-- What a step of a transaction may come to. -/
abbrev Attempt (α : Type) := Except Complaint α

/-- The state at the start of a transaction. -/
def Graph.draft (g : Graph) : Draft := ⟨g.entities, [], g.nextId⟩

namespace Draft

/-- Whether an id is that of an entity. -/
def has (d : Draft) (id : EntityId) : Bool := (d.entities.lookup id).isSome

/-- The attributes of an entity; none if there is no such entity. -/
def attrsOf (d : Draft) (id : EntityId) : Attrs := (d.entities.lookup id).getD []

/-- Replaces the attributes of an entity, which keeps its place. -/
def setAttrs (d : Draft) (id : EntityId) (attrs : Attrs) : Draft :=
  { d with entities := d.entities.map fun e => if e.1 = id then (id, attrs) else e }

/-! ## 3. First pass: entities -/

/-- A new entity. -/
def fresh (d : Draft) (attrs : Attrs) : EntityId × Draft :=
  (d.nextId, { d with entities := d.entities ++ [(d.nextId, attrs)], nextId := d.nextId + 1 })

/-- Binds a name to an entity; a name already bound must be bound to that entity. -/
def bind (d : Draft) (name : String) (id : EntityId) : Attempt Draft :=
  match d.tempIds.lookup name with
  | none => .ok { d with tempIds := d.tempIds ++ [(name, id)] }
  | some bound =>
    if bound = id then .ok d else .error ⟨.tempIdTwice name, some (.tempId name)⟩

/-- The config id that a create gives. -/
def givenName (attrs : Fields OpValue) : Attempt (Option String) :=
  match Fields.get? attrs configId with
  | none => .ok none
  | some (.str name) => .ok (some name)
  | some _ => .error ⟨.configIdNoText, none⟩

/-- The entity of a create: the one with the given config id, else a new one. -/
def place (d : Draft) (name : Option String) : EntityId × Draft :=
  match name with
  | none => d.fresh []
  | some name =>
    match findIn d.entities configId (.str name) with
    | some id => (id, d)
    | none => d.fresh [(configId, .str name)]

/-- Gives a create its entity and binds its name. -/
def allocate (d : Draft) (tempId : Option String) (attrs : Fields OpValue) :
    Attempt (EntityId × Draft) :=
  if Fields.has attrs dbId then .error ⟨.dbIdWritten, none⟩
  else do
    let name ← givenName attrs
    let (id, d) := d.place name
    match tempId with
    | none => .ok (id, d)
    | some t => do
      let d ← d.bind t id
      .ok (id, d)

/-- An op whose creates have their entities. -/
inductive Task where
  | fill (id : EntityId) (attrs : Fields OpValue)
  | assert (entity : EntityRef) (attr : String) (value : OpValue)
  | retract (entity : EntityRef) (attr : String)

/-- The first pass over one op. -/
def prepare (d : Draft) : TxOp → Attempt (Task × Draft)
  | .create tempId attrs => do
    let (id, d) ← d.allocate tempId attrs
    .ok (.fill id attrs, d)
  | .assert entity attr value => .ok (.assert entity attr value, d)
  | .retract entity attr => .ok (.retract entity attr, d)

/-- The first pass over the ops from a position on. -/
def prepareAll (index : Nat) (d : Draft) : List TxOp → Except Rejection (List Task × Draft)
  | [] => .ok ([], d)
  | op :: rest =>
    match d.prepare op with
    | .error c => .error (c.atOp index)
    | .ok (task, d) =>
      match prepareAll (index + 1) d rest with
      | .error r => .error r
      | .ok (tasks, d) => .ok (task :: tasks, d)

/-! ## 4. Second pass: attributes -/

/-- The entity that a reference names. -/
def resolve (d : Draft) : EntityRef → Attempt EntityId
  | .id n => if d.has n then .ok n else .error ⟨.noEntity n, some (.id n)⟩
  | .tempId name =>
    match d.tempIds.lookup name with
    | some id => .ok id
    | none => .error ⟨.tempIdUnbound name, some (.tempId name)⟩
  | .lookup attr value =>
    match findIn d.entities attr value.toValue with
    | some id => .ok id
    | none => .error ⟨.noMatch attr value, none⟩

mutual

/-- A value with its references resolved. -/
def resolveValue (d : Draft) : OpValue → Attempt AttrValue
  | .str s => .ok (.str s)
  | .num x => .ok (.num x)
  | .bool b => .ok (.bool b)
  | .null => .ok .null
  | .list items => (resolveItems d items).map .list
  | .ref target => (d.resolve target).map .ref

/-- The items of a list with their references resolved, first to last. -/
def resolveItems (d : Draft) : List OpValue → Attempt (List AttrValue)
  | [] => .ok []
  | a :: rest =>
    match resolveValue d a with
    | .error c => .error c
    | .ok a =>
      match resolveItems d rest with
      | .error c => .error c
      | .ok as => .ok (a :: as)

end

/-- Whether an entity may have a config id: a text that no other entity has. -/
def checkName (d : Draft) (id : EntityId) : AttrValue → Attempt Unit
  | .str name =>
    match findIn d.entities configId (.str name) with
    | some holder =>
      if holder = id then .ok () else .error ⟨.configIdTaken name holder, some (.id id)⟩
    | none => .ok ()
  | _ => .error ⟨.configIdNoText, some (.id id)⟩

/-- Writes one attribute. -/
def write (d : Draft) (id : EntityId) (name : String) (value : AttrValue) : Attempt Draft :=
  if name = dbId then .error ⟨.dbIdWritten, some (.id id)⟩
  else do
    if name = configId then d.checkName id value
    .ok (d.setAttrs id (Fields.put (d.attrsOf id) name value))

/-- Removes one attribute. -/
def remove (d : Draft) (id : EntityId) (name : String) : Attempt Draft :=
  if name = dbId then .error ⟨.dbIdRemoved, some (.id id)⟩
  else .ok (d.setAttrs id (Fields.erase (d.attrsOf id) name))

/-- Writes the attributes of a create one after the other; its config id is written already. -/
def fill (d : Draft) (id : EntityId) : Fields OpValue → Attempt Draft
  | [] => .ok d
  | (name, value) :: rest =>
    if name = configId then fill d id rest
    else do
      let value ← d.resolveValue value
      let d ← d.write id name value
      fill d id rest

/-- The second pass over one op. -/
def perform (d : Draft) : Task → Attempt Draft
  | .fill id attrs => d.fill id attrs
  | .assert entity attr value => do
    let id ← d.resolve entity
    let value ← d.resolveValue value
    d.write id attr value
  | .retract entity attr => do
    let id ← d.resolve entity
    d.remove id attr

/-- The second pass over the ops from a position on. -/
def performAll (index : Nat) (d : Draft) : List Task → Except Rejection Draft
  | [] => .ok d
  | task :: rest =>
    match d.perform task with
    | .error c => .error (c.atOp index)
    | .ok d => performAll (index + 1) d rest

/-- The attributes that a task writes. -/
def writes (d : Draft) : Task → List (EntityId × String)
  | .fill id attrs => ((Fields.names attrs).filter (· != configId)).map fun name => (id, name)
  | .assert entity attr _ =>
    match d.resolve entity with
    | .ok id => [(id, attr)]
    | .error _ => []
  | .retract .. => []

/-- The attributes that tasks write, in the order in which they do. -/
def writesOf (d : Draft) : List Task → List (EntityId × String)
  | [] => []
  | task :: rest =>
    d.writes task ++
      match d.perform task with
      | .ok d => writesOf d rest
      | .error _ => []

/-- Both passes. -/
def run (d : Draft) (ops : List TxOp) : Except Rejection Draft :=
  match prepareAll 0 d ops with
  | .error r => .error r
  | .ok (tasks, d) => performAll 0 d tasks

end Draft

/-! ## 5. Batches -/

namespace Graph

/-- The graph that a finished draft makes of a graph. -/
def commit (g : Graph) (d : Draft) (opCount : Nat) (provenance : Value) : Graph where
  basisTx := g.basisTx + 1
  nextId := d.nextId
  entities := d.entities
  tempIds := d.tempIds
  transactions := g.transactions ++ [⟨g.basisTx + 1, opCount, provenance⟩]

/-- **Applies a batch of ops.**  An empty batch changes nothing at all. -/
def transact (g : Graph) (ops : List TxOp) (provenance : Value) : Except Rejection Graph :=
  if ops.isEmpty then .ok g
  else
    match g.draft.run ops with
    | .error r => .error r
    | .ok d => .ok (g.commit d ops.length provenance)

/-- The attributes that a batch writes, in the order in which it does. -/
def writes (g : Graph) (ops : List TxOp) : List (EntityId × String) :=
  match Draft.prepareAll 0 g.draft ops with
  | .ok (tasks, d) => d.writesOf tasks
  | .error _ => []

end Graph

end ConfGraph
