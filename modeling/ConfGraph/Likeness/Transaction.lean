import ConfGraph.Likeness.Query

/-!
# Transactions on likenesses

A batch is applied to what stands in the place of a graph as it is to a graph, in two passes.  Keys
need not be numbers, a new key may be one that is there already, and whatever is missing fails where
it is first needed.

* `Sketch`: the state within a transaction.
* `Likeness.transact`: a whole batch.
-/

namespace ConfGraph

/-- The entries so far, the names bound so far, and the key of the next new entity. -/
structure Sketch where
  /-- The serial number of what is being made. -/
  serial : Nat
  entries : List Entry
  tempIds : List (String × Part)
  nextId : Value

/-- A refusal of the op at a position. -/
def refused (index : Nat) (reason : Reason) (culprit : Option Culprit) : Fault :=
  .rejected ⟨reason, .op index, culprit⟩

namespace Sketch

/-! ## 1. Entries -/

/-- The key under which an entry is put: minus zero counts as zero. -/
def keyOf (p : Part) : Part :=
  match p.value with
  | .num x => if Number.isZero x then .own (.nat 0) else p
  | _ => p

/-- Puts fields under a key, which keeps its place if it is there. -/
def put (s : Sketch) (key : Part) (fields : Fields Part) : Sketch :=
  let entries :=
    if (entryAt s.entries key).isSome then
      s.entries.map fun e => if e.key.isKey key then .ofFields e.key fields else e
    else s.entries ++ [.ofFields (keyOf key) fields]
  { s with entries }

/-- The fields under a key. -/
def fieldsAt (s : Sketch) (key : Part) : Fields Part :=
  ((entryAt s.entries key).map (·.fields)).getD []

/-- The key of the first entry that has a value of an attribute. -/
def find (s : Sketch) (name : String) (value : Value) : Except Fault (Option Part) :=
  search (.str name) value (s.entries.map .ok)

/-! ## 2. First pass: entities -/

/-- A new entity. -/
def fresh (s : Sketch) (fields : Fields Part) : Except Fault (Part × Sketch) :=
  match s.nextId.number? with
  | none => .error .noPrimitive
  | some x => .ok (.own (.num x), { s.put (.own (.num x)) fields with nextId := .num (x + 1) })

/-- The entity of a create: the one with the given config id, else a new one. -/
def place (s : Sketch) (name : Option String) : Except Fault (Part × Sketch) :=
  match name with
  | none => s.fresh []
  | some name => do
    match (← s.find configId (.str name)).filter (·.isThere) with
    | some key => return (key, s)
    | none => s.fresh [(configId, .own (.str name))]

/-- Binds a name to a key; a name already bound must be bound to that key. -/
def bind (s : Sketch) (index : Nat) (name : String) (key : Part) : Except Fault Sketch :=
  match s.tempIds.lookup name with
  | none => .ok { s with tempIds := s.tempIds ++ [(name, key)] }
  | some bound =>
    if bound.isSame key then .ok s
    else .error (refused index (.tempIdTwice name) (some (.tempId name)))

/-- Gives a create its entity and binds its name. -/
def allocate (s : Sketch) (index : Nat) (tempId : Option String) (attrs : Fields OpValue) :
    Except Fault (Part × Sketch) :=
  if Fields.has attrs dbId then .error (refused index .dbIdWritten none)
  else
    match Draft.givenName attrs with
    | .error c => .error (refused index c.reason c.culprit)
    | .ok name => do
      let (key, s) ← s.place name
      match tempId with
      | none => return (key, s)
      | some t => return (key, ← s.bind index t key)

/-- The first pass over the ops from a position on: the keys of the creates. -/
def allocateAll (index : Nat) (s : Sketch) :
    List TxOp → Except Fault (List (TxOp × Part) × Sketch)
  | [] => .ok ([], s)
  | op :: rest => do
    let (key, s) ← match op with
      | .create tempId attrs => s.allocate index tempId attrs
      | _ => .ok (.undefined, s)
    let (ops, s) ← allocateAll (index + 1) s rest
    return ((op, key) :: ops, s)

/-! ## 3. Second pass: attributes -/

/-- The key that a reference names. -/
def resolve (s : Sketch) (index : Nat) : EntityRef → Except Fault Part
  | .id n =>
    let key := Part.own (.nat n)
    if (entryAt s.entries key).isSome then .ok key
    else .error (refused index (.noEntity n) (some (.id n)))
  | .tempId name =>
    match (s.tempIds.lookup name).filter (·.isGiven) with
    | some key => .ok key
    | none => .error (refused index (.tempIdUnbound name) (some (.tempId name)))
  | .lookup attr value => do
    match (← s.find attr value.toValue).filter (·.isGiven) with
    | some key => return key
    | none => .error (refused index (.noMatch attr value) none)

mutual

/-- A value with its references resolved. -/
def resolveValue (s : Sketch) (index : Nat) : OpValue → Except Fault Value
  | .str t => .ok (.str t)
  | .num x => .ok (.num x)
  | .bool b => .ok (.bool b)
  | .null => .ok .null
  | .list items => (resolveItems s index items).map .list
  | .ref target => (s.resolve index target).map fun key => .record .host [("ref", key.value)]

/-- The items of a list with their references resolved, first to last. -/
def resolveItems (s : Sketch) (index : Nat) : List OpValue → Except Fault (List Value)
  | [] => .ok []
  | a :: rest =>
    match resolveValue s index a with
    | .error f => .error f
    | .ok v =>
      match resolveItems s index rest with
      | .error f => .error f
      | .ok vs => .ok (v :: vs)

end

/-- Whether something may have a config id: a text that nothing else has. -/
def checkName (s : Sketch) (index : Nat) (key : Part) (value : Value) : Except Fault Unit := do
  let culprit := some (Culprit.stated key.value)
  match value with
  | .str name =>
    match (← s.find configId (.str name)).filter (·.isThere) with
    | none => return ()
    | some holder =>
      if holder.isSame key then return ()
      else
        match holder.value.text? with
        | none => .error .noPrimitive
        | some text =>
          let words := s!"`config/id` \"{name}\" already belongs to entity {text}"
          .error (refused index (.stated words) culprit)
  | _ => .error (refused index .configIdNoText culprit)

/-- The place of a key among the entries. -/
def position (s : Sketch) (key : Part) : Nat := s.entries.findIdx fun e => e.key.isKey key

/-- Writes one attribute. -/
def write (s : Sketch) (index : Nat) (key : Part) (name : String) (value : Value) :
    Except Fault Sketch :=
  if name = dbId then .error (refused index .dbIdWritten (some (.stated key.value)))
  else do
    if name = configId then s.checkName index key value
    let part := Part.sharedFrom (.made s.serial (.entry (s.position key) name)) value
    return s.put key (Fields.put (s.fieldsAt key) name part)

/-- Removes one attribute. -/
def remove (s : Sketch) (index : Nat) (key : Part) (name : String) : Except Fault Sketch :=
  if name = dbId then .error (refused index .dbIdRemoved (some (.stated key.value)))
  else .ok (s.put key (Fields.erase (s.fieldsAt key) name))

/-- Writes the attributes of a create one after the other; its config id is written already. -/
def fill (s : Sketch) (index : Nat) (key : Part) : Fields OpValue → Except Fault Sketch
  | [] => .ok s
  | (name, value) :: rest =>
    if name = configId then fill s index key rest
    else do
      let value ← s.resolveValue index value
      let s ← s.write index key name value
      fill s index key rest

/-- The second pass over one op. -/
def perform (s : Sketch) (index : Nat) (key : Part) : TxOp → Except Fault Sketch
  | .create _ attrs =>
    if key.isGiven then s.fill index key attrs
    else .error (refused index (.stated "create op has no allocated entity") none)
  | .assert entity attr value => do
    let key ← s.resolve index entity
    let value ← s.resolveValue index value
    s.write index key attr value
  | .retract entity attr => do
    let key ← s.resolve index entity
    s.remove index key attr

/-- The second pass over the ops from a position on. -/
def performAll (index : Nat) (s : Sketch) : List (TxOp × Part) → Except Fault Sketch
  | [] => .ok s
  | (op, key) :: rest => do
    let s ← s.perform index key op
    performAll (index + 1) s rest

end Sketch

/-! ## 4. Batches -/

/-- The entries that something in the place of a table of entities is made of. -/
def Table.copied : Table → Except Fault (List Entry)
  | entries es => .ok es
  | list items =>
    items.mapM fun i =>
      match i.entry with
      | some e => .ok e
      | none => .error (.notAnEntry i.whole.value.display)
  | text s =>
    match s.toList with
    | [] => .ok []
    | c :: _ => .error (.notAnEntry (String.singleton c))
  | other .undefined | other .null => .ok []
  | other v =>
    let kind := match v with
      | .num _ => s!"number {v.display}"
      | .bool _ => s!"boolean {v.display}"
      | .function _ | .constant .. => "function"
      | _ => "object"
    .error (.noEntries kind)

namespace Likeness

/-- The state at the start of a transaction. -/
def sketch (l : Likeness) (serial : Nat) : Except Fault Sketch := do
  let given ← (← l.part "entities" l.entities).copied
  let empty : Sketch := ⟨serial, [], [], l.nextId⟩
  return given.foldl (fun s e =>
    if (entryAt s.entries e.key).isSome then
      { s with entries := s.entries.map fun x =>
          if x.key.isKey e.key then { e with key := x.key } else x }
    else { s with entries := s.entries ++ [{ e with key := Sketch.keyOf e.key }] }) empty

/-- What a finished sketch makes of a likeness, in the name of an annotation if its serial
number is given. -/
def commit (l : Likeness) (s : Sketch) (opCount : Nat) (provenance : Value)
    (caller : Option Nat) : Except Fault Likeness := do
  match Value.plus? l.basisTx (.nat 1) with
  | none => .error .noPrimitive
  | some tx =>
    let rows ← l.rows
    let record : Value :=
      .record .host [("tx", tx), ("opCount", .nat opCount), ("provenance", provenance)]
    let row : Row :=
      ⟨.sharedFrom (.made s.serial (.record rows.length)) record, caller.map .frames⟩
    return {
      serial := s.serial, form := .thing, basisTx := tx, nextId := s.nextId
      entities := .entries s.entries
      tempIds := .entries (s.tempIds.map fun t => .ofPart (.own (.str t.1)) t.2)
      log := ⟨true, some (rows ++ [row])⟩ }

/-- **Applies a batch of ops that is not empty**, giving what it makes a serial number. -/
def transact (l : Likeness) (serial : Nat) (ops : List TxOp) (provenance : Value)
    (caller : Option Nat) : Except Fault Likeness := do
  let s ← l.sketch serial
  let (ops, s) ← s.allocateAll 0 ops
  let s ← s.performAll 0 ops
  l.commit s ops.length provenance caller

end Likeness

end ConfGraph
