import ConfGraph.Likeness.Basic

/-!
# Reading a likeness

What stands in the place of a graph is asked as a graph is.  A search goes from entry to entry and
fails where it meets none; a key is looked up by what the place of the table makes of it.

* `Likeness.find`: the key of the first entry that has a value of an attribute.
* `Likeness.entity?`, `Likeness.attr`, `Likeness.attrs`: by a reference.
* `Likeness.toValue`: a likeness as a value.
-/

namespace ConfGraph

/-! ## 1. Searching -/

/-- Whether a search for a value of an attribute stops at an entry. -/
def Entry.stops (e : Entry) (name : String) (value : Value) : Except Fault Bool := do
  e.reading name
  match e.held.value.own? name with
  | some .undefined => return false
  | some v =>
    if v.isEndless || value.isEndless then .error .tooDeep
    else return v.canonical == value.canonical
  | none =>
    match e.held.value.inherited? name with
    | none => return false
    | some text => if value.isEndless then .error .tooDeep else return text == value.canonical

/-- The key of the first of several entries that has a value of an attribute by any name. -/
def search (name value : Value) : List (Except Fault Entry) → Except Fault (Option Part)
  | [] => .ok none
  | .error f :: _ => .error f
  | .ok e :: rest =>
    match name.text? with
    | none => .error .noPrimitive
    | some text =>
      match e.stops text value with
      | .error f => .error f
      | .ok true => .ok (some e.key)
      | .ok false => search name value rest

namespace Likeness

/-- **The key of the first entry that has a value of an attribute by any name.** -/
def find (l : Likeness) (name value : Value) : Except Fault (Option Part) := do
  search name value (← (← l.part "entities" l.entities).visits)

/-- What the latest transaction gave a name to. -/
def tempId (l : Likeness) (name : Part) : Except Fault Part := do
  let e ← (← l.part "tempIds" l.tempIds).get "tempIds" name
  return e.elim .undefined (·.held)

/-! ## 2. References -/

/-- How a reader names an entity. -/
inductive Naming where
  | number (x : Float)
  /-- By a name of the latest transaction, or by what is none. -/
  | name (v : Value)
  | lookup (attr value : Value)
  /-- By `null`, which has no fields to look for. -/
  | null

/-- A value read as a reference. -/
def Naming.of : Value → Naming
  | .num x => .number x
  | .null => .null
  | .str s => .name (.str s)
  | .undefined | .hole => .name .undefined
  | .bool b => .name (.bool b)
  | .function f => .name (.function f)
  | .constant f r => .name (.constant f r)
  | v => .lookup (v.field "attr") (v.field "value")

/-- The key of the entity that a reference means. -/
def entity? (l : Likeness) : Naming → Except Fault (Option Part)
  | .number x => do
    let key := Part.own (.num x)
    return if ← (← l.part "entities" l.entities).has "entities" key then some key else none
  | .name v => do
    let p ← l.tempId (.own v)
    return if p.isThere then some p else none
  | .lookup attr value => do
    let p ← l.find attr value
    return p.filter (·.isThere)
  | .null => do
    let _ ← l.part "entities" l.entities
    .error (.noFieldOf "null" "attr")

/-- What a reference means: the entry of it. -/
def attrs (l : Likeness) (r : Naming) : Except Fault (Option Entry) := do
  match ← l.entity? r with
  | none => return none
  | some key => l.entities.get "entities" key

/-- One attribute of what a reference means, by any name; `db/id` reads the key. -/
def attr (l : Likeness) (r : Naming) (name : Value) : Except Fault Part := do
  match ← l.entity? r with
  | none => return .undefined
  | some key =>
    if name.str? == some dbId then return key
    else
      match ← l.entities.get "entities" key with
      | none => return .undefined
      | some e =>
        if e.held.value.isFalsy then return .undefined
        else
          match name.text? with
          | none => .error .noPrimitive
          | some name =>
            let own := (e.held.value.own? name).getD .undefined
            return (Fields.get? e.fields name).getD (.own own)

/-! ## 3. As values -/

/-- An entry as a value: its key under `db/id`, and its fields. -/
def entryValue (e : Entry) : Value :=
  .object ((dbId, e.key.value) :: e.fields.map fun f => (f.1, f.2.value))

/-- The entries of a table that is gone through as a whole. -/
def entries (l : Likeness) : Except Fault (List Entry) := do
  (← (← l.part "entities" l.entities).visits).mapM id

/-- The records of a log that is gone through. -/
def rows (l : Likeness) : Except Fault (List Row) := do
  match (← l.part "transactions" l.log).rows with
  | some rows => return rows
  | none => .error (.notIterable "graph.transactions")

/-- **A likeness as a value**: the number of transactions, the entities and the log. -/
def toValue (l : Likeness) : Except Fault Value := do
  let basisTx ← l.part "basisTx" l.basisTx
  let entities ← l.entries
  let rows ← l.rows
  return .record .host [
    ("basisTx", basisTx), ("entities", .list (entities.map entryValue)),
    ("transactions", .list (rows.map fun r => r.whole.value))]

end Likeness

end ConfGraph
