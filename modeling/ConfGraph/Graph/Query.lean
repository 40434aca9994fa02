import ConfGraph.Graph.Basic

/-!
# Reading a graph

Entities are found by id, by a name that the latest transaction gave, or as the first entity, in
order of creation, that has a value of an attribute.  Values are compared by their canonical text.

* `Graph.find`: the first entity with a value of an attribute.
* `Graph.attr`, `Graph.attrs`: one attribute, and all.
* `Graph.address?`, `Graph.attrOf?`, `Graph.findOf?`: the same with anything for a name.
* `inheritedText`: names that every entity answers to in a search.
-/

namespace ConfGraph

/-! ## 1. Searching -/

/-- Names that every record answers to, written or not, with the canonical text of the answer.
A search sees them; reading an attribute does not. -/
def inheritedText (name : String) : Option (List Char) :=
  if name = "__proto__" then some "\x7b\x7d".toList
  else if Value.commonFunctions.contains name then some "null".toList
  else none

/-- The text that a search for an attribute compares with: that of the stored value, or of what
every record answers. -/
def searchText (attrs : Attrs) (name : String) : Option (List Char) :=
  match Fields.get? attrs name with
  | some a => some a.toValue.canonical
  | none => inheritedText name

/-- Whether a search for a value of an attribute stops at these attributes. -/
def matchesSearch (name : String) (value : Value) (attrs : Attrs) : Bool :=
  searchText attrs name == some value.canonical

/-- The first entity of a list that has a value of an attribute. -/
def findIn (entities : List (EntityId × Attrs)) (name : String) (value : Value) :
    Option EntityId :=
  (entities.find? fun e => matchesSearch name value e.2).map (·.1)

/-- Whether a search for an attribute compares any value. -/
def Graph.isSearched (g : Graph) (name : String) : Bool :=
  g.entities.any fun e => (searchText e.2 name).isSome

/-! ## 2. Addresses -/

/-- How a reader names an entity. -/
inductive Address where
  | id (n : EntityId)
  | tempId (name : String)
  | lookup (attr : String) (value : Value)
  /-- Something that names no entity at all. -/
  | nowhere

namespace Graph

/-- The first entity, in order of creation, that has a value of an attribute. -/
def find (g : Graph) (name : String) (value : Value) : Option EntityId :=
  findIn g.entities name value

/-- The entity that the latest transaction gave a name to. -/
def tempId? (g : Graph) (name : String) : Option EntityId := g.tempIds.lookup name

/-- Whether an id is that of an entity. -/
def has (g : Graph) (id : EntityId) : Bool := (g.entities.lookup id).isSome

/-- The entity at an address. -/
def entity? (g : Graph) : Address → Option EntityId
  | .id n => if g.has n then some n else none
  | .tempId name => g.tempId? name
  | .lookup attr value => g.find attr value
  | .nowhere => none

/-- All attributes of the entity at an address. -/
def attrs (g : Graph) (a : Address) : Option Attrs :=
  (g.entity? a).bind fun id => g.entities.lookup id

/-- A value read as an address.  `none` for `null`, which has no fields to look for, and for a lookup
of an attribute that has no text, unless there is nothing to look through. -/
def address? (g : Graph) : Value → Option Address
  | .num x => some ((Number.toNat? x).elim .nowhere .id)
  | .str name => some (.tempId name)
  | .null => none
  | .undefined | .hole | .bool _ | .function _ | .constant .. => some .nowhere
  | v =>
    match (v.field "attr").text? with
    | some attr => some (.lookup attr (v.field "value"))
    | none => if g.entities.isEmpty then some .nowhere else none

/-- One attribute of the entity at an address; `db/id` reads the entity's own id. -/
def attr (g : Graph) (a : Address) (name : String) : Option AttrValue :=
  (g.entity? a).bind fun id =>
    if name = dbId then some (.num (Number.ofNat id))
    else (g.entities.lookup id).bind fun attrs => Fields.get? attrs name

/-- One attribute by any name.  A name that is no text is read as its text, by which no entity's own
id is read; `none` if it has no text. -/
def attrOf? (g : Graph) (a : Address) (name : Value) : Option (Option AttrValue) :=
  match name with
  | .str name => some (g.attr a name)
  | name =>
    match g.attrs a with
    | none => some none
    | some attrs => name.text?.map (Fields.get? attrs)

/-- The first entity that has a value of an attribute by any name; `none` if the name has no text,
unless there is nothing to look through. -/
def findOf? (g : Graph) (name value : Value) : Option (Option EntityId) :=
  match name.text? with
  | some name => some (g.find name value)
  | none => if g.entities.isEmpty then some none else none

/-- The entity that users call by a name. -/
def named? (g : Graph) (name : String) : Option EntityId := g.find configId (.str name)

end Graph

end ConfGraph
