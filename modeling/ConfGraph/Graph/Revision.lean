import ConfGraph.Graph.Transaction

/-!
# Revisions

Two graphs may be equal and yet not the very same, and so may be what stands at a place in each.
The difference shows as soon as somebody outside all transactions writes to what one of them holds:
it changes wherever the very same thing stands.

* `Slot`: a place in a graph.
* `Tag`: what tells a thing from an equal one.
* `Revision`: a graph with what tells it and its parts apart.
-/

namespace ConfGraph

/-- A place in a graph. -/
inductive Slot where
  /-- An attribute of an entity. -/
  | attr (entity : EntityId) (name : String)
  /-- An attribute of what stands at a position among the entities. -/
  | entry (position : Nat) (name : String)
  /-- A record of the log. -/
  | record (index : Nat)
  /-- The frames that a record of the log names. -/
  | frames (index : Nat)
deriving DecidableEq, Repr

/-- What tells a thing from an equal one: where it comes from. -/
inductive Tag where
  /-- It was written at a place when the graph of a serial number was made. -/
  | made (serial : Nat) (slot : Slot)
  /-- It is the frames that an annotation of a serial number names. -/
  | frames (serial : Nat)
  /-- It is what a script knows by a number. -/
  | cell (id : Nat)
deriving DecidableEq, Repr

/-- A graph as it was made at one moment.  Serial numbers are handed out once. -/
structure Revision where
  serial : Nat
  graph : Graph
  /-- Where what stands at a place comes from, the latest writes first.  What is not told was
  written when the graph was made.  Revisions in which it is the same have the very same thing
  there. -/
  tags : List (Slot × Tag)

namespace Revision

/-- A graph from outside. -/
def first (serial : Nat) (g : Graph) : Revision := ⟨serial, g, []⟩

/-- Where what stands at a place comes from. -/
def tag (r : Revision) (slot : Slot) : Tag := (r.tags.lookup slot).getD (.made r.serial slot)

/-- The places that a batch writes. -/
def written (r : Revision) (ops : List TxOp) : List Slot :=
  .record r.graph.transactions.length :: (r.graph.writes ops).map fun w => .attr w.1 w.2

/-- What a batch has made of a revision, in the name of an annotation if its serial number is
given. -/
def next (r : Revision) (serial : Nat) (ops : List TxOp) (caller : Option Nat) (g : Graph) :
    Revision :=
  let fresh := (r.written ops).map fun slot => (slot, Tag.made serial slot)
  let shared := caller.toList.map fun n => (Slot.frames r.graph.transactions.length, Tag.frames n)
  ⟨serial, g, fresh ++ shared ++ r.tags⟩

/-- Whether something in a revision comes from somewhere. -/
def holds (r : Revision) (t : Tag) : Bool :=
  (match t with
    | .made serial _ => serial == r.serial
    | _ => false) || r.tags.any fun x => x.2 == t

end Revision

end ConfGraph
