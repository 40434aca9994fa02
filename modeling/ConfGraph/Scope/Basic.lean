import ConfGraph.Likeness.Revision
import ConfGraph.Log.Event
import ConfGraph.Provenance.Annotation

/-!
# Scopes

Each build runs in a scope of its own, which holds the graph being built.  A scope is open while
its build runs; afterwards it refuses every access, and its last graph stays as it was.

* `Content`: what a scope holds: a graph, unless a script has put something else there.
* `ContextScope`: one scope, with `read`, `write` and `close`.
* `Scopes`: all scopes of a session, named by position.
* `Context`: which scope and which annotation a piece of code sees.
* `Session`: the scopes and the events so far.
-/

namespace ConfGraph

/-! ## 1. What scopes hold -/

/-- The id by which something is found. -/
inductive FoundId where
  | entity (id : EntityId)
  /-- What stands in the place of an id, which need not be one. -/
  | other (v : Value)

/-- An id as a value. -/
def FoundId.toValue : FoundId → Value
  | entity id => .nat id
  | other v => v

/-- What a scope holds. -/
inductive Content where
  | graph (r : Revision)
  /-- Something that a script has put in the place of a graph. -/
  | other (l : Likeness)

namespace Content

/-- A likeness as a content: the graph that it is, if it is one. -/
def ofLikeness (l : Likeness) : Content := l.revision?.elim (.other l) .graph

/-- The graph that a content is. -/
def graph? : Content → Option Graph
  | graph r => some r.graph
  | other _ => none

/-- A content as a likeness. -/
def likeness : Content → Likeness
  | graph r => r.likeness
  | other l => l

/-- The serial number. -/
def serial : Content → Nat
  | graph r => r.serial
  | other l => l.serial

/-- Whether two contents are the very same. -/
def isSame (c d : Content) : Bool := c.serial == d.serial

/-- Whether a content passes for a graph that a function gives back. -/
def passes : Content → Bool
  | graph _ => true
  | other l => l.passes

/-- The number of transactions, as it is told in the log. -/
def basisTx : Content → Except Fault Value
  | graph r => .ok (.nat r.graph.basisTx)
  | other l => l.part "basisTx" l.basisTx

/-- A content as a value. -/
def toValue : Content → Except Fault Value
  | graph r => .ok r.graph.toValue
  | other l => l.toValue

/-- What the latest transaction gave a name to. -/
def tempId : Content → Value → Except Fault Value
  | graph r, .str name => .ok ((r.graph.tempId? name).elim .undefined .nat)
  | graph _, _ => .ok .undefined
  | other l, name => (l.tempId (.own name)).map (·.value)

/-- What users call by a name; `none` if there is nothing. -/
def find (c : Content) (id : Value) : Except Fault (Option FoundId) :=
  match c with
  | graph r =>
    match r.graph.find configId id with
    | some e => .ok (some (.entity e))
    | none =>
      if id.isEndless && r.graph.isSearched configId then .error .tooDeep else .ok none
  | other l => (l.find (.str configId) id).map fun p => p.map fun p => .other p.value

/-- One attribute of what a reference means, by any name. -/
def attr (c : Content) (ref name : Value) : Except Fault Value :=
  match c with
  | graph r =>
    match r.graph.address? ref with
    | none => .error (.noFieldOf "null" "attr")
    | some a =>
      match r.graph.attrOf? a name with
      | none => .error .noPrimitive
      | some v => .ok (v.elim .undefined AttrValue.toValue)
  | other l => (l.attr (.of ref) name).map (·.value)

/-- What a batch that is not empty makes of a content, in the name of somebody. -/
def transact (c : Content) (serial : Nat) (ops : List TxOp) (who : Option Annotation) :
    Except Fault Content :=
  let provenance := Annotation.provenance who
  let caller := who.map (·.serial)
  match c with
  | graph r =>
    match r.graph.transact ops provenance with
    | .error e => .error (.rejected e)
    | .ok g => .ok (.graph (r.next serial ops caller g))
  | other l => (l.transact serial ops provenance caller).map ofLikeness

end Content

/-! ## 2. One scope -/

/-- One scope: what it holds, and whether it is open. -/
structure ContextScope where
  content : Content
  isOpen : Bool

namespace ContextScope

/-- A fresh scope. -/
def start (initial : Content) : ContextScope := ⟨initial, true⟩

/-- What an open scope holds. -/
def read (s : ContextScope) : Except Fault Content :=
  if s.isOpen then .ok s.content else .error .noScope

/-- Replaces what an open scope holds. -/
def write (s : ContextScope) (next : Content) : Except Fault ContextScope :=
  if s.isOpen then .ok { s with content := next } else .error .noScope

/-- Closes a scope; its content stays. -/
def close (s : ContextScope) : ContextScope := { s with isOpen := false }

end ContextScope

/-! ## 3. All scopes -/

/-- Scopes are named by their position in order of opening. -/
abbrev ScopeId := Nat

/-- The scopes of a session, and the next serial number. -/
structure Scopes where
  table : List ContextScope
  nextSerial : Nat

namespace Scopes

/-- No scopes. -/
def none : Scopes := ⟨[], 0⟩

/-- The scope of a name. -/
def get? (s : Scopes) (id : ScopeId) : Option ContextScope := s.table[id]?

/-- Opens a scope. -/
def opening (s : Scopes) (initial : Content) : ScopeId × Scopes :=
  (s.table.length, { s with table := s.table ++ [ContextScope.start initial] })

/-- Closes a scope. -/
def closing (s : Scopes) (id : ScopeId) : Scopes :=
  { s with table := s.table.modify id ContextScope.close }

/-- What a scope holds. -/
def read (s : Scopes) (id : ScopeId) : Except Fault Content :=
  match s.get? id with
  | some scope => scope.read
  | .none => .error .noScope

/-- Replaces what a scope holds. -/
def write (s : Scopes) (id : ScopeId) (next : Content) : Except Fault Scopes :=
  match s.get? id with
  | .none => .error .noScope
  | some scope =>
    match scope.write next with
    | .error f => .error f
    | .ok scope => .ok { s with table := s.table.set id scope }

/-- Hands out a serial number. -/
def issue (s : Scopes) : Nat × Scopes :=
  (s.nextSerial, { s with nextSerial := s.nextSerial + 1 })

/-- Changes what the scopes hold. -/
def mapContent (s : Scopes) (f : Content → Content) : Scopes :=
  { s with table := s.table.map fun scope => { scope with content := f scope.content } }

end Scopes

/-! ## 4. Context and session -/

/-- Which scope and which annotation a piece of code sees, and from where it was called. -/
structure Context where
  scope : Option ScopeId
  annotation : Option Annotation
  /-- The calls in progress, the innermost first; `none` for one outside all scripts. -/
  site : List (Option Frame)

namespace Context

/-- Outside everything. -/
def outside : Context := ⟨none, none, []⟩

/-- Inside a scope. -/
def within (c : Context) (id : ScopeId) : Context := { c with scope := some id }

/-- **Inside a DSL function.**  An annotation in force stays: what a DSL function calls is done in
the name of the outermost one. -/
def annotated (c : Context) (a : Annotation) : Context :=
  match c.annotation with
  | some _ => c
  | none => { c with annotation := some a }

/-- The qualified name of the running DSL function. -/
def dslFunction (c : Context) : Option String := c.annotation.map (·.function)

end Context

/-- The scopes and the events so far. -/
structure Session where
  scopes : Scopes
  events : List Log.Event

/-- A session at its start. -/
def Session.start : Session := ⟨Scopes.none, []⟩

end ConfGraph
