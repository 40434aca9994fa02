import ConfGraph.Dsl.Basic

/-!
# Steps of a host

A host is a program that uses the library: it opens scopes, changes the graph in context, calls
DSL functions and keeps code to be run later.  Its bodies are lists of steps.

* `Step`, `Branch`: what a host may do.
* `Answer`: what a step comes to.
-/

namespace ConfGraph.Host

/-- Where the first graph of a scope comes from. -/
inductive GraphSource where
  | empty
  | current
  /-- What a batch makes of the empty graph. -/
  | batch (ops : Value)

mutual

/-- One step of a host. -/
inductive Step where
  /-- Is an open scope in reach? -/
  | hasScope
  /-- Reads the graph in context. -/
  | graph
  /-- Applies a batch in the name of the running DSL function, and asks for a name it bound. -/
  | transact (ops tempId : Value)
  /-- Applies a batch in nobody's name. -/
  | update (ops : Value)
  /-- Puts the empty graph in place of the one in context. -/
  | replace
  /-- The entity with a config id. -/
  | resolve (id : Value)
  /-- One attribute of an entity of the graph in context. -/
  | attr (ref name : Value)
  /-- Calls a DSL function. -/
  | call (f : DslFunction) (args : List Value)
  /-- The qualified name of the running DSL function. -/
  | function
  /-- All that is known of the running DSL function. -/
  | provenance
  /-- Runs a body under an annotation. -/
  | annotate (function : String) (args frames : List Value) (body : List Step)
  /-- Defines a DSL function without parameters that runs a body, and calls it. -/
  | define (name : String) (qualifier : Option String) (args : List Value) (body : List Step)
  /-- Runs a body in a scope of its own. -/
  | scope (start : GraphSource) (body : List Step)
  /-- Runs bodies side by side, each in a scope of its own. -/
  | parallel (branches : List Branch)
  /-- Keeps a body, and the context in which it stands, for later. -/
  | defer (body : List Step)
  /-- Runs all kept bodies, in order. -/
  | flush
  /-- Gives way to others. -/
  | tick
  /-- Leaves the enclosing body with an error. -/
  | throw (message : String)

/-- One of several bodies that run side by side. -/
inductive Branch where
  | mk (start : GraphSource) (body : List Step)

end

/-! ## Answers -/

/-- What a step comes to. -/
inductive Answer where
  /-- A value, perhaps an absent one. -/
  | value (v : Value)
  | graph (c : Content)
  /-- The answers of the steps of a body. -/
  | body (answers : List Answer)
  /-- The answers of a body, and what its scope held in the end. -/
  | scope (answers : List Answer) (final : Content)
  /-- The same for several bodies. -/
  | scopes (results : List (List Answer × Content))
  | failed (f : Fault)

namespace Answer

/-- A truth value. -/
def truth (b : Bool) : Answer := .value (.bool b)

/-- A number. -/
def nat (n : Nat) : Answer := .value (.nat n)

/-- The answer for an outcome. -/
def ofOutcome (r : Except Fault Answer) : Answer :=
  match r with
  | .ok a => a
  | .error f => .failed f

end Answer

end ConfGraph.Host
