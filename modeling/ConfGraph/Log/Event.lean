import ConfGraph.Console.Basic
import ConfGraph.Fault
import ConfGraph.Log.Basic

/-!
# Events

What happens during a build and can be seen from outside: what is worth a log record, what scripts
hand to the console, and what they write themselves to the graphs in scopes.

* `Event`: the events.
* `Event.record?`: the record of each.
-/

namespace ConfGraph.Log

/-- What happens during a build. -/
inductive Event where
  | applying (initializer : String) (basisTx : Value)
  | applied (initializer : String) (basisTx : Value)
  | failed (initializer : String) (fault : Fault)
  | scriptStarted (origin : String)
  | moduleStarted (id : String)
  | modulesReset (id : String) (count : Nat)
  | moduleUnloaded (id : String)
  | dslInvoked (function : String)
  | dslReplaced (name previous next : String)
  /-- A script calls a function of the console. -/
  | printed (name : String) (args : List Printable)
  /-- A script may have changed by hand what scopes hold: the graph of each before and after, if there
  is one. -/
  | handWritten (contents : List (Option Graph × Option Graph))

namespace Event

/-- A text field. -/
def str (name text : String) : String × FieldValue := (name, .value (.str text))

/-- A number field. -/
def nat (name : String) (n : Nat) : String × FieldValue := (name, .value (.nat n))

/-- A field for what was thrown: the message of an error, any other value as it is. -/
def fault (name : String) (f : Fault) : String × FieldValue :=
  match f with
  | .thrown v => (name, .value v)
  | f => (name, .error f.message)

/-- The record of an event, if it is worth one. -/
def record? : Event → Option Record
  | applying initializer basisTx =>
    some ⟨.debug, [str "event" "apply-initializer", str "initializer" initializer,
      ("basisTx", .value basisTx)]⟩
  | applied initializer basisTx =>
    some ⟨.debug, [str "event" "initializer-applied", str "initializer" initializer,
      ("basisTx", .value basisTx)]⟩
  | failed initializer f =>
    some ⟨.warn, [str "event" "initializer-failed", str "initializer" initializer, fault "error" f]⟩
  | scriptStarted origin => some ⟨.debug, [str "event" "script-eval", str "origin" origin]⟩
  | moduleStarted id => some ⟨.debug, [str "event" "module-load", str "module" id]⟩
  | modulesReset id count =>
    some ⟨.debug, [str "event" "config-modules-reset", str "module" id, nat "count" count]⟩
  | moduleUnloaded id => some ⟨.trace, [str "event" "module-unloaded", str "module" id]⟩
  | dslInvoked function => some ⟨.trace, [str "event" "dsl-invoke", str "fn" function]⟩
  | dslReplaced name previous next =>
    some ⟨.warn, [str "event" "dsl-replaced", str "name" name, str "previous" previous,
      str "next" next]⟩
  | printed .. | handWritten _ => none

end Event

end ConfGraph.Log
