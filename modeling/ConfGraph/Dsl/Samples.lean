import ConfGraph.Dsl.Builtin

/-!
# Sample functions

DSL functions made of the built-in ones, as a host would define them.

* `Dsl.server`, `Dsl.cluster`: an entity with a port, and one named after another.
* `Dsl.port`: sets a port.
* `Dsl.probe`, `Dsl.inspect`: tell what is running.
* `Dsl.boom`: makes an entity and then fails.
-/

namespace ConfGraph.Dsl

open Shape

/-- The options of `server`. -/
def serverOptions : Shape (Option Nat) := object fun v => field "port" (optional positive) v

/-- An entity with a port. -/
def server : DslFunction :=
  .builtin "test.dsl" "server" "" (args2 nonEmptyText serverOptions)
    fun (id, port) => do
      Session.perform [.create none
        [(configId, .str id), ("port", .num (Number.ofNat (port.getD 8080)))]]
      let e ← Session.resolveId (.str id)
      return e.toValue

/-- The first server of a cluster. -/
def cluster : DslFunction :=
  .builtin "test.dsl" "cluster" "" (args1 nonEmptyText)
    fun id => server.invoke [.str (id ++ "-1"), .record .host []]

/-- Sets the port of an entity. -/
def port : DslFunction :=
  .builtin "app" "port" "" (args2 nonEmptyText positive)
    fun (id, port) => setAttr.invoke [.str id, .str "port", .nat port]

/-- The name of the running function. -/
def probe : DslFunction :=
  .builtin "test.dsl" "probe" "" args0
    fun () => do
      let c ← Act.context
      return c.dslFunction.elim .undefined .str

/-- What is known of the running function. -/
def inspect : DslFunction :=
  .builtin "test.dsl" "inspect" "" (args2 text int)
    fun _ => do
      let c ← Act.context
      match c.annotation with
      | none => return .undefined
      | some a =>
        return .record .host [
          ("function", .str a.function), ("args", .list a.args), ("scriptFilter", .bool true),
          ("frames", .nat a.frames.length)]

/-- Makes an entity named after the number of arguments, and fails with them. -/
def boom : DslFunction :=
  .builtin "user" "boom" "" (fun args => list text (.list args))
    fun words => do
      let _ ← entity.invoke [.str s!"boom/{words.length}"]
      Act.fail (.error (Cause.separated "+" words))

/-- A second function called `port`. -/
def otherPort : DslFunction := .builtin "other" "port" "" args0 fun () => return .null

/-- A function that does nothing. -/
def idle (signature : Signature) : DslFunction where
  signature
  prepare args := (args0 args).map fun () => return .null
  identity := none

/-- All functions that a host may name. -/
def catalogue : List (String × DslFunction) := [
  ("entity", entity), ("ref", ref), ("setAttr", setAttr), ("server", server),
  ("cluster", cluster), ("port", port), ("probe", probe), ("inspect", inspect), ("boom", boom),
  ("port2", otherPort)]

end ConfGraph.Dsl
