import ConfGraph.Dsl.Basic

/-!
# The built-in DSL

Three functions that every script sees.

* `Dsl.entity`: makes the entity with a config id, or adds attributes to it.
* `Dsl.ref`: a reference to the entity with a config id.
* `Dsl.setAttr`: sets one attribute of the entity with a config id.
-/

namespace ConfGraph.Dsl

open Shape

/-- The one op of `entity`: a create of the given attributes under the given config id. -/
def entityOp (id : String) (attrs : Fields OpValue) : TxOp :=
  .create none (Fields.put attrs configId (.str id))

/-- Makes the entity with a config id, or adds attributes to it; gives its id. -/
def entity : DslFunction :=
  .builtin "cfgscript" "entity"
    ("Create the entity with the given config id, or merge attributes onto it if it exists. "
      ++ "Returns its id.")
    (args1Opt nonEmptyText attrsShape)
    fun (id, attrs) => do
      Session.perform [entityOp id (attrs.getD [])]
      let e ← Session.resolveId (.str id)
      return e.toValue

/-- A reference to the entity with a config id. -/
def ref : DslFunction :=
  .builtin "cfgscript" "ref" "Reference value pointing at the entity with the given config id."
    (args1 nonEmptyText)
    fun id => do
      let e ← Session.resolveId (.str id)
      return .record .host [("ref", e.toValue)]

/-- The one op of `setAttr`, as a value.  What is no id that an op may name is refused with it. -/
def assertOp (e : FoundId) (name : String) (value : OpValue) : Value :=
  .record .host [
    ("op", .str "assert"), ("entity", e.toValue), ("attr", .str name), ("value", value.toValue)]

/-- Sets one attribute of the entity with a config id; gives its id. -/
def setAttr : DslFunction :=
  .builtin "cfgscript" "setAttr"
    "Set one attribute on the existing entity with the given config id. Returns its id."
    (args3 nonEmptyText nonEmptyText opValueShape)
    fun (id, name, value) => do
      let e ← Session.resolveId (.str id)
      let _ ← Session.transact (.list [assertOp e name value]) .undefined
      return e.toValue

/-- The functions that every script sees. -/
def builtins : List DslFunction := [entity, ref, setAttr]

end ConfGraph.Dsl
