import ConfGraph.Provenance.Frame

/-!
# Annotations

While a DSL function runs, an annotation says which one it is, what it was called with and from
where.  Transactions made meanwhile carry it in the log.

* `Annotation`: the running DSL function.
* `Annotation.toProvenance`, `Annotation.provenance`: what a transaction records of it.
-/

namespace ConfGraph

/-- The running DSL function. -/
structure Annotation where
  /-- Tells the call from others.  All transactions of one call name the very same frames. -/
  serial : Nat
  /-- Its qualified name. -/
  function : String
  args : List Value
  /-- The frames of scripts from which it was called, innermost first, as they are recorded. -/
  frames : List Value

namespace Annotation

/-- What a transaction records of the function that made it. -/
def toProvenance (a : Annotation) : Value :=
  .record .host [
    ("source", .str "user"), ("function", .str a.function),
    ("frames", .list a.frames)]

/-- What a transaction records of who made it; `null` if that is nobody. -/
def provenance (who : Option Annotation) : Value := who.elim .null toProvenance

end Annotation

end ConfGraph
