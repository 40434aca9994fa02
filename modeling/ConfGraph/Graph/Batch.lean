import ConfGraph.Fault

/-!
# Batches given as values

Callers hand over a batch as any value.  Anything of length zero is the empty batch, which changes
nothing and is not looked at any further; all else must be a list of ops.

* `Batch.ofValue`: the ops of a value.
* `Graph.applyOps`: applies a value as a batch.
-/

namespace ConfGraph

/-- Whether a value counts as an empty batch. -/
def isEmptyBatch : Value → Bool
  | .str s => s.isEmpty
  | v =>
    match v.field "length" with
    | .num x => Number.isZero x
    | _ => false

/-- **The ops of a value.** -/
def Batch.ofValue : Value → Except Fault (List TxOp)
  | .undefined | .hole => .error (.noFieldOf "undefined" "length")
  | .null => .error (.noFieldOf "null" "length")
  | v =>
    if isEmptyBatch v then .ok []
    else
      match opsShape v with
      | .ok ops => .ok ops
      | .error issues =>
        .error (.ofIssues issues fun _ => .rejected ⟨.malformed issues, .batch, none⟩)

/-- **Applies a batch given as any value.**  `none` if the batch is empty and the graph stays the
very same. -/
def Graph.applyOps (g : Graph) (ops provenance : Value) : Except Fault (Option Graph) :=
  match Batch.ofValue ops with
  | .error f => .error f
  | .ok [] => .ok none
  | .ok ops =>
    match g.transact ops provenance with
    | .error r => .error (.rejected r)
    | .ok g => .ok (some g)

end ConfGraph
