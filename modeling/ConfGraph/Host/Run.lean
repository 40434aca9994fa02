import ConfGraph.Host.Step
import ConfGraph.Scope.Strand

/-!
# Running a host

The steps of a body run in order, and after each the body gives way.  A step that fails answers with
its fault and the body goes on; only `throw` leaves the body.  Kept bodies run in the context in
which they were kept, which may be a scope that has been closed since.

Bodies that run side by side have a scope each, and share the kept bodies.

* `runBody`: the steps of a body.
* `run`: a whole program of a host.
-/

namespace ConfGraph.Host

/-- A body kept for later, with its context. -/
structure Deferred where
  context : Context
  body : List Step

/-- What a host works on. -/
structure State where
  session : Session
  /-- The bodies kept and not yet run, oldest first. -/
  kept : List Deferred

/-- The state at the start. -/
def State.start : State := ⟨Session.start, []⟩

instance : HasSession State := ⟨State.session, fun s session => { s with session }⟩

/-- How kept bodies are run. -/
abbrev Later := List Step → Strand State (List Answer)

/-! ## 1. Parts of steps -/

/-- The empty graph as a new one. -/
def emptyContent : Act Session Content := Session.newGraph Graph.empty

/-- What a scope holds at first. -/
def startingFrom : GraphSource → Act Session Content
  | .empty => emptyContent
  | .current => Session.currentContent
  | .batch ops => do Session.applyOps (← emptyContent) ops none

/-- The number of transactions of what a scope holds. -/
def basisTx (c : Content) : Act Session Value := Act.ofExcept c.basisTx

/-- Applies a batch to the graph in context in nobody's name. -/
def update (ops : Value) : Act Session Content := do
  let (c, _) ← Session.updateContent fun c => do return (← Session.applyOps c ops none, ())
  return c

/-- Puts the empty graph in place of the one in context. -/
def replace : Act Session Content := do
  let (c, _) ← Session.updateContent fun _ => do return (← emptyContent, ())
  return c

/-- One attribute of an entity of the graph in context. -/
def readAttr (ref name : Value) : Act Session Value := do
  let c ← Session.currentContent
  Act.ofExcept (c.attr ref name)

/-- The annotation of a body of the host. -/
def makeNote (function : String) (args frames : List Value) : Act Session Annotation := do
  return ⟨← Session.newSerial, function, args, frames⟩

/-- What is known of the running DSL function. -/
def annotationValue (c : Context) : Value :=
  match c.annotation with
  | none => .undefined
  | some a =>
    .record .host [
      ("function", .str a.function), ("args", .list a.args), ("frames", .list a.frames)]

/-- Keeps a body for later; gives the number of bodies kept. -/
def keep (body : List Step) : Act State Nat := fun c s =>
  let kept := s.kept ++ [⟨c, body⟩]
  (.ok kept.length, { s with kept })

/-- Takes all kept bodies. -/
def takeKept : Act State (List Deferred) := fun _ s => (.ok s.kept, { s with kept := [] })

/-- Goes on with a strand two turns after the one in which it ended. -/
def twice {α : Type} (a : Strand State α) : Strand State α := a.after.after

/-- Runs kept bodies in order, each in its own context. -/
def runKept (later : Later) : List Deferred → Strand State (List Answer)
  | [] => return []
  | d :: rest => do
    let r ← Strand.outcome (twice (Strand.inside (fun _ => d.context) (later d.body)))
    let answers ← runKept later rest
    return Answer.ofOutcome (r.map .body) :: answers

/-- Runs a body in a scope of its own. -/
def inScope (start : GraphSource) (body : Strand State (List Answer)) :
    Strand State (List Answer × Content) := do
  let initial ← Strand.onSession (startingFrom start)
  Strand.after (withScope initial body)

/-! ## 2. Steps and bodies -/

mutual

/-- Runs one step. -/
def runStep (later : Later) : Step → Strand State Answer
  | .hasScope => do return .truth (← Strand.onSession Session.hasScope)
  | .graph => do return .graph (← Strand.onSession Session.currentContent)
  | .transact ops tempId => do
    return .value (← Strand.onSession (Session.transact ops tempId))
  | .update ops => do
    return .value (← Strand.onSession (do basisTx (← update ops)))
  | .replace => do
    return .value (← Strand.onSession (do basisTx (← replace)))
  | .resolve id => do
    let e ← Strand.onSession (Session.resolveId id)
    return .value e.toValue
  | .attr ref name => do return .value (← Strand.onSession (readAttr ref name))
  | .call f args => do return .value (← Strand.onSession (f.invoke args))
  | .function => do
    let c ← Strand.ofAct Act.context
    return .value (c.dslFunction.elim .undefined .str)
  | .provenance => do
    let c ← Strand.ofAct Act.context
    return .value (annotationValue c)
  | .annotate function args frames body => do
    let note ← Strand.onSession (makeNote function args frames)
    return .body (← twice (Strand.inside (·.annotated note) (runBody later body)))
  | .define name qualifier args body => do
    twice do
      let s ← Strand.ofExcept (Signature.define name qualifier none)
      let (_, note) ← Strand.onSession (s.accept Shape.args0 args)
      return .body (← Strand.inside (·.annotated note) (runBody later body))
  | .scope start body => do
    let (answers, final) ← twice (inScope start (runBody later body))
    return .scope answers final
  | .parallel branches => do
    return .scopes (← twice (Strand.all (runBranches later branches)))
  | .defer body => do return .nat (← Strand.ofAct (keep body))
  | .flush => do
    let kept ← Strand.ofAct takeKept
    return .body (← runKept later kept)
  | .tick => do
    Strand.pause 1
    return .value .null
  | .throw message => Strand.fail (.error message)

/-- Bodies, each in a scope of its own. -/
def runBranches (later : Later) : List Branch → List (Strand State (List Answer × Content))
  | [] => []
  | .mk source body :: rest => inScope source (runBody later body) :: runBranches later rest

/-- **Runs the steps of a body in order.**  A failing step answers with its fault; `throw` leaves
the body. -/
def runBody (later : Later) : List Step → Strand State (List Answer)
  | [] => return []
  | .throw message :: _ => Strand.after (Strand.fail (.error message))
  | s :: rest => do
    let a ← Strand.outcome (Strand.after (runStep later s))
    let answers ← runBody later rest
    return Answer.ofOutcome a :: answers

end

/-! ## 3. Whole programs -/

/-- How deep kept bodies may run inside one another. -/
def keptDepth : Nat := 10000

/-- Runs a body, with kept bodies inside one another at most to a depth. -/
def runWithin : Nat → List Step → Strand State (List Answer)
  | 0 => runBody fun _ => Strand.fail .tooDeep
  | depth + 1 => runBody (runWithin depth)

/-- **Runs a program of a host.** -/
def run (body : List Step) : Strand State (List Answer) := runWithin keptDepth body

end ConfGraph.Host
