import ConfGraph.Graph.Batch
import ConfGraph.Scope.Basic

/-!
# Acts

An act is a piece of code that runs in a context and changes a state, and may fail.  What it has
changed before it fails stays changed; that a failing step of the library changes nothing is
therefore a theorem about that step, and not built in.

* `Act`: acts over a state.
* `Act.zoom`: an act on a part of the state.
* `currentContent`, `updateContent`, `transact`, `resolveId`: the ways to what a scope holds.
-/

namespace ConfGraph

/-- A piece of code that runs in a context and changes a state. -/
abbrev Act (σ : Type) := ReaderT Context (ExceptT Fault (StateM σ))

namespace Act

variable {σ τ α : Type}

/-- Runs an act. -/
def exec (a : Act σ α) (c : Context) (s : σ) : Except Fault α × σ := a c s

/-- The act of a function on context and state. -/
def of (f : Context → σ → Except Fault α × σ) : Act σ α := f

/-- The state. -/
def state : Act σ σ := fun _ s => (.ok s, s)

/-- Replaces the state. -/
def setState (s : σ) : Act σ Unit := fun _ _ => (.ok (), s)

/-- Changes the state. -/
def change (f : σ → σ) : Act σ Unit := fun _ s => (.ok (), f s)

/-- The context. -/
def context : Act σ Context := fun c s => (.ok c, s)

/-- Fails. -/
def fail (f : Fault) : Act σ α := fun _ s => (.error f, s)

/-- Goes on with an outcome. -/
def ofExcept (r : Except Fault α) : Act σ α := fun _ s => (r, s)

/-- Runs an act in another context. -/
def inside (c : Context → Context) (a : Act σ α) : Act σ α := fun ctx s => a (c ctx) s

/-- Runs an act and hands out how it ended. -/
def outcome (a : Act σ α) : Act σ (Except Fault α) := fun c s =>
  let (r, s) := exec a c s
  (.ok r, s)

/-- An act on a part of the state. -/
def zoom (get : σ → τ) (set : σ → τ → σ) (a : Act τ α) : Act σ α := fun c s =>
  let (r, t) := exec a c (get s)
  (r, set s t)

end Act

/-! ## 1. Sessions -/

namespace Session

/-- Notes an event. -/
def note (e : Log.Event) : Act Session Unit :=
  Act.change fun s => { s with events := s.events ++ [e] }

/-- Acts on the scopes. -/
def onScopes {α : Type} (f : Scopes → Except Fault (α × Scopes)) : Act Session α := fun _ s =>
  match f s.scopes with
  | .error fault => (.error fault, s)
  | .ok (a, scopes) => (.ok a, { s with scopes })

/-- Hands out a serial number. -/
def newSerial : Act Session Nat := onScopes fun s => .ok s.issue

/-- A graph from outside. -/
def newGraph (g : Graph) : Act Session Content := do
  return .graph (.first (← newSerial) g)

/-- The scope in context, open or not. -/
def activeScope : Act Session ScopeId := fun c s =>
  match c.scope with
  | some id => (.ok id, s)
  | none => (.error .noScope, s)

/-- Whether an open scope is in context. -/
def hasScope : Act Session Bool := fun c s =>
  (.ok ((c.scope.bind s.scopes.get?).elim false (·.isOpen)), s)

/-- What the scope in context holds. -/
def currentContent : Act Session Content := do
  let id ← activeScope
  onScopes fun s => (s.read id).map fun r => (r, s)

/-- Replaces what the scope in context holds by what an act makes of it. -/
def updateContent {α : Type} (f : Content → Act Session (Content × α)) :
    Act Session (Content × α) := do
  let id ← activeScope
  let c ← onScopes fun s => (s.read id).map fun c => (c, s)
  let (next, a) ← f c
  onScopes fun s => (s.write id next).map fun s => ((), s)
  return (next, a)

/-! ## 2. Batches -/

/-- What ops make of a content, in the name of somebody: the same one if there are none. -/
def applyTo (c : Content) (ops : List TxOp) (who : Option Annotation) : Act Session Content := do
  if ops.isEmpty then return c
  else Act.ofExcept (c.transact (← newSerial) ops who)

/-- What a batch makes of a content: the same one if the batch is empty. -/
def applyOps (c : Content) (ops : Value) (who : Option Annotation) : Act Session Content := do
  applyTo c (← Act.ofExcept (Batch.ofValue ops)) who

/-- Applies a batch to the graph in context in the name of the running DSL function.  With a name,
gives what the resulting graph's latest transaction gave that name to. -/
def transact (ops : Value) (tempId : Value) : Act Session Value := do
  let c ← Act.context
  let (next, _) ← updateContent fun content => do
    return (← applyOps content ops c.annotation, ())
  match tempId with
  | .undefined => return .undefined
  | name => Act.ofExcept (next.tempId name)

/-- Applies ops to the graph in context, as the batch that they are when written out. -/
def perform (ops : List TxOp) : Act Session Unit := do
  let _ ← transact (.list (ops.map TxOp.toValue)) .undefined

/-- The id of the entity that users call by a name, which may be any value; it must be a number. -/
def resolveId (id : Value) : Act Session FoundId := do
  let content ← currentContent
  let c ← Act.context
  match ← Act.ofExcept (content.find id) with
  | some (.entity e) => return .entity e
  | some (.other (.num x)) => return .other (.num x)
  | _ =>
    if id.text?.isSome then
      let basisTx ← Act.ofExcept content.basisTx
      Act.fail (.unresolved basisTx id (c.dslFunction.getD "<unknown>"))
    else Act.fail .noPrimitive

/-! ## 3. Scopes -/

/-- Opens a scope. -/
def openScope (initial : Content) : Act Session ScopeId :=
  onScopes fun s => .ok (s.opening initial)

/-- Closes a scope. -/
def closeScope (id : ScopeId) : Act Session Unit := onScopes fun s => .ok ((), s.closing id)

/-- What a scope holds. -/
def readScope (id : ScopeId) : Act Session Content :=
  onScopes fun s => (s.read id).map fun r => (r, s)

/-- Puts something in the place of what a scope holds, as a script asks for it. -/
def overwrite (id : ScopeId) (next : Content) : Act Session Unit := do
  let before ← readScope id
  onScopes fun s => (s.write id next).map fun s => ((), s)
  note (.handWritten [(before.graph?, next.graph?)])

/-- Changes what scopes hold, whatever a script has written to it. -/
def overwriteAll (f : Content → Content) : Act Session Unit := do
  let before ← Act.state
  onScopes fun s => .ok ((), s.mapContent f)
  note (.handWritten (before.scopes.table.map fun scope =>
    (scope.content.graph?, (f scope.content).graph?)))

/-- Runs an act that cannot see what has happened before.  What happens in it is noted after that. -/
def unaware {α : Type} (a : Act Session α) : Act Session α := fun c s =>
  let (r, t) := a.exec c { s with events := [] }
  (r, { t with events := s.events ++ t.events })

end Session

/-! ## 4. States that carry a session -/

/-- A state of which a session is a part. -/
class HasSession (σ : Type) where
  session : σ → Session
  withSession : σ → Session → σ

instance : HasSession Session := ⟨id, fun _ s => s⟩

variable {σ α : Type} [HasSession σ]

/-- An act on the session. -/
def onSession (a : Act Session α) : Act σ α :=
  Act.zoom HasSession.session HasSession.withSession a

end ConfGraph
