import ConfGraph.Engine.Import

/-!
# Builds

A build applies initializers to a graph, one after the other.  Each runs in a scope of its own that
holds the graph; what the scope holds in the end is the graph for the next.  If one fails, the
build fails, and whoever gave the graph still has it unchanged.

* `dispatch`: what an initializer does in its scope.
* `applyInitializer`: one initializer.
* `build`: a list of initializers.
-/

namespace ConfGraph.Engine

open Script

/-! ## 1. Functions -/

/-- How a function of the host builds a graph of its own. -/
abbrev Nest := List Initializer → Strand State Content

/-- What a batch makes of a content. -/
def applyBatch (c : Content) (ops : Value) : Strand State Content :=
  Strand.onSession (Session.applyOps c ops none)

/-- Calls a function of the host with what is in context; `none` if it gives back what cannot be a
graph. -/
def call (nest : Nest) (c : Content) : Procedure → Strand State (Option Content)
  | .batch ops => do return some (← applyBatch c ops)
  | .notGraph => return none
  | .empty => do return some (← Strand.onSession Host.emptyContent)
  | .raise message => Strand.fail (.error message)
  | .raiseValue v => Strand.fail (.thrown v)
  | .body steps => do
    let answers ← Strand.after (onHost (Host.run steps))
    once (leave (.answers answers))
    return some (← Strand.onSession Session.currentContent)
  | .nested inits next => do
    let inner ← Strand.after (nest inits)
    once (leave (.graph inner))
    let c ← Strand.onSession Session.currentContent
    return some (← applyBatch c next)
  | .same => return some c
  | .scripted f => do
    let require ← once requireNow
    return some (← once (onModules (callScripted require f c)))
  | .later p => do
    Strand.pause 1
    if p.givesWay then Strand.after (call nest c p) else call nest c p

/-- Waits for what a function of the host gives back.  One that fails at once is not waited for. -/
def result (nest : Nest) (c : Content) (p : Procedure) : Strand State (Option Content) :=
  if p.givesWay then Strand.after (call nest c p)
  else do
    let next ← call nest c p
    Strand.pause 1
    return next

/-- The function that a reference means: a registered one, or an export of a library file. -/
def resolveFunction (e : Setup) (ref : String) : Strand State Procedure := do
  let s ← once Act.state
  match Fields.get? s.functions ref with
  | some p => return p
  | none =>
    match splitRef? ref with
    | none =>
      Strand.fail (.noFunction ref "not registered, and not of the form `specifier#exportName`")
    | some (specifier, name) => do
      Strand.wait 1
      once (exportedFunction e ref specifier name)

/-- Puts something in the place of what is in context. -/
def replaceBy (c : Content) : Strand State Unit := do
  let _ ← Strand.onSession (Session.updateContent fun _ => return (c, ()))

/-- Calls the function of an initializer and writes what it gives back. -/
def runFunction (e : Setup) (nest : Nest) (ref : String) : Strand State Unit := do
  let p ← Strand.after (resolveFunction e ref)
  let c ← Strand.onSession Session.currentContent
  match (← result nest c p).filter (·.passes) with
  | some next => replaceBy next
  | none =>
    Strand.fail (.badInitializer (Initializer.function ref).toValue
      s!"function `{ref}` did not return a config graph")

/-! ## 2. Scripts, files and modules -/

/-- The code of a script. -/
def scriptCode (text origin requirePath : String) : Act State Code := do
  let s ← Act.state
  note (.scriptStarted origin)
  let program ← Act.ofExcept (Program.ofText true text)
  onModules do
    let globals ← Module.makeGlobals (scriptGlobals s.dsl)
    let own ← Module.makeRequire "require" ⟨requirePath, none⟩
    return {
      fn := none, file := Frame.scriptMark ++ origin, ownRealm := true, program
      globals := Fields.put globals "require" (.cell own), parameters := none }

/-- A strand on what modules work on. -/
def takeModules {α : Type} (a : Strand Module.State α) : Strand State α :=
  Strand.zoom State.modules (fun s modules => { s with modules }) a

/-- Runs the text of a script. -/
def runScript (text origin requirePath : String) : Strand State Unit := do
  let code ← once (scriptCode text origin requirePath)
  let require ← once requireNow
  let run := takeModules (evaluateTurns require code)
  if code.program.isAsync then run.yielding.after.after
  else do
    run
    Strand.pause 1

/-- Runs the text of a script file. -/
def runFile (e : Setup) (path : String) : Strand State Unit := do
  let path := Path.resolve e.baseDir path
  Strand.wait 1
  let s ← once Act.state
  let text ← Strand.ofExcept (s.disk.read path)
  Strand.after (runScript text path path)

/-- Loads a config module; gives its exports. -/
def loadModule (e : Setup) (id : String) : Act State Datum := do
  let s ← Act.state
  onModules (Module.load s.disk (scriptGlobals s.dsl) (e.source.list s.disk) id)

/-- Finds the modules, which takes its time if they are files. -/
def findModules (e : Setup) : Strand State Unit :=
  match e.source with
  | .directories _ => Strand.wait 1
  | .fixed _ => Strand.pause 1

/-- Runs a config module. -/
def runModule (e : Setup) (id : String) : Strand State Unit := do
  let _ ← Strand.after do
    findModules e
    once (loadModule e id)

/-! ## 3. Initializers -/

/-- **What an initializer does in its scope.** -/
def dispatch (e : Setup) (nest : Nest) : Initializer → Strand State Unit
  | .function ref => runFunction e nest ref
  | .module id => runModule e id
  | .file path => runFile e path
  | .ops batch => do
    let _ ← Strand.onSession (Session.updateContent fun c => do
      return (← Session.applyOps c batch none, ()))
  | .script text =>
    if Text.trim text = "" then return ()
    else Strand.after (runScript text "inline" (Path.child e.baseDir "inline.js"))
  | .none => return ()
  | .unknown form => Strand.fail (.error s!"Unknown initializer: {form.json}")

/-- Notes how an initializer ended, and goes on with it. -/
def noteEnd (init : Initializer) (r : Except Fault Content) : Act State Content := do
  let noted ← Act.outcome do
    let c ← Act.ofExcept r
    note (.applied init.description (← Act.ofExcept c.basisTx))
    return c
  match noted with
  | .ok c => return c
  | .error f => do
    if f.isUntold then Act.fail (.typeError "Converting circular structure to JSON")
    else do
      note (.failed init.description f)
      Act.fail f

/-- **Applies one initializer to a graph**, in a scope of its own. -/
def applyWith (e : Setup) (nest : Nest) (c : Content) (init : Initializer) :
    Strand State Content := do
  Strand.ofExcept init.checkDescribable
  let basisTx ← Strand.ofExcept c.basisTx
  once (note (.applying init.description basisTx))
  let r ← Strand.outcome (Strand.after (withScope c (dispatch e nest init)))
  once (noteEnd init (r.map (·.2)))

/-- Applies initializers in order. -/
def buildWith (e : Setup) (nest : Nest) (c : Content) : List Initializer → Strand State Content
  | [] => return c
  | init :: rest => do
    let next ← Strand.after (applyWith e nest c init)
    buildWith e nest next rest

/-- How deep builds may be nested. -/
def nestDepth : Nat := 200

/-- Builds a graph from the empty one, with builds nested at most to a depth. -/
def nestWithin (e : Setup) : Nat → Nest
  | 0, _ => Strand.fail .tooDeep
  | depth + 1, inits => do
    let c ← Strand.onSession Host.emptyContent
    buildWith e (nestWithin e depth) c inits

/-- Applies one initializer to a graph. -/
def applyInitializer (e : Setup) (c : Content) (init : Initializer) : Strand State Content :=
  applyWith e (nestWithin e nestDepth) c init

/-- **Applies initializers to a graph, in order.** -/
def build (e : Setup) (inits : List Initializer) (c : Content) : Strand State Content :=
  buildWith e (nestWithin e nestDepth) c inits

/-- Builds side by side, each of which has an outcome of its own. -/
def buildAll (e : Setup) (c : Content) (builds : List (List Initializer)) :
    Strand State (List (Except Fault Content)) :=
  Strand.all (builds.map fun inits => Strand.outcome (build e inits c))

end ConfGraph.Engine
