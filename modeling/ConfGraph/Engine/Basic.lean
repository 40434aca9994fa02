import ConfGraph.Dsl.Builtin
import ConfGraph.Host.Run
import ConfGraph.Initializer
import ConfGraph.Module.Loader
import ConfGraph.Module.Plain

/-!
# Engines

An engine knows the functions and DSL functions of its host, where modules are, and the file tree.
It keeps what modules leave behind from one build to the next.

* `Procedure`: a function of the host.
* `Setup`, `State`: what an engine is told once, and what it keeps.
* `registerFunction`, `registerDsl`: what may be added, and under which names.
* `scriptGlobals`: what every script sees.
-/

namespace ConfGraph.Engine

open Script

/-! ## 1. Functions of the host -/

/-- A function of the host that makes a graph of a graph. -/
inductive Procedure where
  /-- Applies a batch. -/
  | batch (ops : Value)
  /-- Gives back something that is no graph. -/
  | notGraph
  /-- Gives back the empty graph. -/
  | empty
  /-- Fails with an error. -/
  | raise (message : String)
  /-- Fails with any value. -/
  | raiseValue (v : Value)
  /-- Runs steps of the host, and gives back the graph that is then in context. -/
  | body (steps : List Host.Step)
  /-- Builds a graph of its own, then applies a batch to the graph in context. -/
  | nested (inits : List Initializer) (next : Value)
  /-- Gives back what it is given. -/
  | same
  /-- Calls a function of a script. -/
  | scripted (f : Datum)
  /-- Gives way, then does what another function does. -/
  | later (p : Procedure)

/-- Whether a function of the host may give way before it ends. -/
def Procedure.givesWay : Procedure → Bool
  | .body _ | .nested .. | .later _ => true
  | .batch _ | .notGraph | .empty | .raise _ | .raiseValue _ | .same | .scripted _ => false

/-- What a library file exports under a name: a function, or something else. -/
abbrev Export := Option Procedure

/-! ## 2. State -/

/-- What functions of the host leave as a trace. -/
inductive Trace where
  /-- The answers of a body. -/
  | answers (as : List Host.Answer)
  /-- What a build of their own has made. -/
  | graph (c : Content)

/-- What an engine is told once. -/
structure Setup where
  /-- The directory against which relative paths are resolved. -/
  baseDir : String
  /-- Where modules are looked for. -/
  source : Module.Source

/-- What an engine is told of directories, both kinds relative to another directory: the base
relative to the working directory, the roots of modules relative to the base. -/
def Setup.ofRoots (cwd base : String) (roots : List String) : Setup :=
  let baseDir := Path.resolve cwd base
  ⟨baseDir, .directories (roots.map (Path.resolve baseDir))⟩

/-- What an engine keeps. -/
structure State where
  modules : Module.State
  /-- The bodies that functions of the host have kept for later. -/
  kept : List Host.Deferred
  disk : Disk
  functions : Fields Procedure
  /-- The DSL functions, by their simple names. -/
  dsl : Fields DslFunction
  /-- The library files of the host in the file tree, with what they export. -/
  libraries : Fields (Fields Export)
  /-- The files imported so far, with what they export if that could be done. -/
  imported : Fields (Option (Fields Export))
  trace : List Trace

/-- The state of an engine to which nothing has been added. -/
def State.start (disk : Disk) (libraries : Fields (Fields Export)) : State :=
  ⟨Module.State.start, [], disk, [], [], libraries, [], []⟩

/-- An act on what modules work on. -/
def onModules {α : Type} (a : Act Module.State α) : Act State α :=
  Act.zoom State.modules (fun s modules => { s with modules }) a

instance : HasSession State :=
  ⟨fun s => s.modules.session,
    fun s session => { s with modules := { s.modules with session } }⟩

/-- What the steps of a host work on. -/
def State.host (s : State) : Host.State := ⟨s.modules.session, s.kept⟩

/-- Takes over what the steps of a host have changed. -/
def State.withHost (s : State) (h : Host.State) : State :=
  { s with
    modules := { s.modules with session := h.session }
    kept := h.kept }

instance : HasHeap State :=
  ⟨fun s => s.modules.heap, fun s heap => { s with modules := { s.modules with heap } }⟩

/-- A strand of the host. -/
def onHost {α : Type} (a : Strand Host.State α) : Strand State α :=
  Strand.zoom State.host State.withHost a

/-- An act on the engine as a strand. -/
def once {α : Type} (a : Act State α) : Strand State α := Strand.ofAct a

/-- Notes an event. -/
def note (e : Log.Event) : Act State Unit := onSession (Session.note e)

/-- Leaves a trace. -/
def leave (t : Trace) : Act State Unit := Act.change fun s => { s with trace := s.trace ++ [t] }

/-! ## 3. Names -/

/-- The names that every script sees and that no DSL function may take. -/
def coreNames : List String :=
  ["console", "require", "currentGraph", "update", "transact", "resolveId", "attr", "DB_ID",
    "ID_ATTR"]

/-- Checks the name of a function. -/
def checkFunctionName (name : String) : Except Fault Unit :=
  let trimmed := Text.trim name
  if trimmed = "" then .error (.error "Initializer function name must be a non-empty string")
  else if name = trimmed then .ok ()
  else
    .error (.error
      s!"Initializer function name \"{name}\" must not have leading/trailing whitespace")

/-- Adds a function of the host. -/
def registerFunction (name : String) (p : Procedure) : Act State Unit := do
  Act.ofExcept (checkFunctionName name)
  Act.change fun s => { s with functions := Fields.put s.functions name p }

/-- Notes that a DSL function takes the place of another one. -/
def noteReplaced (f : DslFunction) : Act State Unit := do
  let s ← Act.state
  match Fields.get? s.dsl f.name with
  | some g =>
    if g.sameAs f then return ()
    else note (.dslReplaced f.name g.qualifiedName f.qualifiedName)
  | none => return ()

/-- Adds a DSL function, in place of another one of its simple name. -/
def registerDsl (f : DslFunction) : Act State Unit := do
  if coreNames.contains f.name then
    Act.fail (.error
      s!"DSL function \"{f.qualifiedName}\" would shadow the script global \"{f.name}\"")
  else
    noteReplaced f
    Act.change fun s => { s with dsl := Fields.put s.dsl f.name f }

/-- Adds DSL functions. -/
def registerAllDsl : List DslFunction → Act State Unit
  | [] => return ()
  | f :: rest => do
    registerDsl f
    registerAllDsl rest

/-- Adds functions of the host. -/
def registerAllFunctions : List (String × Procedure) → Act State Unit
  | [] => return ()
  | (name, p) :: rest => do
    registerFunction name p
    registerAllFunctions rest

/-- Adds the built-in DSL functions, then those of the host, then its functions. -/
def construct (dsl : List DslFunction) (functions : List (String × Procedure)) :
    Act State Unit := do
  registerAllDsl Dsl.builtins
  registerAllDsl dsl
  registerAllFunctions functions

/-! ## 4. Globals -/

/-- What every script sees beside the DSL functions. -/
def coreGlobals : Fields Global := [
  ("console", .console),
  ("currentGraph", .function .currentGraph ⟨"currentGraph", 0, .ordinary⟩),
  ("update", .function .update ⟨"updateGraph", 1, .ordinary⟩),
  ("transact", .function .transact ⟨"transact", 2, .ordinary⟩),
  ("resolveId", .function .resolveId ⟨"resolveId", 1, .ordinary⟩),
  ("attr", .function .attr ⟨"attr", 3, .ordinary⟩), ("DB_ID", .text dbId),
  ("ID_ATTR", .text configId)]

/-- What every script sees. -/
def scriptGlobals (dsl : Fields DslFunction) : Fields Global :=
  Fields.putAll coreGlobals
    ((dsl.filter fun f => f.1 != "__proto__").map fun f => (f.1, .dsl f.2))

/-- What `require` does at present. -/
def requireNow : Act State Module.Require := do
  let s ← Act.state
  onModules (Module.requireNow s.disk (scriptGlobals s.dsl))

end ConfGraph.Engine
