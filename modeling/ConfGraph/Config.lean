import ConfGraph.Disk
import ConfGraph.Initializer
import ConfGraph.Log.Basic
import ConfGraph.Value.Reader

/-!
# Config files

A config says where modules are, how much is logged, and which initializers make the graph.  It
comes as a JSON file, whose directory is then the base for relative paths, or as a JSON text.

* `Config`: a config.
* `Config.parse`: reads one from a value.
* `Config.load`: reads one from a file or a text.
-/

namespace ConfGraph

/-- A config. -/
structure Config where
  /-- The directory against which relative paths are resolved. -/
  baseDir : String
  moduleRoots : List String
  logLevel : Option Log.Level
  initializers : List Initializer

namespace Config

open Shape

/-! ## 1. From a value -/

/-- A part that counts as an empty list if it is absent. -/
def listOrNone {α : Type} (s : Shape (List α)) : Shape (List α)
  | .undefined => .ok []
  | v => s v

/-- The parts of a config, its initializers unread. -/
def shape : Shape (List String × Option String × List Value) := object fun v =>
  both (field "moduleRoots" (listOrNone (list nonEmptyText)) v)
    (both (field "logLevel" (optional (word Log.Level.names)) v)
      (field "initializers" (listOrNone (list any)) v))

/-- Reads initializers in order. -/
def parseInitializers : List Value → Except Fault (List Initializer)
  | [] => .ok []
  | v :: rest =>
    match Initializer.parse v with
    | .error f => .error f
    | .ok i =>
      match parseInitializers rest with
      | .error f => .error f
      | .ok is => .ok (i :: is)

/-- **Reads a config from a value.** -/
def parse (data : Value) (baseDir : String) : Except Fault Config :=
  match shape data with
  | .error issues => .error (.ofIssues issues fun report => .error s!"Invalid config: {report}")
  | .ok (moduleRoots, logLevel, values) =>
    match parseInitializers values with
    | .error f => .error f
    | .ok initializers =>
      .ok ⟨baseDir, moduleRoots, logLevel.bind Log.Level.ofName?, initializers⟩

/-! ## 2. From a file or a text -/

/-- Reads a JSON text. -/
def parseText (text origin : String) : Except Fault Value :=
  match Json.parse? text with
  | some v => .ok v
  | none => .error (.error s!"Failed to parse {origin}: not a JSON text")

/-- Where a config is to be taken from. -/
structure Origin where
  /-- The path of a file. -/
  file : Option String
  /-- A text in place. -/
  text : Option String

/-- An option that is given and not empty. -/
def given (o : Option String) : Option String := o.filter (· != "")

/-- Reads a config file. -/
def loadFile (d : Disk) (path : String) : Except Fault Config :=
  if d.has path then
    match d.read path with
    | .error f => .error f
    | .ok text =>
      match parseText text path with
      | .error f => .error f
      | .ok data => parse data (Path.parent path)
  else .error (.error s!"Config file not found: {path}")

/-- Reads a config from a text. -/
def loadText (text cwd : String) : Except Fault Config :=
  match parseText text "--json" with
  | .error f => .error f
  | .ok data => parse data cwd

/-- **Reads a config** from a file or a text, exactly one of which must be given. -/
def load (d : Disk) (origin : Origin) (cwd : String) : Except Fault Config :=
  match given origin.file, given origin.text with
  | some _, some _ => .error (.error "--config and --json cannot be used together")
  | some file, none => loadFile d (Path.resolve cwd file)
  | none, some text => loadText text cwd
  | none, none => .error (.error "Provide either --config or --json")

/-! ## 3. As a value -/

/-- A config as a value. -/
def toValue (c : Config) : Value :=
  .record .host [
    ("baseDir", .str c.baseDir),
    ("moduleRoots", .list (c.moduleRoots.map .str)),
    ("initializers", .list (c.initializers.map Initializer.toValue)),
    ("logLevel", c.logLevel.elim .undefined fun l => .str l.name)]

end Config

end ConfGraph
