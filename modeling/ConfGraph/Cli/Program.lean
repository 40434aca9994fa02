import ConfGraph.Cli.Arguments
import ConfGraph.Engine.Build
import ConfGraph.Graph.Fingerprint

/-!
# The command line program

The program reads a config, builds the graph and prints it as JSON.  Log records of the levels up to
`info` go to the standard output, before the graph; warnings, errors and the failure that ended the
program go to the error output.  Scripts may write between them.

* `Outcome`: what the program leaves.
* `run`: the program, on a file tree.
* `configFile?`, `sources`: the parts of the file tree that it reads.
-/

namespace ConfGraph.Cli

/-- What the program leaves. -/
structure Outcome where
  exitCode : Nat
  stdout : String
  stderr : String

/-! ## 1. Output -/

/-- A line. -/
def line (s : String) : String := s ++ "\n"

/-- What a logger writes of an event, on a console. -/
def logged (l : Log.Logger) (c : Console) (e : Log.Event) : Console × List PrintedLine :=
  match e, e.record?.map l.emit with
  | .printed name args, _ => c.call name args
  | _, some (.printed method text) => c.call method.name [Console.textual text]
  | _, _ => (c, [])

/-- What a logger writes of events, one after the other. -/
def transcript (l : Log.Logger) (c : Console) : List Log.Event → Console × List PrintedLine
  | [] => (c, [])
  | e :: rest =>
    let (c, lines) := logged l c e
    let (c, more) := transcript l c rest
    (c, lines ++ more)

/-- What goes to the standard output, or to the error output. -/
def output (toErrors : Bool) (lines : List PrintedLine) : String :=
  String.join ((lines.filter (·.toErrors == toErrors)).map (·.text))

/-- What the program leaves when it ends with a last line, after what has been logged. -/
def ending (exitCode : Nat) (l : Log.Logger) (events : List Log.Event) (method : Log.Method)
    (last : String) : Outcome :=
  let (c, lines) := transcript l Console.start events
  let all := lines ++ (c.call method.name [Console.textual last]).2
  ⟨exitCode, output false all, output true all⟩

/-- What the program leaves when it ends at its arguments. -/
def Refusal.outcome : Refusal → Outcome
  | .help => ⟨0, helpText, ""⟩
  | .missingValue flag => ⟨1, "", line s!"error: option '{flag.usage}' argument missing"⟩
  | .unknownOption arg => ⟨1, "", line s!"error: unknown option '{arg}'{suggestion arg}"⟩

/-- What the program leaves when it fails, after what has been logged. -/
def failure (f : Fault) (l : Log.Logger) (events : List Log.Event) : Outcome :=
  ending 1 l events .error f.render

/-! ## 2. The program -/

/-- Builds the graph of a config. -/
def buildConfig (d : Disk) (cwd : String) (c : Config) : Except Fault Content × List Log.Event :=
  let setup := Engine.Setup.ofRoots cwd c.baseDir c.moduleRoots
  let act : Act Engine.State Content := do
    Engine.construct [] []
    let start ← onSession Host.emptyContent
    let built ← (Engine.build setup c.initializers start).exec
    return (← Script.getHeap).renew built
  let (r, s) := Act.exec act Context.outside (Engine.State.start d [])
  (r, s.modules.session.events)

/-- The program on a config. -/
def runConfig (d : Disk) (cwd : String) (c : Config) : Outcome :=
  let l : Log.Logger := { Log.Logger.start with
    threshold := c.logLevel.getD Log.Logger.start.threshold }
  let (built, events) := buildConfig d cwd c
  match built.bind Content.toValue with
  | .ok v => ending 0 l events .info v.pretty
  | .error f => failure f l events

/-- **The program**, on a file tree and with a working directory. -/
def run (d : Disk) (cwd : String) (args : List String) : Outcome :=
  match read args with
  | .error refusal => refusal.outcome
  | .ok origin =>
    match Config.load d origin cwd with
    | .error f => failure f Log.Logger.start []
    | .ok c => runConfig d cwd c

/-! ## 3. What the program reads -/

/-- The config file that arguments name. -/
def configFile? (cwd : String) (args : List String) : Option String :=
  match read args with
  | .error _ => none
  | .ok origin => (Config.given origin.file).map (Path.resolve cwd)

/-- The file of an initializer. -/
def sourceFile? (baseDir : String) : Initializer → Option String
  | .file path => some (Path.resolve baseDir path)
  | _ => none

/-- The directories and files that a build reads, once the config file is known. -/
def sources (d : Disk) (cwd : String) (args : List String) : List String :=
  match read args with
  | .error _ => []
  | .ok origin =>
    match Config.load d origin cwd with
    | .error _ => []
    | .ok c =>
      let baseDir := Path.resolve cwd c.baseDir
      baseDir :: c.moduleRoots.map (Path.resolve baseDir)
        ++ c.initializers.filterMap (sourceFile? baseDir)

end ConfGraph.Cli
