import ConfGraph.Disk
import ConfGraph.Module.State
import ConfGraph.Script.Reader

/-!
# Plain files

A specifier that means no listed module is looked for in the file tree: as a file, with an
extension, or as the index of a directory; a bare name in the `node_modules` directories on the way
up.  A plain file sees none of the globals of scripts.  It is evaluated once and remembered by its
path, and forgotten again if its evaluation fails.

* `fileOf?`: the file that a specifier means.
* `requirePlain`: requires a file.
-/

namespace ConfGraph.Module

open Script

/-! ## 1. Finding files -/

/-- Whether a path leads to a file. -/
def isFile (d : Disk) (path : String) : Bool :=
  match d.at? path with
  | .ok (.file _) => true
  | _ => false

/-- Whether a path leads to a directory. -/
def isDir (d : Disk) (path : String) : Bool :=
  match d.at? path with
  | .ok (.dir _) => true
  | _ => false

/-- A path with the first extension that makes it lead to a file. -/
def extended? (d : Disk) (path : String) : Option String :=
  ([".js", ".json"].map fun ext => path ++ ext).find? (isFile d)

/-- The file that a path means, which may have to be a directory. -/
def fileAt? (d : Disk) (mustBeDir : Bool) (path : String) : Option String :=
  let direct :=
    if mustBeDir then none
    else if isFile d path then some path
    else extended? d path
  match direct with
  | some file => some file
  | none => if isDir d path then extended? d (Path.child path "index") else none

/-- Whether a specifier can mean a directory only: its last component is empty or made of dots. -/
def meansDir (specifier : String) : Bool :=
  match (Text.splitAt '/' specifier.toList).getLast? with
  | some last => last == [] || last == ['.'] || last == ['.', '.']
  | none => false

/-- Whether a specifier starts at the file that holds it: its first component is made of dots. -/
def startsHere (specifier : String) : Bool :=
  match Text.splitAt '/' specifier.toList with
  | first :: _ => first == ['.'] || first == ['.', '.']
  | [] => false

/-- The directories from one given by its components, last first, up to the root. -/
def upward : List String → List String
  | [] => ["/"]
  | c :: rest => Path.ofComponents (c :: rest).reverse :: upward rest

/-- The file that a specifier in a file at a path means. -/
def fileOf? (d : Disk) (path specifier : String) : Option String :=
  let dir := Path.parent path
  if startsHere specifier || Path.isAbsolute specifier then
    fileAt? d (meansDir specifier) (Path.resolve dir specifier)
  else
    (upward (Path.resolvedComponents "/" dir).reverse).findSome? fun dir =>
      fileAt? d (meansDir specifier)
        (Path.resolve (Path.child dir "node_modules") specifier)

/-! ## 2. Requiring files -/

/-- The fault of a specifier that means nothing. -/
def missing (path specifier : String) : Fault :=
  .system "MODULE_NOT_FOUND"
    ("Cannot find module '" ++ specifier ++ "'\nRequire stack:\n- " ++ path)

/-- How many calls of the host lie between a file and the one that requires it. -/
def packageCalls : Nat := 7

/-- Runs a plain file: a JSON file gives its value as exports, any other is a program. -/
def runPlain (require : Require) (d : Disk) (path : String) (exports : Datum) (cell : CellId) :
    Act State Unit := do
  let text ← Act.ofExcept (d.read path)
  if Path.extension path = ".json" then
    match Json.parse? text with
    | none => Act.fail (.plain "SyntaxError" s!"{path}: not a JSON text")
    | some v => do
      let value ← adopt v
      writeField false (.cell cell) exportsName value
  else do
    let program ← Act.ofExcept (Program.ofText true text)
    let globals ← makeGlobals [("console", .console)]
    let own ← makeRequire "require" ⟨path, none⟩
    evaluate require {
      fn := some frameName, file := path, ownRealm := false, globals, program
      parameters := some (moduleVariables path exports cell own) }

/-- The module object of a plain file, if it is remembered. -/
def rememberedPlain? (path : String) : Act State (Option CellId) := fun _ s =>
  (.ok (s.plain.lookup path), s)

/-- Changes what is remembered of plain files. -/
def changePlain (f : Cache → Cache) : Act State Unit :=
  Act.change fun s => { s with plain := f s.plain }

/-- Evaluates a plain file unless it is remembered; gives its exports. -/
def evaluatePlain (require : Require) (d : Disk) (path : String) : Act State Datum := do
  match ← rememberedPlain? path with
  | some cell => exportsOf cell
  | none => do
    let (exports, cell) ← makeModule
    changePlain fun c => c ++ [(path, cell)]
    match ← Act.outcome (runPlain require d path exports cell) with
    | .ok () => exportsOf cell
    | .error f => do
      changePlain fun c => c.forget path
      Act.fail f

/-- **Requires a file**, if a specifier in a file at a path means one. -/
def requirePlain (require : Require) (d : Disk) (path : String) (specifier : Datum) :
    Act State Datum :=
  match specifier with
  | .str "" => Act.fail (.typeError "The argument 'id' must be a non-empty string. Received ''")
  | .str s =>
    match fileOf? d path s with
    | some file => throughHost packageCalls (evaluatePlain require d file)
    | none => Act.fail (missing path s)
  | _ => Act.fail (.typeError "The \"id\" argument must be of type string.")

end ConfGraph.Module
