import ConfGraph.Engine.Basic
import ConfGraph.Script.Offer

/-!
# Library files

An initializer may name a function that a file of the host exports.  Such a file is a library of the
host, or a plain file, which is evaluated as if it were required.  A path may leave out the extension
of a file, or mean the index of a directory.  Each file is imported once: what it exported then, or
that it could not be imported, stays so.

* `splitRef?`: the two parts of a reference.
* `importFile`: what a file exports.
* `exportedFunction`: the function that a reference means.
-/

namespace ConfGraph.Engine

open Script

/-! ## 1. References -/

/-- A reference `specifier#export`, split at its last `#`; neither part may be empty. -/
def splitRef? (ref : String) : Option (String × String) :=
  let back := ref.toList.reverse
  let name := (back.takeWhile (· != '#')).reverse
  let specifier := (back.dropWhile (· != '#')).tail.reverse
  if name.isEmpty || specifier.isEmpty then none
  else some (String.ofList specifier, String.ofList name)

/-- Whether a specifier is a path. -/
def isPath (specifier : String) : Bool :=
  match specifier.toList with
  | '.' :: _ | '/' :: _ => true
  | _ => false

/-! ## 2. Plain files -/

/-- The extensions of plain files that can be imported. -/
def plainExtensions : List String := [".js", ".cjs", ""]

/-- The names that a plain file offers, itself or through at most so many others. -/
def offeredNames (disk : Disk) : Nat → String → List String
  | 0, _ => []
  | depth + 1, path =>
    match (disk.read path).toOption.bind (Program.ofText? true) with
    | none => []
    | some program =>
      let offer := program.offer
      let files := (offer.through.filterMap (Module.fileOf? disk path)).filter fun file =>
        plainExtensions.contains (Path.extension file)
      offer.names ++ files.flatMap (offeredNames disk depth)

/-- What something is as an export: a function if it can be called. -/
def exportOf (h : Heap) (d : Datum) : Export := (Runtime.callable? h d).map fun _ => .scripted d

/-- The exports of a plain file under names that it offers, if it has them. -/
def namedExports (d : Datum) : List String → Act Module.State (Fields Export)
  | [] => return []
  | name :: rest => do
    let h ← getHeap
    let isOwn := match d with
      | .cell id => (h.get? id).any fun c => h.hasOwn id c name
      | _ => false
    let field ← if isOwn then readField hostRealm d name else pure .undefined
    let e := exportOf (← getHeap) field
    return (name, e) :: (← namedExports d rest)

/-- What a plain file exports: what it offers by name, and all of it under `default`. -/
def exportsOf (names : List String) (d : Datum) : Act Module.State (Fields Export) :=
  match d, names with
  | .undefined, _ :: _ | .null, _ :: _ => Act.fail .noRecord
  | d, names => do
    let named ← namedExports d names
    let h ← getHeap
    return Fields.put (Fields.ofList named) "default" (exportOf h d)

/-- Imports a plain file: evaluates it as if it were required. -/
def importPlain (require : Module.Require) (disk : Disk) (path : String) :
    Act Module.State (Fields Export) := do
  let d ← require ⟨path, none⟩ (.str path)
  exportsOf (offeredNames disk (disk.fileCount + 1) path) d

/-! ## 3. Libraries -/

/-- The extensions of libraries. -/
def libraryExtensions : List String := [".mjs", ".js", ""]

/-- Imports the text of a library that exports nothing: it sees neither exports nor `require`. -/
def importIdle (require : Module.Require) (path text : String) :
    Act Module.State (Fields Export) := do
  let program ← Act.ofExcept (Program.ofText true text)
  let globals ← Module.makeGlobals [("console", .console)]
  evaluate require {
    fn := none, file := path, ownRealm := false, globals, parameters := some []
    program := { program with isStrict := true } }
  return []

/-- Imports a text file; a JSON file exports no functions. -/
def importText (require : Module.Require) (disk : Disk) (path text : String) :
    Act Module.State (Fields Export) :=
  let ext := Path.extension path
  if ext = ".json" then
    match Json.parse? text with
    | some _ => return []
    | none => Act.fail (.plain "SyntaxError" s!"{path}: not a JSON text")
  else if plainExtensions.contains ext then importPlain require disk path
  else if ext = ".mjs" then importIdle require path text
  else Act.fail (.typeError s!"Unknown file extension \"{ext}\" for {path}")

/-- The file that the path of a library means: the path with an extension, itself, or the index of a
directory. -/
def libraryAt (s : State) (path : String) : String :=
  let isThere (p : String) : Bool :=
    (Fields.get? s.libraries p).isSome || Module.isFile s.disk p
  let index := Path.child path "index"
  let guesses := [path ++ ".js", path ++ ".json", path, index ++ ".js", index ++ ".json"]
  (guesses.find? isThere).getD path

/-- Finds what a library file exports; `none` if it cannot be imported. -/
def findExports (path : String) : Act State (Option (Fields Export)) := do
  let s ← Act.state
  match Fields.get? s.libraries path, s.disk.read path with
  | some exports, _ =>
    return if libraryExtensions.contains (Path.extension path) then some exports else none
  | none, .ok text => do
    let require ← requireNow
    let r ← Act.outcome (onModules (importText require s.disk path text))
    return r.toOption
  | none, .error _ => return none

/-- What a library file exports; `none` if it cannot be imported.  Whatever became of a file that
was imported before stays as it was then; where there is no file, there may be one later. -/
def importFile (path : String) : Act State (Option (Fields Export)) := do
  let s ← Act.state
  match Fields.get? s.imported path with
  | some known => return known
  | none => do
    let isThere := (Fields.get? s.libraries path).isSome || Module.isFile s.disk path
    let exports ← findExports path
    if isThere then Act.change fun s => { s with imported := Fields.put s.imported path exports }
    return exports

/-! ## 4. Functions -/

/-- Whether a library file takes over its own import: whoever waits for it asks the function `then`
that it exports, and no such function hands the import back. -/
def takesOver (exports : Fields Export) : Bool := ((Fields.get? exports "then").bind id).isSome

/-- The function that a reference means, which names an export of a library file. -/
def exportedFunction (e : Setup) (ref specifier name : String) : Act State Procedure := do
  let exports ←
    if isPath specifier then do
      let s ← Act.state
      importFile (libraryAt s (Path.resolve e.baseDir specifier))
    else pure none
  match exports.filter (!takesOver ·) with
  | none => Act.fail (.noFunction ref s!"cannot import \"{specifier}\": no such library")
  | some exports =>
    match Fields.get? exports name with
    | some (some p) => return p
    | _ => Act.fail (.noFunction ref s!"\"{specifier}\" has no function export \"{name}\"")

/-- Calls a function of a script with what is in context. -/
def callScripted (require : Module.Require) (f : Datum) (c : Content) :
    Act Module.State Content := do
  let g ← contentDatum c
  let rt := runtimeWithin require callDepth
  contentOf (← rt.callNamed "exported" f [g])

end ConfGraph.Engine
