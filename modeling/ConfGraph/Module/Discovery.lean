import ConfGraph.Disk
import ConfGraph.Module.Directive
import ConfGraph.Module.Ident
import ConfGraph.Text.Units

/-!
# Discovery of modules

Modules are found below root directories: every file, at any depth, whose path gives an identifier.
Names that start with a dot and `node_modules` are passed over, with all below them, and so are
symbolic links.  Of several files with one identifier the first counts, in order of roots and, below
one root, of paths.

* `Listed`: a module that was found.
* `Source`: where modules are looked for.
* `Source.list`: all modules.
-/

namespace ConfGraph.Module

/-- A module that was found. -/
structure Listed where
  id : String
  path : String
  isConfig : Bool
  /-- Its text, or why it cannot be read, if that does not depend on its file. -/
  ownText : Option (Except Fault String)

/-- The text of a module as it is now. -/
def Listed.text (d : Disk) (m : Listed) : Except Fault String := m.ownText.getD (d.read m.path)

/-- Where modules are looked for. -/
inductive Source where
  /-- Below directories. -/
  | directories (roots : List String)
  /-- In a list given beforehand. -/
  | fixed (modules : List Listed)

/-! ## 1. Files below a directory -/

/-- Whether a name is passed over. -/
def isPassedOver (name : String) : Bool :=
  name.toList.head? == some '.' || name == "node_modules"

mutual

/-- The files of a node at a path, with their paths and texts.  What is no file itself is none. -/
def filesOf (path : String) : Node → List (String × String)
  | .file text => [(path, text)]
  | .dir entries => filesOfEntries path entries
  | .link _ | .lost => []

/-- The files below the entries of a directory at a path. -/
def filesOfEntries (path : String) : List (String × Node) → List (String × String)
  | [] => []
  | (name, n) :: rest =>
    (if isPassedOver name then [] else filesOf (Path.child path name) n) ++ filesOfEntries path rest

end

/-- The order of files by the units of their paths. -/
def pathLe (a b : String × String) : Bool := Text.unitsLe a.1 b.1

/-- The files below a root, in order of paths.  A root that is missing has none; a file is no
root. -/
def filesBelow (d : Disk) (root : String) : Except Fault (List (String × String)) :=
  match d.at? root with
  | .ok (.dir entries) => .ok ((filesOfEntries root entries).mergeSort pathLe)
  | .error .absent => .ok []
  | .ok _ | .error .blocked => .error (Disk.missFault .blocked "scandir" root)

/-! ## 2. Modules -/

/-- The module that a file below a root is. -/
def ofFile? (root : String) (file : String × String) : Option Listed :=
  (idOfPath? "/" root file.1).map fun id => ⟨id, file.1, isConfig file.2, none⟩

/-- A module added unless there is one with its identifier. -/
def addNew (found : List Listed) (m : Listed) : List Listed :=
  if found.any fun n => n.id == m.id then found else found ++ [m]

/-- The modules below roots, added to those found so far. -/
def listBelow (d : Disk) (found : List Listed) : List String → Except Fault (List Listed)
  | [] => .ok found
  | root :: rest =>
    match filesBelow d root with
    | .error f => .error f
    | .ok files => listBelow d ((files.filterMap (ofFile? root)).foldl addNew found) rest

/-- **All modules.** -/
def Source.list (d : Disk) : Source → Except Fault (List Listed)
  | .directories roots => listBelow d [] roots
  | .fixed modules => .ok modules

end ConfGraph.Module
