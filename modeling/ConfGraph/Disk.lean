import ConfGraph.Fault
import ConfGraph.Path

/-!
# File trees

A file tree has directories and text files, and symbolic links to either.  Paths lead from the root
down, by components; they go through links, which a walk through a directory only sees as links.

* `Node`: files, directories and links.
* `Node.at?`: what a path leads to.
* `Disk.read`, `Disk.write`, `Disk.remove`: files by path.
-/

namespace ConfGraph

/-- A file, a directory or a symbolic link. -/
inductive Node where
  | file (text : String)
  | dir (entries : List (String × Node))
  /-- A link, by what it leads to. -/
  | link (behind : Node)
  /-- A link that leads nowhere. -/
  | lost

namespace Node

/-- Why a path leads nowhere. -/
inductive Miss where
  /-- A component is missing. -/
  | absent
  /-- A component that is not the last is a file. -/
  | blocked
deriving DecidableEq, Repr

/-- What is at the end of links. -/
def target : Node → Node
  | .link n => n.target
  | n => n

/-- The same links with something else at their end. -/
def retarget : Node → Node → Node
  | .link n, new => .link (n.retarget new)
  | _, new => new

/-- What a path leads to, through links: a file or a directory. -/
def at? : Node → List String → Except Miss Node
  | n, [] =>
    match n.target with
    | .lost => .error .absent
    | m => .ok m
  | n, c :: rest =>
    match n.target with
    | .dir entries =>
      match entries.lookup c with
      | none => .error .absent
      | some n => n.at? rest
    | .lost => .error .absent
    | _ => .error .blocked

/-- Puts a file or a directory at a path; directories on the way are made.  A directory does not
replace one that is there. -/
def put (new : Node) : List String → Option Node → Node
  | [], none => new
  | [], some n =>
    n.retarget <|
      match n.target, new with
      | .dir entries, .dir _ => .dir entries
      | _, new => new
  | c :: rest, none => .dir [(c, put new rest none)]
  | c :: rest, some n =>
    n.retarget <|
      match n.target with
      | .dir entries => .dir (Fields.put entries c (put new rest (entries.lookup c)))
      | _ => .dir [(c, put new rest none)]

/-- Takes away what a path leads to, or the link that it ends at. -/
def erase : List String → Node → Node
  | [], n => n
  | c :: rest, n =>
    match n.target with
    | .dir entries =>
      match rest, entries.lookup c with
      | _, none => n
      | [], some _ => n.retarget (.dir (Fields.erase entries c))
      | rest, some m => n.retarget (.dir (Fields.put entries c (erase rest m)))
    | _ => n

mutual

/-- How many files there are in a node, those behind links again at each. -/
def fileCount : Node → Nat
  | .file _ => 1
  | .dir entries => fileCountEntries entries
  | .link n => n.fileCount
  | .lost => 0

/-- How many files there are below the entries of a directory. -/
def fileCountEntries : List (String × Node) → Nat
  | [] => 0
  | (_, n) :: rest => n.fileCount + fileCountEntries rest

end

end Node

/-- A file tree, by its root. -/
structure Disk where
  root : Node

namespace Disk

/-- The empty file tree. -/
def empty : Disk := ⟨.dir []⟩

/-- The components of an absolute path. -/
def steps (path : String) : List String := Path.resolvedComponents "/" path

/-- What a path leads to. -/
def at? (d : Disk) (path : String) : Except Node.Miss Node := d.root.at? (steps path)

/-- Whether a path leads to something. -/
def has (d : Disk) (path : String) : Bool := (d.at? path).isOk

/-- How many files there are. -/
def fileCount (d : Disk) : Nat := d.root.fileCount

/-- The fault of a path that leads nowhere. -/
def missFault (miss : Node.Miss) (act path : String) : Fault :=
  match miss with
  | .absent => .system "ENOENT" s!"ENOENT: no such file or directory, {act} '{path}'"
  | .blocked => .system "ENOTDIR" s!"ENOTDIR: not a directory, {act} '{path}'"

/-- The text of a file. -/
def read (d : Disk) (path : String) : Except Fault String :=
  match d.at? path with
  | .ok (.file text) => .ok text
  | .ok _ => .error (.system "EISDIR" "EISDIR: illegal operation on a directory, read")
  | .error miss => .error (missFault miss "open" path)

/-- Writes a file. -/
def write (d : Disk) (path text : String) : Disk :=
  ⟨Node.put (.file text) (steps path) (some d.root)⟩

/-- Makes a directory. -/
def makeDir (d : Disk) (path : String) : Disk := ⟨Node.put (.dir []) (steps path) (some d.root)⟩

/-- Makes a symbolic link. -/
def makeLink (d : Disk) (path : String) (link : Node) : Disk :=
  ⟨Node.put link (steps path) (some d.root)⟩

/-- Removes a file or a directory. -/
def remove (d : Disk) (path : String) : Disk := ⟨Node.erase (steps path) d.root⟩

end Disk

end ConfGraph
