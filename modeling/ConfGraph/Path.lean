import ConfGraph.Text.Identifier

/-!
# Paths

Paths are texts whose components are separated by slashes.  A path is resolved against a base
directory: empty components and `.` vanish, `..` takes away the component before it, and nothing
lies above the root.

* `Path.resolve`: the resolved path.
* `Path.parent`, `Path.child`: the directory of a path, and a path inside a directory.
* `Path.extension`: the part of the last component from its last dot on.
* `Path.within?`: the components of a path below a directory.
-/

namespace ConfGraph.Path

/-! ## 1. Components -/

/-- The components of a path, without empty ones and `.`. -/
def components (p : String) : List String :=
  ((Text.splitAt '/' p.toList).map String.ofList).filter fun c => c != "" && c != "."

/-- One component after the resolved ones, which are given last first. -/
def climb (done : List String) (c : String) : List String :=
  if c = ".." then done.tail else c :: done

/-- Components in which no `..` is left. -/
def collapse (cs : List String) : List String := (cs.foldl climb []).reverse

/-- Whether a path starts at the root. -/
def isAbsolute (p : String) : Bool := p.toList.head? == some '/'

/-- The path of resolved components. -/
def ofComponents (cs : List String) : String := "/" ++ String.intercalate "/" cs

/-- The components of a path resolved against a base directory. -/
def resolvedComponents (base p : String) : List String :=
  if isAbsolute p then collapse (components p) else collapse (components base ++ components p)

/-- A path resolved against a base directory. -/
def resolve (base p : String) : String := ofComponents (resolvedComponents base p)

/-- A path inside a directory. -/
def child (dir name : String) : String :=
  if dir.toList.getLast? == some '/' then dir ++ name else s!"{dir}/{name}"

/-! ## 2. Directory and extension -/

/-- A path without its last component and the slashes around it; `none` if nothing but the root or
the working directory is left. -/
def parentChars (p : List Char) : Option (List Char) :=
  let back := p.reverse.dropWhile (· == '/')
  match back.dropWhile (· != '/') with
  | [] => none
  | rest => some rest.tail.reverse

/-- The directory of a path. -/
def parent (p : String) : String :=
  match parentChars p.toList with
  | none => "."
  | some [] => "/"
  | some ['/'] => "//"
  | some cs => String.ofList cs

/-- The last component of a path, slashes at the end not counted. -/
def lastComponent (p : String) : List Char :=
  ((p.toList.reverse.dropWhile (· == '/')).takeWhile (· != '/')).reverse

/-- The part of the last component from its last dot on, unless the component starts with that dot
or is `..`. -/
def extension (p : String) : String :=
  let name := lastComponent p
  let after := (name.reverse.takeWhile (· != '.')).reverse
  let before := (name.reverse.dropWhile (· != '.')).tail.reverse
  if before.isEmpty || (before == ['.'] && after.isEmpty) then "" else String.ofList ('.' :: after)

/-! ## 3. Below a directory -/

/-- What is left of a list after another one in front of it. -/
def after? : List String → List String → Option (List String)
  | [], cs => some cs
  | _ :: _, [] => none
  | d :: ds, c :: cs => if d = c then after? ds cs else none

/-- The components of a path below a directory, both resolved against a base. -/
def within? (base dir p : String) : Option (List String) :=
  after? (resolvedComponents base dir) (resolvedComponents base p)

end ConfGraph.Path
