import ConfGraph.Path

/-!
# Module identifiers

A module is named after its file: the components of its path below the module root, joined by
dots, without the extension.

* `Module.extensions`: the extensions of module files.
* `Module.idOfPath?`: the identifier of a file.
-/

namespace ConfGraph.Module

/-- The extensions of module files. -/
def extensions : List String := [".js", ".cjs"]

/-- The components of a path with an extension taken off the last one. -/
def withoutExtension (ext : String) (components : List String) : List (List Char) :=
  match components.reverse with
  | [] => []
  | last :: rest =>
    let name := last.toList
    (name.take (name.length - ext.toList.length) :: rest.map String.toList).reverse

/-- The identifier of a file below a root; `none` for files that cannot be modules. -/
def idOfPath? (base root file : String) : Option String :=
  let ext := Path.extension file
  if !extensions.contains ext then none
  else
    match Path.within? base root file with
    | none | some [] => none
    | some components =>
      let segments := withoutExtension ext components
      if segments.all Text.isSegment then
        some (String.intercalate "." (segments.map String.ofList))
      else none

end ConfGraph.Module
