import ConfGraph.Cli.Program

/-!
# Main

The command line program on the real file tree: what the program may read is copied into a file
tree first, and all the rest is `ConfGraph.Cli.run`.
-/

namespace ConfGraph.Cli

/-- Copies a file, or all below a directory that is not passed over, into a file tree.  A link is copied
as one, with what is behind it, unless that is one of the directories on the way.  What cannot be read is
left out. -/
partial def copyTree (onWay : List String) (d : Disk) (path : String) : IO Disk := do
  try
    let place ← IO.FS.realPath path
    if ← place.isDir then
      if onWay.contains place.toString then return d
      let onWay := place.toString :: onWay
      let mut d := d.makeDir path
      for entry in ← place.readDir do
        if !Module.isPassedOver entry.fileName then
          let inner := Path.child path entry.fileName
          match (← entry.path.symlinkMetadata).type with
          | .dir | .file => d ← copyTree onWay d inner
          | .symlink =>
            let behind ← copyTree onWay Disk.empty inner
            let link : Node := match behind.at? inner with
              | .ok n => .link n
              | .error _ => .lost
            d := d.makeLink inner link
          | .other => pure ()
      return d
    else
      return d.write path (← IO.FS.readFile place)
  catch _ => return d

/-- Copies several files or directories into a file tree. -/
def copyTrees (d : Disk) (paths : List String) : IO Disk := paths.foldlM (copyTree []) d

end ConfGraph.Cli

open ConfGraph in
/-- Runs the program. -/
def main (args : List String) : IO UInt32 := do
  let cwd := (← IO.currentDir).toString
  let d ← Cli.copyTrees Disk.empty (Cli.configFile? cwd args).toList
  let d ← Cli.copyTrees d (Cli.sources d cwd args)
  let o := Cli.run d cwd args
  IO.print o.stdout
  IO.eprint o.stderr
  return o.exitCode.toUInt32
