import BuildGraph.CommandLine.Run
set_option autoImplicit false

/-!
# The program

Takes a picture of the workspace on disk, runs the program on it, and carries out on disk what has
changed in the picture. All decisions are made by `CommandLine.run`; only reading and writing
happens here. Of the files only those that a run reads are taken into the picture with their
content. Links cannot be made from here: each of them is reported instead.
-/

namespace BuildGraph.Program

/-- Whether a run reads the content of a file with this name. -/
def isRead (name : String) : Bool :=
  name == Workspace.Settings.fileName || Text.endsWith name Descriptor.fileSuffix

/-- The nodes of an entry of a directory and of everything below it. A link that leads nowhere is
kept as a link to itself. -/
partial def nodesOf (above : Location) (entry : IO.FS.DirEntry) :
    IO (List (Location × Node)) := do
  let l := above ++ [entry.fileName]
  match (← entry.path.symlinkMetadata).type with
  | .dir =>
    let below ← (← entry.path.readDir).toList.mapM (nodesOf l)
    return (l, .directory) :: below.flatten
  | .file =>
    let content ←
      if isRead entry.fileName then IO.FS.readBinFile entry.path else pure ByteArray.empty
    return [(l, .file content)]
  | .symlink =>
    let target ←
      try pure (← IO.FS.realPath entry.path).toString
      catch _ => pure entry.fileName
    return [(l, .link target)]
  | .other => return []

/-- The directories on the way to a location, and the one there. -/
def directoriesTo (l : Location) : List (Location × Node) :=
  (List.range l.length).map fun n => (l.take (n + 1), .directory)

/-- The picture of everything below a directory. -/
def picture (root : String) : IO FileTree := do
  let l := FileTree.steps root
  let entries ← (← IO.FS.realPath root).readDir
  let below ← entries.toList.mapM (nodesOf l)
  return .ofNodes (directoriesTo l ++ below.flatten)

/-- Carries out one change. -/
def carryOut (change : Location × Node) : IO Unit := do
  let path := change.1.path
  match change.2 with
  | .directory => IO.FS.createDirAll path
  | .file content => IO.FS.writeBinFile path content
  | .link _ => IO.eprintln s!"WARN Cannot create symlink {path}"

/-- What stands in a tree and did not stand in another one. -/
def changes (before after : FileTree) : List (Location × Node) :=
  after.nodes.filter fun change => before.get? change.1 != some change.2

/-- Shows what a run has printed, and gives its exit code. -/
def report (outcome : CommandLine.Outcome) : IO UInt32 := do
  IO.eprint outcome.stderr
  IO.print outcome.stdout
  return outcome.code.toUInt32

end BuildGraph.Program

open BuildGraph in
/-- Runs the program. -/
def main (arguments : List String) : IO UInt32 := do
  match CommandLine.requestOf arguments with
  | .run o =>
    let root? ← try pure (some (← IO.FS.realPath o.root).toString) catch _ => pure none
    match root? with
    | none => Program.report (CommandLine.run .empty "/" o)
    | some root =>
      let before ← try Program.picture root catch _ => pure .empty
      let outcome := CommandLine.run before "/" { o with root := root }
      (Program.changes before outcome.tree).forM Program.carryOut
      Program.report outcome
  | _ => Program.report (CommandLine.execute .empty "/" arguments)
