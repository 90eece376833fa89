import BuildGraph.FileTree.Resolve
set_option autoImplicit false

/-!
# Changes to a file tree

Making directories, writing files and making links, as a program does it through paths. A change
either gives the new tree or a fault. Making a directory with those above it may stop half way, and
then gives the tree as far as it got beside the fault.
-/

namespace BuildGraph.FileTree

/-- The tree after a change, and the fault with which it stopped, if it did. -/
structure Change where
  tree : FileTree
  fault? : Option Fault

/-- The tree with a new directory. Its parent must exist, and its name must be free. -/
def makeDirectory (t : FileTree) (path : String) : Except Fault FileTree :=
  match t.resolve false path with
  | .ok (.vacant parent name) => .ok (t.put (parent ++ [name]) .directory)
  | .ok (.existing _ _) => .error .alreadyExists
  | .error e => .error e

/-- A directory and the paths above it, the nearest first. -/
def ancestors : Nat → String → List String
  | 0, path => [path]
  | fuel + 1, path =>
    match Path.parent? path with
    | some p => if p = "" then [path] else path :: ancestors fuel p
    | none => [path]

/-- Makes the directory at the first of some paths, each of which is the parent of the one before.
Where a parent is missing it is made first; what already is a directory is left alone. -/
def makeAll (t : FileTree) : List String → Change
  | [] => ⟨t, some .notFound⟩
  | path :: above =>
    match t.makeDirectory path with
    | .ok t => ⟨t, none⟩
    | .error .notFound =>
      match makeAll t above with
      | ⟨t, some e⟩ => ⟨t, some e⟩
      | ⟨t, none⟩ =>
        match t.makeDirectory path with
        | .ok t => ⟨t, none⟩
        | .error e => if t.isDirectory path then ⟨t, none⟩ else ⟨t, some e⟩
    | .error e => if t.isDirectory path then ⟨t, none⟩ else ⟨t, some e⟩

/-- Makes a directory and those above it that are missing. -/
def makeDirectories (t : FileTree) (path : String) : Change :=
  t.makeAll (ancestors path.length path)

/-- The tree with new content in the file at a path, which is made if its name is free. A link at
the end of the path is followed. -/
def writeBytes (t : FileTree) (path : String) (content : ByteArray) : Except Fault FileTree :=
  match t.resolve true path with
  | .ok (.vacant parent name) => .ok (t.put (parent ++ [name]) (.file content))
  | .ok (.existing l (.file _)) => .ok (t.put l (.file content))
  | .ok (.existing _ _) => .error .isDirectory
  | .error e => .error e

/-- The tree with a text in the file at a path. -/
def writeText (t : FileTree) (path text : String) : Except Fault FileTree :=
  t.writeBytes path text.toUTF8

/-- The tree with a new link, whose name must be free. -/
def makeLink (t : FileTree) (target path : String) : Except Fault FileTree :=
  match t.resolve false path with
  | .ok (.vacant parent name) => .ok (t.put (parent ++ [name]) (.link target))
  | .ok (.existing _ _) => .error .alreadyExists
  | .error e => .error e

/-- The tree without what stands at a path, links not followed. -/
def removeAt (t : FileTree) (path : String) : FileTree :=
  match t.resolve false path with
  | .ok (.existing l _) => t.remove l
  | _ => t

/-- The tree with a file and the directories it stands in. -/
def addFile (t : FileTree) (path : String) (content : ByteArray) : FileTree :=
  let t := match Path.parent? path with
    | some p => (t.makeDirectories p).tree
    | none => t
  (t.writeBytes path content).toOption.getD t

/-- The tree with a link and the directories it stands in. -/
def addLink (t : FileTree) (target path : String) : FileTree :=
  let t := match Path.parent? path with
    | some p => (t.makeDirectories p).tree
    | none => t
  (t.makeLink target path).toOption.getD t

end BuildGraph.FileTree
