import BuildGraph.Error
import BuildGraph.FileTree.Edit
import BuildGraph.Graph.Build
set_option autoImplicit false

/-!
# Where a project goes

The project is written into a directory of its own. Beside it stand links to the directories of
included projects and of interfaces, so that a relative path inside the project leads to them. A
link is made only where its name is free and its target exists.

A tree has no permissions. A link that may not be made for want of them, which would be warned of
and not counted, is no case here: whatever else keeps a link from being made is an error.
-/

namespace BuildGraph.CMake

/-- A link and what it leads to. -/
structure ModuleLink where
  path : String
  target : String
  deriving DecidableEq, Repr, Inhabited

/-- Where a project is written. -/
structure Output where
  /-- The directory that holds the project and the links. -/
  directory : String
  deriving DecidableEq, Repr, Inhabited

/-- The outcome of making links: the tree, how many links are new, what was reported, and the error
that stopped it, if one did. -/
structure Linking where
  tree : FileTree
  created : Nat
  events : List Event
  error? : Option Error

/-- The outcome of writing: the tree, and either the path of what was written or an error. -/
structure Writing where
  tree : FileTree
  result : Except Error String

namespace Output

/-- The name of the directory. -/
def directoryName : String := "ProjectFiles"

/-- The name of the file that holds the project. -/
def fileName : String := "CMakeLists.txt"

/-- Where the project of a workspace goes, by the settings of its toolchain. -/
def ofRoot (root : String) (settings : Toolchain) : Output :=
  ⟨Path.join (Path.join root settings.intermediateDirectory) directoryName⟩

/-- The path of the file that holds the project. -/
def file (o : Output) : String :=
  Path.join o.directory fileName

/-- The name under which the project refers to the directory of a module, if it does. -/
def linkName? (m : Module) : Option String :=
  match m.kind with
  | .native => m.subdirectory
  | .interface => some m.targetName
  | _ => none

/-- The link of a module, if it has one. -/
def linkOf? (o : Output) (m : Module) : Option ModuleLink :=
  (linkName? m).map fun name => ⟨Path.join o.directory name, Path.join m.directory name⟩

/-- The links of the active modules, in order. -/
def plannedLinks (o : Output) (g : Graph) : List ModuleLink :=
  g.active.filterMap fun p => o.linkOf? p.2

/-- Makes the directory, and those above it that are missing. -/
def prepare (o : Output) (t : FileTree) : FileTree × Option Error :=
  let change := t.makeDirectories o.directory
  (change.tree, change.fault?.map (.io o.directory))

/-- Makes one link, unless its name is taken or its target does not exist. -/
def makeLink (s : Linking) (link : ModuleLink) : Linking :=
  if s.tree.isTaken link.path then
    { s with events := s.events ++ [.linkTaken link.path] }
  else if !s.tree.exists? link.target then
    { s with events := s.events ++ [.linkPointless link.target] }
  else match s.tree.makeLink link.target link.path with
    | .ok t => { s with tree := t, created := s.created + 1 }
    | .error e => { s with error? := some (.io link.path e) }

/-- Makes links in turn, up to the first error. -/
def makeLinks (s : Linking) : List ModuleLink → Linking
  | [] => s
  | link :: rest =>
    let next := makeLink s link
    if next.error?.isSome then next else makeLinks next rest

/-- Makes the links of the active modules. -/
def linkModules (o : Output) (g : Graph) (t : FileTree) : Linking :=
  match o.prepare t with
  | (t, some e) => ⟨t, 0, [], some e⟩
  | (t, none) => makeLinks ⟨t, 0, [], none⟩ (o.plannedLinks g)

/-- Writes the text of the project. -/
def write (o : Output) (text : String) (t : FileTree) : Writing :=
  match o.prepare t with
  | (t, some e) => ⟨t, .error e⟩
  | (t, none) =>
    match t.writeText o.file text with
    | .ok t => ⟨t, .ok o.file⟩
    | .error e => ⟨t, .error (.io o.file e)⟩

end Output

end BuildGraph.CMake
