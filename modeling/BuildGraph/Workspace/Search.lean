import BuildGraph.Descriptor.Modules
import BuildGraph.Graph.Build
import BuildGraph.Module.Scan
import BuildGraph.Workspace.Basic
import BuildGraph.Workspace.Settings
set_option autoImplicit false

/-!
# Searching a workspace

The descriptors of a workspace are all files below its root whose names end as names of descriptors
do, except those in ignored directories. Their modules come in the order of the paths, compared name
by name, and this order is the order of the modules from then on. The files themselves are read side
by side, so that they may be read in any order (`Schedule`): of several that cannot be read the one
that is met first is reported, and what is still being read then counts as read before it or not
at all. Active modules have their sources collected at once. `Workspace.graphAlong` goes all the
way from the files to the graph.
-/

namespace BuildGraph.Workspace

/-! ## Descriptors -/

/-- Whether the way from the root to a file makes it a descriptor: its name ends like one, and no
directory on the way is ignored. -/
def isDescriptor (ignored : List String) (way : Location) : Bool :=
  way.getLast?.any (Text.endsWith · Descriptor.fileSuffix) &&
    !way.dropLast.any ignored.contains

/-- The paths of the descriptors below a root, in order. -/
def descriptorFiles (t : FileTree) (root : String) (ignored : List String) : List String :=
  match t.start root with
  | .directory l =>
    ((t.filesBelow l).filter (isDescriptor ignored)).map (FileTree.pathBelow root)
  | .file _ =>
    if (Path.fileName? root).any (Text.endsWith · Descriptor.fileSuffix) then [root] else []
  | .nothing => []

/-! ## Reading -/

/-- An order in which files come to be read. -/
structure Schedule where
  order : List String → List String
  perm : ∀ files, (order files).Perm files

namespace Schedule

/-- The order in which the files are given. -/
def inOrder : Schedule :=
  ⟨id, fun _ => .refl _⟩

instance : Inhabited Schedule := ⟨inOrder⟩

/-- The order in which one of the files is read before the others. -/
def startingWith (path : String) : Schedule where
  order files := if path ∈ files then path :: files.erase path else files
  perm files := by
    split
    · rename_i hmem
      exact (List.perm_cons_erase hmem).symm
    · exact .refl files

end Schedule

/-- The files that have been read, each with its modules, and what was reported meanwhile. -/
structure Reading where
  declared : List (String × List Module)
  events : List Event
  deriving Repr, Inhabited

/-- The modules of one descriptor file. -/
def readFile (t : FileTree) (r : Registry) (c : Context) (path : String) :
    Except Error (List Module) := do
  let source ← (t.readText path).mapError (.io path)
  r.modulesOf c path source

namespace Reading

/-- What is known before any of some files is read. -/
def start (files : List String) : Reading :=
  ⟨[], [.descriptorsFound files.length]⟩

/-- What has been read after one more file. -/
def add (p : Reading) (t : FileTree) (r : Registry) (c : Context) (path : String) :
    Except Failure Reading :=
  match readFile t r c path with
  | .error e => .error ⟨e, p.events⟩
  | .ok ms => .ok ⟨p.declared ++ [(path, ms)], p.events ++ [.descriptorLoaded path ms.length]⟩

/-- The modules of some files that have been read, in the order of these files. -/
def modules (p : Reading) (files : List String) : List Module :=
  files.flatMap fun path => (p.declared.lookup path).getD []

end Reading

/-! ## Modules -/

/-- The modules that have been found, and what was reported meanwhile. -/
structure Found where
  modules : List Module
  events : List Event
  deriving Repr, Inhabited

/-- The module with its sources, if it takes part in the build. -/
def complete (t : FileTree) (m : Module) : Module :=
  if m.isActive then m.collectSources t else m

/-- Every module that is declared below a root, when the files are read along a schedule. -/
def searchAlong (σ : Schedule) (t : FileTree) (root : String) (ignored : List String)
    (r : Registry) (c : Context) : Except Failure Found := do
  let files := descriptorFiles t root ignored
  let reading ← (σ.order files).foldlM (fun (p : Reading) path => p.add t r c path) (.start files)
  return ⟨(reading.modules files).map (complete t), reading.events⟩

/-- Every module that is declared below a root, when the files are read in the order of their
paths. -/
def search (t : FileTree) (root : String) (ignored : List String) (r : Registry) (c : Context) :
    Except Failure Found :=
  searchAlong .inOrder t root ignored r c

/-! ## The graph -/

/-- The graph of a workspace: its modules are found, along a schedule, and resolved. -/
def graphAlong (σ : Schedule) (w : Workspace) (t : FileTree) (s : Settings) :
    Except Failure Built := do
  let found ← searchAlong σ t w.root s.ignored .standard w.context
  match Graph.build s.systemLibraries w.strict found.modules with
  | .ok b => return { b with events := found.events ++ b.events }
  | .error f => .error { f with events := found.events ++ f.events }

/-- The graph of a workspace whose files are read in the order of their paths. -/
def graph (w : Workspace) (t : FileTree) (s : Settings) : Except Failure Built :=
  graphAlong .inOrder w t s

/-! ## Small laws -/

theorem isDescriptor_iff {ignored : List String} {way : Location} :
    isDescriptor ignored way = true ↔
      (∃ name, way.getLast? = some name ∧ Text.endsWith name Descriptor.fileSuffix = true) ∧
        ∀ name ∈ way.dropLast, name ∉ ignored := by
  cases h : way.getLast? <;> simp [isDescriptor, h]

end BuildGraph.Workspace
