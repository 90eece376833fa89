import BuildGraph.Error
import BuildGraph.Toml.Document
set_option autoImplicit false

/-!
# Settings of a workspace

A workspace may hold a file with settings for every run: names that are system libraries, names of
directories that are not searched, and whether builds are strict. A setting that is missing has its
usual value, and so have all of them when there is no file.
-/

namespace BuildGraph.Workspace

/-- The settings of a workspace. -/
structure Settings where
  /-- Names that resolve without a module. -/
  systemLibraries : List String
  /-- The names of directories that are not searched for descriptors. -/
  ignored : List String
  strict : Bool
  deriving DecidableEq, Repr

namespace Settings

/-- The settings of a workspace without a file. -/
def default : Settings := ⟨[], [".git", "Intermediate", "Binaries"], false⟩

instance : Inhabited Settings := ⟨default⟩

/-- The name of the file at the root of a workspace. -/
def fileName : String := "kbt.toml"

open Schema

/-- The fields of the section that holds the settings. -/
def fields : List Field :=
  [.of "system_libraries" (list text), .of "ignore" (list text), .of "strict" flag]

/-- The settings that a table describes. -/
def ofTable (t : Toml.Table) : Except Misfit Settings := do
  return {
    systemLibraries := ← field t "system_libraries" (list text) default.systemLibraries
    ignored := ← field t "ignore" (list text) default.ignored
    strict := ← field t "strict" flag default.strict }

/-- Reads the section that holds the settings. -/
def read : Reader Settings := fun v => do
  ofTable (← record "WorkspaceSection" fields v)

/-- The settings that a text holds. Beside their section anything may stand. -/
def ofText (source : String) : Except DescriptorFault Settings := do
  let t ← (Toml.parse source).mapError .malformed
  (field t "workspace" read default).mapError (.ofMisfit t)

/-- The settings of the workspace at a root. -/
def load (t : FileTree) (root : String) : Except Error Settings :=
  let path := Path.join root fileName
  if t.exists? path then do
    let source ← (t.readText path).mapError (.io path)
    (ofText source).mapError (.descriptor path)
  else .ok default

theorem load_of_not_exists {t : FileTree} {root : String}
    (h : t.exists? (Path.join root fileName) = false) : load t root = .ok default := by
  simp [load, h]

end Settings

end BuildGraph.Workspace
