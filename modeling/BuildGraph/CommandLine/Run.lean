import BuildGraph.CMake.Output
import BuildGraph.CMake.Project
import BuildGraph.CommandLine.Request
import BuildGraph.Graph.Outline
import BuildGraph.Log
import BuildGraph.Summary
import BuildGraph.Workspace.Search
set_option autoImplicit false

/-!
# Runs

One run of the program from its arguments to its exit code, as a function on file trees. A run reads
the workspace, builds its graph and makes the text of the project. A dry run shows the text; any
other run makes the links, writes the text and shows a summary.
-/

namespace BuildGraph.CommandLine

/-- Why a run fails, by the stage at which it does. -/
inductive RunError
  | root (path : String) (fault : FileTree.Fault)
  | settings (error : Error)
  | graph (error : Error)
  | links (error : Error)
  | output (error : Error)
  deriving Repr, Inhabited

/-- The reason in words. -/
def RunError.message : RunError → String
  | .root path fault => "Workspace root " ++ path ++ " not found: " ++ fault.message
  | .settings e => "Failed to load workspace config: " ++ e.message
  | .graph e => "Failed to resolve module graph: " ++ e.message
  | .links e => "Failed to link module directories: " ++ e.message
  | .output e => "Failed to write CMake project: " ++ e.message

/-- What a run leaves behind. -/
structure Outcome where
  code : Nat
  stdout : String
  stderr : String
  tree : FileTree

/-- The name and the version of the program. -/
def versionText : String := "kbt 0.1.0\n"

/-- How the program is used. -/
def helpText : String :=
  Text.ofLines
    ["Generates a CMake project from module descriptors",
      "",
      "Usage: kbt [OPTIONS] --root <ROOT>",
      "",
      "Options:",
      "      --root <ROOT>  Root directory of the project",
      "      --editor       Editor build (includes editor-only modules and dependencies)",
      "      --console      Executables are console applications",
      "      --strict       Treat target name collisions and dependency cycles as errors",
      "      --dry-run      Print the generated CMake to stdout instead of writing it",
      "      --tree         Print the resolved dependency tree",
      "  -v, --verbose      Debug logging",
      "  -h, --help         Print help",
      "  -V, --version      Print version"]

/-- What is shown when the arguments cannot be understood. -/
def misuseText : String :=
  Text.ofLines ["error: invalid arguments", "", "For more information, try '--help'."]

/-- The columns of the terminal. -/
def terminalWidth : Nat := 80

/-! ## Stages -/

/-- A workspace whose graph has been built. -/
structure Loaded where
  /-- The root without links on its way. -/
  root : String
  workspace : Workspace
  built : Built

/-- The workspace that is meant, on the platform that the program runs on. -/
def workspaceOf (o : Options) (root : String) (s : Workspace.Settings) : Workspace :=
  { root := Workspace.normalizeRoot root
    editor := o.has .editor
    consoleOnly := o.has .console
    platform := .unix
    strict := o.has .strict || s.strict }

/-- Finds the workspace and builds its graph, along a schedule for its files, or tells why that is
impossible and what was reported before. -/
def loadAlong (σ : Workspace.Schedule) (t : FileTree) (cwd : String) (o : Options) :
    Except (RunError × List Event) Loaded :=
  match t.locate (Path.join cwd o.root) with
  | .error fault => .error (.root o.root fault, [])
  | .ok (l, _) =>
    let root := l.path
    match Workspace.Settings.load t root with
    | .error e => .error (.settings e, [])
    | .ok settings =>
      let w := workspaceOf o root settings
      match w.graphAlong σ t settings with
      | .error f => .error (.graph f.error, f.events)
      | .ok b => .ok ⟨root, w, b⟩

/-- The same with the files in the order of their paths. -/
def load (t : FileTree) (cwd : String) (o : Options) : Except (RunError × List Event) Loaded :=
  loadAlong .inOrder t cwd o

/-- The text of the project. -/
def Loaded.project (s : Loaded) : String :=
  CMake.project s.built.graph s.workspace

/-- Where the project goes. -/
def Loaded.output (s : Loaded) : CMake.Output :=
  .ofRoot s.root s.built.graph.settings

/-! ## Texts -/

/-- The line of an error. -/
def errorLine (e : RunError) : String :=
  "x " ++ e.message ++ "\n"

/-- The outline, when it is wanted. -/
def outlineText (o : Options) (s : Loaded) : String :=
  if o.has .outline then s.built.graph.outline else ""

/-- The outline under its title, when it is wanted. -/
def titledOutline (o : Options) (s : Loaded) : String :=
  if o.has .outline then "Module dependency tree\n" ++ s.built.graph.outline else ""

/-- What is told about the links. -/
def linksLine (created : Nat) : String :=
  if created = 0 then "" else "+ Linked " ++ toString created ++ " module directories\n"

/-- What is told about the project. -/
def generatedLine (s : Loaded) (output : String) : String :=
  "✓ Generated " ++ output ++ " (" ++ toString s.built.graph.active.length ++ " modules)\n"

/-- The summary of the modules. -/
def summaryText (s : Loaded) : String :=
  (Summary.ofGraph s.built.graph s.workspace.root).render false terminalWidth

/-! ## Runs -/

/-- Shows the project and changes nothing. -/
def dryRun (t : FileTree) (o : Options) (s : Loaded) : Outcome :=
  ⟨0, s.project, Log.text (o.has .verbose) s.built.events ++ outlineText o s, t⟩

/-- Makes the links and writes the project. -/
def generate (t : FileTree) (o : Options) (s : Loaded) : Outcome :=
  let linking := s.output.linkModules s.built.graph t
  let log := Log.text (o.has .verbose) (s.built.events ++ linking.events)
  match linking.error? with
  | some e => ⟨1, titledOutline o s, log ++ errorLine (.links e), linking.tree⟩
  | none =>
    match s.output.write s.project linking.tree with
    | ⟨t, .error e⟩ => ⟨1, titledOutline o s, log ++ errorLine (.output e), t⟩
    | ⟨t, .ok output⟩ =>
      ⟨0,
        titledOutline o s ++ summaryText s ++ linksLine linking.created ++ generatedLine s output,
        log, t⟩

/-- A run with all that is known about it, from a directory, along a schedule for the files of the
workspace. -/
def runAlong (σ : Workspace.Schedule) (t : FileTree) (cwd : String) (o : Options) : Outcome :=
  match loadAlong σ t cwd o with
  | .error (e, events) => ⟨1, "", Log.text (o.has .verbose) events ++ errorLine e, t⟩
  | .ok s => if o.has .dryRun then dryRun t o s else generate t o s

/-- The run that reads the files in the order of their paths. Any other schedule makes no
difference to its code, to what it shows and to the tree. -/
def run (t : FileTree) (cwd : String) (o : Options) : Outcome :=
  runAlong .inOrder t cwd o

/-- What the program does with its arguments, from a directory. -/
def execute (t : FileTree) (cwd : String) (arguments : List String) : Outcome :=
  match requestOf arguments with
  | .run o => run t cwd o
  | .help => ⟨0, helpText, "", t⟩
  | .version => ⟨0, versionText, "", t⟩
  | .misuse => ⟨2, "", misuseText, t⟩

/-- A dry run changes nothing. -/
theorem tree_runAlong_of_dryRun {σ : Workspace.Schedule} {t : FileTree} {cwd : String} {o : Options}
    (h : o.has .dryRun = true) : (runAlong σ t cwd o).tree = t := by
  unfold runAlong
  split
  · rfl
  · simp [h, dryRun]

theorem tree_run_of_dryRun {t : FileTree} {cwd : String} {o : Options}
    (h : o.has .dryRun = true) : (run t cwd o).tree = t :=
  tree_runAlong_of_dryRun h

end BuildGraph.CommandLine
