import BuildGraph.CMake.Directive
import BuildGraph.CMake.Folder
import BuildGraph.Graph.Closure
import BuildGraph.Text.Lines
import BuildGraph.Workspace.Basic
set_option autoImplicit false

/-!
# The block of a module

Each active module has a block of directives: the options of an included project, the declaration
of its target, how an editor shows it, what it links, and its properties. A compiled module links
the toolchain behind its own dependencies, and a program has the shared libraries copied beside it
that any module it needs exports.
-/

namespace BuildGraph.CMake

/-! ## Parts of a block -/

/-- The options of an included project. -/
def optionDirectives (m : Module) : List Directive :=
  if m.kind = .native then m.cachedOptions.map .cacheEntry else []

/-- The declaration of the target by its kind. A library without sources is not declared. -/
def kindDirectives (m : Module) (w : Workspace) : List Directive :=
  let name := m.targetName
  let sources := sourcePaths m
  match m.kind with
  | .staticLibrary => if sources = [] then [] else [.library name false sources]
  | .sharedLibrary => if sources = [] then [] else [.library name true sources]
  | .interface => [.interfaceLibrary name]
  | .native => m.subdirectory.toList.map .subdirectory
  | .executable => [.executable name (m.platform == .windows && !w.consoleOnly) sources]
  | .customRules => [.fileTarget name sources]

/-- The declaration of the target, with its companion if it is used like an interface. -/
def declarationDirectives (m : Module) (w : Workspace) : List Directive :=
  kindDirectives m w ++
    if m.isInterfaceLike then [.companion m.targetName m.file] else []

/-- How an editor groups the sources. -/
def groupDirectives (m : Module) : List Directive :=
  if sourcePaths m = [] then []
  else [.sourceGroup (m.platform == .windows) m.directory (sourcePaths m)]

/-- The arguments of a program that are not blank, trimmed. -/
def startArguments (m : Module) : List String :=
  (m.arguments.map Text.trim).filter (· != "")

/-- Where an editor shows the targets of the module; nothing when there is no folder for it. -/
def placeDirectives (m : Module) (w : Workspace) : List Directive :=
  match folder? m w.root with
  | none => []
  | some folder =>
    let name := m.targetName
    [.place name folder w.root] ++
      (if m.isInterfaceLike then [.folder (companionName name) folder] else []) ++
      m.exportedTargets.map (.folder · folder) ++
      if startArguments m = [] then [] else [.startArguments name (startArguments m)]

/-- A property of the module, unless it has no values. -/
def propertyDirectives (m : Module) (p : Property) (values : Scoped) : List Directive :=
  match groupsOf m values with
  | [] => []
  | groups => [.property p m.targetName groups]

/-- Paths seen from the directory of the module. -/
def qualified (m : Module) (values : Scoped) : Scoped :=
  ⟨values.exposed.map (qualify m.directory), values.internal.map (qualify m.directory)⟩

/-- The language standard that the target asks for. -/
def standardDirectives (m : Module) : List Directive :=
  if !m.isInterfaceLike && m.kind.traits.languageStandard then [.languageStandard m.targetName]
  else []

/-- The name of a file: what follows the last slash of either kind. -/
def fileName (path : String) : String :=
  String.ofList (path.toList.reverse.takeWhile fun c => c != '/' && c != '\\').reverse

/-- The copies of the shared libraries that one module exports. -/
def copiesFrom (name : String) (m : Module) : List Directive :=
  if m.exportsSharedLibraries then
    m.exportedSharedLibraries.map fun path =>
      .copyLibrary name (qualify m.directory path) (fileName path)
  else []

/-! ## The block -/

/-- What a module links: its dependencies, and behind them the toolchain when it is compiled and
not the toolchain itself. -/
def linkLibraries (g : Graph) (id : ModuleId) (m : Module) : Scoped :=
  if id ≠ g.toolchain ∧ m.kind.traits.producesTarget = true then
    m.dependencies.expose (g.targetName g.toolchain)
  else m.dependencies

/-- The copies of shared libraries beside a program, module by module in ascending order. -/
def copyDirectives (g : Graph) (id : ModuleId) (m : Module) : List Directive :=
  if m.kind = .executable then
    ((g.closure id).filterMap fun k => g.modules[k]?).flatMap (copiesFrom m.targetName)
  else []

/-- The directives of an active module. -/
def moduleDirectives (g : Graph) (w : Workspace) (id : ModuleId) (m : Module) : List Directive :=
  optionDirectives m ++ declarationDirectives m w ++ groupDirectives m ++ placeDirectives m w ++
    propertyDirectives m .linkLibraries (linkLibraries g id m) ++ copyDirectives g id m ++
    propertyDirectives m .compileDefinitions m.definitions ++
    propertyDirectives m .includeDirectories (qualified m m.includeDirectories) ++
    standardDirectives m ++
    propertyDirectives m .precompileHeaders (qualified m m.precompiledHeaders) ++
    propertyDirectives m .linkDirectories (qualified m m.linkDirectories)

/-- The directives of a module: none for a module that is left out of the build. -/
def blockDirectives (g : Graph) (w : Workspace) (id : ModuleId) : List Directive :=
  match g.modules[id]? with
  | some m => if m.isActive then moduleDirectives g w id m else []
  | none => []

/-- The text of the block of a module. -/
def block (g : Graph) (w : Workspace) (id : ModuleId) : String :=
  Text.ofLines ((blockDirectives g w id).map Directive.text)

/-! ## Small laws -/

theorem block_eq_empty_of_excluded {g : Graph} {w : Workspace} {id : ModuleId} {m : Module}
    (h : g.modules[id]? = some m) (hx : m.excluded = true) : block g w id = "" := by
  simp [block, blockDirectives, h, Module.isActive, hx, Text.ofLines]

end BuildGraph.CMake
