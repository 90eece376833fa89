import BuildGraph.Module.Kind
import BuildGraph.Module.Platform
import BuildGraph.Path
import BuildGraph.Text.Blank
import BuildGraph.Text.Upper
set_option autoImplicit false

/-!
# Modules

A module is one buildable part of a workspace: a name, a kind, the directory of the file that
declares it, and lists of what it needs and what it offers. This module holds the type, the names a
module goes by, and the few changes a declaration makes to it.
-/

namespace BuildGraph

/-- The switches that hold for every module of a build. -/
structure Context where
  editor : Bool
  platform : Platform
  deriving DecidableEq, Repr, Inhabited

/-- Values of a target: those that dependents see too, and those of the target alone. -/
structure Scoped where
  exposed : List String
  internal : List String
  deriving DecidableEq, Repr, Inhabited

namespace Scoped

/-- No values. -/
def empty : Scoped := ⟨[], []⟩

/-- All values, the exposed ones first. -/
def all (s : Scoped) : List String := s.exposed ++ s.internal

/-- The values with one more exposed value at the end. -/
def expose (s : Scoped) (value : String) : Scoped :=
  { s with exposed := s.exposed ++ [value] }

/-- The values of two collections, scope by scope. -/
def append (s t : Scoped) : Scoped := ⟨s.exposed ++ t.exposed, s.internal ++ t.internal⟩

theorem mem_all {s : Scoped} {v : String} : v ∈ s.all ↔ v ∈ s.exposed ∨ v ∈ s.internal := by
  simp [all]

end Scoped

/-- The value of an option that is handed to an included project. -/
inductive OptionValue
  | text (s : String)
  | switch (on : Bool)
  deriving DecidableEq, Repr, Inhabited

namespace OptionValue

/-- The value as it is written. -/
def written : OptionValue → String
  | text s => s
  | switch on => if on then "ON" else "OFF"

/-- The type under which the value is stored. -/
def typeName : OptionValue → String
  | text _ => "STRING"
  | switch _ => "BOOL"

end OptionValue

/-- An option of an included project. -/
structure CachedOption where
  name : String
  value : OptionValue
  deriving DecidableEq, Repr, Inhabited

/-- How strongly a toolchain asks to be the one that is used. -/
inductive Priority
  | secondary
  | primary
  deriving DecidableEq, Repr, Inhabited

namespace Priority

/-- The priority as a number: a primary toolchain outranks a secondary one. -/
def rank : Priority → Nat
  | secondary => 0
  | primary => 1

/-- The name of the priority in messages. -/
def label : Priority → String
  | secondary => "Secondary"
  | primary => "Primary"

end Priority

/-- The settings of the whole project, carried by the toolchain module. -/
structure Toolchain where
  solution : String
  intermediateDirectory : String
  binaryDirectory : String
  predefinedFolder : String
  priority : Priority
  deriving DecidableEq, Repr

/-- The settings of a toolchain that declares none. -/
def Toolchain.default : Toolchain where
  solution := "KBTProject"
  intermediateDirectory := "Intermediate"
  binaryDirectory := "Binaries"
  predefinedFolder := "KBT/ThirdParty/CMake"
  priority := .secondary

instance : Inhabited Toolchain := ⟨Toolchain.default⟩

/-- One buildable part of a workspace. -/
structure Module where
  /-- The declared name, without its qualifier. -/
  name : String
  /-- The dotted name that goes in front of the declared one. -/
  qualifier : Option String
  /-- A name that replaces the qualified one. -/
  customName : Option String
  /-- The dotted name of the folder in which an editor shows the target. -/
  customFolder : Option String
  /-- The qualifier names the folder. -/
  qualifierAsFolder : Bool
  /-- The target is used like an interface whatever its kind. -/
  forceInterface : Bool
  /-- The module takes part in editor builds only. -/
  editorOnly : Bool
  kind : Kind
  /-- The platform of the build. -/
  platform : Platform
  /-- The directory of the declaring file, with slashes only. -/
  directory : String
  /-- The declaring file, with slashes only. -/
  file : String
  dependencies : Scoped
  definitions : Scoped
  includeDirectories : Scoped
  precompiledHeaders : Scoped
  linkDirectories : Scoped
  sources : List String
  /-- The extensions of the files that are collected when sources are not. -/
  sourceExtensions : List String
  /-- Sources are collected from the directory. -/
  scansSources : Bool
  /-- The targets that an included project makes. -/
  exportedTargets : List String
  /-- Those of them that can be linked, and so are names of the module. -/
  linkableTargets : List String
  /-- The shared libraries below go beside every program that needs the module. -/
  exportsSharedLibraries : Bool
  exportedSharedLibraries : List String
  /-- Names that resolve without a module. -/
  systemLibraries : List String
  /-- The arguments with which the program is started in a debugger. -/
  arguments : List String
  cachedOptions : List CachedOption
  /-- The directory of an included project. -/
  subdirectory : Option String
  /-- The settings of the project, if the module is a toolchain. -/
  toolchain : Option Toolchain
  /-- The module takes no part in the build. -/
  excluded : Bool
  deriving DecidableEq, Repr, Inhabited

/-- What a declaration says about the names and the folder of a module. -/
structure Attributes where
  customName : Option String
  customFolder : Option String
  qualifierAsFolder : Bool
  forceInterface : Bool
  editorOnly : Bool
  deriving DecidableEq, Repr, Inhabited

/-- The attributes of a declaration that says nothing about them. -/
def Attributes.plain : Attributes := ⟨none, none, false, false, false⟩

namespace Module

/-! ## Making a module -/

/-- A module with the given name and kind, declared in the file, and empty lists. There is none
when the file stands in no directory. A module for editors alone is left out of other builds. -/
def create? (name : String) (kind : Kind) (file : String) (a : Attributes) (c : Context) :
    Option Module :=
  match Path.parent? file with
  | none => none
  | some directory =>
    if directory = "" then none
    else some
      { name, kind
        qualifier := none
        customName := a.customName
        customFolder := a.customFolder
        qualifierAsFolder := a.qualifierAsFolder
        forceInterface := a.forceInterface
        editorOnly := a.editorOnly
        platform := c.platform
        directory := Path.forward directory
        file := Path.forward file
        dependencies := .empty
        definitions := .empty
        includeDirectories := .empty
        precompiledHeaders := .empty
        linkDirectories := .empty
        sources := []
        sourceExtensions := []
        scansSources := false
        exportedTargets := []
        linkableTargets := []
        exportsSharedLibraries := false
        exportedSharedLibraries := []
        systemLibraries := []
        arguments := []
        cachedOptions := []
        subdirectory := none
        toolchain := none
        excluded := a.editorOnly && !c.editor }

/-! ## Names -/

/-- The name of the target: the custom name, or the qualified name, or the plain name when the
qualifier is empty or missing. -/
def targetName (m : Module) : String :=
  match m.customName with
  | some name => name
  | none =>
    match m.qualifier with
    | some q => if q = "" then m.name else q ++ "." ++ m.name
    | none => m.name

/-- Whether the name refers to the module: as the name of its target or of a target that it makes
and that can be linked. -/
def answersTo (m : Module) (name : String) : Bool :=
  m.targetName == name || m.linkableTargets.contains name

/-- A dotted name as a path of folders. -/
def dottedToPath (name : String) : String :=
  String.ofList (name.toList.map fun c => if c = '.' then '/' else c)

/-- The folder that the declaration asks for: its qualifier when it says so, or else its custom
folder unless that is empty. -/
def declaredFolder? (m : Module) : Option String :=
  if m.qualifierAsFolder then m.qualifier.map dottedToPath
  else match m.customFolder with
    | some f => if f = "" then none else some (dottedToPath f)
    | none => none

/-! ## Roles -/

/-- Whether the target is used like an interface: it has only exposed properties. -/
def isInterfaceLike (m : Module) : Bool :=
  m.kind == .interface || m.forceInterface

/-- Whether the module carries the settings of the project. -/
def isToolchain (m : Module) : Bool :=
  m.toolchain.isSome

/-- Whether the module takes part in the build. -/
def isActive (m : Module) : Bool :=
  !m.excluded

/-! ## Changes -/

/-- The module left out of the build. -/
def exclude (m : Module) : Module :=
  { m with excluded := true }

/-- The module with one more definition that dependents see. -/
def addDefinition (m : Module) (definition : String) : Module :=
  { m with definitions := m.definitions.expose definition }

/-- The name of the macro by which a shared library marks what it exports. -/
def apiMacro (m : Module) : String :=
  let underscored := m.targetName.toList.map fun c => if c = '.' then '_' else c
  Text.upper (Text.trim (String.ofList underscored)) ++ "_API"

/-- The definitions of the export macro: imported for dependents and exported for the library
itself on Windows, empty on Unix, and absent elsewhere. -/
def apiDefinitions (m : Module) : Scoped :=
  match m.platform with
  | .windows =>
    ⟨["\"" ++ m.apiMacro ++ "=__declspec(dllimport)\""],
      ["\"" ++ m.apiMacro ++ "=__declspec(dllexport)\""]⟩
  | .unix => ⟨[m.apiMacro ++ "="], [m.apiMacro ++ "="]⟩
  | .mac | .other => .empty

/-- The module with the definitions of its export macro. -/
def addApiMacro (m : Module) : Module :=
  { m with definitions := m.definitions.append m.apiDefinitions }

/-! ## Small laws -/

theorem answersTo_targetName (m : Module) : m.answersTo m.targetName = true := by
  simp [answersTo]

theorem answersTo_iff (m : Module) (name : String) :
    m.answersTo name = true ↔ m.targetName = name ∨ name ∈ m.linkableTargets := by
  simp [answersTo]

@[simp] theorem excluded_exclude (m : Module) : m.exclude.excluded = true := rfl

@[simp] theorem targetName_exclude (m : Module) : m.exclude.targetName = m.targetName := rfl

@[simp] theorem isActive_exclude (m : Module) : m.exclude.isActive = false := rfl

end Module

end BuildGraph
