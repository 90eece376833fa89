import BuildGraph.Module.Basic
import BuildGraph.Schema
set_option autoImplicit false

/-!
# Declarations

What a descriptor says about its modules, before any of it is applied. A declaration is read from a
table whose fields may all be missing; a list that is missing is empty. `Declaration.fields` names
the fields in the order in which messages list them, and `Declaration.ofTable` picks their values.
-/

namespace BuildGraph

open BuildGraph.Toml (Value)

/-- What a declaration says about a toolchain. -/
structure ToolchainChoice where
  solution : Option String
  intermediateDirectory : Option String
  binaryDirectory : Option String
  predefinedFolder : Option String
  priority : Priority
  deriving DecidableEq, Repr, Inhabited

/-- What a descriptor says about one module. -/
structure Declaration where
  name : String
  kind : String
  /-- The dotted name that goes in front of the declared one. -/
  qualifier : Option String
  attributes : Attributes
  /-- The platforms that the module is built on; all of them when the list is empty. -/
  platforms : List String
  excluded : Bool
  dependencies : Scoped
  definitions : Scoped
  includeDirectories : Scoped
  precompiledHeaders : Scoped
  linkDirectories : Scoped
  /-- Exposed dependencies of editor builds. -/
  editorDependencies : List String
  /-- Exposed definitions of editor builds. -/
  editorDefinitions : List String
  /-- Exposed definitions by the name of a platform. -/
  platformDefinitions : List (String × List String)
  /-- Exposed dependencies by the name of a platform. -/
  platformDependencies : List (String × List String)
  sources : List String
  sourceExtensions : List String
  exportedTargets : List String
  linkableTargets : List String
  exportsSharedLibraries : Bool
  exportedSharedLibraries : List String
  systemLibraries : List String
  arguments : List String
  subdirectory : Option String
  options : Toml.Table
  toolchain : Option ToolchainChoice
  deriving Repr, Inhabited

/-- The declarations of one descriptor, with the qualifier that they share. -/
structure Descriptor where
  qualifier : Option String
  declarations : List Declaration
  deriving Repr, Inhabited

open Schema

/-! ## Toolchains -/

namespace ToolchainChoice

/-- The names of the priorities. -/
def priorities : List (String × Priority) :=
  [("secondary", .secondary), ("primary", .primary)]

/-- The fields of a toolchain. -/
def fields : List Field :=
  [.of "solution_name" text, .of "intermediate_path" text, .of "binary_path" text,
    .of "predefined_targets_folder" text, .of "priority" (choice priorities)]

/-- The toolchain that a table describes. -/
def ofTable (t : Toml.Table) : Except Misfit ToolchainChoice := do
  return {
    solution := ← field? t "solution_name" text
    intermediateDirectory := ← field? t "intermediate_path" text
    binaryDirectory := ← field? t "binary_path" text
    predefinedFolder := ← field? t "predefined_targets_folder" text
    priority := ← field t "priority" (choice priorities) .secondary }

/-- Reads what a declaration says about a toolchain. -/
def read : Reader ToolchainChoice := fun v => do
  ofTable (← record "ToolchainDecl" fields v)

/-- The settings that are meant: those that are not given are the usual ones. -/
def settings (c : ToolchainChoice) : Toolchain where
  solution := c.solution.getD Toolchain.default.solution
  intermediateDirectory := c.intermediateDirectory.getD Toolchain.default.intermediateDirectory
  binaryDirectory := c.binaryDirectory.getD Toolchain.default.binaryDirectory
  predefinedFolder := c.predefinedFolder.getD Toolchain.default.predefinedFolder
  priority := c.priority

end ToolchainChoice

/-! ## Modules -/

namespace Declaration

/-- A list of texts. -/
def texts : Reader (List String) := list text

/-- The names of the two fields that hold the values of a property by scope. -/
def scopedNames (name : String) : String × String :=
  ("public_" ++ name, "private_" ++ name)

/-- The two fields of a property. -/
def scopedFields (name : String) : List Field :=
  [.of (scopedNames name).1 texts, .of (scopedNames name).2 texts]

/-- The values of a property, by scope. -/
def byScope (t : Toml.Table) (name : String) : Except Misfit Scoped := do
  return ⟨← field t (scopedNames name).1 texts [], ← field t (scopedNames name).2 texts []⟩

/-- The fields of a declaration. -/
def fields : List Field :=
  [.of "name" text, .of "kind" text, .of "namespace" text, .of "custom_name" text,
    .of "custom_filter" text, .of "use_namespace_as_filter" flag, .of "force_interface" flag,
    .of "editor_only" flag, .of "platforms" texts, .of "exclude_from_build" flag] ++
    scopedFields "dependencies" ++ scopedFields "definitions" ++
    scopedFields "include_directories" ++ scopedFields "precompiled_headers" ++
    scopedFields "link_directories" ++
    [.of "editor_dependencies" texts, .of "editor_definitions" texts,
      .of "platform_definitions" (mapping texts), .of "platform_dependencies" (mapping texts),
      .of "sources" texts, .of "source_extensions" texts, .of "exported_targets" texts,
      .of "linkable_exported_targets" texts, .of "exports_shared_libraries" flag,
      .of "exported_shared_libraries" texts, .of "system_libraries" texts,
      .of "command_line_arguments" texts, .of "subdirectory" text, .of "options" plainTable,
      .of "toolchain" ToolchainChoice.read]

/-- The attributes that a table gives. -/
def attributesOf (t : Toml.Table) : Except Misfit Attributes := do
  return {
    customName := ← field? t "custom_name" text
    customFolder := ← field? t "custom_filter" text
    qualifierAsFolder := ← field t "use_namespace_as_filter" flag false
    forceInterface := ← field t "force_interface" flag false
    editorOnly := ← field t "editor_only" flag false }

/-- The declaration that a table describes. -/
def ofTable (t : Toml.Table) : Except Misfit Declaration := do
  return {
    name := ← field t "name" text ""
    kind := ← field t "kind" text ""
    qualifier := ← field? t "namespace" text
    attributes := ← attributesOf t
    platforms := ← field t "platforms" texts []
    excluded := ← field t "exclude_from_build" flag false
    dependencies := ← byScope t "dependencies"
    definitions := ← byScope t "definitions"
    includeDirectories := ← byScope t "include_directories"
    precompiledHeaders := ← byScope t "precompiled_headers"
    linkDirectories := ← byScope t "link_directories"
    editorDependencies := ← field t "editor_dependencies" texts []
    editorDefinitions := ← field t "editor_definitions" texts []
    platformDefinitions := ← field t "platform_definitions" (mapping texts) []
    platformDependencies := ← field t "platform_dependencies" (mapping texts) []
    sources := ← field t "sources" texts []
    sourceExtensions := ← field t "source_extensions" texts []
    exportedTargets := ← field t "exported_targets" texts []
    linkableTargets := ← field t "linkable_exported_targets" texts []
    exportsSharedLibraries := ← field t "exports_shared_libraries" flag false
    exportedSharedLibraries := ← field t "exported_shared_libraries" texts []
    systemLibraries := ← field t "system_libraries" texts []
    arguments := ← field t "command_line_arguments" texts []
    subdirectory := ← field? t "subdirectory" text
    options := ← field t "options" plainTable []
    toolchain := ← field? t "toolchain" ToolchainChoice.read }

/-- Reads the declaration of a module. -/
def read : Reader Declaration := fun v => do
  ofTable (← record "ModuleDecl" fields v)

end Declaration

/-! ## Descriptors -/

namespace Descriptor

/-- The end of the name of every descriptor file. -/
def fileSuffix : String := ".module.toml"

/-- The fields of a descriptor. -/
def fields : List Field :=
  [.of "namespace" text, .of "module" (list Declaration.read)]

/-- The descriptor that a table describes. -/
def ofTable (t : Toml.Table) : Except Misfit Descriptor := do
  return {
    qualifier := ← field? t "namespace" text
    declarations := ← field t "module" (list Declaration.read) [] }

/-- Reads a descriptor. -/
def read : Reader Descriptor := fun v => do
  ofTable (← record "DescriptorFile" fields v)

end Descriptor

end BuildGraph
