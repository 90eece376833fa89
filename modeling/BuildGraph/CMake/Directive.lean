import BuildGraph.CMake.Argument
set_option autoImplicit false

/-!
# Directives

The lines of a generated project as data. A directive says what it does and to which target; its
text is made in one place, `Directive.text`, and is always one line when its parts are.
-/

namespace BuildGraph.CMake

/-- A property of a target that is given by scope. -/
inductive Property
  | linkLibraries
  | compileDefinitions
  | includeDirectories
  | precompileHeaders
  | linkDirectories
  deriving DecidableEq, Repr, Inhabited

/-- The command that sets a property. -/
def Property.command : Property → String
  | linkLibraries => "target_link_libraries"
  | compileDefinitions => "target_compile_definitions"
  | includeDirectories => "target_include_directories"
  | precompileHeaders => "target_precompile_headers"
  | linkDirectories => "target_link_directories"

/-- One line about a module. -/
inductive Directive
  /-- Stores an option of an included project. -/
  | cacheEntry (option : CachedOption)
  /-- Declares a library that is compiled from sources. -/
  | library (name : String) (shared : Bool) (sources : List String)
  | interfaceLibrary (name : String)
  | subdirectory (path : String)
  /-- Declares a program, which may open windows instead of a console. -/
  | executable (name : String) (windowed : Bool) (sources : List String)
  /-- Declares a target that only collects files. -/
  | fileTarget (name : String) (sources : List String)
  /-- Declares the target that shows the descriptor of an interface. -/
  | companion (name file : String)
  /-- Shows sources in the order of their directories; on Windows with its own slashes. -/
  | sourceGroup (windows : Bool) (directory : String) (sources : List String)
  /-- Puts the target of a module into a folder and sets where a debugger starts it. -/
  | place (name path root : String)
  /-- Puts a target into a folder. -/
  | folder (name path : String)
  /-- Sets the arguments with which a debugger starts a program. -/
  | startArguments (name : String) (arguments : List String)
  /-- Copies a shared library beside a program after it is built. -/
  | copyLibrary (name source fileName : String)
  | property (property : Property) (name : String) (groups : Groups)
  | languageStandard (name : String)
  deriving DecidableEq, Repr, Inhabited

/-- A path with two backslashes for each slash. -/
def doubledSlashes (path : String) : String :=
  String.ofList (path.toList.flatMap fun c => if c = '/' then ['\\', '\\'] else [c])

/-- The name of the target that shows the descriptor of an interface. -/
def companionName (name : String) : String :=
  name ++ "Config"

namespace Directive

/-- The command of a directive. -/
def command : Directive → String
  | cacheEntry _ => "set"
  | library .. => "add_library"
  | interfaceLibrary _ => "add_library"
  | subdirectory _ => "add_subdirectory"
  | executable .. => "add_executable"
  | fileTarget .. => "add_custom_target"
  | companion .. => "add_custom_target"
  | sourceGroup .. => "source_group"
  | place .. => "set_target_properties"
  | folder .. => "set_target_properties"
  | startArguments .. => "set_target_properties"
  | copyLibrary .. => "add_custom_command"
  | property p _ _ => p.command
  | languageStandard _ => "target_compile_features"

/-- What stands between the parentheses of a directive. -/
def argumentText : Directive → String
  | cacheEntry o => o.name ++ " " ++ o.value.written ++ " CACHE " ++ o.value.typeName ++ " \"\""
  | library name shared sources =>
    name ++ " " ++ (if shared then "SHARED" else "STATIC") ++ " " ++ terminated sources
  | interfaceLibrary name => name ++ " INTERFACE"
  | subdirectory path => path
  | executable name windowed sources =>
    " ".intercalate ([name] ++ (if windowed then ["WIN32"] else []) ++
      (if sources = [] then [] else [terminated sources]))
  | fileTarget name sources => name ++ " SOURCES " ++ terminated sources
  | companion name file => companionName name ++ " SOURCES " ++ file
  | sourceGroup windows directory sources =>
    let slashes (s : String) : String := if windows then doubledSlashes s else s
    "TREE " ++ slashes directory ++ " PREFIX Code FILES " ++ slashes (terminated sources)
  | place name path root =>
    name ++ " PROPERTIES FOLDER " ++ path ++ " VS_DEBUGGER_WORKING_DIRECTORY " ++ root
  | folder name path => name ++ " PROPERTIES FOLDER " ++ path
  | startArguments name arguments =>
    name ++ " PROPERTIES VS_DEBUGGER_COMMAND_ARGUMENTS " ++ " ".intercalate arguments
  | copyLibrary name source fileName =>
    "TARGET " ++ name ++ " POST_BUILD COMMAND $\x7bCMAKE_COMMAND\x7d -E copy_if_different \"" ++
      source ++ "\" \"$<TARGET_FILE_DIR:" ++ name ++ ">/" ++ fileName ++ "\""
  | property _ name groups => name ++ " " ++ groupsText groups
  | languageStandard name => name ++ " PUBLIC cxx_std_20"

/-- The line of a directive. -/
def text (d : Directive) : String :=
  d.command ++ "(" ++ d.argumentText ++ ")"

/-- The target that a directive declares, if it declares one. -/
def declared? : Directive → Option String
  | library name _ _ => some name
  | interfaceLibrary name => some name
  | executable name _ _ => some name
  | fileTarget name _ => some name
  | companion name _ => some (companionName name)
  | _ => none

/-- No line is empty. -/
theorem text_ne_empty (d : Directive) : d.text ≠ "" := by
  intro h
  have hl := congrArg String.length h
  simp only [text, String.length_append] at hl
  have : ("(" : String).length = 1 := by decide
  have : ("" : String).length = 0 := by decide
  omega

end Directive

end BuildGraph.CMake
