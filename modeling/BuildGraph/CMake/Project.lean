import BuildGraph.CMake.Block
set_option autoImplicit false

/-!
# Projects

A project is a preamble with the settings of the toolchain, followed by the block of each active
module in the order in which the modules were found. An empty line ends the preamble and each block.
-/

namespace BuildGraph.CMake

/-- Where the files of a kind are put: the variable that says so and the name of the directory. -/
def outputDirectories : List (String × String) :=
  [("RUNTIME", "Bin"), ("LIBRARY", "Lib"), ("ARCHIVE", "Arch")]

/-- The line that sets the directory of one kind of file. -/
def outputLine (t : Toolchain) (root : String) (output : String × String) : String :=
  "set(CMAKE_" ++ output.1 ++ "_OUTPUT_DIRECTORY " ++ root ++ t.binaryDirectory ++ "/" ++
    output.2 ++ " CACHE STRING \"\")"

/-- The lines of the preamble. -/
def preambleLines (t : Toolchain) (root : String) : List String :=
  ["cmake_minimum_required(VERSION 3.20)",
    "project(" ++ t.solution ++ ")",
    "set_property(GLOBAL PROPERTY USE_FOLDERS ON)",
    "if(MSVC)",
    "\tadd_compile_options(/MP)",
    "endif()",
    "set_property(GLOBAL PROPERTY PREDEFINED_TARGETS_FOLDER " ++ t.predefinedFolder ++ ")"] ++
    outputDirectories.map (outputLine t root)

/-- The preamble, with the empty line that ends it. -/
def preamble (t : Toolchain) (root : String) : String :=
  Text.ofLines (preambleLines t root) ++ "\n"

/-- The text of a project. -/
def project (g : Graph) (w : Workspace) : String :=
  preamble g.settings w.root ++
    String.join (g.active.map fun p => block g w p.1 ++ "\n")

end BuildGraph.CMake
