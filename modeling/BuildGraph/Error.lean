import BuildGraph.FileTree.Resolve
import BuildGraph.Schema
set_option autoImplicit false

/-!
# Errors

Every reason for which a workspace cannot be read, resolved or written, and the one place where the
reasons are put into words.
-/

namespace BuildGraph

/-- What is wrong with a descriptor or a configuration file. -/
inductive DescriptorFault
  | malformed (fault : Toml.Fault)
  | misfit (misfit : Misfit)
  | missingName
  | missingSubdirectory (name : String)
  | unknownPlatform (name : String)
  deriving Repr, Inhabited

/-- The fault of a document that does not fit its schema. A document with values that are not
plain is malformed in the first place. -/
def DescriptorFault.ofMisfit (t : Toml.Table) (m : Misfit) : DescriptorFault :=
  match Toml.unsound? t with
  | some fault => .malformed fault
  | none => .misfit m

/-- The fault in words. -/
def DescriptorFault.message : DescriptorFault → String
  | .malformed f => f.message
  | .misfit m => m.message
  | .missingName => "module is missing `name`"
  | .missingSubdirectory name => "native module '" ++ name ++ "' requires `subdirectory`"
  | .unknownPlatform name => "unknown platform '" ++ name ++ "'"

/-- Why a build cannot go on. -/
inductive Error
  /-- No module answers to a dependency, and nothing excuses it. -/
  | unresolvedDependency (dependency dependent : String)
  | noToolchain
  | unknownKind (kind name : String)
  /-- An option of an included project is neither a text nor a truth value. -/
  | unsupportedOption (option name found : String)
  | descriptor (path : String) (fault : DescriptorFault)
  /-- The descriptor stands in no directory. -/
  | noDirectory (path : String)
  | targetCollision (target : String)
  | dependencyCycle (cycle : String)
  | io (path : String) (fault : FileTree.Fault)
  deriving Repr, Inhabited

/-- The error in words. -/
def Error.message : Error → String
  | .unresolvedDependency dependency dependent =>
    "Could not find module definition for '" ++ dependency ++ "' which is required for '" ++
      dependent ++ "'. Add it to `system_libraries` if it is a system library."
  | .noToolchain => "No toolchain module found."
  | .unknownKind kind name => "Unknown module kind '" ++ kind ++ "' for module '" ++ name ++ "'"
  | .unsupportedOption option name found =>
    "Unsupported type '" ++ found ++ "' for cached option '" ++ option ++ "' in module '" ++
      name ++ "' (expected string or bool)"
  | .descriptor path fault => "Invalid module descriptor " ++ path ++ ": " ++ fault.message
  | .noDirectory path => "Failed to get module directory for descriptor '" ++ path ++ "'"
  | .targetCollision target =>
    "Target name '" ++ target ++ "' is declared by more than one module"
  | .dependencyCycle cycle => "Circular dependency detected: " ++ cycle
  | .io path fault => "I/O error at " ++ path ++ ": " ++ fault.message

end BuildGraph
