import BuildGraph.Module.Basic
set_option autoImplicit false

/-!
# Folders of an editor

An editor shows each target in a folder. A module may ask for one; otherwise it is the directory
above the module's own, seen from the root of the workspace when it lies properly inside, and in
all other cases the last name of that directory behind the qualifier.
-/

namespace BuildGraph.CMake

/-- The characters without the given one at the end. -/
def dropEndChar (c : Char) (cs : List Char) : List Char :=
  (cs.reverse.dropWhile (· == c)).reverse

/-- The way from a root to a directory properly inside it, both with slashes only. -/
def inside? (root directory : List Char) : Option (List Char) :=
  let root := dropEndChar '/' root
  if root.isPrefixOf directory then
    match directory.drop root.length with
    | '/' :: rest =>
      match rest.dropWhile (· == '/') with
      | [] => none
      | way => some way
    | _ => none
  else none

/-- The folder of a module that does not ask for one, from the directory above its own. -/
def surroundingFolder? (m : Module) (root parent : String) : Option String :=
  match inside? root.toList parent.toList with
  | some way => some (String.ofList way)
  | none =>
    (Path.fileName? parent).map fun name =>
      match m.qualifier with
      | some q => q ++ "/" ++ name
      | none => name

/-- The folder of a module in a workspace with the given root. -/
def folder? (m : Module) (root : String) : Option String :=
  match m.declaredFolder? with
  | some f => some f
  | none =>
    match Path.parent? m.directory with
    | some parent =>
      let parent := Path.forward parent
      if parent = "" then none else surroundingFolder? m root parent
    | none => none

end BuildGraph.CMake
