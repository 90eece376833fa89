import BuildGraph.Module.Basic
set_option autoImplicit false

/-!
# Workspaces

A workspace is the directory tree that a project is generated for, together with the switches of a
run. Its root is kept with slashes only and always ends in one.
-/

namespace BuildGraph

/-- The root of a workspace and the switches of a run. -/
structure Workspace where
  /-- Slashes only, with one at the end. -/
  root : String
  editor : Bool
  /-- Programs are started from a console. -/
  consoleOnly : Bool
  platform : Platform
  /-- Repeated target names and cycles are errors. -/
  strict : Bool
  deriving DecidableEq, Repr, Inhabited

namespace Workspace

/-- The characters of a root without the mark of an unparsed path at the start. -/
def dropVerbatim : List Char → List Char
  | '/' :: '/' :: '?' :: '/' :: cs => cs
  | cs => cs

/-- A root in the form in which it is kept. -/
def normalizeRoot (path : String) : String :=
  let cs := dropVerbatim (Path.forward path).toList
  String.ofList (if cs.getLast? = some '/' then cs else cs ++ ['/'])

/-- The workspace at a path, for ordinary builds on Unix. -/
def atPath (path : String) : Workspace :=
  ⟨normalizeRoot path, false, false, .unix, false⟩

/-- The switches that the modules of the workspace are made with. -/
def context (w : Workspace) : Context :=
  ⟨w.editor, w.platform⟩

/-- A root always ends in a slash. -/
theorem getLast?_normalizeRoot (path : String) :
    (normalizeRoot path).toList.getLast? = some '/' := by
  unfold normalizeRoot
  simp only [String.toList_ofList]
  split
  · assumption
  · simp

end Workspace

end BuildGraph
