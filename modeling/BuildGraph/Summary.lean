import BuildGraph.CMake.Folder
import BuildGraph.Graph.Basic
import BuildGraph.Table
set_option autoImplicit false

/-!
# Summaries

One row for each module that was found: its target, its kind, its folder and the number of its
sources. A module that is left out of the build is listed and marked.
-/

namespace BuildGraph.Summary

/-- The headers of a summary. -/
def headers : List String := ["Target", "Kind", "Folder", "Sources"]

/-- What stands for a folder when there is none. -/
def noFolder : String := "-"

/-- The kind of a module as the summary names it. -/
def kindText (m : Module) : String :=
  if m.excluded then m.kind.label ++ " (excluded)"
  else if m.isToolchain then "toolchain"
  else m.kind.label

/-- The row of a module. -/
def row (root : String) (m : Module) : List String :=
  [m.targetName, kindText m, (CMake.folder? m root).getD noFolder, toString m.sources.length]

/-- The summary of a graph, for a workspace with the given root. -/
def ofGraph (g : Graph) (root : String) : Table :=
  (g.modules.map (row root)).foldl Table.addRow (Table.ofHeaders headers)

end BuildGraph.Summary
