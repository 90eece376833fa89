import BuildGraph.CMake.Output
import BuildGraph.CMake.Project
import BuildGraph.Proofs.Graph.Renumbering
set_option autoImplicit false

/-!
# Projects of graphs that differ in numbers

The text of a project and the planned links name no module by its number. A block depends on the
graph through what its module needs and through the toolchain, and both are the same in graphs that
differ in the numbers of their modules alone.
-/

namespace BuildGraph.Graph.Renumbers

open CMake

variable {f : ModuleId → ModuleId} {g h : Graph} {r R : Resolver}

theorem linkLibraries_eq (H : g.Renumbers f h) (a : ModuleId) (m : Module) :
    linkLibraries h (f a) m = linkLibraries g a m := by
  unfold linkLibraries
  rw [H.toolchain_eq, H.targetName_eq]
  simp only [H.injective.ne_iff]

theorem copyDirectives_eq (H : g.Renumbers f h) (hg : g.IsGraphOf r) (hh : h.IsGraphOf R)
    (a : ModuleId) (m : Module) : copyDirectives h (f a) m = copyDirectives g a m := by
  unfold copyDirectives
  rw [H.closure_eq hg hh, List.filterMap_map]
  simp only [Function.comp_def, H.embeds.getElem?_eq]

/-- A module has the same block. -/
theorem block_eq (H : g.Renumbers f h) (hg : g.IsGraphOf r) (hh : h.IsGraphOf R) (w : Workspace)
    (a : ModuleId) : block h w (f a) = block g w a := by
  unfold block blockDirectives moduleDirectives
  simp only [H.embeds.getElem?_eq, H.linkLibraries_eq, H.copyDirectives_eq hg hh]

theorem project_eq (H : g.Renumbers f h) (hg : g.IsGraphOf r) (hh : h.IsGraphOf R)
    (w : Workspace) : project h w = project g w := by
  unfold project
  rw [H.settings_eq, H.active_eq, List.map_map]
  refine congrArg (fun blocks => preamble g.settings w.root ++ String.join blocks) ?_
  exact List.map_congr_left fun p _ => congrArg (· ++ "\n") (H.block_eq hg hh w p.1)

theorem plannedLinks_eq (H : g.Renumbers f h) (o : Output) :
    o.plannedLinks h = o.plannedLinks g := by
  unfold Output.plannedLinks
  rw [H.active_eq, List.filterMap_map]
  rfl

end BuildGraph.Graph.Renumbers
