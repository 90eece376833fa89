import BuildGraph.Proofs.CMake.Renumbering
import BuildGraph.Proofs.Outline.Renumbering
set_option autoImplicit false

/-!
# Excluded modules

A module that is left out of a build may decide whether the build succeeds: it excuses dependencies
on its own names, and it registers libraries. It decides nothing else. Two builds that succeed, one
with the module and one without it, have the same outcome wherever no number of a module is shown.
The outlines alone could tell them apart, by libraries that nobody but the module registers.
-/

namespace BuildGraph.Graph

/-- With or without an excluded module, two builds that succeed give the same collisions, the same
cycles, a toolchain of the same name with the same settings, the same project and the same planned
links; and the same outline, if the module registers no library. -/
theorem build_insert_excluded {libraries : List String} {strict : Bool} {front back : List Module}
    {x : Module} {b b' : Built} (hx : x.excluded = true)
    (hb' : Graph.build libraries strict (front ++ [x] ++ back) = .ok b')
    (hb : Graph.build libraries strict (front ++ back) = .ok b) (w : Workspace) :
    b'.graph.collisions = b.graph.collisions ∧
    b'.graph.cycleTexts = b.graph.cycleTexts ∧
    b'.graph.targetName b'.graph.toolchain = b.graph.targetName b.graph.toolchain ∧
    b'.graph.settings = b.graph.settings ∧
    CMake.project b'.graph w = CMake.project b.graph w ∧
    (CMake.Output.ofRoot w.root b'.graph.settings).plannedLinks b'.graph =
      (CMake.Output.ofRoot w.root b.graph.settings).plannedLinks b.graph ∧
    (x.systemLibraries = [] → b'.graph.outline = b.graph.outline) := by
  have hinactive : x.isActive = false := by
    rw [Module.isActive, hx]
    rfl
  have he := embeds_insert hinactive front back
  have hg := isGraphOf_of_build hb
  have hh := isGraphOf_of_build hb'
  have H := renumbers_of_embeds he hb hb'
  have hcollisions : b'.graph.collisions = b.graph.collisions :=
    hh.collisions_eq.trans (he.takeovers_eq.trans hg.collisions_eq.symm)
  have htoolchain : b'.graph.targetName b'.graph.toolchain =
      b.graph.targetName b.graph.toolchain := by
    rw [H.toolchain_eq, H.targetName_eq]
  have hlinks : (CMake.Output.ofRoot w.root b'.graph.settings).plannedLinks b'.graph =
      (CMake.Output.ofRoot w.root b.graph.settings).plannedLinks b.graph := by
    rw [H.settings_eq, H.plannedLinks_eq]
  refine ⟨hcollisions, H.cycleTexts_eq hg hh, htoolchain, H.settings_eq, H.project_eq hg hh w,
    hlinks, fun hnone => ?_⟩
  have hlibraries : ∀ name,
      name ∈ (Resolver.ofModules libraries strict (front ++ [x] ++ back)).libraries ↔
        name ∈ (Resolver.ofModules libraries strict (front ++ back)).libraries := by
    intro name
    simp only [Resolver.ofModules, List.flatMap_append, List.flatMap_singleton, hnone,
      List.append_nil]
  exact H.outline_eq (isSystem_eq_of_embeds he hlibraries hg hh) hg hh (distinct_of_build hb)
    (distinct_of_build hb')

/-- Two modules in a circle and a toolchain behind them, which an excluded module puts off by one
place. -/
theorem build_insert_excluded_between :
    ∃ b b', Graph.build [] false
        ([.plain "a" ["b"]] ++ [.plain "b" ["a"], .plainToolchain "t" ["a"]]) = .ok b ∧
      Graph.build [] false ([.plain "a" ["b"]] ++ [(Module.plain "x" []).exclude] ++
        [.plain "b" ["a"], .plainToolchain "t" ["a"]]) = .ok b' ∧
      b.graph.toolchain = 2 ∧ b'.graph.toolchain = 3 ∧
      b'.graph.targetName b'.graph.toolchain = b.graph.targetName b.graph.toolchain ∧
      b.graph.cycleTexts = ["a -> b -> a"] ∧ b'.graph.cycleTexts = ["a -> b -> a"] ∧
      b'.graph.outline = b.graph.outline := by
  have hview : (Graph.build [] false
      ([.plain "a" ["b"]] ++ [.plain "b" ["a"], .plainToolchain "t" ["a"]])).toOption.map
        (fun b => (b.graph.toolchain, b.graph.cycleTexts)) = some (2, ["a -> b -> a"]) := by
    decide +kernel
  have hview' : (Graph.build [] false ([.plain "a" ["b"]] ++ [(Module.plain "x" []).exclude] ++
      [.plain "b" ["a"], .plainToolchain "t" ["a"]])).toOption.map
        (fun b => b.graph.toolchain) = some 3 := by
    decide +kernel
  obtain ⟨b, hb, heq⟩ := exists_ok_of_map_eq_some hview
  obtain ⟨b', hb', hthree⟩ := exists_ok_of_map_eq_some hview'
  obtain ⟨htwo, hcycles⟩ := Prod.mk.inj heq
  obtain ⟨-, hsame, htarget, -, -, -, houtline⟩ :=
    build_insert_excluded rfl hb' hb (Workspace.atPath "/ws")
  exact ⟨b, b', hb, hb', htwo, hthree, htarget, hcycles, hsame.trans hcycles, houtline rfl⟩

end BuildGraph.Graph
