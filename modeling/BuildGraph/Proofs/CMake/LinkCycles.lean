import BuildGraph.Proofs.CMake.LinkNames
import BuildGraph.Proofs.Graph.Acyclicity
import BuildGraph.Proofs.Graph.Ownership
import BuildGraph.Proofs.Outline.Cycles
set_option autoImplicit false

/-!
# Circles of links

A module links another one if a name on its link line leads there. Most links are edges of the
graph, but not all of them: a module that has lost its name has a link line and no edges, and the
name of the toolchain stands on the line of every compiled module and makes no edge. So a graph
without cycles may belong to a project in which modules link each other in a circle.

These two are the only ways in which it can come to that among distinct modules. Without repeated
names there is a circle exactly if the links of the module behind the name of the toolchain lead to
another compiled module, which then links the toolchain in turn.
-/

namespace BuildGraph.CMake

open Relation

variable {g : Graph} {r : Resolver} {w : Workspace} {u v : ModuleId} {m : Module}

/-! ## Links -/

/-- The first active module that answers to some name on the link line of a module. -/
def Links (g : Graph) (w : Workspace) (u v : ModuleId) : Prop :=
  ∃ name ∈ linkNames g w u, FirstAnswering g.modules name v

/-- A link between two modules. -/
def LinksOther (g : Graph) (w : Workspace) (u v : ModuleId) : Prop :=
  Links g w u v ∧ u ≠ v

/-- An active module that is compiled and not the toolchain. -/
def TakesToolchain (g : Graph) (u : ModuleId) : Prop :=
  u ≠ g.toolchain ∧
    ∃ m, g.modules[u]? = some m ∧ m.isActive = true ∧ m.kind.traits.producesTarget = true

/-- The module that the name of the toolchain leads to. -/
def StandsForToolchain (g : Graph) (v : ModuleId) : Prop :=
  FirstAnswering g.modules (g.targetName g.toolchain) v

/-- Modules that are left out have no block. -/
theorem exists_active_of_mem_linkNames {name : String} (h : name ∈ linkNames g w u) :
    ∃ m, g.modules[u]? = some m ∧ m.isActive = true := by
  unfold linkNames blockDirectives at h
  cases hm : g.modules[u]? with
  | none =>
    rw [hm] at h
    exact absurd h List.not_mem_nil
  | some m =>
    cases hactive : m.isActive with
    | true => exact ⟨m, rfl, hactive⟩
    | false =>
      rw [hm] at h
      simp [hactive] at h

theorem FirstAnswering.unique {ms : List Module} {name : String} {j k : ModuleId}
    (hj : FirstAnswering ms name j) (hk : FirstAnswering ms name k) : j = k := by
  have hsome := Resolver.firstActive?_eq_some_iff.2 hj
  exact Option.some.inj (hsome.symm.trans (Resolver.firstActive?_eq_some_iff.2 hk))

/-- A compiled module links whatever the name of the toolchain leads to. -/
theorem links_of_takesToolchain (hu : TakesToolchain g u) (hv : StandsForToolchain g v) :
    Links g w u v := by
  obtain ⟨hne, m, hm, hactive, hcompiled⟩ := hu
  exact ⟨_, (mem_linkNames_iff hm hactive).2 (.inr ⟨rfl, hne, hcompiled⟩), hv⟩

/-! ## Links beside the edges -/

/-- A link is an edge of the graph, unless it leads from a module to itself, or the module has
lost its name, or the link is the one to the toolchain. -/
theorem step_or_of_links (hg : g.IsGraphOf r) (h : Links g w u v) :
    g.Step u v ∨ u = v ∨ ¬ g.Owns u ∨ TakesToolchain g u ∧ StandsForToolchain g v := by
  obtain ⟨name, hname, hfirst⟩ := h
  obtain ⟨m, hm, hactive⟩ := exists_active_of_mem_linkNames hname
  rcases (mem_linkNames_iff hm hactive).1 hname with hdeclared | ⟨htoolchain, hother, hcompiled⟩
  · rcases eq_or_ne u v with hself | hne
    · exact .inr (.inl hself)
    by_cases howns : g.Owns u
    · obtain ⟨ds, hfind⟩ := howns
      obtain ⟨x, hlast, hds⟩ := hg.find?_eq_owned_iff.1 hfind
      rw [hg.modules_eq] at hm hfirst
      obtain rfl := Option.some.inj ((of_lastNamed? hlast).1.symm.trans hm)
      refine .inl ⟨ds, hfind, ?_⟩
      rw [hds, Resolver.mem_edges_iff_firstAnswering]
      exact ⟨hne.symm, name, mem_all_of_mem_written hdeclared, hfirst⟩
    · exact .inr (.inr (.inl howns))
  · rw [htoolchain] at hfirst
    exact .inr (.inr (.inr ⟨⟨hother, m, hm, hactive, hcompiled⟩, hfirst⟩))

/-- Where the graph has no cycle, every circle takes a step that is no edge. -/
theorem exists_step_beside_edges (hg : g.IsGraphOf r) (hcycles : g.cycles = []) {a : ModuleId}
    {L : ModuleId → ModuleId → Prop} (hround : TransGen L a a) :
    ∃ u v, ReflTransGen L a u ∧ L u v ∧ ¬ g.Step u v ∧ ReflTransGen L v a := by
  refine (transGen_or_exists_step hround).resolve_left fun hkept => ?_
  have hedges : TransGen g.Step a a :=
    TransGen.mono (fun _ _ h => not_not.1 h.2) a a hkept
  exact (Graph.cycles_eq_nil_iff_not_transGen hg).1 hcycles a hedges

/-- Without repeated names no module that links another one has lost its name. -/
theorem owns_of_linksOther (hg : g.IsGraphOf r) (hnone : g.collisions = [])
    (h : LinksOther g w u v) : g.Owns u := by
  obtain ⟨⟨name, hname, -⟩, -⟩ := h
  obtain ⟨m, hm, hactive⟩ := exists_active_of_mem_linkNames hname
  rw [hg.modules_eq] at hm
  rw [Graph.owns_iff_lastNamed hg hm, lastNamed_targetName_iff hm hactive]
  intro hsuperseded
  rw [hg.collisions_eq, takeovers_eq_nil_iff] at hnone
  exact hnone (hsuperseded.repeats hm hactive)

/-- Without repeated names there is a circle of links exactly if the links of the module behind the
name of the toolchain lead to another compiled module. -/
theorem exists_transGen_linksOther_iff (hg : g.IsGraphOf r) (hcycles : g.cycles = [])
    (hnone : g.collisions = []) :
    (∃ a, TransGen (LinksOther g w) a a) ↔
      ∃ t u, StandsForToolchain g t ∧ TakesToolchain g u ∧ u ≠ t ∧
        ReflTransGen (LinksOther g w) t u := by
  constructor
  · intro h
    obtain ⟨a, hround⟩ := h
    obtain ⟨u, v, hreach, hlink, hbeside, hback⟩ := exists_step_beside_edges hg hcycles hround
    rcases step_or_of_links hg hlink.1 with hstep | hself | hlost | ⟨htakes, hstands⟩
    · exact absurd hstep hbeside
    · exact absurd hself hlink.2
    · exact absurd (owns_of_linksOther hg hnone hlink) hlost
    · exact ⟨v, u, hstands, htakes, hlink.2, hback.trans hreach⟩
  · intro h
    obtain ⟨t, u, hstands, htakes, hne, hreach⟩ := h
    exact ⟨t, .tail' hreach ⟨links_of_takesToolchain htakes hstands, hne⟩⟩

/-- In a built graph without cycles each circle of links takes a link that is no edge of the
graph, and such a link leads from a module to itself, or starts at a module that has lost its
name, or leads a compiled module to the toolchain. Without repeated names there is a circle of
links between distinct modules exactly if such links lead from the module behind the name of the
toolchain to another compiled module. -/
theorem links_acyclic_up_to_toolchain {libraries : List String} {strict : Bool}
    {modules : List Module} {b : Built} (h : Graph.build libraries strict modules = .ok b)
    (hcycles : b.graph.cycles = []) (w : Workspace) :
    (∀ a, TransGen (Links b.graph w) a a →
      ∃ u v, ReflTransGen (Links b.graph w) a u ∧ Links b.graph w u v ∧
        ReflTransGen (Links b.graph w) v a ∧ ¬ b.graph.Step u v ∧
        (u = v ∨ ¬ b.graph.Owns u ∨ TakesToolchain b.graph u ∧ StandsForToolchain b.graph v)) ∧
    (b.graph.collisions = [] →
      ((∃ a, TransGen (LinksOther b.graph w) a a) ↔
        ∃ t u, StandsForToolchain b.graph t ∧ TakesToolchain b.graph u ∧ u ≠ t ∧
          ReflTransGen (LinksOther b.graph w) t u)) := by
  have hg := Graph.isGraphOf_of_build h
  refine ⟨?_, exists_transGen_linksOther_iff hg hcycles⟩
  intro a hround
  obtain ⟨u, v, hreach, hlink, hbeside, hback⟩ := exists_step_beside_edges hg hcycles hround
  have hkind := (step_or_of_links hg hlink).resolve_left hbeside
  exact ⟨u, v, hreach, hlink, hback, hbeside, hkind⟩

/-! ## A toolchain that needs a compiled module -/

/-- A toolchain that depends on a library, which is compiled and so links the toolchain. -/
def braced : List Module :=
  [{ Module.plainToolchain "Toolchain" ["Core"] with kind := .interface }, .plain "Core" []]

theorem exists_build_braced : ∃ b, Graph.build [] false braced = .ok b ∧
    b.graph.toolchain = 0 ∧ b.graph.collisions = [] ∧ b.graph.cycles = [] := by
  have hview : (Graph.build [] false braced).toOption.map (fun b =>
      (b.graph.toolchain, b.graph.collisions, b.graph.cycles)) = some (0, [], []) := by
    decide
  obtain ⟨b, hb, heq⟩ := exists_ok_of_map_eq_some hview
  simp only [Prod.mk.injEq] at heq
  exact ⟨b, hb, heq⟩

theorem linksOther_braced {b : Built} (hb : Graph.build [] false braced = .ok b) :
    LinksOther b.graph w 0 1 := by
  have hmodules := (Graph.isGraphOf_of_build hb).modules_eq
  have hget : b.graph.modules[0]? =
      some { Module.plainToolchain "Toolchain" ["Core"] with kind := .interface } := hmodules ▸ rfl
  have hfirst : FirstAnswering braced "Core" 1 := by
    rw [FirstAnswering, ← Resolver.firstActive?_eq_some_iff]
    decide
  have hname : "Core" ∈ linkNames b.graph w 0 := by
    rw [mem_linkNames_iff hget rfl]
    exact .inl (by decide)
  exact ⟨⟨"Core", hname, hmodules ▸ hfirst⟩, by decide⟩

theorem takesToolchain_braced {b : Built} (hb : Graph.build [] false braced = .ok b)
    (htoolchain : b.graph.toolchain = 0) : TakesToolchain b.graph 1 := by
  have hget : b.graph.modules[1]? = some (.plain "Core" []) :=
    (Graph.isGraphOf_of_build hb).modules_eq ▸ rfl
  refine ⟨?_, _, hget, rfl, rfl⟩
  rw [htoolchain]
  decide

theorem standsForToolchain_braced {b : Built} (hb : Graph.build [] false braced = .ok b)
    (htoolchain : b.graph.toolchain = 0) : StandsForToolchain b.graph 0 := by
  unfold StandsForToolchain Graph.targetName
  rw [htoolchain, (Graph.isGraphOf_of_build hb).modules_eq, FirstAnswering,
    ← Resolver.firstActive?_eq_some_iff]
  decide

/-- A graph without cycles whose project has a circle of links. -/
theorem exists_circle_of_links_without_cycle :
    ∃ b, Graph.build [] false braced = .ok b ∧ b.graph.cycles = [] ∧
      ∀ w, TransGen (Links b.graph w) 0 0 := by
  obtain ⟨b, hb, htoolchain, -, hcycles⟩ := exists_build_braced
  refine ⟨b, hb, hcycles, fun w => .head (linksOther_braced hb).1 (.single ?_)⟩
  exact links_of_takesToolchain (takesToolchain_braced hb htoolchain)
    (standsForToolchain_braced hb htoolchain)

/-- The link that closes the circle is the one to the toolchain. -/
theorem links_acyclic_up_to_toolchain_braced :
    ∃ b, Graph.build [] false braced = .ok b ∧ b.graph.cycles = [] ∧ b.graph.collisions = [] ∧
      ∃ a, TransGen (LinksOther b.graph default) a a ∧
        ∃ u v, Links b.graph default u v ∧ ¬ b.graph.Step u v ∧
          (u = v ∨ ¬ b.graph.Owns u ∨
            TakesToolchain b.graph u ∧ StandsForToolchain b.graph v) := by
  obtain ⟨b, hb, htoolchain, hcollisions, hcycles⟩ := exists_build_braced
  obtain ⟨hcircle, hexact⟩ := links_acyclic_up_to_toolchain hb hcycles default
  obtain ⟨a, hround⟩ := (hexact hcollisions).2 ⟨0, 1, standsForToolchain_braced hb htoolchain,
    takesToolchain_braced hb htoolchain, by decide, .single (linksOther_braced hb)⟩
  have hlinked : TransGen (Links b.graph default) a a :=
    TransGen.mono (fun _ _ hlink => hlink.1) a a hround
  obtain ⟨u, v, -, hlink, -, hbeside, hkind⟩ := hcircle a hlinked
  exact ⟨b, hb, hcycles, hcollisions, a, hround, u, v, hlink, hbeside, hkind⟩

end BuildGraph.CMake
