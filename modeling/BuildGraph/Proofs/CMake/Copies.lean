import BuildGraph.Proofs.CMake.Blocks
import BuildGraph.Proofs.CMake.LinkCycles
import BuildGraph.Proofs.Graph.Closure
set_option autoImplicit false

/-!
# The shared libraries beside a program

A program is linked along the lines of its block and of the blocks that these lead to, and the
shared libraries of other modules are copied beside it along the edges of the graph. The two ways
agree as long as each module on the way still has its name and links by the names that it
declares: such a link is an edge, unless it leads from a module to itself.

A module that has lost its name has a link line and no edges. What is linked through it is not
copied.
-/

namespace BuildGraph.CMake

open Relation

variable {g : Graph} {r : Resolver} {w : Workspace} {u v e d : ModuleId} {x y : Module}

/-! ## Links by declared names -/

/-- A link of a module that has kept its name, by a name that it declares. -/
def LinksDeclared (g : Graph) (w : Workspace) (u v : ModuleId) : Prop :=
  g.Owns u ∧ ∃ m, g.modules[u]? = some m ∧
    ∃ name ∈ m.dependencies.all, name ∈ linkNames g w u ∧ FirstAnswering g.modules name v

/-- Links by declared names are among the links. -/
theorem LinksDeclared.links (h : LinksDeclared g w u v) : Links g w u v := by
  obtain ⟨-, m, -, name, -, hlinked, hfirst⟩ := h
  exact ⟨name, hlinked, hfirst⟩

/-- A declared name leads a module that has kept its own name along an edge, or to itself. -/
theorem eq_or_step_of_linksDeclared (hg : g.IsGraphOf r) (h : LinksDeclared g w u v) :
    u = v ∨ g.Step u v := by
  obtain ⟨⟨ds, hfind⟩, m, hm, name, hname, -, hfirst⟩ := h
  refine or_iff_not_imp_left.2 fun hne => ⟨ds, hfind, ?_⟩
  obtain ⟨n, hlast, hds⟩ := hg.find?_eq_owned_iff.1 hfind
  rw [hg.modules_eq] at hm hfirst
  obtain rfl := Option.some.inj ((of_lastNamed? hlast).1.symm.trans hm)
  rw [hds, Resolver.mem_edges_iff_firstAnswering]
  exact ⟨Ne.symm hne, name, hname, hfirst⟩

/-- What is linked by declared names over any number of steps is the module itself or what it
needs. -/
theorem eq_or_mem_closure_of_linksDeclared (hg : g.IsGraphOf r)
    (h : ReflTransGen (LinksDeclared g w) u v) : v = u ∨ v ∈ g.closure u := by
  induction h with
  | refl => exact .inl rfl
  | tail _ hlink ih =>
    rcases eq_or_step_of_linksDeclared hg hlink with rfl | hstep
    · exact ih
    · exact Graph.eq_or_mem_closure_of_step hg ih hstep

/-! ## Copies -/

/-- The copies of the block of a program. -/
theorem mem_copyDirectives_iff {c : Directive} (hkind : x.kind = .executable) :
    c ∈ copyDirectives g e x ↔
      ∃ k ∈ g.closure e, ∃ m, g.modules[k]? = some m ∧ m.exportsSharedLibraries = true ∧
        ∃ path ∈ m.exportedSharedLibraries,
          c = .copyLibrary x.targetName (qualify m.directory path) (fileName path) := by
  have hcopies : ∀ m, c ∈ copiesFrom x.targetName m ↔ m.exportsSharedLibraries = true ∧
      ∃ path ∈ m.exportedSharedLibraries,
        c = .copyLibrary x.targetName (qualify m.directory path) (fileName path) := by
    intro m
    unfold copiesFrom
    cases m.exportsSharedLibraries <;> simp [eq_comm]
  unfold copyDirectives
  rw [if_pos hkind]
  simp only [List.mem_flatMap, List.mem_filterMap, hcopies]
  constructor
  · intro h
    obtain ⟨m, ⟨k, hk, hm⟩, hc⟩ := h
    exact ⟨k, hk, m, hm, hc⟩
  · intro h
    obtain ⟨k, hk, m, hm, hc⟩ := h
    exact ⟨m, ⟨k, hk, hm⟩, hc⟩

/-! ## Commands of their own -/

/-- The directives of a list that run a command of their own. -/
def commandsOf (ds : List Directive) : List Directive :=
  ds.filter (·.command == "add_custom_command")

theorem mem_commandsOf {c : Directive} {ds : List Directive} :
    c ∈ commandsOf ds ↔ c ∈ ds ∧ c.command = "add_custom_command" := by
  unfold commandsOf
  rw [List.mem_filter, beq_iff_eq]

theorem commandsOf_append (ds es : List Directive) :
    commandsOf (ds ++ es) = commandsOf ds ++ commandsOf es :=
  List.filter_append ..

theorem exists_eq_copyLibrary {c : Directive} (hc : c.command = "add_custom_command") :
    ∃ name source file, c = .copyLibrary name source file := by
  cases c with
  | copyLibrary name source file => exact ⟨name, source, file, rfl⟩
  | property p => cases p <;> simp [Directive.command, Property.command] at hc
  | _ => simp [Directive.command] at hc

theorem commandsOf_eq_nil {ds : List Directive}
    (h : ∀ name source file, .copyLibrary name source file ∉ ds) : commandsOf ds = [] := by
  rw [List.eq_nil_iff_forall_not_mem]
  intro c hmem
  obtain ⟨hmem, hc⟩ := mem_commandsOf.1 hmem
  obtain ⟨name, source, file, rfl⟩ := exists_eq_copyLibrary hc
  exact h name source file hmem

theorem commandsOf_copyDirectives (g : Graph) (e : ModuleId) (x : Module) :
    commandsOf (copyDirectives g e x) = copyDirectives g e x := by
  apply List.filter_eq_self.2
  intro c hmem
  by_cases hkind : x.kind = .executable
  · obtain ⟨k, -, m, -, -, path, -, rfl⟩ := (mem_copyDirectives_iff hkind).1 hmem
    rfl
  · unfold copyDirectives at hmem
    rw [if_neg hkind] at hmem
    exact absurd hmem List.not_mem_nil

/-- Only the copies of a module run a command of their own. -/
theorem commandsOf_moduleDirectives (g : Graph) (w : Workspace) (e : ModuleId) (x : Module) :
    commandsOf (moduleDirectives g w e x) = copyDirectives g e x := by
  have hproperty : ∀ p values, commandsOf (propertyDirectives x p values) = [] := by
    intro p values
    refine commandsOf_eq_nil fun name source file hmem => ?_
    cases eq_property_of_mem hmem
  have hdeclaration : commandsOf (declarationDirectives x w) = [] := by
    refine commandsOf_eq_nil fun name source file hmem => ?_
    cases isDeclaration_of_mem hmem
  have hplace : commandsOf (placeDirectives x w) = [] := by
    refine commandsOf_eq_nil fun name source file hmem => ?_
    unfold placeDirectives at hmem
    cases hfolder : folder? x w.root <;> grind
  have hothers : commandsOf (optionDirectives x) = [] ∧ commandsOf (groupDirectives x) = [] ∧
      commandsOf (standardDirectives x) = [] := by
    refine ⟨?_, ?_, ?_⟩ <;> refine commandsOf_eq_nil fun name source file hmem => ?_
    · unfold optionDirectives at hmem
      grind
    · unfold groupDirectives at hmem
      grind
    · unfold standardDirectives at hmem
      grind
  obtain ⟨hoptions, hgroup, hstandard⟩ := hothers
  unfold moduleDirectives
  simp only [commandsOf_append, hoptions, hdeclaration, hgroup, hplace, hproperty,
    commandsOf_copyDirectives, hstandard, List.append_nil, List.nil_append]

theorem mem_copyDirectives_of_command {c : Directive} (hc : c.command = "add_custom_command")
    (h : c ∈ moduleDirectives g w e x) : c ∈ copyDirectives g e x := by
  rw [← commandsOf_moduleDirectives g w e x]
  exact mem_commandsOf.2 ⟨h, hc⟩

/-- The copies in the block of a program are those of the modules that it needs. -/
theorem mem_blockDirectives_iff_of_command {c : Directive} (hc : c.command = "add_custom_command")
    (he : g.modules[e]? = some x) (hactive : x.isActive = true) :
    c ∈ blockDirectives g w e ↔ c ∈ copyDirectives g e x := by
  rw [blockDirectives_eq he hactive]
  refine ⟨mem_copyDirectives_of_command hc, fun hcopy => ?_⟩
  unfold moduleDirectives
  simp only [List.mem_append, hcopy, or_true, true_or]

/-- Each directive of a block has a line in its text. -/
theorem exists_block_eq_of_mem {c : Directive} (h : c ∈ blockDirectives g w e) :
    ∃ before after, block g w e = Text.ofLines (before ++ c.text :: after) := by
  obtain ⟨before, after, heq⟩ := List.append_of_mem h
  refine ⟨before.map Directive.text, after.map Directive.text, ?_⟩
  rw [block, heq, List.map_append, List.map_cons]

/-- In a built graph a program has a line that copies each shared library of another module
beside it, if that module has its libraries exported and links lead from the program to it, each
from a module that has kept its name and by a name that this module declares. -/
theorem copies_what_is_linked {libraries : List String} {strict : Bool} {modules : List Module}
    {b : Built} (h : Graph.build libraries strict modules = .ok b) (w : Workspace)
    (he : b.graph.modules[e]? = some x) (hactive : x.isActive = true)
    (hkind : x.kind = .executable) (hlinked : TransGen (LinksDeclared b.graph w) e d)
    (hne : d ≠ e) (hd : b.graph.modules[d]? = some y) (hexports : y.exportsSharedLibraries = true) :
    ∀ path ∈ y.exportedSharedLibraries, ∃ before after,
      block b.graph w e = Text.ofLines (before ++
        (Directive.copyLibrary x.targetName (qualify y.directory path) (fileName path)).text ::
          after) := by
  intro path hpath
  have hneeded : d ∈ b.graph.closure e :=
    (eq_or_mem_closure_of_linksDeclared (Graph.isGraphOf_of_build h)
      hlinked.to_reflTransGen).resolve_left hne
  have hcopied := (mem_copyDirectives_iff hkind).2 ⟨d, hneeded, y, hd, hexports, path, hpath, rfl⟩
  exact exists_block_eq_of_mem ((mem_blockDirectives_iff_of_command rfl he hactive).2 hcopied)

/-! ## Programs that link a shared library -/

/-- A library with a shared library for the programs that link it. -/
def exporter : Module :=
  { Module.plain "Dxc" [] with
    directory := "/ws/Dxc", exportsSharedLibraries := true,
    exportedSharedLibraries := ["bin/dxc.dll"] }

/-- A program that links the library through another one. -/
def supplied : List Module :=
  [.plainToolchain "Toolchain" [], { Module.plain "Viewer" ["Renderer"] with kind := .executable },
    .plain "Renderer" ["Dxc"], exporter]

/-- The program, and a later module that takes the name of the library in between. -/
def cutOff : List Module :=
  supplied ++ [.plain "Renderer" []]

theorem copies_what_is_linked_supplied :
    ∃ b, Graph.build [] false supplied = .ok b ∧
      TransGen (LinksDeclared b.graph default) 1 3 ∧ ∃ before after,
        block b.graph default 1 = Text.ofLines (before ++
          (Directive.copyLibrary "Viewer" "/ws/Dxc/bin/dxc.dll" "dxc.dll").text :: after) := by
  have hview : (Graph.build [] false supplied).toOption.map (fun b => b.graph.collisions) =
      some [] := by
    decide +kernel
  obtain ⟨b, hb, hnone⟩ := exists_ok_of_map_eq_some hview
  have hg := Graph.isGraphOf_of_build hb
  have hmodules : b.graph.modules = supplied := hg.modules_eq
  have hget : ∀ k : ModuleId, b.graph.modules[k]? = supplied[k]? := fun k => by rw [hmodules]
  have hfirst : ∀ {name : String} {k : ModuleId}, Resolver.firstActive? supplied name = some k →
      FirstAnswering supplied name k := Resolver.firstActive?_eq_some_iff.1
  have hviewer : FirstAnswering supplied "Viewer" 1 := hfirst (by decide)
  have hrenderer : FirstAnswering supplied "Renderer" 2 := hfirst (by decide)
  have hdxc : FirstAnswering supplied "Dxc" 3 := hfirst (by decide)
  have hlink : LinksDeclared b.graph default 1 2 := by
    refine ⟨Graph.owns_of_collisions_eq_nil hg hnone hviewer, _, hget 1, "Renderer", by decide, ?_,
      hmodules ▸ hrenderer⟩
    exact (mem_linkNames_iff (hget 1) rfl).2 (.inl (by decide))
  have hnext : LinksDeclared b.graph default 2 3 := by
    refine ⟨Graph.owns_of_collisions_eq_nil hg hnone hrenderer, _, hget 2, "Dxc", by decide, ?_,
      hmodules ▸ hdxc⟩
    exact (mem_linkNames_iff (hget 2) rfl).2 (.inl (by decide))
  have hlinked : TransGen (LinksDeclared b.graph default) 1 3 := .head hlink (.single hnext)
  have hcopied := copies_what_is_linked hb default (hget 1) rfl rfl hlinked (by decide) (hget 3) rfl
    "bin/dxc.dll" List.mem_cons_self
  have hsource : qualify "/ws/Dxc" "bin/dxc.dll" = "/ws/Dxc/bin/dxc.dll" := by
    decide +kernel
  have hname : fileName "bin/dxc.dll" = "dxc.dll" := by
    decide +kernel
  exact ⟨b, hb, hlinked, hsource ▸ hname ▸ hcopied⟩

/-- What a program links through a module that has lost its name is not copied. -/
theorem exists_linked_library_without_copy :
    ∃ b, Graph.build [] false cutOff = .ok b ∧ TransGen (Links b.graph default) 1 3 ∧
      b.graph.modules[3]? = some exporter ∧
      ∀ c ∈ blockDirectives b.graph default 1, c.command ≠ "add_custom_command" := by
  have hview : (Graph.build [] false cutOff).toOption.map (fun b =>
      (b.graph.dependencies 1, b.graph.dependencies 2)) = some ([2], []) := by
    decide +kernel
  obtain ⟨b, hb, heq⟩ := exists_ok_of_map_eq_some hview
  simp only [Prod.mk.injEq] at heq
  obtain ⟨hviewer, hrenderer⟩ := heq
  have hmodules : b.graph.modules = cutOff := (Graph.isGraphOf_of_build hb).modules_eq
  have hget : ∀ k : ModuleId, b.graph.modules[k]? = cutOff[k]? := fun k => by rw [hmodules]
  have hfirst : ∀ {name : String} {k : ModuleId}, Resolver.firstActive? cutOff name = some k →
      FirstAnswering b.graph.modules name k := fun h =>
    hmodules ▸ Resolver.firstActive?_eq_some_iff.1 h
  have hlink : Links b.graph default 1 2 :=
    ⟨"Renderer", (mem_linkNames_iff (hget 1) rfl).2 (.inl (by decide)), hfirst (by decide)⟩
  have hnext : Links b.graph default 2 3 :=
    ⟨"Dxc", (mem_linkNames_iff (hget 2) rfl).2 (.inl (by decide)), hfirst (by decide)⟩
  refine ⟨b, hb, .head hlink (.single hnext), hget 3, fun c hc hcommand => ?_⟩
  rw [mem_blockDirectives_iff_of_command hcommand (hget 1) rfl, mem_copyDirectives_iff rfl] at hc
  obtain ⟨k, hk, m, hm, hexports, -⟩ := hc
  have honly : ∀ k, TransGen b.graph.Step 1 k → k = 2 := by
    intro k hway
    induction hway with
    | single hstep =>
      rw [← Graph.mem_dependencies_iff, hviewer] at hstep
      exact List.mem_singleton.1 hstep
    | tail _ hstep ih =>
      rw [ih, ← Graph.mem_dependencies_iff, hrenderer] at hstep
      exact absurd hstep List.not_mem_nil
  rw [honly k (Graph.transGen_step_of_mem_closure hk), hget 2] at hm
  obtain rfl := Option.some.inj hm
  cases hexports

end BuildGraph.CMake
