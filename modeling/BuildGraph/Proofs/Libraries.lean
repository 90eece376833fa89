import BuildGraph.Proofs.CMake.LinkNames
import BuildGraph.Proofs.CMake.Renumbering
import BuildGraph.Proofs.Graph.Rearrangement
set_option autoImplicit false

/-!
# More libraries

The names of libraries are looked at last: an active module that answers to a name comes before
them. A library that is registered in addition can therefore give a meaning to a name that had
none but an excluded module, and no more. A build that succeeds still succeeds with more
libraries, its graph has the same owners, edges, collisions and cycles, and the text of the
project is the same. What may come in are placeholders for names that the graph left out before.
-/

namespace BuildGraph

variable {libraries more : List String} {strict strict' : Bool} {ms : List Module} {name : String}
  {b b' : Built}

/-! ## Names -/

theorem Resolver.libraries_subset (h : libraries ⊆ more) :
    (Resolver.ofModules libraries strict ms).libraries ⊆
      (Resolver.ofModules more strict ms).libraries := by
  intro name hname
  rw [mem_libraries_ofModules_iff] at hname ⊢
  exact hname.imp_left fun hregistered => h hregistered

/-- With more libraries no name loses its meaning. -/
theorem Resolver.firstMissing?_eq_none_of_subset {m : Module} (h : libraries ⊆ more)
    (hresolves : (Resolver.ofModules libraries strict ms).firstMissing? m = none) :
    (Resolver.ofModules more strict ms).firstMissing? m = none := by
  rw [firstMissing?_eq_none_iff] at hresolves ⊢
  intro name hname hmissing
  obtain ⟨hlibrary, hnobody⟩ := resolve_eq_missing_iff.1 hmissing
  refine hresolves name hname (resolve_eq_missing_iff.2 ⟨?_, hnobody⟩)
  intro hold
  exact hlibrary (libraries_subset h hold)

/-- A name that stands for something, but for no active module and no library, is left to an
excluded module. -/
theorem Resolver.resolve_eq_excluded_of_not_mem {r : Resolver}
    (hnone : firstActive? r.modules name = none) (hlibrary : name ∉ r.libraries)
    (hstands : r.resolve name ≠ .missing) : r.resolve name = .excluded := by
  rw [resolve_of_firstActive?_eq_none hnone, if_neg hlibrary] at hstands ⊢
  exact if_pos (by_contra fun hunexcused => hstands (if_neg hunexcused))

namespace Graph

/-! ## Two builds of the same modules -/

/-- Their graphs differ in nothing but placeholders, whatever libraries are registered. -/
theorem graph_eq_of_build (hb : Graph.build libraries strict ms = .ok b)
    (hb' : Graph.build more strict' ms = .ok b') :
    b'.graph = { b.graph with entries := b'.graph.entries } := by
  have hg := isGraphOf_of_build hb
  have hh := isGraphOf_of_build hb'
  have H := renumbers_of_embeds (Embeds.refl ms) hb hb'
  have hmodules : b'.graph.modules = b.graph.modules := hh.modules_eq.trans hg.modules_eq.symm
  have htoolchain : b'.graph.toolchain = b.graph.toolchain := H.toolchain_eq
  have hcollisions : b'.graph.collisions = b.graph.collisions :=
    hh.collisions_eq.trans hg.collisions_eq.symm
  have hcycles : b'.graph.cycles = b.graph.cycles := by
    rw [H.cycles_eq hg hh, List.map_id_fun, List.map_id_fun, id]
  dsimp only
  rw [← hmodules, ← htoolchain, ← H.settings_eq, ← hcollisions, ← hcycles]

/-- A build that is not strict succeeds with more libraries. -/
theorem exists_build_of_subset (h : libraries ⊆ more)
    (hb : Graph.build libraries false ms = .ok b) : ∃ b', Graph.build more false ms = .ok b' := by
  obtain ⟨hresolves, htoolchain⟩ := exists_build_iff.1 ⟨b, hb⟩
  refine exists_build_iff.2 ⟨?_, htoolchain⟩
  intro m hm hactive
  exact Resolver.firstMissing?_eq_none_of_subset h (hresolves m hm hactive)

/-- A strict build has nothing more to report with more libraries. -/
theorem exists_build_strict_of_subset (h : libraries ⊆ more)
    (hb : Graph.build libraries true ms = .ok b) : ∃ b', Graph.build more true ms = .ok b' := by
  obtain ⟨hlenient, hcollisions, hcycles⟩ := of_build_strict_eq_ok hb
  obtain ⟨b', hb'⟩ := exists_build_of_subset h hlenient
  have hsame := graph_eq_of_build hlenient hb'
  refine ⟨b', build_strict_of_nothing_reported hb' ?_ ?_⟩
  · rw [hsame]
    exact hcollisions
  · rw [hsame]
    exact hcycles

/-! ## Entries -/

/-- A placeholder was there before, or its name was left to an excluded module. -/
theorem find?_eq_system_iff_of_subset (h : libraries ⊆ more)
    (hb : Graph.build libraries strict ms = .ok b) (hb' : Graph.build more strict ms = .ok b') :
    b'.graph.entries.find? name = some .system ↔
      b.graph.entries.find? name = some .system ∨
        name ∈ more ∧ CMake.OnlyExcluded libraries ms name ∧
          ∃ m ∈ ms, m.isActive = true ∧ name ∈ m.dependencies.all := by
  have hg := isGraphOf_of_build hb
  rw [hg.find?_eq_system_iff, (isGraphOf_of_build hb').find?_eq_system_iff]
  constructor
  · intro hplaceholder
    obtain ⟨m, hm, hactive, hplaceholder⟩ := hplaceholder
    obtain ⟨hname, hnone, hlibrary⟩ := Resolver.mem_placeholders_iff.1 hplaceholder
    by_cases hold : name ∈ (Resolver.ofModules libraries strict ms).libraries
    · exact .inl ⟨m, hm, hactive, Resolver.mem_placeholders_iff.2 ⟨hname, hnone, hold⟩⟩
    · -- The build with fewer libraries accepted the name, so an excluded module answers to it.
      have hresolves := Resolver.firstMissing?_eq_none_iff.1 (hg.resolves m hm hactive) name hname
      have hexcluded : (Resolver.ofModules libraries strict ms).resolve name = .excluded :=
        Resolver.resolve_eq_excluded_of_not_mem hnone hold hresolves
      have hmore : name ∈ more := by
        refine (List.mem_append.1 hlibrary).resolve_right fun hdeclared => hold ?_
        exact List.mem_append_right _ hdeclared
      exact .inr ⟨hmore, CMake.resolve_eq_excluded_iff_onlyExcluded.1 hexcluded, m, hm, hactive,
        hname⟩
  · intro hcase
    rcases hcase with ⟨m, hm, hactive, hplaceholder⟩ | ⟨hmore, hexcluded, m, hm, hactive, hname⟩
    · obtain ⟨hname, hnone, hold⟩ := Resolver.mem_placeholders_iff.1 hplaceholder
      exact ⟨m, hm, hactive,
        Resolver.mem_placeholders_iff.2 ⟨hname, hnone, Resolver.libraries_subset h hold⟩⟩
    · have hnone := Resolver.firstActive?_eq_none_iff.2 hexcluded.1
      exact ⟨m, hm, hactive,
        Resolver.mem_placeholders_iff.2 ⟨hname, hnone, List.mem_append_left _ hmore⟩⟩

theorem find?_eq_owned_iff_of_build {a : ModuleId} {ds : List ModuleId}
    (hb : Graph.build libraries strict ms = .ok b) (hb' : Graph.build more strict' ms = .ok b') :
    b'.graph.entries.find? name = some (.owned a ds) ↔
      b.graph.entries.find? name = some (.owned a ds) := by
  rw [(renumbers_of_embeds (Embeds.refl ms) hb hb').owned_iff]
  simp

/-- A build that succeeds also succeeds when more libraries are registered. Its graph is the same
but for entries, and so is the text of the project. Every entry stays, and the only further ones
are placeholders: one for each library among the dependencies of active modules that was accepted
for the sake of an excluded module alone. -/
theorem build_more_libraries (h : libraries ⊆ more)
    (hb : Graph.build libraries strict ms = .ok b) :
    ∃ b', Graph.build more strict ms = .ok b' ∧
      b'.graph = { b.graph with entries := b'.graph.entries } ∧
      (∀ w, CMake.project b'.graph w = CMake.project b.graph w) ∧
      ∀ name e, b'.graph.entries.find? name = some e ↔
        b.graph.entries.find? name = some e ∨
          e = .system ∧ name ∈ more ∧ CMake.OnlyExcluded libraries ms name ∧
            ∃ m ∈ ms, m.isActive = true ∧ name ∈ m.dependencies.all := by
  have hbuild : ∃ b', Graph.build more strict ms = .ok b' := by
    cases strict with
    | false => exact exists_build_of_subset h hb
    | true => exact exists_build_strict_of_subset h hb
  obtain ⟨b', hb'⟩ := hbuild
  have H := renumbers_of_embeds (Embeds.refl ms) hb hb'
  refine ⟨b', hb', graph_eq_of_build hb hb',
    H.project_eq (isGraphOf_of_build hb) (isGraphOf_of_build hb'), ?_⟩
  intro name e
  cases e with
  | owned a ds =>
    rw [find?_eq_owned_iff_of_build hb hb']
    simp
  | system =>
    rw [find?_eq_system_iff_of_subset h hb hb']
    simp

/-- A toolchain that needs a library and a module that is left out of the build. -/
def lacking : List Module :=
  [.plainToolchain "t" ["x", "lib"], (Module.plain "x" []).exclude]

/-- Of two further libraries under the names of modules, only the one that an excluded module
answers to gets a placeholder. -/
theorem build_more_libraries_lacking :
    ["lib"] ⊆ ["t", "x", "lib"] ∧
      ∃ b b', Graph.build ["lib"] true lacking = .ok b ∧
        Graph.build ["t", "x", "lib"] true lacking = .ok b' ∧
        b.graph.entries = [("lib", .system), ("t", .owned 0 [])] ∧
        b'.graph.entries.find? "lib" = some .system ∧
        b'.graph.entries.find? "t" = some (.owned 0 []) ∧
        b'.graph.entries.find? "x" = some .system := by
  have hsubset : ["lib"] ⊆ ["t", "x", "lib"] := by
    decide
  have hview : (Graph.build ["lib"] true lacking).toOption.map (fun b => b.graph.entries) =
      some [("lib", .system), ("t", .owned 0 [])] := by
    decide
  have hexcluded : CMake.OnlyExcluded ["lib"] lacking "x" := by
    unfold CMake.OnlyExcluded
    decide
  obtain ⟨b, hb, hentries⟩ := exists_ok_of_map_eq_some hview
  obtain ⟨b', hb', -, -, hfind⟩ := build_more_libraries hsubset hb
  refine ⟨hsubset, b, b', hb, hb', hentries, ?_, ?_, ?_⟩
  · exact (hfind _ _).2 (.inl (hentries ▸ rfl))
  · exact (hfind _ _).2 (.inl (hentries ▸ rfl))
  · refine (hfind _ _).2 (.inr ⟨rfl, by decide, hexcluded, ?_⟩)
    exact ⟨_, List.mem_cons_self, rfl, List.mem_cons_self⟩

end Graph

end BuildGraph
