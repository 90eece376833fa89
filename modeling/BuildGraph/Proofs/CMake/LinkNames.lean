import BuildGraph.CMake.Block
import BuildGraph.Proofs.Graph.Built
set_option autoImplicit false

/-!
# The names that a module links

The link line of a module is written from the names that the module declares, and not from the
edges of the graph. A name on it is therefore one that the graph knows, unless it was resolved by an
excluded module alone: the graph leaves such a name out, and the link line does not.
-/

namespace BuildGraph.CMake

variable {g : Graph} {w : Workspace} {id : ModuleId} {m : Module} {values : Scoped} {name : String}

/-! ## The link line -/

/-- The names that a directive links. -/
def Directive.linked : Directive → List String
  | .property .linkLibraries _ groups => groups.flatMap (·.2)
  | _ => []

/-- The names that are linked in the block of a module. -/
def linkNames (g : Graph) (w : Workspace) (id : ModuleId) : List String :=
  (blockDirectives g w id).flatMap Directive.linked

/-- The values of a property that are written for a module. -/
def written (m : Module) (values : Scoped) : List String :=
  (groupsOf m values).flatMap (·.2)

theorem flatMap_group (scope : Scope) (vs : List String) :
    (group scope vs).flatMap (·.2) = vs := by
  unfold group
  by_cases h : vs = []
  · rw [if_pos h, h]
    rfl
  · rw [if_neg h, List.flatMap_singleton]

theorem mem_written_iff :
    name ∈ written m values ↔
      if m.isInterfaceLike = true then name ∈ values.exposed
      else m.kind.traits.scopedProperties = true ∧ name ∈ values.all := by
  unfold written groupsOf Scoped.all
  cases m.isInterfaceLike with
  | true => simp only [if_true, flatMap_group]
  | false =>
    cases m.kind.traits.scopedProperties with
    | true => simp [flatMap_group]
    | false => simp

theorem mem_all_of_mem_written (h : name ∈ written m values) : name ∈ values.all := by
  rw [mem_written_iff] at h
  split at h
  · exact Scoped.mem_all.2 (.inl h)
  · exact h.2

theorem flatMap_linked_propertyDirectives (m : Module) (values : Scoped) :
    (propertyDirectives m .linkLibraries values).flatMap Directive.linked = written m values := by
  unfold propertyDirectives written
  cases groupsOf m values with
  | nil => rfl
  | cons group groups => exact List.append_nil _

theorem flatMap_linked_of_ne {p : Property} (hp : p ≠ .linkLibraries) :
    (propertyDirectives m p values).flatMap Directive.linked = [] := by
  unfold propertyDirectives
  cases groupsOf m values with
  | nil => rfl
  | cons group groups =>
    cases p with
    | linkLibraries => exact absurd rfl hp
    | _ => rfl

/-- Of two lists of directives that link nothing, either links nothing. -/
theorem flatMap_linked_ite {c : Prop} [Decidable c] {ds es : List Directive}
    (hds : ds.flatMap Directive.linked = []) (hes : es.flatMap Directive.linked = []) :
    (if c then ds else es).flatMap Directive.linked = [] := by
  split
  · exact hds
  · exact hes

theorem flatMap_linked_kindDirectives (m : Module) (w : Workspace) :
    (kindDirectives m w).flatMap Directive.linked = [] := by
  unfold kindDirectives
  cases m.kind with
  | staticLibrary => exact flatMap_linked_ite rfl rfl
  | sharedLibrary => exact flatMap_linked_ite rfl rfl
  | native => cases m.subdirectory <;> rfl
  | _ => rfl

theorem flatMap_linked_placeDirectives (m : Module) (w : Workspace) :
    (placeDirectives m w).flatMap Directive.linked = [] := by
  unfold placeDirectives
  cases folder? m w.root with
  | none => rfl
  | some folder =>
    have hfolders : (m.exportedTargets.map (.folder · folder)).flatMap Directive.linked = [] := by
      simp [Directive.linked]
    simp only [List.flatMap_append, hfolders]
    rw [flatMap_linked_ite rfl rfl, flatMap_linked_ite rfl rfl]
    rfl

theorem flatMap_linked_copyDirectives (g : Graph) (id : ModuleId) (m : Module) :
    (copyDirectives g id m).flatMap Directive.linked = [] := by
  have hcopies : ∀ x, (copiesFrom m.targetName x).flatMap Directive.linked = [] := by
    intro x
    refine flatMap_linked_ite ?_ rfl
    simp [Directive.linked]
  refine flatMap_linked_ite ?_ rfl
  rw [List.flatMap_assoc]
  simp [hcopies]

/-- The names that are linked in the block of an active module are those of its link line. -/
theorem linkNames_eq (hm : g.modules[id]? = some m) (hactive : m.isActive = true) :
    linkNames g w id = written m (linkLibraries g id m) := by
  have hoptions : (optionDirectives m).flatMap Directive.linked = [] := by
    refine flatMap_linked_ite ?_ rfl
    simp [Directive.linked]
  have hgroup : (groupDirectives m).flatMap Directive.linked = [] := flatMap_linked_ite rfl rfl
  have hstandard : (standardDirectives m).flatMap Directive.linked = [] :=
    flatMap_linked_ite rfl rfl
  have hblock : blockDirectives g w id = moduleDirectives g w id m := by
    unfold blockDirectives
    rw [hm]
    exact if_pos hactive
  unfold linkNames
  rw [hblock]
  unfold moduleDirectives declarationDirectives
  simp only [List.flatMap_append, hoptions, flatMap_linked_kindDirectives, hgroup,
    flatMap_linked_placeDirectives, flatMap_linked_propertyDirectives,
    flatMap_linked_copyDirectives, hstandard, List.nil_append]
  rw [flatMap_linked_ite rfl rfl, flatMap_linked_of_ne (by decide),
    flatMap_linked_of_ne (by decide), flatMap_linked_of_ne (by decide),
    flatMap_linked_of_ne (by decide)]
  simp only [List.nil_append, List.append_nil]

/-- One more exposed value is written wherever the module has exposed values at all. -/
theorem mem_written_expose_iff {value : String} :
    name ∈ written m (values.expose value) ↔ name ∈ written m values ∨
      name = value ∧ (m.isInterfaceLike = true ∨ m.kind.traits.scopedProperties = true) := by
  rw [mem_written_iff, mem_written_iff]
  unfold Scoped.expose Scoped.all
  cases m.isInterfaceLike with
  | true => simp
  | false =>
    simp only [Bool.false_eq_true, if_false, false_or, List.mem_append, List.mem_singleton]
    grind

/-- A module links what it declares and, when it is compiled, the toolchain. -/
theorem mem_linkNames_iff (hm : g.modules[id]? = some m) (hactive : m.isActive = true) :
    name ∈ linkNames g w id ↔ name ∈ written m m.dependencies ∨
      name = g.targetName g.toolchain ∧ id ≠ g.toolchain ∧ m.kind.traits.producesTarget = true := by
  rw [linkNames_eq hm hactive]
  unfold linkLibraries
  by_cases hcompiled : id ≠ g.toolchain ∧ m.kind.traits.producesTarget = true
  · have hscoped : m.kind.traits.scopedProperties = true := by
      rw [m.kind.producesTarget_le hcompiled.2]
    rw [if_pos hcompiled, mem_written_expose_iff, and_iff_left (.inr hscoped),
      and_iff_left hcompiled]
  · rw [if_neg hcompiled]
    exact (or_iff_left fun h => hcompiled h.2).symm

/-! ## Names that the graph knows -/

/-- The name of the toolchain, of an entry, or of a target that an active module makes and that can
be linked. -/
def Known (g : Graph) (name : String) : Prop :=
  name = g.targetName g.toolchain ∨ (∃ e, g.entries.find? name = some e) ∨
    ∃ x ∈ g.modules, x.isActive = true ∧ name ∈ x.linkableTargets

/-- A name that an excluded module answers to and no active one, and that is no library. -/
def OnlyExcluded (libraries : List String) (modules : List Module) (name : String) : Prop :=
  (∀ x ∈ modules, x.isActive = true → x.answersTo name = false) ∧ name ∉ libraries ∧
    (∀ x ∈ modules, name ∉ x.systemLibraries) ∧
    ∃ x ∈ modules, x.excluded = true ∧ x.answersTo name = true

theorem resolve_eq_excluded_iff_onlyExcluded {libraries : List String} {strict : Bool}
    {modules : List Module} :
    (Resolver.ofModules libraries strict modules).resolve name = .excluded ↔
      OnlyExcluded libraries modules name := by
  have hlibraries : name ∉ (Resolver.ofModules libraries strict modules).libraries ↔
      name ∉ libraries ∧ ∀ x ∈ modules, name ∉ x.systemLibraries := by
    unfold Resolver.ofModules
    simp only [List.mem_append, List.mem_flatMap, not_or, not_exists, not_and]
  rw [Resolver.resolve_eq_excluded_iff, Resolver.firstActive?_eq_none_iff, hlibraries, and_assoc]
  exact Iff.rfl

section IsGraphOf

variable {r : Resolver} (hg : g.IsGraphOf r)

include hg

/-- The toolchain answers to its own name. -/
theorem exists_active_of_eq_toolchain (h : name = g.targetName g.toolchain) :
    ∃ x ∈ r.modules, x.isActive = true ∧ x.targetName = name := by
  obtain ⟨x, hx, hactive, -⟩ := hg.toolchain_active
  refine ⟨x, List.mem_of_getElem? hx, hactive, ?_⟩
  rw [h]
  unfold Graph.targetName Graph.targetNameOf
  rw [hg.modules_eq, hx]

theorem known_of_answersTo {x : Module} (hx : x ∈ r.modules) (hactive : x.isActive = true)
    (hname : x.answersTo name = true) : Known g name := by
  rcases (x.answersTo_iff name).1 hname with htarget | hlinkable
  · exact .inr (.inl (hg.exists_find?_iff.2 (.inl ⟨x, hx, hactive, htarget⟩)))
  · exact .inr (.inr ⟨x, hg.modules_eq ▸ hx, hactive, hlinkable⟩)

/-- The graph knows a name only if an active module answers to it or it is a library. -/
theorem answersTo_or_mem_of_known (h : Known g name) :
    (∃ x ∈ r.modules, x.isActive = true ∧ x.answersTo name = true) ∨ name ∈ r.libraries := by
  rcases h with htoolchain | hentry | ⟨x, hx, hactive, hlinkable⟩
  · obtain ⟨x, hx, hactive, htarget⟩ := exists_active_of_eq_toolchain hg htoolchain
    exact .inl ⟨x, hx, hactive, (x.answersTo_iff name).2 (.inl htarget)⟩
  · rcases hg.exists_find?_iff.1 hentry with ⟨x, hx, hactive, htarget⟩ | ⟨x, -, -, hplaceholder⟩
    · exact .inl ⟨x, hx, hactive, (x.answersTo_iff name).2 (.inl htarget)⟩
    · exact .inr (Resolver.mem_placeholders_iff.1 hplaceholder).2.2
  · exact .inl ⟨x, hg.modules_eq ▸ hx, hactive, (x.answersTo_iff name).2 (.inr hlinkable)⟩

/-- The graph knows a dependency of an active module unless it was left out. -/
theorem known_iff_of_mem_dependencies (hm : m ∈ r.modules) (hactive : m.isActive = true)
    (hname : name ∈ m.dependencies.all) : Known g name ↔ r.resolve name ≠ .excluded := by
  constructor
  · intro hknown hexcluded
    obtain ⟨hfirst, hlibrary, -⟩ := Resolver.resolve_eq_excluded_iff.1 hexcluded
    rcases answersTo_or_mem_of_known hg hknown with ⟨x, hx, hxactive, hanswers⟩ | hmem
    · rw [Resolver.firstActive?_eq_none_iff.1 hfirst x hx hxactive] at hanswers
      cases hanswers
    · exact hlibrary hmem
  · intro hresolve
    cases hcase : r.resolve name with
    | module k =>
      obtain ⟨⟨x, hx, hxactive, hanswers⟩, -⟩ :=
        Resolver.firstActive?_eq_some_iff.1 (Resolver.resolve_eq_module_iff.1 hcase)
      exact known_of_answersTo hg (List.mem_of_getElem? hx) hxactive hanswers
    | system =>
      obtain ⟨hfirst, hlibrary⟩ := Resolver.resolve_eq_system_iff.1 hcase
      have hplaceholder := Resolver.mem_placeholders_iff.2 ⟨hname, hfirst, hlibrary⟩
      exact .inr (.inl (hg.exists_find?_iff.2 (.inr ⟨m, hm, hactive, hplaceholder⟩)))
    | excluded => exact absurd hcase hresolve
    | missing =>
      have hresolves := Resolver.firstMissing?_eq_none_iff.1 (hg.resolves m hm hactive)
      exact absurd hcase (hresolves name hname)

end IsGraphOf

section Build

variable {libraries : List String} {strict : Bool} {modules : List Module} {b : Built}

theorem known_iff_not_onlyExcluded (h : Graph.build libraries strict modules = .ok b)
    (hm : m ∈ modules) (hactive : m.isActive = true) (hname : name ∈ m.dependencies.all) :
    Known b.graph name ↔ ¬ OnlyExcluded libraries modules name := by
  rw [known_iff_of_mem_dependencies (Graph.isGraphOf_of_build h) hm hactive hname, ne_eq,
    resolve_eq_excluded_iff_onlyExcluded]

theorem not_onlyExcluded_toolchain (h : Graph.build libraries strict modules = .ok b)
    (hname : name = b.graph.targetName b.graph.toolchain) :
    ¬ OnlyExcluded libraries modules name := by
  intro hexcluded
  obtain ⟨x, hx, hactive, htarget⟩ :=
    exists_active_of_eq_toolchain (Graph.isGraphOf_of_build h) hname
  have hnot := hexcluded.1 x hx hactive
  rw [← htarget, x.answersTo_targetName] at hnot
  cases hnot

/-- A name on the link line of an active module of a built graph is one that the graph knows unless
only an excluded module answers to it. All names on the line are known exactly if the module
declares none of the others where it would be written. -/
theorem known_linkNames_iff (h : Graph.build libraries strict modules = .ok b) (w : Workspace)
    (hm : modules[id]? = some m) (hactive : m.isActive = true) :
    (∀ name ∈ linkNames b.graph w id,
      Known b.graph name ↔ ¬ OnlyExcluded libraries modules name) ∧
    ((∀ name ∈ linkNames b.graph w id, Known b.graph name) ↔
      ∀ name ∈ written m m.dependencies, ¬ OnlyExcluded libraries modules name) := by
  have hget : b.graph.modules[id]? = some m := (Graph.isGraphOf_of_build h).modules_eq ▸ hm
  have hdeclared : ∀ name ∈ written m m.dependencies,
      (Known b.graph name ↔ ¬ OnlyExcluded libraries modules name) := by
    intro name hname
    exact known_iff_not_onlyExcluded h (List.mem_of_getElem? hm) hactive
      (mem_all_of_mem_written hname)
  constructor
  · intro name hname
    rcases (mem_linkNames_iff hget hactive).1 hname with hname | ⟨htoolchain, -⟩
    · exact hdeclared name hname
    · exact iff_of_true (.inl htoolchain) (not_onlyExcluded_toolchain h htoolchain)
  · constructor
    · intro hknown name hname
      exact (hdeclared name hname).1 (hknown name ((mem_linkNames_iff hget hactive).2 (.inl hname)))
    · intro hnone name hname
      rcases (mem_linkNames_iff hget hactive).1 hname with hname | ⟨htoolchain, -⟩
      · exact (hdeclared name hname).2 (hnone name hname)
      · exact .inl htoolchain

end Build

/-! ## A name that is left out of the graph -/

/-- A module that depends on the toolchain and on a module that is left out of the build. -/
def withheld : List Module :=
  [.plainToolchain "Toolchain" [], (Module.plain "Dxc" []).exclude,
    .plain "Renderer" ["Toolchain", "Dxc"]]

theorem exists_build_withheld : ∃ b, Graph.build [] false withheld = .ok b := by
  have hview : (Graph.build [] false withheld).toOption.map (fun b => b.graph.toolchain) =
      some 0 := by
    decide
  obtain ⟨b, hb, -⟩ := exists_ok_of_map_eq_some hview
  exact ⟨b, hb⟩

theorem onlyExcluded_withheld : OnlyExcluded [] withheld "Dxc" := by
  unfold OnlyExcluded
  decide

/-- The name of an excluded module reaches the link line although the graph does not know it. -/
theorem exists_linked_unknown_name :
    ∃ b, Graph.build [] false withheld = .ok b ∧
      ∀ w, "Dxc" ∈ linkNames b.graph w 2 ∧ ¬ Known b.graph "Dxc" := by
  obtain ⟨b, hb⟩ := exists_build_withheld
  have hget : b.graph.modules[2]? = some (.plain "Renderer" ["Toolchain", "Dxc"]) :=
    (Graph.isGraphOf_of_build hb).modules_eq ▸ rfl
  refine ⟨b, hb, fun w => ⟨(mem_linkNames_iff hget rfl).2 (.inl (by decide)), fun hknown => ?_⟩⟩
  have hmem : Module.plain "Renderer" ["Toolchain", "Dxc"] ∈ withheld := by
    decide
  exact (known_iff_not_onlyExcluded hb hmem rfl (by decide)).1 hknown onlyExcluded_withheld

theorem known_linkNames_withheld :
    ∃ b, Graph.build [] false withheld = .ok b ∧
      (Known b.graph "Toolchain" ↔ ¬ OnlyExcluded [] withheld "Toolchain") ∧
      (Known b.graph "Dxc" ↔ ¬ OnlyExcluded [] withheld "Dxc") ∧
      ¬ ∀ name ∈ linkNames b.graph default 2, Known b.graph name := by
  obtain ⟨b, hb⟩ := exists_build_withheld
  have hm : withheld[2]? = some (.plain "Renderer" ["Toolchain", "Dxc"]) := rfl
  have hget : b.graph.modules[2]? = some (.plain "Renderer" ["Toolchain", "Dxc"]) :=
    (Graph.isGraphOf_of_build hb).modules_eq ▸ hm
  obtain ⟨hline, hall⟩ := known_linkNames_iff hb default hm rfl
  refine ⟨b, hb, hline _ ?_, hline _ ?_, fun hknown => ?_⟩
  · exact (mem_linkNames_iff hget rfl).2 (.inl (by decide))
  · exact (mem_linkNames_iff hget rfl).2 (.inl (by decide))
  · exact hall.1 hknown "Dxc" (by decide) onlyExcluded_withheld

end BuildGraph.CMake
